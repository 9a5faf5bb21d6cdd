import HeaderInterop.Emit.Structs

/-!
Layers of types. A type is made of the qualifiers, pointers and arrays in front and of what stands
at their end. Another tag for the record at the end leaves the layers as they are.
-/

namespace HeaderInterop

inductive Layer where
  | qualified (qualifier : Qualifier)
  | pointer
  | array (size : Option Nat)
deriving DecidableEq, Repr

namespace CType

/-- The layers in front of the end, outermost first. -/
def layers : CType → List Layer
  | qualified qualifier inner => .qualified qualifier :: inner.layers
  | pointer pointee => .pointer :: pointee.layers
  | array element size => .array size :: element.layers
  | _ => []

/-- The type inside the layers. -/
def ofLayers : List Layer → CType → CType
  | [], last => last
  | .qualified qualifier :: rest, last => qualified qualifier (ofLayers rest last)
  | .pointer :: rest, last => pointer (ofLayers rest last)
  | .array size :: rest, last => array (ofLayers rest last) size

theorem ofLayers_layers (type : CType) : ofLayers type.layers type.spineEnd = type := by
  induction type using spineEnd.induct with
  | case1 qualifier inner ih => exact congrArg (qualified qualifier) ih
  | case2 pointee ih => exact congrArg pointer ih
  | case3 element size ih => exact congrArg (array · size) ih
  | case4 type hqualified hpointer harray =>
    cases type with
    | qualified qualifier inner => exact absurd rfl (hqualified qualifier inner)
    | pointer pointee => exact absurd rfl (hpointer pointee)
    | array element size => exact absurd rfl (harray element size)
    | _ => rfl

theorem retag_ofLayers (old : Option String) (new : String) (layers : List Layer) (last : CType) :
    (ofLayers layers last).retag old new = ofLayers layers (last.retag old new) := by
  induction layers with
  | nil => rfl
  | cons layer rest ih =>
    cases layer with
    | qualified qualifier => exact congrArg (qualified qualifier) ih
    | pointer => exact congrArg pointer ih
    | array size => exact congrArg (array · size) ih

/-- The record at the end gets the tag, and everything else is kept. -/
theorem retag_eq_ofLayers {type : CType} {kind : RecordKind} {tag : Option String}
    (h : type.spineEnd = .record kind tag) (new : String) :
    type.retag tag new = ofLayers type.layers (.record kind (some new)) := by
  have hlast : (record kind tag).retag tag new = record kind (some new) := if_pos rfl
  have htype := ofLayers_layers type
  rw [h] at htype
  calc type.retag tag new = (ofLayers type.layers (record kind tag)).retag tag new := by rw [htype]
    _ = ofLayers type.layers (record kind (some new)) := by rw [retag_ofLayers, hlast]

end CType

end HeaderInterop
