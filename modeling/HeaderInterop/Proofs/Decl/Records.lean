import HeaderInterop.Decl.OfNode
import HeaderInterop.Proofs.CType.RoundTrip
import HeaderInterop.Proofs.Except
import HeaderInterop.Proofs.Decl.Naming

/-!
Which records convert. A record is converted as a whole: a bit-field, or a field whose type cannot
be parsed, takes the record with it, however deep in the records inside it stands. A field of a
record that converts defines another record only if its type ends in one.
-/

namespace HeaderInterop

/-- A type with a typedef inside its dimensions does not end in a record. -/
theorem CType.spineEnd_of_dimensions {type : CType} {name : String}
    (h : type.dimensions.2 = .typedef name) : type.spineEnd = .typedef name := by
  induction type using dimensions.induct with
  | case1 _ inner ih => exact ih h
  | case2 element _ ih => exact ih h
  | case3 type hqualified harray =>
    cases type with
    | typedef => exact h
    | qualified qualifier inner => exact absurd rfl (hqualified qualifier inner)
    | array element size => exact absurd rfl (harray element size)
    | _ => cases h

namespace Decl

open Ast (Node NodeKind)

mutual

/-- Whether a node can be part of a record: none of the fields in it is a bit-field or has a type
that does not parse. -/
def isConvertible : Node → Bool
  | .mk kind inner =>
    match kind with
    | .record .. => allConvertible inner
    | .field _ _ text isBitField => !isBitField && (parseType text).isOk
    | _ => true

def allConvertible : List Node → Bool
  | [] => true
  | node :: rest => isConvertible node && allConvertible rest

end

/-- Whether the node is a complete record of the name. -/
def isDefinition (name : String) (node : Node) : Bool :=
  match node.kind with
  | .record _ tagName _ complete => tagName = some name && complete
  | _ => false

mutual

theorem recordOf_isOk (name tag : Option String) (complete : Bool) (node : Node) :
    (recordOf name tag complete node).value.isOk = allConvertible node.inner := by
  obtain ⟨kind, inner⟩ := node
  have hfields := fieldsOf_isOk [] 0 inner
  rw [recordOf, except_isOk_map, hfields]
  rfl

theorem fieldsOf_isOk (pending : List Record) (unnamed : Nat) (nodes : List Node) :
    (fieldsOf pending unnamed nodes).value.isOk = allConvertible nodes := by
  match nodes with
  | [] => simp [fieldsOf, allConvertible, Except.isOk, Except.toBool]
  | .mk kind inner :: rest =>
    have hrest (pending : List Record) (unnamed : Nat) := fieldsOf_isOk pending unnamed rest
    cases kind with
    | record file name tag complete =>
      have hrecord := recordOf_isOk name tag complete (.mk (.record file name tag complete) inner)
      simp only [Node.inner] at hrecord
      simp only [fieldsOf, Node.kind, allConvertible, isConvertible, ← hrecord]
      split
      next fault hfault =>
        rw [hfault]
        rfl
      next definition hdefinition =>
        rw [hdefinition]
        exact hrest _ unnamed
    | field file name text isBitField =>
      simp only [fieldsOf, Node.kind, allConvertible, isConvertible]
      cases isBitField with
      | true => rfl
      | false =>
        cases parseType text with
        | error fault => rfl
        | ok type =>
          simp only [Bool.false_eq_true, if_false, except_isOk_map, hrest]
          rfl
    | _ => simpa [fieldsOf, Node.kind, allConvertible, isConvertible] using hrest pending unnamed

end

theorem recordOf_eq_ok {name tag : Option String} {complete : Bool} {node : Node} {record : Record}
    (h : (recordOf name tag complete node).value = .ok record) :
    record.name = name ∧ record.complete = complete := by
  obtain ⟨kind, inner⟩ := node
  rw [recordOf, except_map_eq_ok] at h
  obtain ⟨fields, _, rfl⟩ := h
  exact ⟨rfl, rfl⟩

/-- A text that a type is written as is read back as the type. -/
theorem parseType_of_print {type : CType} {text : String} (hprint : type.print = text)
    (hnormal : type.isNormal = true) : parseType text = .ok type := by
  rw [parseType, ← hprint, CType.parse_print hnormal]
  rfl

/-- The declaration that a node converts to. -/
def declared? (node : Node) : Option Decl :=
  match (ofNode? node).value with
  | .ok decl => decl
  | .error _ => none

theorem declared?_eq_some {node : Node} {decl : Decl} :
    declared? node = some decl ↔ (ofNode? node).value = .ok (some decl) := by
  unfold declared?
  cases (ofNode? node).value with
  | ok found => rw [Except.ok.injEq]
  | error fault => simp

theorem ofNodes_value (nodes : List Node) : (ofNodes nodes).value = nodes.filterMap declared? := by
  induction nodes with
  | nil => rfl
  | cons node rest ih =>
    rw [List.filterMap_cons, ← ih, ofNodes, declared?]
    cases (ofNode? node).value with
    | ok found => cases found <;> rfl
    | error fault => rfl

/-- Where the declarations are split at one of them, the nodes are split at the node it is from. -/
theorem ofNodes_eq_append_cons {nodes : List Node} {before after : List Decl} {decl : Decl} :
    (ofNodes nodes).value = before ++ decl :: after ↔
      ∃ front node back, nodes = front ++ node :: back ∧ (ofNodes front).value = before ∧
        declared? node = some decl ∧ (ofNodes back).value = after := by
  simp only [ofNodes_value]
  constructor
  · intro hdecls
    obtain ⟨front, rest, rfl, rfl, hrest⟩ := List.filterMap_eq_append_iff.mp hdecls
    obtain ⟨silent, node, back, rfl, hsilent, hnode, rfl⟩ := List.filterMap_eq_cons_iff.mp hrest
    refine ⟨front ++ silent, node, back, (List.append_assoc ..).symm, ?_, hnode, rfl⟩
    rw [List.filterMap_append, List.filterMap_eq_nil_iff.mpr hsilent, List.append_nil]
  · rintro ⟨front, node, back, rfl, rfl, hnode, rfl⟩
    rw [List.filterMap_append, List.filterMap_cons_some hnode]

/-- The declarations are those that the nodes convert to. -/
theorem mem_ofNodes {nodes : List Node} {decl : Decl} :
    decl ∈ (ofNodes nodes).value ↔ ∃ node ∈ nodes, (ofNode? node).value = .ok (some decl) := by
  simp only [ofNodes_value, List.mem_filterMap, declared?_eq_some]

theorem ofNode?_eq_record {node : Node} {definition : Record} :
    (ofNode? node).value = .ok (some (.record definition)) ↔
      ∃ file name tag complete, node.kind = .record file name tag complete ∧
        (recordOf name tag complete node).value = .ok definition := by
  cases hkind : node.kind with
  | record file name tag complete =>
    constructor
    · intro h
      simp only [ofNode?, hkind, except_map_eq_ok] at h
      obtain ⟨record, hrecord, hsome⟩ := h
      cases hsome
      exact ⟨file, name, tag, complete, rfl, hrecord⟩
    · rintro ⟨_, _, _, _, hsame, hrecord⟩
      cases hsame
      simp only [ofNode?, hkind, hrecord]
      rfl
  | _ => simp [ofNode?, hkind]

/-- The nodes convert to a complete record of the name exactly when one of them is a definition of
it that can be converted. -/
theorem any_defines_ofNodes {name : String} {nodes : List Node} :
    (ofNodes nodes).value.any (defines name) = true ↔
      ∃ node ∈ nodes, isDefinition name node = true ∧ allConvertible node.inner = true := by
  rw [List.any_eq_true]
  constructor
  · rintro ⟨decl, hdecl, hdefines⟩
    obtain ⟨node, hnode, hconverts⟩ := mem_ofNodes.mp hdecl
    cases decl with
    | record definition =>
      obtain ⟨file, tagName, tag, complete, hkind, hrecord⟩ := ofNode?_eq_record.mp hconverts
      obtain ⟨hname, hcomplete⟩ := recordOf_eq_ok hrecord
      have hconvertible := recordOf_isOk tagName tag complete node
      rw [hrecord] at hconvertible
      rw [defines, hname, hcomplete] at hdefines
      refine ⟨node, hnode, ?_, hconvertible.symm⟩
      simp only [isDefinition, hkind]
      exact hdefines
    | typedef | enum | function => cases hdefines
  · rintro ⟨node, hnode, hdefinition, hconvertible⟩
    unfold isDefinition at hdefinition
    split at hdefinition
    next file tagName tag complete hkind =>
      rw [← recordOf_isOk tagName tag complete node] at hconvertible
      obtain ⟨record, hrecord⟩ := except_isOk_iff.mp hconvertible
      obtain ⟨hname, hcomplete⟩ := recordOf_eq_ok hrecord
      have hconverts := ofNode?_eq_record.mpr ⟨file, tagName, tag, complete, hkind, hrecord⟩
      refine ⟨.record record, mem_ofNodes.mpr ⟨node, hnode, hconverts⟩, ?_⟩
      rw [defines, hname, hcomplete]
      exact hdefinition
    next => cases hdefinition

/-! Records inside fields -/

theorem spineEnd_of_takeNested {pending : List Record} {type : CType} {nested : Record}
    (h : (takeNested pending type).1 = some nested) :
    ∃ kind tag, type.spineEnd = .record kind tag := by
  unfold takeNested at h
  cases hend : type.spineEnd with
  | record kind tag => exact ⟨kind, tag, rfl⟩
  | _ => simp [hend] at h

/-- A field that defines a record is of the record's type, or an array of or pointer to it. -/
theorem spineEnd_of_nested {pending : List Record} {unnamed : Nat} {nodes : List Node}
    {fields : List Field} (h : (fieldsOf pending unnamed nodes).value = .ok fields) {field : Field}
    (hfield : field ∈ fields) {nested : Record} (hnested : field.nested = some nested) :
    ∃ kind tag, field.type.spineEnd = .record kind tag := by
  induction nodes generalizing pending unnamed fields with
  | nil =>
    obtain rfl : [] = fields := by simpa [fieldsOf] using h
    cases hfield
  | cons node rest ih =>
    obtain ⟨kind, inner⟩ := node
    cases kind with
    | record file name tag complete =>
      simp only [fieldsOf, Node.kind] at h
      split at h
      next => cases h
      next => exact ih h hfield
    | field file name text isBitField =>
      simp only [fieldsOf, Node.kind] at h
      split at h
      next => cases h
      next =>
        split at h
        next => cases h
        next type htype =>
          obtain ⟨others, hothers, rfl⟩ := except_map_eq_ok.mp h
          rcases List.mem_cons.mp hfield with rfl | hrest
          · exact spineEnd_of_takeNested hnested
          · exact ih hothers hrest
    | _ => exact ih h hfield

/-- A field whose type is a typedef, in any dimensions, defines no record. -/
theorem nested_eq_none_of_typedef {pending : List Record} {unnamed : Nat} {nodes : List Node}
    {fields : List Field} (h : (fieldsOf pending unnamed nodes).value = .ok fields) {field : Field}
    (hfield : field ∈ fields) {name : String} (hend : field.type.dimensions.2 = .typedef name) :
    field.nested = none := by
  cases hnested : field.nested with
  | none => rfl
  | some nested =>
    obtain ⟨kind, tag, hrecord⟩ := spineEnd_of_nested h hfield hnested
    rw [CType.spineEnd_of_dimensions hend] at hrecord
    cases hrecord

end Decl

end HeaderInterop
