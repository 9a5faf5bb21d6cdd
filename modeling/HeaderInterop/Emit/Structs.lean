import HeaderInterop.Code.File
import HeaderInterop.Text.Numeral
import HeaderInterop.TypeMap

/-!
The file of records: structs with the layout of the native ones, and unions with all fields at the
same place. A record defined in a field becomes a struct of its own, named after both. An array of
built-in values becomes a fixed buffer, and any other array a wrapper with one field per element. A
record with a field that has no managed type is left out as a whole, since a partial layout would
be wrong.
-/

namespace HeaderInterop

namespace CType

/-- The type with the tag `old` (no tag, if `none`) at the end of its arrays, pointers and
qualifiers replaced. -/
def retag (old : Option String) (new : String) : CType → CType
  | record kind name => if name = old then record kind (some new) else record kind name
  | qualified qualifier inner => qualified qualifier (inner.retag old new)
  | pointer pointee => pointer (pointee.retag old new)
  | array element size => array (element.retag old new) size
  | type => type

end CType

namespace Emit

open Code (Step)

/-- The field of a record that has no managed type. -/
structure Unmappable where
  field : String
deriving DecidableEq, Repr

/-- The largest number of elements that an index reaches. -/
def maxElements : Nat := 0x7fffffff

/-- Writes the elements of an array one by one, with an indexer, and a span unless the element is
a pointer. -/
def elementWrapper (field element : String) (length : Nat) : List Step :=
  let wrapper := field ++ "__FixedBuffer"
  let access :=
    if hasPointer element then
      .block ("fixed (" ++ element ++ "* pThis = &e0)") [.line "return ref pThis[index];"]
    else .line "return ref AsSpan()[index];"
  let indexer : Step := .block ("public ref " ++ element ++ " this[int index]")
    [.line "[MethodImpl(MethodImplOptions.AggressiveInlining)]", .block "get" [access]]
  let span : List Step :=
    if hasPointer element then []
    else
      [.blank, .line "[UnscopedRef]", .line "[MethodImpl(MethodImplOptions.AggressiveInlining)]",
       .block ("public Span<" ++ element ++ "> AsSpan()")
        [.line ("return MemoryMarshal.CreateSpan(ref e0, " ++ toString length ++ ");")]]
  [.line ("public " ++ wrapper ++ " " ++ identifier field ++ ";"), .blank,
   .block ("public unsafe struct " ++ wrapper)
    ((List.range length).map (fun i => .line ("public " ++ element ++ " e" ++ toString i ++ ";")) ++
      [.blank, .line "[UnscopedRef]", indexer] ++ span)]

/-- The sizes of all dimensions, unless one is missing or zero. -/
def extents? (sizes : List (Option Nat)) : Option (List Nat) :=
  (sizes.mapM id).filter fun extents => !extents.contains 0

/-- The product of two words, if a word holds it. -/
def wordProduct? (left right : Nat) : Option Nat :=
  if left * right ≤ Text.maxUInt64 then some (left * right) else none

/-- The number of elements, if an index reaches each of them. It is counted up in a word, one
dimension after the other. -/
def elementCount? (extents : List Nat) : Option Nat :=
  (extents.foldlM wordProduct? 1).filter (· ≤ maxElements)

def offsetLine (isUnion : Bool) : List Step :=
  if isUnion then [.line "[FieldOffset(0)]"] else []

/-- The declaration of a field whose type has no dimensions. -/
def scalarField (mapper : TypeMapper) (isUnion : Bool) (field : String) (type : CType) :
    Option (List Step) :=
  (mapper.map type).map fun managed =>
    let unsafeWord := if hasPointer managed then "unsafe " else ""
    offsetLine isUnion ++
      [.line ("public " ++ unsafeWord ++ managed ++ " " ++ identifier field ++ ";")]

/-- The declaration of an array of elements of the type. -/
def arrayField (mapper : TypeMapper) (isUnion : Bool) (field : String) (extents : List Nat)
    (element : CType) : Option (List Step) := do
  let managed ← mapper.map element
  let length ← elementCount? extents
  let body :=
    if isFixedBufferType managed then
      [.line ("public unsafe fixed " ++ managed ++ " " ++ identifier field ++ "[" ++
        " * ".intercalate (extents.map toString) ++ "];")]
    else elementWrapper field managed length
  return offsetLine isUnion ++ body

/-- What becomes of a field. -/
inductive FieldCode where
  /-- An array without a size takes no place in the struct. -/
  | dropped
  | written (steps : List Step)
  | unmappable
deriving Repr

/-- The declaration of a field of the given type, what it defines apart. -/
def fieldCode (mapper : TypeMapper) (isUnion : Bool) (field : String) (type : CType) : FieldCode :=
  let code := match type.dimensions with
    | ([], _) => some (scalarField mapper isUnion field type)
    | (sizes, element) =>
      (extents? sizes).map fun extents => arrayField mapper isUnion field extents element
  match code with
  | none => .dropped
  | some none => .unmappable
  | some (some steps) => .written steps

/-- The name of the struct that a field defines. -/
def nestedName (parent field : String) : String :=
  parent ++ "_" ++ field

/-- The name of a field with its record in front. -/
def qualifiedField (parent field : String) : String :=
  parent ++ "." ++ field

/-- The struct of a record around the declarations of its fields. -/
def structBlock (config : Config) (name : String) (kind : RecordKind) (body : List Step) :
    List Step :=
  (if kind = .union then [.line "[StructLayout(LayoutKind.Explicit)]"] else []) ++
    [.block (config.visibility ++ " partial struct " ++ name) body]

mutual

/-- The struct of a record, or the field that has no managed type. -/
def structSteps (config : Config) (mapper : TypeMapper) (name : String) :
    Record → Logged (Except Unmappable (List Step))
  | ⟨_, kind, _, fields⟩ =>
    let body := fieldSteps config mapper name (kind = .union) fields
    ⟨body.value.map (structBlock config name kind), body.events⟩

/-- The declarations of fields, each followed by the struct that it defines. -/
def fieldSteps (config : Config) (mapper : TypeMapper) (parent : String) (isUnion : Bool) :
    List Field → Logged (Except Unmappable (List Step))
  | [] => ⟨.ok [], []⟩
  | ⟨field, type, none⟩ :: rest =>
    match fieldCode mapper isUnion field type with
    | .unmappable => ⟨.error ⟨qualifiedField parent field⟩, []⟩
    | .dropped =>
      let others := fieldSteps config mapper parent isUnion rest
      ⟨others.value,
        ⟨.debug, "Dropping flexible array member " ++ qualifiedField parent field⟩ ::
          others.events⟩
    | .written steps =>
      let others := fieldSteps config mapper parent isUnion rest
      ⟨others.value.map (steps ++ ·), others.events⟩
  | ⟨field, type, some nested⟩ :: rest =>
    let name := nestedName parent field
    match fieldCode mapper isUnion field (type.retag nested.name name) with
    | .unmappable => ⟨.error ⟨qualifiedField parent field⟩, []⟩
    | .dropped =>
      let others := fieldSteps config mapper parent isUnion rest
      ⟨others.value,
        ⟨.debug, "Dropping flexible array member " ++ qualifiedField parent field⟩ ::
          others.events⟩
    | .written steps =>
      let inner := structSteps config mapper name nested
      match inner.value with
      | .error fault => ⟨.error fault, inner.events⟩
      | .ok definition =>
        let others := fieldSteps config mapper parent isUnion rest
        ⟨others.value.map (steps ++ .blank :: definition ++ ·), inner.events ++ others.events⟩

end

/-- The structs of the records that have one; the others are noted. -/
def allStructSteps (config : Config) (mapper : TypeMapper) :
    List (String × Record) → Logged (List Step)
  | [] => pure []
  | (name, record) :: rest => do
    match ← structSteps config mapper name record with
    | .ok steps =>
      let others ← allStructSteps config mapper rest
      return steps ++ .blank :: others
    | .error fault =>
      Logged.note .warning
        ("Skipping struct " ++ name ++ ": field " ++ fault.field ++ " has no C# type")
      allStructSteps config mapper rest

def structUsings : List String :=
  ["System.Runtime.InteropServices", "System.Runtime.CompilerServices",
   "System.Diagnostics.CodeAnalysis"]

def structs (config : Config) (mapper : TypeMapper) (records : List (String × Record)) :
    Logged GeneratedFile := do
  let steps ← allStructSteps config mapper records
  return .ofSteps "Structs.cs" config.rootNamespace structUsings
    (some "#pragma warning disable CS0649") steps

end Emit

end HeaderInterop
