import HeaderInterop.Proofs.Emit.Mentions

/-!
Elements of arrays. An array is declared with as many elements as its extents multiply to, in
whatever order these stand, if an index reaches all of them; with one element more its record is
given up as a whole. What a dropped field defines is not looked at, so an array in there may have
any number of elements.
-/

namespace HeaderInterop

namespace Code

mutual

/-- The lines in a step, at any depth. -/
def Step.lines : Step → List String
  | .line text => [text]
  | .blank => []
  | .block _ body | .fragment body _ => linesOf body

def linesOf : List Step → List String
  | [] => []
  | step :: rest => step.lines ++ linesOf rest

end

theorem linesOf_append (steps more : List Step) :
    linesOf (steps ++ more) = linesOf steps ++ linesOf more := by
  induction steps with
  | nil => rfl
  | cons step rest ih => rw [List.cons_append, linesOf, linesOf, ih, List.append_assoc]

theorem linesOf_map_line (texts : List String) : linesOf (texts.map .line) = texts := by
  induction texts with
  | nil => rfl
  | cons text rest ih =>
    rw [List.map_cons, linesOf, ih]
    rfl

end Code

namespace Emit

open Code (Step linesOf)

variable {config : Config} {mapper : TypeMapper} {parent : String} {field : Field}
  {extents : List Nat} {managed : String}

/-! Declarations -/

def elementLine (managed : String) (index : Nat) : String :=
  "public " ++ managed ++ " e" ++ toString index ++ ";"

def createsSpan (text : String) : Bool :=
  "return MemoryMarshal.".toList.isPrefixOf text.toList

/-- The line that creates a span over all elements. -/
def spanLine (count : Nat) : String :=
  "return MemoryMarshal.CreateSpan(ref e0, " ++ toString count ++ ");"

/-- A buffer with one extent or more, which multiply to the count. -/
def IsFixedBuffer (field managed : String) (count : Nat) (code : List Step) : Prop :=
  ∃ extents : List Nat, extents ≠ [] ∧ extents.prod = count ∧
    code = [.line ("public unsafe fixed " ++ managed ++ " " ++ identifier field ++ "[" ++
      " * ".intercalate (extents.map toString) ++ "];")]

/-- A struct with one field per element, in order, and with a span over that many elements unless
they are pointers. -/
def IsWrapper (field managed : String) (count : Nat) (code : List Step) : Prop :=
  ∃ body, code = [.line ("public " ++ (field ++ "__FixedBuffer") ++ " " ++ identifier field ++ ";"),
      .blank, .block ("public unsafe struct " ++ (field ++ "__FixedBuffer")) body] ∧
    body.filter isFieldLine = (List.range count).map (fun i => .line (elementLine managed i)) ∧
    (linesOf body).filter createsSpan = if hasPointer managed then [] else [spanLine count]

/-- The code declares that many elements of the managed type. -/
def DeclaresElements (field managed : String) (count : Nat) (code : List Step) : Prop :=
  if isFixedBufferType managed then IsFixedBuffer field managed count code
  else IsWrapper field managed count code

theorem isFieldLine_elementLine (managed : String) (index : Nat) :
    isFieldLine (.line (elementLine managed index)) = true := by
  simp [isFieldLine, elementLine]

theorem createsSpan_elementLine (managed : String) (index : Nat) :
    createsSpan (elementLine managed index) = false := by
  simp [createsSpan, elementLine, List.isPrefixOf]

theorem createsSpan_spanLine (count : Nat) : createsSpan (spanLine count) = true := by
  have hstart (text : String) :
      createsSpan ("return MemoryMarshal.CreateSpan(ref e0, " ++ text) = true := by
    simp [createsSpan]
  have hline : spanLine count =
      "return MemoryMarshal.CreateSpan(ref e0, " ++ (toString count ++ ");") :=
    String.append_assoc ..
  rw [hline]
  exact hstart _

/-- The fields of a wrapper are the lines that declare its elements. -/
theorem filter_isFieldLine_elements (managed : String) (count : Nat) :
    ((List.range count).map fun i => Step.line (elementLine managed i)).filter isFieldLine =
      (List.range count).map fun i => .line (elementLine managed i) := by
  refine List.filter_eq_self.mpr fun step hstep => ?_
  obtain ⟨i, _, rfl⟩ := List.mem_map.mp hstep
  exact isFieldLine_elementLine managed i

theorem filter_createsSpan_elements (managed : String) (count : Nat) :
    (linesOf ((List.range count).map fun i => Step.line (elementLine managed i))).filter
      createsSpan = [] := by
  have hlines : (List.range count).map (fun i => Step.line (elementLine managed i)) =
      ((List.range count).map (elementLine managed)).map .line := by
    rw [List.map_map]
    rfl
  rw [hlines, Code.linesOf_map_line, List.filter_eq_nil_iff]
  intro text htext
  obtain ⟨i, _, rfl⟩ := List.mem_map.mp htext
  rw [createsSpan_elementLine]
  exact Bool.false_ne_true

theorem isWrapper_elementWrapper (field managed : String) (count : Nat) :
    IsWrapper field managed count (elementWrapper field managed count) := by
  have hspan (more : List String) :
      (spanLine count :: more).filter createsSpan = spanLine count :: more.filter createsSpan :=
    List.filter_cons_of_pos (createsSpan_spanLine count)
  refine ⟨_, rfl, ?_, ?_⟩
  · rw [List.filter_append, List.filter_append]
    refine (congrArg (· ++ _ ++ _) (filter_isFieldLine_elements managed count)).trans ?_
    cases hasPointer managed <;> simp [isFieldLine]
  · rw [Code.linesOf_append, Code.linesOf_append, List.filter_append, List.filter_append]
    refine (congrArg (· ++ _ ++ _) (filter_createsSpan_elements managed count)).trans ?_
    cases hasPointer managed with
    | true => rfl
    | false => exact hspan []

/-- Behind the offset, the declaration of an array declares the product of its extents. -/
theorem exists_declaration_declaresElements (hsome : extents ≠ []) (isUnion : Bool)
    (field managed : String) :
    ∃ code, declaration isUnion field extents managed = offsetLine isUnion ++ code ∧
      DeclaresElements field managed extents.prod code := by
  refine ⟨_, rfl, ?_⟩
  rw [DeclaresElements, declarationLine, if_neg hsome]
  cases hbuffer : isFixedBufferType managed with
  | true => simpa using ⟨extents, hsome, rfl, rfl⟩
  | false =>
    have hwrapper := isWrapper_elementWrapper field managed extents.prod
    simp only [hsome, false_or, Bool.false_eq_true, if_false]
    exact hwrapper

/-! Arrays -/

/-- The field is an array with these extents, and its elements are of the managed type. -/
structure IsSizedArray (mapper : TypeMapper) (parent : String) (field : Field)
    (extents : List Nat) (managed : String) : Prop where
  sizes : field.type.dimensions.1 = extents.map some
  nonempty : extents ≠ []
  positive : 0 ∉ extents
  element : mapper.map (elementType parent field) = some managed

/-- What the field is written as declares that many elements, in a struct and in a union. -/
def IsDeclaredWith (mapper : TypeMapper) (parent : String) (field : Field) (managed : String)
    (count : Nat) : Prop :=
  ∀ isUnion, ∃ code,
    fieldCode mapper isUnion field.name (declaredType parent field) =
        .written (offsetLine isUnion ++ code) ∧
      DeclaresElements field.name managed count code

/-- The field is written with that many elements, unless an index does not reach all of them. -/
def IsCounted (mapper : TypeMapper) (parent : String) (field : Field) (managed : String)
    (count : Nat) : Prop :=
  (count ≤ maxElements → IsDeclaredWith mapper parent field managed count) ∧
    (maxElements < count → ∀ isUnion,
      fieldCode mapper isUnion field.name (declaredType parent field) = .unmappable)

namespace IsSizedArray

variable (h : IsSizedArray mapper parent field extents managed)
include h

theorem isDropped_eq_false : isDropped field = false ∧ Emit.extents field = extents := by
  have hextents := extents?_dimensions field
  rw [extents?_eq_some.mpr ⟨h.sizes, h.positive⟩] at hextents
  cases hdropped : isDropped field with
  | true =>
    rw [hdropped] at hextents
    cases hextents
  | false =>
    rw [hdropped] at hextents
    exact ⟨rfl, (Option.some.inj hextents).symm⟩

theorem fieldCode_eq (isUnion : Bool) :
    fieldCode mapper isUnion field.name (declaredType parent field) =
      if extents.prod ≤ maxElements then
        .written (declaration isUnion field.name extents managed)
      else .unmappable := by
  obtain ⟨hkept, hextents⟩ := h.isDropped_eq_false
  rw [fieldCode_declaredType, hkept, if_neg Bool.false_ne_true, declaration?, hextents, h.element]
  split <;> rfl

theorem isCounted : IsCounted mapper parent field managed extents.prod := by
  refine ⟨fun hindex isUnion => ?_, fun hlarge isUnion => ?_⟩
  · obtain ⟨code, hcode, hdeclares⟩ :=
      exists_declaration_declaresElements h.nonempty isUnion field.name managed
    rw [h.fieldCode_eq, if_pos hindex, hcode]
    exact ⟨code, rfl, hdeclares⟩
  · rw [h.fieldCode_eq, if_neg (Nat.not_le.mpr hlarge)]

end IsSizedArray

/-! Records -/

theorem exists_mem_zip_of_forall₂ {α β : Type} {R : α → β → Prop} {items : List α}
    {results : List β} (h : List.Forall₂ R items results) {item : α} (hitem : item ∈ items) :
    ∃ result, (item, result) ∈ items.zip results ∧ R item result := by
  induction h with
  | nil => cases hitem
  | cons hfirst _ ih =>
    rcases List.mem_cons.mp hitem with rfl | hitem
    · exact ⟨_, List.mem_cons_self .., hfirst⟩
    · obtain ⟨result, hresult, hrelated⟩ := ih hitem
      exact ⟨result, List.mem_cons_of_mem _ hresult, hrelated⟩

/-- Every record inside a record that is written has a struct in the code. -/
theorem exists_structIn {records : List (String × Record)} {code : List Step}
    (hcode : List.Forall₂ (IsStructSite config mapper) records (structSites config code))
    {name : String} {record inner : Record} (hrecord : (name, record) ∈ records)
    (h : RecordIn name record parent inner) :
    ∃ previous body, StructIn config records code parent inner previous body ∧
      (fieldSteps config mapper parent (inner.kind = .union) inner.fields).value = .ok body := by
  induction h generalizing records code with
  | self =>
    obtain ⟨⟨previous, _⟩, hsite, header, body, rfl, hbody, -⟩ :=
      exists_mem_zip_of_forall₂ hcode hrecord
    exact ⟨previous, body, .here hsite, hbody⟩
  | inside hinline _ ih =>
    obtain ⟨⟨before, _⟩, hsite, header, outerBody, rfl, hbody, -⟩ :=
      exists_mem_zip_of_forall₂ hcode hrecord
    obtain ⟨previous, body, hinside, hinner⟩ := ih (forall₂_structSites hbody) hinline
    exact ⟨previous, body, .inside hsite hinside, hinner⟩

/-- The declaration of a field that is not dropped stands in the body. -/
theorem exists_declaration_infix {isUnion : Bool} {fields : List Field} {body : List Step}
    (hbody : (fieldSteps config mapper parent isUnion fields).value = .ok body)
    (hfield : field ∈ fields) (h : IsSizedArray mapper parent field extents managed) :
    extents.prod ≤ maxElements ∧ declaration isUnion field.name extents managed <:+: body := by
  obtain ⟨hkept, hextents⟩ := h.isDropped_eq_false
  obtain ⟨members, hmembers, rfl⟩ := fieldSteps_eq_ok.mp hbody
  have hmem : field ∈ keptFields fields := List.mem_filter.mpr ⟨hfield, by rw [hkept]; rfl⟩
  obtain ⟨member, hmember, found, inner, hmap, hlength, _, rfl⟩ :=
    exists_mem_zip_of_forall₂ hmembers hmem
  obtain rfl : found = managed := Option.some.inj (hmap.symm.trans h.element)
  rw [hextents] at hlength hmember
  have hinfix := List.infix_of_mem_flatten (List.of_mem_zip hmember).2
  exact ⟨hlength, (List.prefix_append ..).isInfix.trans hinfix⟩

/-- An array in a record, or in a record that is defined in a field of it that is not dropped, is
written with as many elements as its extents multiply to, in whatever order, and stands in the
struct if the record is written; the record has no text if an index does not reach all of them. -/
theorem array_isCounted (config : Config) (mapper : TypeMapper) {records : List (String × Record)}
    {name parent managed : String} {record inner : Record} {field : Field} {extents : List Nat}
    (hrecord : (name, record) ∈ records) (hinner : RecordIn name record parent inner)
    (hfield : field ∈ inner.fields) (harray : IsSizedArray mapper parent field extents managed) :
    IsCounted mapper parent field managed extents.prod ∧
      (∀ other order, order.Perm extents → IsSizedArray mapper parent other order managed →
        IsCounted mapper parent other managed extents.prod) ∧
      (isStructWritten config mapper (name, record) = true →
        ∃ previous body code, StructIn config (records.filter (isStructWritten config mapper))
            (allStructSteps config mapper records).value parent inner previous body ∧
          offsetLine (inner.kind = .union) ++ code <:+: body ∧
          DeclaresElements field.name managed extents.prod code) ∧
      (maxElements < extents.prod → isStructWritten config mapper (name, record) = false ∧
        structText config mapper (name, record) = "") := by
  have hwritten (h : isStructWritten config mapper (name, record) = true) :
      ∃ previous body, StructIn config (records.filter (isStructWritten config mapper))
          (allStructSteps config mapper records).value parent inner previous body ∧
        extents.prod ≤ maxElements ∧
        declaration (inner.kind = .union) field.name extents managed <:+: body := by
    obtain ⟨previous, body, hstruct, hbody⟩ :=
      exists_structIn (forall₂_structSites_file config mapper records)
        (List.mem_filter.mpr ⟨hrecord, h⟩) hinner
    exact ⟨previous, body, hstruct, exists_declaration_infix hbody hfield harray⟩
  refine ⟨harray.isCounted, fun other order hperm hother => ?_, fun h => ?_, fun hlarge => ?_⟩
  · rw [← hperm.prod_eq]
    exact hother.isCounted
  · obtain ⟨previous, body, hstruct, _, hinfix⟩ := hwritten h
    obtain ⟨code, hcode, hdeclares⟩ :=
      exists_declaration_declaresElements harray.nonempty (inner.kind = .union) field.name managed
    rw [hcode] at hinfix
    exact ⟨previous, body, code, hstruct, hinfix, hdeclares⟩
  · have hskipped : isStructWritten config mapper (name, record) = false := by
      rw [Bool.eq_false_iff]
      intro h
      obtain ⟨_, _, _, hindex, _⟩ := hwritten h
      exact absurd hindex (Nat.not_le.mpr hlarge)
    refine ⟨hskipped, ?_⟩
    rw [structText, structCode_of_not_isStructWritten hskipped]
    rfl

/-- `struct { int *rows[2][3]; }`. -/
def sideRecord : Record :=
  ⟨none, .struct, true,
    [⟨"rows", .array (.array (.pointer (.primitive .int)) (some 3)) (some 2), none⟩]⟩

/-- `struct Board { struct { int *rows[2][3]; } side; };`. -/
def boardRecord : Record :=
  ⟨some "Board", .struct, true, [⟨"side", .record .struct none, some sideRecord⟩]⟩

def boardMapper : TypeMapper :=
  mapperOf Config.standard (collected [.record boardRecord])

/-- Two rows of three pointers are six elements. -/
theorem array_isCounted_board :
    ∃ rows ∈ sideRecord.fields, RecordIn "Board" boardRecord "Board_side" sideRecord ∧
      IsSizedArray boardMapper "Board_side" rows [2, 3] "int*" ∧
      IsCounted boardMapper "Board_side" rows "int*" 6 ∧
      ∃ previous body code, StructIn Config.standard [("Board", boardRecord)]
          (allStructSteps Config.standard boardMapper [("Board", boardRecord)]).value
          "Board_side" sideRecord previous body ∧
        code <:+: body ∧ DeclaresElements "rows" "int*" 6 code := by
  have hinner : RecordIn "Board" boardRecord "Board_side" sideRecord :=
    .inside (List.mem_singleton_self _) .self
  have harray : IsSizedArray boardMapper "Board_side"
      ⟨"rows", .array (.array (.pointer (.primitive .int)) (some 3)) (some 2), none⟩ [2, 3]
      "int*" := ⟨rfl, by decide, by decide, rfl⟩
  obtain ⟨hcounted, -, hwritten, -⟩ := array_isCounted Config.standard boardMapper
    (List.mem_singleton_self ("Board", boardRecord)) hinner (List.mem_singleton_self _) harray
  exact ⟨_, List.mem_singleton_self _, hinner, harray, hcounted, hwritten rfl⟩

/-- The field is in the record, or in a record that is defined in it, at any depth and in whatever
field, by the name of the struct that it would be in. -/
inductive FieldIn (field : Field) : String → Record → String → Prop where
  | here {name record} (h : field ∈ record.fields) : FieldIn field name record name
  | inside {name record outer nested parent} (houter : outer ∈ record.fields)
      (hnested : outer.nested = some nested)
      (h : FieldIn field (nestedName name outer.name) nested parent) :
      FieldIn field name record parent

/-- An array with more elements than an index reaches takes the record with it, wherever it is. -/
def SkipsOversized (config : Config) (mapper : TypeMapper) (name : String) (record : Record) :
    Prop :=
  ∀ parent field extents managed, FieldIn field name record parent →
    IsSizedArray mapper parent field extents managed → maxElements < extents.prod →
    isStructWritten config mapper (name, record) = false

def cellsField : Field :=
  ⟨"cells", .array (.primitive .int) (some 0x80000000), none⟩

/-- `struct Item { int cells[2147483648]; } items[];`. -/
def itemsField : Field :=
  ⟨"items", .array (.record .struct (some "Item")) none,
    some ⟨some "Item", .struct, true, [cellsField]⟩⟩

/-- `struct Top { int count; struct Item { int cells[2147483648]; } items[]; };`. -/
def topRecord : Record :=
  ⟨some "Top", .struct, true, [⟨"count", .primitive .int, none⟩, itemsField]⟩

def topCollection : Collection :=
  collected [.record topRecord]

/-- The field at the end is dropped, and the array in its elements with it. -/
theorem not_skipsOversized_top :
    topCollection.records.entries = [("Top", topRecord)] ∧
      (structSteps Config.standard (mapperOf Config.standard topCollection) "Top" topRecord).value =
        .ok [.block "public partial struct Top" [.line "public int count;"]] ∧
      ¬ SkipsOversized Config.standard (mapperOf Config.standard topCollection) "Top"
        topRecord := by
  refine ⟨rfl, rfl, fun hskips => ?_⟩
  have hfield : FieldIn cellsField "Top" topRecord "Top_items" :=
    .inside (List.mem_cons_of_mem _ (List.mem_singleton_self itemsField)) rfl
      (.here (List.mem_singleton_self _))
  have harray : IsSizedArray (mapperOf Config.standard topCollection) "Top_items" cellsField
      [0x80000000] "int" := ⟨rfl, by decide, by decide, rfl⟩
  exact absurd (hskips "Top_items" cellsField _ _ hfield harray (by decide)) (by decide +kernel)

end Emit

end HeaderInterop
