import HeaderInterop.Proofs.Emit.Attributes
import HeaderInterop.Proofs.TypeMap.Parts
import HeaderInterop.Proofs.TypeMap.Tags

/-!
Mentions of inline records. A record that is defined in a field becomes a struct with a name of its
own, which this field is declared with. Any other field, and any part of a function pointer in a
field, goes by the tag of the record, so the two agree only where the tag is mapped to the name of
the struct.
-/

namespace HeaderInterop.Emit

variable {mapper : TypeMapper}

/-- The record itself or one that is defined in it, at any depth, by the name of its struct. -/
inductive RecordIn : String → Record → String → Record → Prop where
  | self {name record} : RecordIn name record name record
  | inside {name record outer nested parent inner}
      (hinline : (outer, nested) ∈ inlineRecords name record.fields)
      (h : RecordIn outer nested parent inner) : RecordIn name record parent inner

/-- The tag of the record that is defined in the field. -/
def definedTag? (field : Field) : Option String :=
  field.nested.bind Record.name

/-- One of the structs has a field with a definition of the tag, so there is a struct for it. -/
def DefinesAs (name : String) (record : Record) (tag struct : String) : Prop :=
  ∃ parent inner field, RecordIn name record parent inner ∧ field ∈ keptFields inner.fields ∧
    definedTag? field = some tag ∧ struct = nestedName parent field.name

/-- The type of a field, or of its elements if it is an array, as the header has it. -/
def nativeElement (field : Field) : CType :=
  if field.type.dimensions.1 = [] then field.type else field.type.dimensions.2

/-- A field of the struct `parent` is of the record with the tag, or leads to it through arrays,
pointers, qualifiers and typedefs, and does not define it. -/
structure Mentions (mapper : TypeMapper) (name : String) (record : Record) (tag parent : String)
    (field : Field) (levels : Nat) : Prop where
  isField : ∃ inner, RecordIn name record parent inner ∧ field ∈ keptFields inner.fields
  leads : mapper.LeadsToRecord tag false levels (nativeElement field)
  notDefined : definedTag? field ≠ some tag

/-- In the type of a field of the struct `parent`, one that defines a record or not, a parameter or
return type of a function pointer leads to the record with the tag. -/
structure MentionsInPart (mapper : TypeMapper) (name : String) (record : Record)
    (tag parent : String) (field : Field) (part : CType) (levels : Nat) : Prop where
  isField : ∃ inner, RecordIn name record parent inner ∧ field ∈ keptFields inner.fields
  writes : mapper.Writes (nativeElement field) part
  leads : mapper.LeadsToRecord tag false levels part

/-- Wherever the record with the tag is mentioned, the managed name is that of the struct. -/
structure GoesBy (mapper : TypeMapper) (name : String) (record : Record) (tag struct : String) :
    Prop where
  fields {parent : String} {field : Field} {levels : Nat}
    (h : Mentions mapper name record tag parent field levels) :
    mapper.map (elementType parent field) = some (struct ++ TypeMapper.stars levels)
  parts {parent : String} {field : Field} {part : CType} {levels : Nat}
    (h : MentionsInPart mapper name record tag parent field part levels) :
    mapper.partText? part = some (struct ++ TypeMapper.stars levels)

/-- Wherever an inline record is mentioned, the managed name is that of its struct. -/
def MentionsAgree (config : Config) (mapper : TypeMapper) (name : String) (record : Record) :
    Prop :=
  isStructWritten config mapper (name, record) = true →
    ∀ tag struct, DefinesAs name record tag struct → GoesBy mapper name record tag struct

/-- The tag is mapped to the name of the struct wherever the record is mentioned, and an integer that
stands for a part of a function pointer happens to be the name with the stars of that part. -/
structure IsMappedTo (mapper : TypeMapper) (name : String) (record : Record)
    (tag struct : String) : Prop where
  fields {parent : String} {field : Field} {levels : Nat}
    (h : Mentions mapper name record tag parent field levels) : mapper.cleanName tag = struct
  parts {parent : String} {field : Field} {part : CType} {levels : Nat}
    (h : MentionsInPart mapper name record tag parent field part levels) :
    match mapper.truthValue? part with
    | some integer => integer = struct ++ TypeMapper.stars levels
    | none => mapper.cleanName tag = struct

/-- Two fields of the struct `parent` have the same native type, which one of them defines. -/
def SharesType (name : String) (record : Record) (tag parent : String) (field other : Field) :
    Prop :=
  ∃ inner, RecordIn name record parent inner ∧ field ∈ keptFields inner.fields ∧
    other ∈ keptFields inner.fields ∧ other.type = field.type ∧ field.type.EndsInRecord tag ∧
    definedTag? field = some tag ∧ definedTag? other ≠ some tag

/-- Fields of the same native type have the same managed type, if one of them defines it. -/
def SharedTypesAgree (config : Config) (mapper : TypeMapper) (name : String) (record : Record) :
    Prop :=
  isStructWritten config mapper (name, record) = true →
    ∀ tag parent field other, SharesType name record tag parent field other →
      mapper.map (elementType parent field) = mapper.map (elementType parent other)

section Fields

variable {tag parent : String} {field other : Field}

theorem declaredType_of_ne (h : field.type.EndsInRecord tag)
    (hother : definedTag? field ≠ some tag) : declaredType parent field = field.type := by
  obtain ⟨field, type, nested⟩ := field
  cases nested with
  | none => rfl
  | some nested => exact h.retag_of_ne hother _

theorem declaredType_of_eq (hdefines : definedTag? field = some tag) :
    declaredType parent field = field.type.retag (some tag) (nestedName parent field.name) := by
  obtain ⟨field, type, nested⟩ := field
  cases nested with
  | none => cases hdefines
  | some nested =>
    change type.retag nested.name _ = type.retag (some tag) _
    rw [show nested.name = some tag from hdefines]

theorem elementType_of_retag_eq
    (h : ∀ nested, field.nested = some nested →
      (nativeElement field).retag nested.name (nestedName parent field.name) =
        nativeElement field) :
    elementType parent field = nativeElement field := by
  obtain ⟨field, type, nested⟩ := field
  cases nested with
  | none => rfl
  | some nested =>
    have hretag := h nested rfl
    unfold nativeElement at hretag
    unfold elementType nativeElement
    split
    next hscalar => rwa [if_pos hscalar] at hretag
    next harray =>
      rw [if_neg harray] at hretag
      exact (congrArg Prod.snd (CType.dimensions_retag ..)).trans hretag

/-- A record with another tag is not replaced. -/
theorem retag_of_leadsToRecord {pointer : Bool} {levels : Nat} {type : CType}
    (h : mapper.LeadsToRecord tag pointer levels type) {old : Option String} (hold : old ≠ some tag)
    (new : String) : type.retag old new = type := by
  induction h with
  | record => rw [CType.retag, if_neg hold.symm]
  | qualified _ ih | array _ ih | pointer _ ih => rw [CType.retag, ih]
  | typedef => rfl

theorem retag_of_isCallback {ret type : CType} {params : List CType} {variadic : Bool}
    (h : TypeMapper.IsCallback mapper ret params variadic type) (old : Option String)
    (new : String) : type.retag old new = type := by
  induction h with
  | function | typedef => rfl
  | qualified _ ih => rw [CType.retag, ih]

/-- A type with a function pointer at its end has no record there. -/
theorem retag_of_writes {type part : CType} (h : mapper.Writes type part) (old : Option String)
    (new : String) : type.retag old new = type := by
  induction h with
  | qualified _ ih | array _ ih | pointer _ _ ih => rw [CType.retag, ih]
  | typedef => rfl
  | part hcallback | inside hcallback => rw [CType.retag, retag_of_isCallback hcallback]

theorem Mentions.elementType_eq {name : String} {record : Record} {levels : Nat}
    (h : Mentions mapper name record tag parent field levels) :
    elementType parent field = nativeElement field := by
  refine elementType_of_retag_eq fun nested hnested => retag_of_leadsToRecord h.leads ?_ _
  have hother := h.notDefined
  rwa [definedTag?, hnested] at hother

theorem MentionsInPart.elementType_eq {name : String} {record : Record} {part : CType}
    {levels : Nat} (h : MentionsInPart mapper name record tag parent field part levels) :
    elementType parent field = nativeElement field :=
  elementType_of_retag_eq fun _ _ => retag_of_writes h.writes _ _

/-- What a mention in a function pointer is written as stands in the managed type of the field. -/
theorem MentionsInPart.isInfix (hacyclic : mapper.registry.Acyclic) {name : String}
    {record : Record} {part : CType} {levels : Nat}
    (h : MentionsInPart mapper name record tag parent field part levels) {managed : String}
    (hmap : mapper.map (elementType parent field) = some managed) :
    ∃ text, mapper.partText? part = some text ∧ text.toList <:+: managed.toList := by
  rw [h.elementType_eq] at hmap
  exact h.writes.isInfix hacyclic hmap

theorem endsInRecord_elementType (h : (declaredType parent field).EndsInRecord tag) :
    (elementType parent field).EndsInRecord tag := by
  unfold elementType
  split
  · exact h
  · exact h.dimensions

/-- A field that does not define the record goes by its tag. -/
theorem map_elementType_of_ne (h : field.type.EndsInRecord tag)
    (hother : definedTag? field ≠ some tag) :
    mapper.map (elementType parent field) =
      some ((elementType parent field).spelled (mapper.cleanName tag) false) := by
  refine TypeMapper.map_of_endsInRecord (endsInRecord_elementType ?_)
  rw [declaredType_of_ne h hother]
  exact h

/-- A field that defines the record goes by the name of the struct. -/
theorem map_elementType_of_eq (h : field.type.EndsInRecord tag)
    (hdefines : definedTag? field = some tag) :
    mapper.map (elementType parent field) =
      some ((elementType parent field).spelled
        (mapper.cleanName (nestedName parent field.name)) false) := by
  refine TypeMapper.map_of_endsInRecord (endsInRecord_elementType ?_)
  rw [declaredType_of_eq hdefines]
  exact h.retag _

/-- Except for their names, fields of the same native type are declared with the same type. -/
theorem spelled_elementType (htype : other.type = field.type) (h : field.type.EndsInRecord tag)
    (hdefines : definedTag? field = some tag) (hother : definedTag? other ≠ some tag)
    (name : String) :
    (elementType parent field).spelled name false =
      (elementType parent other).spelled name false := by
  unfold elementType
  rw [declaredType_of_eq hdefines, declaredType_of_ne (htype ▸ h) hother, htype,
    CType.dimensions_retag]
  split
  · exact CType.spelled_retag ..
  · exact CType.spelled_retag ..

end Fields

section Record

variable {name tag parent : String} {record : Record} {field other : Field}

/-- Mentions go by the name of the struct exactly if the tag is mapped to it. -/
theorem goesBy_iff (hacyclic : mapper.registry.Acyclic) (struct : String) :
    GoesBy mapper name record tag struct ↔ IsMappedTo mapper name record tag struct := by
  constructor
  · refine fun hagree => ⟨fun h => ?_, fun h => ?_⟩
    · have hmap := hagree.fields h
      rw [h.elementType_eq] at hmap
      exact (h.leads.map_eq_iff hacyclic struct).mp hmap
    · exact (h.leads.partText?_eq_iff hacyclic struct).mp (hagree.parts h)
  · refine fun hmapped => ⟨fun h => ?_, fun h => ?_⟩
    · rw [h.elementType_eq]
      exact (h.leads.map_eq_iff hacyclic struct).mpr (hmapped.fields h)
    · exact (h.leads.partText?_eq_iff hacyclic struct).mpr (hmapped.parts h)

/-- Fields of the same native type, which one of them defines, have the same managed type exactly
if the tag and the name of the struct are mapped alike. -/
theorem map_eq_map_iff (hshares : SharesType name record tag parent field other) :
    mapper.map (elementType parent field) = mapper.map (elementType parent other) ↔
      mapper.cleanName (nestedName parent field.name) = mapper.cleanName tag := by
  obtain ⟨inner, _, _, _, htype, hrecord, hdefines, hother⟩ := hshares
  rw [map_elementType_of_eq hrecord hdefines, map_elementType_of_ne (htype ▸ hrecord) hother,
    Option.some_inj, spelled_elementType htype hrecord hdefines hother, CType.spelled_inj]

end Record

/-- Without cycles of typedefs, the mentions of inline records agree with the names of their structs
exactly if each mentioned tag is mapped to the name of its struct, and fields of the same native type
agree exactly if the two are mapped alike. -/
theorem mentionsAgree_iff (config : Config) (mapper : TypeMapper)
    (hacyclic : mapper.registry.Acyclic) (name : String) (record : Record) :
    (MentionsAgree config mapper name record ↔
      (isStructWritten config mapper (name, record) = true →
        ∀ tag struct, DefinesAs name record tag struct →
          IsMappedTo mapper name record tag struct)) ∧
      (SharedTypesAgree config mapper name record ↔
        (isStructWritten config mapper (name, record) = true →
          ∀ tag parent field other, SharesType name record tag parent field other →
            mapper.cleanName (nestedName parent field.name) = mapper.cleanName tag)) := by
  refine ⟨?_, ⟨?_, ?_⟩⟩
  · unfold MentionsAgree
    simp only [goesBy_iff hacyclic]
  · intro hagree hwritten tag parent field other hshares
    exact (map_eq_map_iff hshares).mp (hagree hwritten tag parent field other hshares)
  · intro hmapped hwritten tag parent field other hshares
    exact (map_eq_map_iff hshares).mpr (hmapped hwritten tag parent field other hshares)

/-- `struct I { int x; }`. -/
def innerRecord : Record :=
  ⟨some "I", .struct, true, [⟨"x", .primitive .int, none⟩]⟩

/-- `struct I { int x; } a;`. -/
def innerField : Field :=
  ⟨"a", .record .struct (some "I"), some innerRecord⟩

/-- `void (*visit)(struct I *);`. -/
def visitField : Field :=
  ⟨"visit", .pointer (.function (.primitive .void) [.pointer (.record .struct (some "I"))] false),
    none⟩

/-- `Alias b;`, with `typedef struct I Alias;`. -/
def aliasField : Field :=
  ⟨"b", CType.typedef "Alias", none⟩

/-- `struct Outer { struct I { int x; } a; Alias b; void (*visit)(struct I *); };`. -/
def aliasRecord : Record :=
  ⟨some "Outer", .struct, true, [innerField, aliasField, visitField]⟩

/-- The settings map the tag to the name of the struct. -/
def aliasMapper : TypeMapper where
  settings :=
    { Config.standard.types with
      mappings := [{ native := "I", managed := "Outer_a" }], boolLike := [] }
  registry := { typedefs := [("Alias", .record .struct (some "I"))] }

theorem definesAs_aliasRecord {tag struct : String}
    (h : DefinesAs "Outer" aliasRecord tag struct) : tag = "I" ∧ struct = "Outer_a" := by
  obtain ⟨parent, inner, field, hrecord, hfield, htag, rfl⟩ := h
  cases hrecord with
  | self =>
    have hfields : keptFields aliasRecord.fields = [innerField, aliasField, visitField] := rfl
    rw [hfields] at hfield
    rcases List.mem_cons.mp hfield with rfl | hfield
    · exact ⟨(Option.some.inj htag).symm, rfl⟩
    rcases List.mem_cons.mp hfield with rfl | hfield
    · cases htag
    · rw [List.mem_singleton.mp hfield] at htag
      cases htag
  | inside hinline h =>
    have hinlines : inlineRecords "Outer" aliasRecord.fields = [("Outer_a", innerRecord)] := rfl
    rw [hinlines] at hinline
    obtain ⟨rfl, rfl⟩ := Prod.mk.inj (List.mem_singleton.mp hinline)
    cases h with
    | self =>
      rw [List.mem_singleton.mp hfield] at htag
      cases htag
    | inside hnone => cases hnone

theorem mentionsAgree_iff_alias :
    aliasMapper.registry.Acyclic ∧
      isStructWritten Config.standard aliasMapper ("Outer", aliasRecord) = true ∧
      Mentions aliasMapper "Outer" aliasRecord "I" "Outer" aliasField 0 ∧
      MentionsInPart aliasMapper "Outer" aliasRecord "I" "Outer" visitField
        (.pointer (.record .struct (some "I"))) 1 ∧
      MentionsAgree Config.standard aliasMapper "Outer" aliasRecord := by
  have hacyclic : aliasMapper.registry.Acyclic :=
    Registry.acyclic_of_pairwise (by decide) (by decide)
  have hclean : aliasMapper.cleanName "I" = "Outer_a" := by decide +kernel
  have htruth (part : CType) : aliasMapper.truthValue? part = none := by
    have hboolLike : aliasMapper.boolLikePart? part = none := by
      unfold TypeMapper.boolLikePart?
      split <;> rfl
    rw [TypeMapper.truthValue?, hboolLike]
    cases aliasMapper.map part <;> rfl
  have hname : aliasMapper.typedefName? "Alias" = none := by decide +kernel
  have halias : Mentions aliasMapper "Outer" aliasRecord "I" "Outer" aliasField 0 :=
    ⟨⟨aliasRecord, .self, List.mem_cons_of_mem _ List.mem_cons_self⟩, .typedef hname rfl .record,
      by decide⟩
  have hparts : ∀ other ∈ [.pointer (.record .struct (some "I"))] ++ [.primitive .void],
      (aliasMapper.partText? other).isSome := by decide +kernel
  have hvisit : MentionsInPart aliasMapper "Outer" aliasRecord "I" "Outer" visitField
      (.pointer (.record .struct (some "I"))) 1 :=
    ⟨⟨aliasRecord, .self, List.mem_cons_of_mem _ (List.mem_cons_of_mem _ List.mem_cons_self)⟩,
      .part .function hparts List.mem_cons_self, .pointer .record⟩
  refine ⟨hacyclic, by decide +kernel, halias, hvisit,
    (mentionsAgree_iff Config.standard aliasMapper hacyclic "Outer" aliasRecord).1.mpr ?_⟩
  intro _ tag struct hdefines
  obtain ⟨rfl, rfl⟩ := definesAs_aliasRecord hdefines
  refine ⟨fun _ => hclean, fun {_ _ part _} _ => ?_⟩
  rw [htruth part]
  exact hclean

/-- `struct I b;`. -/
def secondField : Field :=
  ⟨"b", .record .struct (some "I"), none⟩

/-- `struct Outer { struct I { int x; } a; struct I b; };`. -/
def outerRecord : Record :=
  ⟨some "Outer", .struct, true, [innerField, secondField]⟩

def outerCollection : Collection :=
  collected [.record outerRecord]

def outerMapper : TypeMapper :=
  mapperOf Config.standard outerCollection

/-- The second field is declared with the tag, for which there is no struct. -/
theorem not_mentionsAgree_outer :
    outerCollection.records.entries = [("Outer", outerRecord)] ∧
      (structSteps Config.standard outerMapper "Outer" outerRecord).value =
        .ok [.block "public partial struct Outer"
          [.line "public Outer_a a;", .blank,
            .block "public partial struct Outer_a" [.line "public int x;"],
            .line "public I b;"]] ∧
      ¬ MentionsAgree Config.standard outerMapper "Outer" outerRecord ∧
      ¬ SharedTypesAgree Config.standard outerMapper "Outer" outerRecord := by
  have hinner : innerField ∈ keptFields outerRecord.fields := List.mem_cons_self ..
  have hsecond : secondField ∈ keptFields outerRecord.fields :=
    List.mem_cons_of_mem _ (List.mem_singleton_self _)
  have hmapInner : outerMapper.map (elementType "Outer" innerField) = some "Outer_a" := rfl
  have hmapSecond : outerMapper.map (elementType "Outer" secondField) = some "I" := rfl
  refine ⟨rfl, rfl, fun hagree => ?_, fun hagree => ?_⟩
  · have hdefines : DefinesAs "Outer" outerRecord "I" "Outer_a" :=
      ⟨"Outer", outerRecord, innerField, .self, hinner, rfl, rfl⟩
    have hmentions : Mentions outerMapper "Outer" outerRecord "I" "Outer" secondField 0 :=
      ⟨⟨outerRecord, .self, hsecond⟩, .record, nofun⟩
    have hmap := (hagree rfl "I" "Outer_a" hdefines).fields hmentions
    rw [hmapSecond, TypeMapper.append_stars_zero] at hmap
    exact absurd hmap (by decide)
  · have hshares : SharesType "Outer" outerRecord "I" "Outer" innerField secondField :=
      ⟨outerRecord, .self, hinner, hsecond, rfl, .record, rfl, nofun⟩
    have hmap := hagree rfl "I" "Outer" innerField secondField hshares
    rw [hmapInner, hmapSecond] at hmap
    exact absurd hmap (by decide)

/-- `struct Outer { struct I { int x; } a; void (*visit)(struct I *); };`. -/
def visitedRecord : Record :=
  ⟨some "Outer", .struct, true, [innerField, visitField]⟩

/-- Nor is the name of the struct written in a function pointer. -/
theorem not_mentionsAgree_visited :
    (structSteps Config.standard outerMapper "Outer" visitedRecord).value =
        .ok [.block "public partial struct Outer"
          [.line "public Outer_a a;", .blank,
            .block "public partial struct Outer_a" [.line "public int x;"],
            .line "public unsafe delegate* unmanaged<I*, void> visit;"]] ∧
      ¬ MentionsAgree Config.standard outerMapper "Outer" visitedRecord := by
  have hvisit : visitField ∈ keptFields visitedRecord.fields :=
    List.mem_cons_of_mem _ (List.mem_singleton_self _)
  have hdefines : DefinesAs "Outer" visitedRecord "I" "Outer_a" :=
    ⟨"Outer", visitedRecord, innerField, .self, List.mem_cons_self .., rfl, rfl⟩
  have hparts : ∀ other ∈ [.pointer (.record .struct (some "I"))] ++ [.primitive .void],
      (outerMapper.partText? other).isSome := by decide +kernel
  have hmentions : MentionsInPart outerMapper "Outer" visitedRecord "I" "Outer" visitField
      (.pointer (.record .struct (some "I"))) 1 :=
    ⟨⟨visitedRecord, .self, hvisit⟩, .part .function hparts List.mem_cons_self, .pointer .record⟩
  refine ⟨rfl, fun hagree => ?_⟩
  have htext := (hagree rfl "I" "Outer_a" hdefines).parts hmentions
  exact absurd htext (by decide +kernel)

end HeaderInterop.Emit
