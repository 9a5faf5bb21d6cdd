import HeaderInterop.Proofs.Emit.Skipping
import HeaderInterop.Proofs.Emit.Traces

/-!
Attributes of structs and fields. A union has the layout attribute in front of its struct and an
offset in front of the line of each field, whatever is written behind that line. Neither stands
anywhere else: a struct inside a union, a union inside a struct and the elements of an array have
what their own kind asks for.
-/

namespace HeaderInterop

namespace Code

/-- Each step with the one in front of it, which for the first is the given one, if any. -/
def sitesFrom (previous : Option Step) : List Step → List (Option Step × Step)
  | [] => []
  | step :: rest => (previous, step) :: sitesFrom (some step) rest

/-- Each step with the one in front of it in the same block. -/
def sites (steps : List Step) : List (Option Step × Step) :=
  sitesFrom none steps

theorem sitesFrom_append (previous : Option Step) (steps more : List Step) :
    sitesFrom previous (steps ++ more) =
      sitesFrom previous steps ++ sitesFrom (steps.getLast?.or previous) more := by
  induction steps generalizing previous with
  | nil => rfl
  | cons step rest ih =>
    rw [List.cons_append, sitesFrom, sitesFrom, ih, List.cons_append, List.getLast?_cons]
    cases rest.getLast? <;> rfl

theorem mem_of_mem_sitesFrom {previous : Option Step} {steps : List Step}
    {site : Option Step × Step} (h : site ∈ sitesFrom previous steps) : site.2 ∈ steps := by
  induction steps generalizing previous with
  | nil => cases h
  | cons step rest ih =>
    rcases List.mem_cons.mp h with rfl | hrest
    · exact List.mem_cons_self ..
    · exact List.mem_cons_of_mem _ (ih hrest)

end Code

namespace Emit

open Code (Step sites sitesFrom)

variable {config : Config} {mapper : TypeMapper}

def offsetAttribute : Step :=
  .line "[FieldOffset(0)]"

def layoutAttribute : Step :=
  .line "[StructLayout(LayoutKind.Explicit)]"

/-- The step is a line that declares a field. -/
def isFieldLine : Step → Bool
  | .line text => "public ".toList.isPrefixOf text.toList
  | _ => false

/-- The step is the block of a record's struct. -/
def isStructBlock (config : Config) : Step → Bool
  | .block header _ => (config.visibility ++ " partial struct ").toList.isPrefixOf header.toList
  | _ => false

/-- The declarations of fields in a block, each with what is in front of it. -/
def fieldSites (body : List Step) : List (Option Step × Step) :=
  (sites body).filter fun site => isFieldLine site.2

/-- The structs of records in a block, each with what is in front of it. -/
def structSites (config : Config) (code : List Step) : List (Option Step × Step) :=
  (sites code).filter fun site => isStructBlock config site.2

theorem mem_of_mem_structSites {code : List Step} {site : Option Step × Step}
    (h : site ∈ structSites config code) : site.2 ∈ code :=
  Code.mem_of_mem_sitesFrom (List.mem_filter.mp h).1

theorem mem_of_mem_fieldSites {code : List Step} {site : Option Step × Step}
    (h : site ∈ fieldSites code) : site.2 ∈ code :=
  Code.mem_of_mem_sitesFrom (List.mem_filter.mp h).1

/-- The records that are defined in the fields of a record, by the names of their structs. -/
def inlineRecords (parent : String) (fields : List Field) : List (String × Record) :=
  (keptFields fields).flatMap fun field =>
    field.nested.toList.map fun nested => (nestedName parent field.name, nested)

/-- The struct of a record is in the code at some depth: what is in front of its block, and what is
inside. The structs in the code are those of the given records, in order, and the structs in a
struct those of its inline records. -/
inductive StructIn (config : Config) : List (String × Record) → List Step → String → Record →
    Option Step → List Step → Prop where
  | here {records code name record previous header body}
      (h : ((name, record), (previous, Step.block header body)) ∈
        records.zip (structSites config code)) :
      StructIn config records code name record previous body
  | inside {records code outer outerRecord before header outerBody name record previous body}
      (h : ((outer, outerRecord), (before, Step.block header outerBody)) ∈
        records.zip (structSites config code))
      (hinner : StructIn config (inlineRecords outer outerRecord.fields) outerBody name record
        previous body) :
      StructIn config records code name record previous body

/-- The line declares the field, and has an offset in front exactly in a union. -/
def IsPlaced (mapper : TypeMapper) (parent : String) (kind : RecordKind) (field : Field)
    (site : Option Step × Step) : Prop :=
  ∃ managed, mapper.map (elementType parent field) = some managed ∧
    site.2 = .line (declarationLine field.name (extents field) managed) ∧
    (site.1 = some offsetAttribute ↔ kind = .union)

/-- A struct and the lines in it have the attributes that the kind of its own record asks for. -/
structure IsAttributed (config : Config) (mapper : TypeMapper) (name : String) (record : Record)
    (previous : Option Step) (body : List Step) : Prop where
  layout : previous = some layoutAttribute ↔ record.kind = .union
  /-- The lines that declare fields are those of the fields that are not dropped, in order. -/
  fields : List.Forall₂ (IsPlaced mapper name record.kind) (keptFields record.fields)
    (fieldSites body)
  /-- No inline record is without a struct. -/
  structs : (structSites config body).length = (inlineRecords name record.fields).length
  /-- A block that is no struct of a record holds the elements of an array. -/
  elements {header inside} (h : Step.block header inside ∈ body)
    (hwrapper : isStructBlock config (.block header inside) = false) : offsetAttribute ∉ inside

/-! Lines and blocks -/

/-- What is in front is no attribute. -/
def IsPlain (previous : Option Step) : Prop :=
  previous ≠ some offsetAttribute ∧ previous ≠ some layoutAttribute

theorem isFieldLine_declarationLine (field : String) (extents : List Nat) (managed : String) :
    isFieldLine (.line (declarationLine field extents managed)) = true := by
  unfold declarationLine
  split
  · simp [isFieldLine]
  · split <;> simp [isFieldLine]

theorem isPlain_of_isFieldLine {step : Step} (h : isFieldLine step = true) :
    IsPlain (some step) := by
  constructor <;> rintro ⟨⟩ <;> cases h

theorem isPlain_block (header : String) (body : List Step) : IsPlain (some (.block header body)) :=
  ⟨nofun, nofun⟩

theorem isPlain_none : IsPlain none :=
  ⟨nofun, nofun⟩

theorem isPlain_blank : IsPlain (some .blank) :=
  ⟨nofun, nofun⟩

theorem isStructBlock_structBlock (config : Config) (name : String) (body : List Step) :
    isStructBlock config (.block (config.visibility ++ " partial struct " ++ name) body) =
      true := by
  simp [isStructBlock]

theorem isStructBlock_elements (wrapper : String) (body : List Step) :
    isStructBlock config (.block ("public unsafe struct " ++ wrapper) body) = false := by
  unfold isStructBlock Config.visibility
  cases config.publicVisibility <;> simp [List.isPrefixOf]

/-! Members -/

section Sites

variable {α β : Type} {R : β → Option Step × Step → Prop} {isListed : Step → Bool}

/-- What of the code is listed is related to the entries, whatever plain step is in front of it, and
the code ends in a plain step if there is one in front of it. -/
def ListsSites (R : β → Option Step × Step → Prop) (isListed : Step → Bool) (entries : List β)
    (code : List Step) : Prop :=
  ∀ previous, IsPlain previous →
    List.Forall₂ R entries ((sitesFrom previous code).filter fun site => isListed site.2) ∧
      IsPlain (code.getLast?.or previous)

theorem ListsSites.append {entries others : List β} {code more : List Step}
    (h : ListsSites R isListed entries code) (hmore : ListsSites R isListed others more) :
    ListsSites R isListed (entries ++ others) (code ++ more) := by
  intro previous hplain
  obtain ⟨hsites, hlast⟩ := h previous hplain
  obtain ⟨hothers, hend⟩ := hmore _ hlast
  rw [Code.sitesFrom_append, List.filter_append, List.getLast?_append, Option.or_assoc]
  exact ⟨List.rel_append hsites hothers, hend⟩

theorem listsSites_nil : ListsSites R isListed [] [] :=
  fun _ hplain => ⟨.nil, hplain⟩

theorem listsSites_of_unlisted {code : List Step} (hcode : ∀ step ∈ code, isListed step = false)
    (hlast : ∀ step ∈ code.getLast?, IsPlain (some step)) : ListsSites R isListed [] code := by
  intro previous hplain
  have hnone : (sitesFrom previous code).filter (fun site => isListed site.2) = [] := by
    rw [List.filter_eq_nil_iff]
    intro site hsite
    simp [hcode site.2 (Code.mem_of_mem_sitesFrom hsite)]
  rw [hnone]
  refine ⟨.nil, ?_⟩
  cases hend : code.getLast? with
  | none => exact hplain
  | some step => exact hlast step hend

theorem ListsSites.flatten {items : List α} {codes : List (List Step)} (entries : α → List β)
    (h : List.Forall₂ (fun item code => ListsSites R isListed (entries item) code) items codes) :
    ListsSites R isListed (items.flatMap entries) codes.flatten := by
  induction h with
  | nil => exact listsSites_nil
  | cons hfirst _ ih => exact hfirst.append ih

end Sites

/-- The struct of the record is written, and has the layout attribute in front exactly if it is a
union. -/
def IsStructSite (config : Config) (mapper : TypeMapper) (entry : String × Record)
    (site : Option Step × Step) : Prop :=
  ∃ header body, site.2 = .block header body ∧
    (fieldSteps config mapper entry.1 (entry.2.kind = .union) entry.2.fields).value = .ok body ∧
    (site.1 = some layoutAttribute ↔ entry.2.kind = .union)

/-- The step is blank, or the struct of the elements of an array. -/
def IsElementStep (config : Config) (step : Step) : Prop :=
  step = .blank ∨ ∃ header inside, step = .block header inside ∧
    isStructBlock config step = false ∧ offsetAttribute ∉ inside

theorem ne_offsetAttribute_of_isFieldLine {step : Step} (h : isFieldLine step = true) :
    offsetAttribute ≠ step := by
  rintro rfl
  cases h

theorem isElementStep_of_mem {field element : String} {length : Nat} {step : Step}
    (h : step ∈ (elementWrapper field element length).tail) : IsElementStep config step := by
  rcases List.mem_cons.mp h with rfl | h
  · exact .inl rfl
  · obtain rfl := List.mem_singleton.mp h
    refine .inr ⟨_, _, rfl, isStructBlock_elements _ _, ?_⟩
    have hfield (i : Nat) :
        isFieldLine (.line ("public " ++ element ++ " e" ++ toString i ++ ";")) = true := by
      simp [isFieldLine]
    simp only [List.mem_append, List.mem_map, not_or, not_exists, not_and]
    refine ⟨⟨fun i _ hi => ne_offsetAttribute_of_isFieldLine (hfield i) hi.symm, ?_⟩, ?_⟩
    · simp [offsetAttribute]
    · cases hasPointer element <;> simp [offsetAttribute]

namespace IsElementStep

variable {step : Step} (h : IsElementStep config step)
include h

theorem not_isFieldLine : isFieldLine step = false := by
  rcases h with rfl | ⟨header, inside, rfl, _⟩ <;> rfl

theorem not_isStructBlock : isStructBlock config step = false := by
  rcases h with rfl | ⟨header, inside, rfl, hblock, _⟩
  · rfl
  · exact hblock

theorem isPlain : IsPlain (some step) := by
  rcases h with rfl | ⟨header, inside, rfl, _⟩
  · exact isPlain_blank
  · exact isPlain_block header inside

end IsElementStep

theorem eq_offsetAttribute_of_mem {isUnion : Bool} {step : Step} (h : step ∈ offsetLine isUnion) :
    step = offsetAttribute := by
  rw [offsetLine] at h
  split at h
  · exact List.mem_singleton.mp h
  · cases h

/-- Behind the line of a declaration there are the elements of an array only. -/
theorem exists_declaration_eq (config : Config) (isUnion : Bool) (field : String)
    (extents : List Nat) (managed : String) :
    ∃ elements, (∀ step ∈ elements, IsElementStep config step) ∧
      declaration isUnion field extents managed =
        (offsetLine isUnion ++ [.line (declarationLine field extents managed)]) ++ elements := by
  rw [declaration]
  split
  · exact ⟨[], List.forall_mem_nil _, by simp⟩
  · exact ⟨(elementWrapper field managed extents.prod).tail, fun step => isElementStep_of_mem,
      by simp⟩

/-- Besides the elements of an array there are only lines in a declaration. -/
theorem mem_declaration (config : Config) {isUnion : Bool} {field managed : String}
    {extents : List Nat} {step : Step} (h : step ∈ declaration isUnion field extents managed) :
    (∃ text, step = .line text) ∨ IsElementStep config step := by
  obtain ⟨elements, helements, heq⟩ := exists_declaration_eq config isUnion field extents managed
  rw [heq] at h
  rcases List.mem_append.mp h with h | h
  · rcases List.mem_append.mp h with h | h
    · exact .inl ⟨_, eq_offsetAttribute_of_mem h⟩
    · exact .inl ⟨_, List.mem_singleton.mp h⟩
  · exact .inr (helements step h)

section Members

variable {parent : String} {kind : RecordKind} {field : Field}

theorem listsSites_elements {β : Type} {R : β → Option Step × Step → Prop}
    {isListed : Step → Bool} {elements : List Step}
    (helements : ∀ step ∈ elements, IsElementStep config step)
    (hunlisted : ∀ step, IsElementStep config step → isListed step = false) :
    ListsSites R isListed [] elements :=
  listsSites_of_unlisted (fun step hstep => hunlisted step (helements step hstep))
    fun step hstep => (helements step (List.mem_of_getLast? hstep)).isPlain

theorem isFieldLine_offsetAttribute : isFieldLine offsetAttribute = false :=
  rfl

/-- The line of a field has the offset in front exactly in a union. -/
theorem listsSites_line {managed : String}
    (hmap : mapper.map (elementType parent field) = some managed) :
    ListsSites (IsPlaced mapper parent kind) isFieldLine [field]
      (offsetLine (kind = .union) ++
        [.line (declarationLine field.name (extents field) managed)]) := by
  intro previous hplain
  have hline := isFieldLine_declarationLine field.name (extents field) managed
  have hend := isPlain_of_isFieldLine hline
  by_cases hkind : kind = .union
  · have hoffset : offsetLine (kind = .union) = [offsetAttribute] := by
      rw [offsetLine, if_pos (decide_eq_true hkind), offsetAttribute]
    simp only [hoffset, List.singleton_append, sitesFrom, List.filter_cons, List.filter_nil,
      isFieldLine_offsetAttribute, hline, if_true, Bool.false_eq_true, if_false]
    exact ⟨.cons ⟨managed, hmap, rfl, iff_of_true rfl hkind⟩ .nil, hend⟩
  · have hoffset : offsetLine (kind = .union) = [] := by
      rw [offsetLine, if_neg (by simp [hkind])]
    simp only [hoffset, List.nil_append, sitesFrom, List.filter_cons, List.filter_nil, hline,
      if_true]
    exact ⟨.cons ⟨managed, hmap, rfl, iff_of_false hplain.1 hkind⟩ .nil, hend⟩

theorem listsSites_declaration_fields (config : Config) {managed : String}
    (hmap : mapper.map (elementType parent field) = some managed) :
    ListsSites (IsPlaced mapper parent kind) isFieldLine [field]
      (declaration (kind = .union) field.name (extents field) managed) := by
  obtain ⟨elements, helements, heq⟩ :=
    exists_declaration_eq config (kind = .union) field.name (extents field) managed
  rw [heq]
  exact (listsSites_line hmap).append
    (listsSites_elements helements fun step hstep => hstep.not_isFieldLine)

theorem listsSites_declaration_structs {isUnion : Bool} {extents : List Nat}
    {name managed : String} :
    ListsSites (IsStructSite config mapper) (isStructBlock config) []
      (declaration isUnion name extents managed) := by
  obtain ⟨elements, helements, heq⟩ :=
    exists_declaration_eq config isUnion name extents managed
  have hline : ListsSites (IsStructSite config mapper) (isStructBlock config) []
      (offsetLine isUnion ++ [.line (declarationLine name extents managed)]) := by
    refine listsSites_of_unlisted (fun step hstep => ?_) fun step hstep => ?_
    · rcases List.mem_append.mp hstep with hstep | hstep
      · rw [eq_offsetAttribute_of_mem hstep]
        rfl
      · rw [List.mem_singleton.mp hstep]
        rfl
    · rw [List.getLast?_concat, Option.mem_some] at hstep
      rw [← hstep]
      exact isPlain_of_isFieldLine (isFieldLine_declarationLine name extents managed)
  rw [heq]
  exact hline.append (listsSites_elements helements fun step hstep => hstep.not_isStructBlock)

theorem listsSites_blank {β : Type} {R : β → Option Step × Step → Prop} {isListed : Step → Bool}
    (h : isListed .blank = false) : ListsSites R isListed [] [.blank] :=
  listsSites_of_unlisted (by simp [h]) (by simp [isPlain_blank])

/-- The struct of a record has the layout attribute in front exactly if the record is a union. -/
theorem listsSites_structBlock {name : String} {record : Record} {body : List Step}
    (h : (fieldSteps config mapper name (record.kind = .union) record.fields).value = .ok body) :
    ListsSites (IsStructSite config mapper) (isStructBlock config) [(name, record)]
      (structBlock config name record.kind body) := by
  intro previous hplain
  have hblock := isStructBlock_structBlock config name body
  have hlayout : isStructBlock config layoutAttribute = false := rfl
  have hend := isPlain_block (config.visibility ++ " partial struct " ++ name) body
  by_cases hkind : record.kind = .union
  · have hcode : structBlock config name record.kind body =
        [layoutAttribute, .block (config.visibility ++ " partial struct " ++ name) body] := by
      rw [structBlock, if_pos hkind]
      rfl
    simp only [hcode, sitesFrom, List.filter_cons, List.filter_nil, hlayout, hblock, if_true,
      Bool.false_eq_true, if_false]
    exact ⟨.cons ⟨_, body, rfl, h, iff_of_true rfl hkind⟩ .nil, hend⟩
  · have hcode : structBlock config name record.kind body =
        [.block (config.visibility ++ " partial struct " ++ name) body] := by
      rw [structBlock, if_neg hkind]
      rfl
    simp only [hcode, sitesFrom, List.filter_cons, List.filter_nil, hblock, if_true]
    exact ⟨.cons ⟨_, body, rfl, h, iff_of_false hplain.2 hkind⟩ .nil, hend⟩

theorem nestedSteps_eq_ok {nested : Record} (hnested : field.nested = some nested)
    {inner : List Step} :
    nestedSteps config mapper parent field = .ok inner ↔
      ∃ body, (fieldSteps config mapper (nestedName parent field.name) (nested.kind = .union)
          nested.fields).value = .ok body ∧
        inner = [.blank] ++ structBlock config (nestedName parent field.name) nested.kind body := by
  simp only [nestedSteps, hnested, structSteps_value, except_map_eq_ok]
  constructor
  · rintro ⟨_, ⟨body, hbody, rfl⟩, rfl⟩
    exact ⟨body, hbody, rfl⟩
  · rintro ⟨body, hbody, rfl⟩
    exact ⟨_, ⟨body, hbody, rfl⟩, rfl⟩

theorem eq_nil_of_nestedSteps (hnested : field.nested = none) {inner : List Step}
    (h : nestedSteps config mapper parent field = .ok inner) : inner = [] := by
  rw [nestedSteps, hnested, Except.ok.injEq] at h
  exact h.symm

theorem mem_structBlock {name : String} {body : List Step} {step : Step}
    (h : step ∈ structBlock config name kind body) :
    step = layoutAttribute ∨
      step = .block (config.visibility ++ " partial struct " ++ name) body := by
  rcases List.mem_append.mp h with hlayout | hblock
  · split at hlayout
    · exact .inl (List.mem_singleton.mp hlayout)
    · cases hlayout
  · exact .inr (List.mem_singleton.mp hblock)

/-- Besides the struct of an inline record there is only a blank line in front of it. -/
theorem mem_nestedSteps {inner : List Step} (h : nestedSteps config mapper parent field = .ok inner)
    {step : Step} (hstep : step ∈ inner) :
    step = .blank ∨ step = layoutAttribute ∨ isStructBlock config step = true := by
  cases hnested : field.nested with
  | none =>
    rw [eq_nil_of_nestedSteps hnested h] at hstep
    cases hstep
  | some nested =>
    obtain ⟨body, _, rfl⟩ := (nestedSteps_eq_ok hnested).mp h
    rcases List.mem_append.mp hstep with hblank | hstruct
    · exact .inl (List.mem_singleton.mp hblank)
    · rcases mem_structBlock hstruct with hlayout | hblock
      · exact .inr (.inl hlayout)
      · rw [hblock]
        exact .inr (.inr (isStructBlock_structBlock ..))

theorem listsSites_nestedSteps_fields {β : Type} {R : β → Option Step × Step → Prop}
    {inner : List Step} (h : nestedSteps config mapper parent field = .ok inner) :
    ListsSites R isFieldLine [] inner := by
  cases hnested : field.nested with
  | none =>
    rw [eq_nil_of_nestedSteps hnested h]
    exact listsSites_nil
  | some nested =>
    obtain ⟨body, _, rfl⟩ := (nestedSteps_eq_ok hnested).mp h
    refine (listsSites_blank rfl).append (listsSites_of_unlisted (fun step hstep => ?_) ?_)
    · rcases mem_structBlock hstep with rfl | rfl <;> rfl
    · intro step hstep
      rw [structBlock, List.getLast?_concat, Option.mem_some] at hstep
      rw [← hstep]
      exact isPlain_block _ body

theorem listsSites_nestedSteps_structs {inner : List Step}
    (h : nestedSteps config mapper parent field = .ok inner) :
    ListsSites (IsStructSite config mapper) (isStructBlock config)
      (field.nested.toList.map fun nested => (nestedName parent field.name, nested)) inner := by
  cases hnested : field.nested with
  | none =>
    rw [eq_nil_of_nestedSteps hnested h]
    exact listsSites_nil
  | some nested =>
    obtain ⟨body, hbody, rfl⟩ := (nestedSteps_eq_ok hnested).mp h
    exact (listsSites_blank rfl).append (listsSites_structBlock hbody)

theorem IsMember.listsSites_fields {member : List Step}
    (h : IsMember config mapper parent (kind = .union) field member) :
    ListsSites (IsPlaced mapper parent kind) isFieldLine [field] member := by
  obtain ⟨managed, inner, hmap, _, hinner, rfl⟩ := h
  exact (listsSites_declaration_fields config hmap).append (listsSites_nestedSteps_fields hinner)

theorem IsMember.listsSites_structs {isUnion : Bool} {member : List Step}
    (h : IsMember config mapper parent isUnion field member) :
    ListsSites (IsStructSite config mapper) (isStructBlock config)
      (field.nested.toList.map fun nested => (nestedName parent field.name, nested)) member := by
  obtain ⟨managed, inner, _, _, hinner, rfl⟩ := h
  exact listsSites_declaration_structs.append (listsSites_nestedSteps_structs hinner)

/-- A block in a member that is no struct of a record holds the elements of an array. -/
theorem IsMember.offsetAttribute_notMem {isUnion : Bool} {member : List Step}
    (h : IsMember config mapper parent isUnion field member) {header : String}
    {inside : List Step} (hmem : Step.block header inside ∈ member)
    (hwrapper : isStructBlock config (.block header inside) = false) :
    offsetAttribute ∉ inside := by
  obtain ⟨managed, inner, _, _, hinner, rfl⟩ := h
  rcases List.mem_append.mp hmem with hmem | hmem
  · rcases mem_declaration config hmem with ⟨text, hline⟩ | hblank | ⟨_, _, hblock, _, hnotMem⟩
    · cases hline
    · cases hblank
    · cases hblock
      exact hnotMem
  · rcases mem_nestedSteps hinner hmem with hblank | hlayout | hstruct
    · cases hblank
    · cases hlayout
    · rw [hstruct] at hwrapper
      cases hwrapper

end Members

/-! Bodies -/

theorem exists_of_forall₂ {α β : Type} {R : α → β → Prop} {items : List α} {results : List β}
    (h : List.Forall₂ R items results) {result : β} (hmem : result ∈ results) :
    ∃ item ∈ items, R item result := by
  induction h with
  | nil => cases hmem
  | cons hfirst _ ih =>
    rcases List.mem_cons.mp hmem with rfl | hmem
    · exact ⟨_, List.mem_cons_self .., hfirst⟩
    · obtain ⟨item, hitem, hrelated⟩ := ih hmem
      exact ⟨item, List.mem_cons_of_mem _ hitem, hrelated⟩

section Body

variable {parent : String} {kind : RecordKind} {fields : List Field} {body : List Step}
  (h : (fieldSteps config mapper parent (kind = .union) fields).value = .ok body)
include h

theorem forall₂_fieldSites :
    List.Forall₂ (IsPlaced mapper parent kind) (keptFields fields) (fieldSites body) := by
  obtain ⟨members, hmembers, rfl⟩ := fieldSteps_eq_ok.mp h
  have hsites := ListsSites.flatten (fun field => [field])
    (hmembers.imp fun _ _ hmember => hmember.listsSites_fields) none isPlain_none
  rw [List.flatMap_singleton'] at hsites
  exact hsites.1

theorem forall₂_structSites :
    List.Forall₂ (IsStructSite config mapper) (inlineRecords parent fields)
      (structSites config body) := by
  obtain ⟨members, hmembers, rfl⟩ := fieldSteps_eq_ok.mp h
  exact (ListsSites.flatten _
    (hmembers.imp fun _ _ hmember => hmember.listsSites_structs) none isPlain_none).1

theorem offsetAttribute_notMem_elements {header : String} {inside : List Step}
    (hmem : Step.block header inside ∈ body)
    (hwrapper : isStructBlock config (.block header inside) = false) :
    offsetAttribute ∉ inside := by
  obtain ⟨members, hmembers, rfl⟩ := fieldSteps_eq_ok.mp h
  obtain ⟨member, hmember, hstep⟩ := List.mem_flatten.mp hmem
  obtain ⟨field, _, hfield⟩ := exists_of_forall₂ hmembers hmember
  exact hfield.offsetAttribute_notMem hstep hwrapper

end Body

theorem IsStructSite.isAttributed {name : String} {record : Record} {previous : Option Step}
    {header : String} {body : List Step}
    (h : IsStructSite config mapper (name, record) (previous, .block header body)) :
    IsAttributed config mapper name record previous body := by
  obtain ⟨_, _, hblock, hbody, hlayout⟩ := h
  cases hblock
  exact {
    layout := hlayout
    fields := forall₂_fieldSites hbody
    structs := (forall₂_structSites hbody).length_eq.symm
    elements := offsetAttribute_notMem_elements hbody }

theorem StructIn.isStructSite {records : List (String × Record)} {code : List Step}
    {name : String} {record : Record} {previous : Option Step} {body : List Step}
    (h : StructIn config records code name record previous body)
    (hcode : List.Forall₂ (IsStructSite config mapper) records (structSites config code)) :
    ∃ header, IsStructSite config mapper (name, record) (previous, .block header body) := by
  -- The structs of a block are those of the inline records: this carries the induction inwards.
  induction h with
  | here hpair => exact ⟨_, List.forall₂_zip hcode hpair⟩
  | inside hpair _ ih =>
    obtain ⟨_, _, hblock, hbody, _⟩ := List.forall₂_zip hcode hpair
    cases hblock
    exact ih (forall₂_structSites hbody)

theorem StructIn.isAttributed {records : List (String × Record)} {code : List Step}
    {name : String} {record : Record} {previous : Option Step} {body : List Step}
    (h : StructIn config records code name record previous body)
    (hcode : List.Forall₂ (IsStructSite config mapper) records (structSites config code)) :
    IsAttributed config mapper name record previous body := by
  obtain ⟨_, hsite⟩ := h.isStructSite hcode
  exact hsite.isAttributed

/-- The structs of a file are those of the records that can be written, in order. -/
theorem forall₂_structSites_file (config : Config) (mapper : TypeMapper)
    (records : List (String × Record)) :
    List.Forall₂ (IsStructSite config mapper) (records.filter (isStructWritten config mapper))
      (structSites config (allStructSteps config mapper records).value) := by
  have hcodes : List.Forall₂ (fun entry code => ListsSites (IsStructSite config mapper)
      (isStructBlock config) [entry] code) (records.filter (isStructWritten config mapper))
      ((records.filter (isStructWritten config mapper)).map (structCode config mapper)) := by
    rw [List.forall₂_map_right_iff, List.forall₂_same]
    rintro ⟨name, record⟩ hentry
    obtain ⟨steps, hsteps⟩ := except_isOk_iff.mp (List.mem_filter.mp hentry).2
    obtain ⟨body, hbody, rfl⟩ := except_map_eq_ok.mp
      ((structSteps_value config mapper name record).symm.trans hsteps)
    rw [structCode, hsteps]
    -- The blank line keeps what is in front of the next struct plain.
    exact (listsSites_structBlock hbody).append (listsSites_blank rfl)
  have hsites := ListsSites.flatten (fun entry => [entry]) hcodes none isPlain_none
  rw [List.flatMap_singleton', ← List.flatMap_def,
    flatMap_filter_of_nil fun _ => structCode_of_not_isStructWritten, ← allStructSteps_value]
    at hsites
  exact hsites.1

/-- Every struct in the file of records, at any depth, has the attributes of its kind. -/
theorem structs_attributed (config : Config) (mapper : TypeMapper)
    (records : List (String × Record)) :
    (structSites config (allStructSteps config mapper records).value).length =
        (records.filter (isStructWritten config mapper)).length ∧
      ∀ name record previous body,
        StructIn config (records.filter (isStructWritten config mapper))
            (allStructSteps config mapper records).value name record previous body →
          IsAttributed config mapper name record previous body := by
  have hfile := forall₂_structSites_file config mapper records
  exact ⟨hfile.length_eq.symm, fun _ _ _ _ h => h.isAttributed hfile⟩

/-- `union { int code; char text[8]; }`. -/
def valueRecord : Record :=
  ⟨none, .union, true, [⟨"code", .primitive .int, none⟩,
    ⟨"text", .array (.primitive .char) (some 8), none⟩]⟩

/-- `struct Event { union { int code; char text[8]; } value; };`. -/
def eventRecord : Record :=
  ⟨some "Event", .struct, true, [⟨"value", .record .union none, some valueRecord⟩]⟩

def eventMapper : TypeMapper :=
  mapperOf Config.standard (collected [.record eventRecord])

def eventSteps : List Step :=
  (allStructSteps Config.standard eventMapper [("Event", eventRecord)]).value

/-- A union in a struct has the layout attribute and its fields an offset. -/
theorem structs_attributed_event :
    StructIn Config.standard [("Event", eventRecord)] eventSteps "Event_value" valueRecord
        (some layoutAttribute)
        [offsetAttribute, .line "public int code;",
          offsetAttribute, .line "public unsafe fixed sbyte text[8];"] ∧
      IsAttributed Config.standard eventMapper "Event_value" valueRecord (some layoutAttribute)
        [offsetAttribute, .line "public int code;",
          offsetAttribute, .line "public unsafe fixed sbyte text[8];"] := by
  have hvalue : StructIn Config.standard [("Event", eventRecord)] eventSteps "Event_value"
      valueRecord (some layoutAttribute)
      [offsetAttribute, .line "public int code;",
        offsetAttribute, .line "public unsafe fixed sbyte text[8];"] :=
    .inside (List.mem_singleton_self _) (.here (List.mem_singleton_self _))
  exact ⟨hvalue, (structs_attributed Config.standard eventMapper [("Event", eventRecord)]).2
    _ _ _ _ hvalue⟩

end Emit

end HeaderInterop
