import HeaderInterop.Config.Default
import HeaderInterop.Proofs.Code.Endings
import HeaderInterop.Proofs.Decl.Records
import HeaderInterop.Proofs.Emit.Fields

/-!
Typedefs in the fields of emitted records. A record is emitted alike with a typedef in one of its
fields and with what the typedef stands for in its place, at any depth, unless the typedef stands
for an array: a field of such a type becomes a pointer, and a field of the array type a buffer. The
two files then end differently.
-/

namespace HeaderInterop.Emit

open Code (Step Writer runAll)

/-- One of the fields, at any depth, has a typedef replaced by what it stands for. A field of such a
type defines no record (`Decl.nested_eq_none_of_typedef`). -/
inductive Expands (name : String) (underlying : CType) : List Field → List Field → Prop where
  | here {field type rest} (hend : type.dimensions.2 = .typedef name) :
      Expands name underlying (⟨field, type, none⟩ :: rest)
        (⟨field, type.expand underlying, none⟩ :: rest)
  | inside {field type nested fields rest} (inner : Expands name underlying nested.fields fields) :
      Expands name underlying (⟨field, type, some nested⟩ :: rest)
        (⟨field, type, some { nested with fields }⟩ :: rest)
  | behind {field rest others} (tail : Expands name underlying rest others) :
      Expands name underlying (field :: rest) (field :: others)

variable {config : Config} {mapper : TypeMapper}

section Alias

variable {name : String} {underlying : CType} (hacyclic : mapper.registry.Acyclic)
  (htypedef : mapper.registry.typedef? name = some underlying)
  (hsubstitute : mapper.substitute? name = none) (hkept : mapper.isKept name = false)
include hacyclic htypedef hsubstitute hkept

theorem fieldSteps_expand (halike : ExpandsAlike mapper underlying) {fields expanded : List Field}
    (h : Expands name underlying fields expanded) (parent : String) (isUnion : Bool) :
    fieldSteps config mapper parent isUnion expanded =
      fieldSteps config mapper parent isUnion fields := by
  induction h generalizing parent isUnion with
  | here hend =>
    simp only [fieldSteps, fieldCode_expand hacyclic htypedef hsubstitute hkept halike hend]
  | @inside field type nested fields rest inner ih =>
    obtain ⟨tag, kind, complete, own⟩ := nested
    simp only [fieldSteps, structSteps, ih]
  | @behind field rest others tail ih =>
    obtain ⟨field, type, nested⟩ := field
    cases nested <;> simp only [fieldSteps, ih]

theorem structSteps_expand (config : Config) (halike : ExpandsAlike mapper underlying)
    {record : Record} {fields : List Field} (h : Expands name underlying record.fields fields) (struct : String) :
    structSteps config mapper struct { record with fields } =
      structSteps config mapper struct record := by
  obtain ⟨tag, kind, complete, own⟩ := record
  simp only [structSteps, fieldSteps_expand hacyclic htypedef hsubstitute hkept halike h]

end Alias

theorem allStructSteps_congr {struct : String} {record other : Record}
    (h : structSteps config mapper struct record = structSteps config mapper struct other)
    (before after : List (String × Record)) :
    allStructSteps config mapper (before ++ (struct, record) :: after) =
      allStructSteps config mapper (before ++ (struct, other) :: after) := by
  induction before with
  | nil => simp only [List.nil_append, allStructSteps, h]
  | cons first rest ih => simp only [List.cons_append, allStructSteps, ih]

theorem structs_congr {struct : String} {record other : Record}
    (h : structSteps config mapper struct record = structSteps config mapper struct other)
    (before after : List (String × Record)) :
    structs config mapper (before ++ (struct, record) :: after) =
      structs config mapper (before ++ (struct, other) :: after) := by
  rw [structs, structs, allStructSteps_congr h]

/-! How the file of one field ends -/

/-- A record with one field. -/
def lone (type : CType) : Record :=
  ⟨none, .struct, true, [⟨"x", type, none⟩]⟩

/-- The writer behind the opening of the file. -/
def opened (config : Config) : Writer :=
  runAll (Code.opening config.rootNamespace structUsings
    (some "#pragma warning disable CS0649")) {}

/-- The writer inside the struct. -/
def inside (config : Config) : Writer :=
  (((opened config).line (config.visibility ++ " partial struct " ++ "S")).line "\x7b").deeper

/-- The writer behind the struct of a record with one field, of which this has become. -/
def codeWriter (config : Config) : FieldCode → Writer
  | .unmappable => opened config
  | .dropped => runAll (structBlock config "S" .struct [] ++ [.blank]) (opened config)
  | .written steps => runAll (structBlock config "S" .struct steps ++ [.blank]) (opened config)

theorem contents_lone (config : Config) (mapper : TypeMapper) (type : CType) :
    (structs config mapper [("S", lone type)]).value.contents =
      (codeWriter config (fieldCode mapper false "x" type)).text := by
  have hstruct : decide (RecordKind.struct = .union) = false := rfl
  simp only [structs, allStructSteps, structSteps, lone, fieldSteps, hstruct, codeWriter, opened,
    Logged.value_bind, Logged.value_pure, GeneratedFile.ofSteps, Code.runAll_append]
  cases fieldCode mapper false "x" type with
  | unmappable => rfl
  | dropped => simp only [Except.map, Logged.value_bind, Logged.value_pure, Code.runAll_append]
  | written steps =>
    simp only [Except.map, Logged.value_bind, Logged.value_pure, Code.runAll_append,
      List.append_nil]

theorem opened_indent (config : Config) : (opened config).indent = 0 := by
  rw [opened, Code.runAll_indent]

theorem opened_endsIn (config : Config) : (opened config).EndsIn [';', '\n', '\n'] := by
  have hline : [';'] <:+ ("namespace " ++ config.rootNamespace ++ ";").toList :=
    ⟨("namespace " ++ config.rootNamespace).toList, by simp⟩
  rw [opened, Code.opening, Code.runAll_append]
  exact (Writer.endsIn_line hline (by decide)).blank

theorem structBlock_endsIn {steps : List Step} (chars : List Char)
    (h : (runAll steps (inside config)).EndsIn chars) :
    (runAll (structBlock config "S" .struct steps ++ [.blank]) (opened config)).EndsIn
      (chars ++ ['}', '\n', '\n']) := by
  have hblock := (Writer.endsIn_block (opened_indent config) h).blank
  rw [List.append_assoc] at hblock
  exact hblock

/-- A scalar field ends in its name. -/
theorem scalarField_endsIn {type : CType} {steps : List Step}
    (h : scalarField mapper false "x" type = some steps) (writer : Writer) :
    (runAll steps writer).EndsIn ['x', ';', '\n'] := by
  simp only [scalarField, Option.map_eq_some_iff] at h
  obtain ⟨managed, _, rfl⟩ := h
  have hend (start : String) : ['x', ';'] <:+ (start ++ identifier "x" ++ ";").toList := by
    have hname : identifier "x" = "x" := rfl
    exact ⟨start.toList, by simp [hname]⟩
  exact Writer.endsIn_line (hend _) (by decide)

/-- A fixed buffer ends in its extents, and a wrapper in a brace. -/
theorem arrayField_endsIn {element : CType} {extents : List Nat} {steps : List Step}
    (h : arrayField mapper false "x" extents element = some steps) (writer : Writer) :
    (runAll steps writer).EndsIn [']', ';', '\n'] ∨ (runAll steps writer).EndsIn ['}', '\n'] := by
  simp only [arrayField, Option.bind_eq_bind, Option.bind_eq_some_iff, Option.pure_def,
    Option.some.injEq] at h
  obtain ⟨managed, _, _, _, rfl⟩ := h
  simp only [offsetLine, Bool.false_eq_true, if_false, List.nil_append]
  split
  · have hend (start : String) : [']', ';'] <:+ (start ++ "];").toList := ⟨start.toList, by simp⟩
    exact Or.inl (Writer.endsIn_line (hend _) (by decide))
  · exact Or.inr (Writer.endsIn_block_brace _ _)

theorem codeWriter_dropped_endsIn (config : Config) :
    (codeWriter config .dropped).EndsIn ['{', '\n', '}', '\n', '\n'] := by
  have hbrace : ['{'] <:+ "\x7b".toList := List.suffix_rfl
  exact structBlock_endsIn ['{', '\n'] (Writer.endsIn_line hbrace (by decide))

/-- A scalar field is the end of its file, unless it has no managed type. -/
theorem codeWriter_scalar_endsIn (config : Config) (mapper : TypeMapper) {type : CType}
    (h : type.dimensions.1 = []) :
    (mapper.map type = none ∧ fieldCode mapper false "x" type = .unmappable) ∨
      (codeWriter config (fieldCode mapper false "x" type)).EndsIn
        ['x', ';', '\n', '}', '\n', '\n'] := by
  rw [fieldCode_scalar h]
  cases hsteps : scalarField mapper false "x" type with
  | none =>
    have hmap : mapper.map type = none := by simpa [scalarField] using hsteps
    exact Or.inl ⟨hmap, rfl⟩
  | some steps =>
    exact Or.inr (structBlock_endsIn ['x', ';', '\n'] (scalarField_endsIn hsteps _))

/-- An array is dropped, or ends in its extents or a brace, unless it has a size but no
declaration. -/
theorem codeWriter_array_endsIn (config : Config) (mapper : TypeMapper) {type : CType}
    (h : type.dimensions.1 ≠ []) :
    ((extents? type.dimensions.1).isSome = true ∧
        fieldCode mapper false "x" type = .unmappable) ∨
      (codeWriter config (fieldCode mapper false "x" type)).EndsIn
        ['{', '\n', '}', '\n', '\n'] ∨
      (codeWriter config (fieldCode mapper false "x" type)).EndsIn
        [']', ';', '\n', '}', '\n', '\n'] ∨
      (codeWriter config (fieldCode mapper false "x" type)).EndsIn
        ['}', '\n', '}', '\n', '\n'] := by
  cases hextents : extents? type.dimensions.1 with
  | none =>
    rw [fieldCode_dropped hextents]
    exact Or.inr (Or.inl (codeWriter_dropped_endsIn config))
  | some extents =>
    rw [fieldCode_array h hextents]
    cases hsteps : arrayField mapper false "x" extents type.dimensions.2 with
    | none => exact Or.inl ⟨rfl, rfl⟩
    | some steps =>
      rcases arrayField_endsIn hsteps (inside config) with hbuffer | hwrapper
      · exact Or.inr (Or.inr (Or.inl (structBlock_endsIn [']', ';', '\n'] hbuffer)))
      · exact Or.inr (Or.inr (Or.inr (structBlock_endsIn ['}', '\n'] hwrapper)))

section Alias

variable {name : String} {underlying : CType} (hacyclic : mapper.registry.Acyclic)
  (htypedef : mapper.registry.typedef? name = some underlying)
  (hsubstitute : mapper.substitute? name = none) (hkept : mapper.isKept name = false)
include hacyclic htypedef hsubstitute hkept

/-- A field of the typedef and one of what it stands for have files that differ, unless the typedef
is laid out alike. -/
theorem alike_of_contents (hcontents :
    (codeWriter config (fieldCode mapper false "x" (.typedef name))).text =
      (codeWriter config (fieldCode mapper false "x" underlying)).text) :
    ExpandsAlike mapper underlying := by
  by_cases hsizes : underlying.dimensions.1 = []
  · exact Or.inl hsizes
  · right
    have hscalar : (CType.typedef name).dimensions.1 = [] := rfl
    have hsame {chars : List Char}
        (h : (codeWriter config (fieldCode mapper false "x" underlying)).EndsIn chars) :
        (codeWriter config (fieldCode mapper false "x" (.typedef name))).EndsIn chars := by
      rwa [Writer.EndsIn, hcontents]
    have harray := codeWriter_array_endsIn config mapper hsizes
    rcases codeWriter_scalar_endsIn config mapper hscalar with ⟨hmap, hcode⟩ | hend
    · have hend : (codeWriter config (fieldCode mapper false "x" (.typedef name))).EndsIn
          [';', '\n', '\n'] := by
        rw [hcode]
        exact opened_endsIn config
      rcases harray with ⟨hsized, _⟩ | hdropped | hbuffer | hwrapper
      · rw [map_typedef hacyclic htypedef hsubstitute hkept] at hmap
        exact ⟨(TypeMapper.map_eq_none_iff_dimensions hacyclic).mp hmap, hsized⟩
      · exact absurd (hend.suffix (hsame hdropped) (by decide)) (by decide)
      · exact absurd (hend.suffix (hsame hbuffer) (by decide)) (by decide)
      · exact absurd (hend.suffix (hsame hwrapper) (by decide)) (by decide)
    · rcases harray with ⟨_, hcode⟩ | hdropped | hbuffer | hwrapper
      · have hopened : (codeWriter config (fieldCode mapper false "x" underlying)).EndsIn
            [';', '\n', '\n'] := by
          rw [hcode]
          exact opened_endsIn config
        exact absurd ((hsame hopened).suffix hend (by decide)) (by decide)
      · exact absurd ((hsame hdropped).suffix hend (by decide)) (by decide)
      · exact absurd ((hsame hbuffer).suffix hend (by decide)) (by decide)
      · exact absurd ((hsame hwrapper).suffix hend (by decide)) (by decide)

/-- Every record is emitted alike with the typedef in a field, at any depth, and with what it stands
for in its place, exactly when that has no dimensions, or has a size but no managed type. -/
theorem structs_expand_iff :
    (∀ before after struct record fields, Expands name underlying record.fields fields →
        (structs config mapper (before ++ (struct, { record with fields }) :: after)).value =
          (structs config mapper (before ++ (struct, record) :: after)).value) ↔
      ExpandsAlike mapper underlying := by
  constructor
  · intro h
    have hlone := h [] [] "S" (lone (.typedef name)) [⟨"x", underlying, none⟩] (.here rfl)
    have hcontents := congrArg GeneratedFile.contents hlone
    have halias := contents_lone config mapper (.typedef name)
    have hexpanded := contents_lone config mapper underlying
    exact alike_of_contents hacyclic htypedef hsubstitute hkept
      (halias.symm.trans (hcontents.symm.trans hexpanded))
  · intro halike before after struct record fields hexpands
    have hsteps := structSteps_expand hacyclic htypedef hsubstitute hkept config halike hexpands
      struct
    rw [structs_congr hsteps]

end Alias

def vector : CType :=
  .array (.primitive .int) (some 3)

def vectorName : String :=
  "Vec"

/-- A typedef of an array. -/
def vectors : TypeMapper where
  settings := Config.standard.types
  registry := { typedefs := [(vectorName, vector)] }

theorem vectors_acyclic : vectors.registry.Acyclic :=
  Registry.acyclic_of_pairwise (by decide) (by decide)

theorem structs_expand_iff_vectors :
    (∀ before after struct record fields,
        Expands vectorName vector record.fields fields →
          (structs Config.standard vectors
              (before ++ (struct, { record with fields }) :: after)).value =
            (structs Config.standard vectors (before ++ (struct, record) :: after)).value) ↔
      ExpandsAlike vectors vector :=
  structs_expand_iff vectors_acyclic rfl rfl rfl

/-- A field of the array is a buffer, and one of the typedef a pointer, although the typedef is not
referred to by name. -/
theorem vector_field_ne :
    vectors.substitute? vectorName = none ∧ vectors.isKept vectorName = false ∧
      Expands vectorName vector (lone (.typedef vectorName)).fields (lone vector).fields ∧
      fieldCode vectors false "x" (.typedef vectorName) =
        .written [.line "public unsafe int* x;"] ∧
      fieldCode vectors false "x" vector = .written [.line "public unsafe fixed int x[3];"] ∧
      (structs Config.standard vectors [("S", lone vector)]).value ≠
        (structs Config.standard vectors [("S", lone (.typedef vectorName))]).value := by
  refine ⟨rfl, rfl, .here rfl, rfl, rfl, ?_⟩
  intro hsame
  have hcontents := congrArg GeneratedFile.contents hsame
  rw [contents_lone, contents_lone] at hcontents
  rcases alike_of_contents vectors_acyclic rfl rfl rfl hcontents.symm with hscalar | ⟨hunmapped, _⟩
  · cases hscalar
  · cases hunmapped

end HeaderInterop.Emit
