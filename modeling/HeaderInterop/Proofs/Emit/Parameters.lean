import HeaderInterop.Proofs.Emit.Skipping
import HeaderInterop.Proofs.Emit.Traces
import HeaderInterop.Proofs.MadeNames
import HeaderInterop.Proofs.TypeMap.Identifiers

/-!
Names of parameters. A parameter without a name gets one from its place, and this is the only look
at it: whether another parameter has that name already is not asked. So the names in a declaration
are different exactly if those in the header are and none of them is one that a place gives, nor one
that a reserved word is escaped to, which no name in a header can be.
-/

namespace HeaderInterop.Emit

variable {mapper : TypeMapper} {function : Prototype}

/-! The declaration -/

/-- What stands in front of the name of a parameter. -/
def paramStart (managed : String) : String :=
  (if isTruthValue managed then "[MarshalAs(UnmanagedType.U1)] " else "") ++ managed ++ " "

/-- The names of the parameters as they are written. -/
def paramNames (params : List Param) : List String :=
  params.zipIdx.map fun entry => paramName entry.2 entry.1.name

/-- The line in front of a declaration that returns a truth value. -/
def returnAttribute (ret : String) : List String :=
  if isTruthValue ret then ["[return: MarshalAs(UnmanagedType.U1)]"] else []

/-- The declaration of a function from its managed types and the names of its parameters. -/
def prototypeLine (function ret : String) (types names : List String) : String :=
  "public static extern " ++ (if (ret :: types).any hasPointer then "unsafe " else "") ++ ret ++
    " " ++ function ++ "(" ++
    ", ".intercalate (List.zipWith (fun managed name => paramStart managed ++ name) types names) ++
    ");"

theorem paramTexts_eq (params : List Param) (types : List String) :
    paramTexts params types =
      List.zipWith (fun managed name => paramStart managed ++ name) types (paramNames params) := by
  -- on the parameters, for any place of the first one
  have hfrom (start : Nat) : ((params.zip types).zipIdx start).map
        (fun entry => paramText entry.2 entry.1.1.name entry.1.2) =
      List.zipWith (fun managed name => paramStart managed ++ name) types
        ((params.zipIdx start).map fun entry => paramName entry.2 entry.1.name) := by
    induction params generalizing types start with
    | nil => simp
    | cons param rest ih =>
      cases types with
      | nil => simp
      | cons managed others =>
        simp only [List.zip_cons_cons, List.zipIdx_cons, List.map_cons, List.zipWith_cons_cons, ih]
        rfl
  exact hfrom 0

theorem signature?_eq (mapper : TypeMapper) (function : Prototype) :
    signature? mapper function =
      (mapper.map function.ret).bind fun ret =>
        (paramTypes? mapper function.params).map fun types =>
          returnAttribute ret ++
            [prototypeLine function.name ret types (paramNames function.params)] := by
  unfold signature?
  cases mapper.map function.ret with
  | none => rfl
  | some ret =>
    cases paramTypes? mapper function.params with
    | none => rfl
    | some types =>
      simp only [paramTexts_eq]
      rfl

theorem getElem?_paramTexts {params : List Param} {types : List String} {place : Nat}
    {param : Param} {managed : String} (h : (params.zip types)[place]? = some (param, managed)) :
    (paramTexts params types)[place]? = some (paramText place param.name managed) := by
  rw [paramTexts, List.getElem?_map, List.getElem?_zipIdx, h, Option.map_some, Option.map_some,
    Nat.zero_add]

theorem exists_of_isFunctionWritten {name : String} {function : Prototype}
    (h : isFunctionWritten mapper (name, function) = true) :
    ∃ ret types lines, mapper.map function.ret = some ret ∧
      paramTypes? mapper function.params = some types ∧
      signature? mapper function = some lines := by
  obtain ⟨lines, hlines⟩ := Option.isSome_iff_exists.mp h
  have hparts := hlines
  rw [signature?_eq, Option.bind_eq_some_iff] at hparts
  obtain ⟨ret, hret, hmap⟩ := hparts
  obtain ⟨types, htypes, -⟩ := Option.map_eq_some_iff.mp hmap
  exact ⟨ret, types, lines, hret, htypes, hlines⟩

/-! Names -/

/-- The names that the parameters have in the header. -/
def ownParamNames (params : List Param) : List String :=
  params.filterMap Param.name

def gappedParams (params : List Param) : GappedNames :=
  params.zipIdx.map fun entry => (entry.1.name, entry.2)

theorem paramName_eq_filled (entry : Param × Nat) :
    paramName entry.2 entry.1.name =
      GappedNames.filled identifier (fun place => "arg" ++ toString place)
        (entry.1.name, entry.2) := by
  cases hname : entry.1.name <;> simp [paramName, GappedNames.filled]

theorem paramNames_eq_filled (params : List Param) :
    paramNames params = (gappedParams params).map
      (GappedNames.filled identifier fun place => "arg" ++ toString place) := by
  rw [gappedParams, List.map_map]
  exact List.map_congr_left fun entry _ => paramName_eq_filled entry

theorem names_gappedParams (params : List Param) :
    (gappedParams params).names = ownParamNames params := by
  have hnames : params.zipIdx.map Prod.fst = params := List.zipIdx_map_fst 0 params
  rw [GappedNames.names, gappedParams, List.filterMap_map, ownParamNames]
  conv_rhs => rw [← hnames, List.filterMap_map]
  rfl

theorem mem_gaps_gappedParams {params : List Param} {place : Nat} :
    place ∈ (gappedParams params).gaps ↔
      ∃ param, params[place]? = some param ∧ param.name = none := by
  simp [GappedNames.mem_gaps, gappedParams, List.mem_zipIdx_iff_getElem?]

/-- Every gap has a place of its own. -/
theorem nodup_gaps_gappedParams (params : List Param) : (gappedParams params).gaps.Nodup := by
  have hplaces : (gappedParams params).map Prod.snd = List.range' 0 params.length := by
    rw [gappedParams, List.map_map]
    exact List.zipIdx_map_snd 0 params
  refine List.Nodup.sublist (List.filter_sublist.map Prod.snd) ?_
  rw [hplaces]
  exact List.nodup_range'

theorem placeName_mem_map_identifier_iff {names : List String} {place : Nat} :
    "arg" ++ toString place ∈ names.map identifier ↔ "arg" ++ toString place ∈ names := by
  have hwords : ∀ word ∈ reservedWords, "arg".toList.isPrefixOf word.toList = false := by
    decide +kernel
  refine mem_map_identifier_iff (fun hword => ?_) (by simp)
  have hstart := hwords _ hword
  simp at hstart

/-- A function that is written has these names in its declaration, and they are different exactly if
the names in the header are, none of them is what the place of a parameter without a name gives, and
none is what another one is escaped to. -/
theorem paramNames_nodup_iff (config : Config) (mapper : TypeMapper) (function : Prototype) :
    IsConcatenation (commands config mapper) (commandsOpening config) (functionText mapper)
        "\x7d\n" ∧
      (signature? mapper function =
        (mapper.map function.ret).bind fun ret =>
          (paramTypes? mapper function.params).map fun types =>
            returnAttribute ret ++
              [prototypeLine function.name ret types (paramNames function.params)]) ∧
      ((paramNames function.params).Nodup ↔
        (ownParamNames function.params).Nodup ∧
          (∀ (place : Nat) (param : Param), function.params[place]? = some param →
            param.name = none → "arg" ++ toString place ∉ ownParamNames function.params) ∧
          ∀ word ∈ reservedWords, word ∈ ownParamNames function.params →
            "@" ++ word ∉ ownParamNames function.params) := by
  refine ⟨commands_isConcatenation config mapper, signature?_eq mapper function, ?_⟩
  rw [paramNames_eq_filled, GappedNames.nodup_filled_iff (nodup_gaps_gappedParams function.params)
    (injective_append_toString "arg"), names_gappedParams, nodup_map_identifier_iff]
  simp only [placeName_mem_map_identifier_iff, mem_gaps_gappedParams]
  constructor
  · rintro ⟨⟨hown, hescaped⟩, hmade⟩
    exact ⟨hown, fun place param hparam hname => hmade place ⟨param, hparam, hname⟩, hescaped⟩
  · rintro ⟨hown, hmade, hescaped⟩
    exact ⟨⟨hown, hescaped⟩, fun place ⟨param, hparam, hname⟩ => hmade place param hparam hname⟩

/-- `void seek(int arg1, int);`. -/
def seekFunction : Prototype :=
  { name := "seek", ret := .primitive .void
    params := [⟨some "arg1", .primitive .int⟩, ⟨none, .primitive .int⟩]
    variadic := false, isStatic := false, isInline := false }

/-- The second parameter gets the name of the first. -/
theorem not_nodup_paramNames_seek :
    signature? (mapperOf Config.standard (collected [.function seekFunction])) seekFunction =
        some ["public static extern void seek(int arg1, int arg1);"] ∧
      (ownParamNames seekFunction.params).Nodup ∧
      ¬ (paramNames seekFunction.params).Nodup := by
  refine ⟨by decide +kernel, by decide, by decide⟩

end HeaderInterop.Emit
