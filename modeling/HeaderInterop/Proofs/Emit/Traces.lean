import HeaderInterop.Emit.Commands
import HeaderInterop.Emit.Constants
import HeaderInterop.Proofs.Code.Texts
import HeaderInterop.Proofs.Emit.Members

/-!
Declarations that are left out. Each record and each function has a text of its own, and the files
of records and functions are these texts one behind the other. What is left out has no text, is not
among the constants that others refer to, and may as well not be in the list.
-/

namespace HeaderInterop

namespace Constant

/-- A rule makes a constant of the macro: only a composite may have too few tokens for it. -/
def isFormed (settings : ConstantSettings) (m : Macro) : Bool :=
  match settings.overrides.find? fun given => given.name = m.name with
  | some _ => true
  | none =>
    match settings.composite.filter fun composite => composite.name = m.name with
    | some composite => (composite? composite m.tokens).isSome
    | none => true

/-- Whether a macro becomes a constant does not depend on the constants before it. -/
theorem isSome_ofMacro? (mapper : TypeMapper) (settings : ConstantSettings) (known : Known)
    (m : Macro) : (ofMacro? settings mapper known m).value.isSome = isFormed settings m := by
  unfold ofMacro? isFormed
  cases settings.overrides.find? fun given => given.name = m.name with
  | some given => rfl
  | none =>
    cases settings.composite.filter fun composite => composite.name = m.name with
    | some composite => rfl
    | none =>
      simp only
      split
      · rfl
      · cases Literal.kind? (Literal.normalize m.tokens) with
        | some kind => rfl
        | none =>
          cases cast? mapper m.tokens with
          | some constant => rfl
          | none => cases referred? known m.tokens <;> rfl

end Constant

namespace Emit

open Code (Step textAt)

/-- The file of a list and that of the entries in it which are written are the same. -/
def LeavesNoTrace {α : Type} (file : List α → Logged GeneratedFile) (isWritten : α → Bool) : Prop :=
  ∀ entries, (file (entries.filter isWritten)).value = (file entries).value

/-- The file of a list is one text per entry, in order, between two texts of its own. -/
def IsConcatenation {α : Type} (file : List α → Logged GeneratedFile) (opening : String)
    (text : α → String) (closing : String) : Prop :=
  ∀ entries, (file entries).value.contents =
    opening ++ String.join (entries.map text) ++ closing

theorem flatMap_filter_of_nil {α β : Type} {isWritten : α → Bool} {code : α → List β}
    (h : ∀ entry, isWritten entry = false → code entry = []) (entries : List α) :
    (entries.filter isWritten).flatMap code = entries.flatMap code := by
  induction entries with
  | nil => rfl
  | cons entry rest ih =>
    cases hwritten : isWritten entry with
    | false =>
      rw [List.filter_cons_of_neg (by simp [hwritten]), ih, List.flatMap_cons, h entry hwritten,
        List.nil_append]
    | true => rw [List.filter_cons_of_pos hwritten, List.flatMap_cons, List.flatMap_cons, ih]

variable {config : Config} {mapper : TypeMapper}

/-! Records -/

def isStructWritten (config : Config) (mapper : TypeMapper) (entry : String × Record) : Bool :=
  (structSteps config mapper entry.1 entry.2).value.isOk

/-- The struct of a record with a blank line behind it, if it is written. -/
def structCode (config : Config) (mapper : TypeMapper) (entry : String × Record) : List Step :=
  match (structSteps config mapper entry.1 entry.2).value with
  | .ok steps => steps ++ [.blank]
  | .error _ => []

theorem structCode_of_not_isStructWritten {entry : String × Record}
    (h : isStructWritten config mapper entry = false) : structCode config mapper entry = [] := by
  unfold isStructWritten at h
  unfold structCode
  cases hsteps : (structSteps config mapper entry.1 entry.2).value with
  | ok steps =>
    rw [hsteps] at h
    cases h
  | error fault => rfl

theorem allStructSteps_value (records : List (String × Record)) :
    (allStructSteps config mapper records).value = records.flatMap (structCode config mapper) := by
  induction records with
  | nil => rfl
  | cons entry rest ih =>
    obtain ⟨name, record⟩ := entry
    rw [List.flatMap_cons, ← ih, allStructSteps, structCode, Logged.value_bind]
    cases (structSteps config mapper name record).value with
    | ok steps =>
      simp only [Logged.value_bind, Logged.value_pure, List.append_assoc, List.singleton_append]
    | error fault => rfl

/-- What stands in front of the first struct of a file. -/
def structsOpening (config : Config) : String :=
  textAt 0 (Code.opening config.rootNamespace structUsings (some "#pragma warning disable CS0649"))

def structText (config : Config) (mapper : TypeMapper) (entry : String × Record) : String :=
  textAt 0 (structCode config mapper entry)

mutual

/-- What has been written of a struct when it is done, or given up at a field that cannot be
written. The blocks around the field are closed all the same. -/
def structDraft (config : Config) (mapper : TypeMapper) (name : String) : Record → List Step
  | ⟨_, kind, _, fields⟩ =>
    structBlock config name kind (fieldsDraft config mapper name (kind = .union) fields)

def fieldsDraft (config : Config) (mapper : TypeMapper) (parent : String) (isUnion : Bool) :
    List Field → List Step
  | [] => []
  | ⟨field, type, nested⟩ :: rest =>
    match fieldCode mapper isUnion field (declaredType parent ⟨field, type, nested⟩) with
    | .unmappable => []
    | .dropped => fieldsDraft config mapper parent isUnion rest
    | .written steps =>
      let others :=
        match nestedSteps config mapper parent ⟨field, type, nested⟩ with
        | .ok _ => fieldsDraft config mapper parent isUnion rest
        | .error _ => []
      steps ++ nestedDraft config mapper (nestedName parent field) nested ++ others

def nestedDraft (config : Config) (mapper : TypeMapper) (name : String) :
    Option Record → List Step
  | none => []
  | some nested => .blank :: structDraft config mapper name nested

end

mutual

theorem structDraft_of_ok {name : String} (record : Record) {steps : List Step}
    (h : (structSteps config mapper name record).value = .ok steps) :
    structDraft config mapper name record = steps := by
  match record with
  | ⟨_, kind, _, fields⟩ =>
    rw [structSteps, except_map_eq_ok] at h
    obtain ⟨body, hbody, rfl⟩ := h
    rw [structDraft, fieldsDraft_of_ok fields hbody]

theorem fieldsDraft_of_ok {parent : String} {isUnion : Bool} (fields : List Field)
    {steps : List Step} (h : (fieldSteps config mapper parent isUnion fields).value = .ok steps) :
    fieldsDraft config mapper parent isUnion fields = steps := by
  match fields with
  | [] =>
    rw [fieldSteps, Except.ok.injEq] at h
    exact h
  | ⟨field, type, nested⟩ :: rest =>
    rw [fieldSteps_cons] at h
    rw [fieldsDraft]
    cases hcode : fieldCode mapper isUnion field (declaredType parent ⟨field, type, nested⟩) with
    | unmappable =>
      rw [hcode] at h
      cases h
    | dropped =>
      rw [hcode] at h
      exact fieldsDraft_of_ok rest h
    | written own =>
      rw [hcode] at h
      obtain ⟨inner, hinner, h⟩ := except_bind_eq_ok.mp h
      obtain ⟨others, hothers, h⟩ := except_bind_eq_ok.mp h
      simp only [hinner, fieldsDraft_of_ok rest hothers, nestedDraft_of_ok nested hinner]
      exact except_pure_eq_ok.mp h

theorem nestedDraft_of_ok {parent field : String} {type : CType} (nested : Option Record)
    {steps : List Step} (h : nestedSteps config mapper parent ⟨field, type, nested⟩ = .ok steps) :
    nestedDraft config mapper (nestedName parent field) nested = steps := by
  match nested with
  | none =>
    rw [nestedSteps, Except.ok.injEq] at h
    exact h
  | some record =>
    obtain ⟨definition, hdefinition, rfl⟩ := except_map_eq_ok.mp h
    rw [nestedDraft, structDraft_of_ok record hdefinition]

end

/-- A record is written into a fragment, which is kept, with a blank line behind it, if the walk
over its fields gets to their end. -/
def structFragment (config : Config) (mapper : TypeMapper) (entry : String × Record) : List Step :=
  let isWritten := isStructWritten config mapper entry
  .fragment (structDraft config mapper entry.1 entry.2) isWritten ::
    if isWritten then [.blank] else []

theorem textAt_structFragment (entry : String × Record) :
    textAt 0 (structFragment config mapper entry) = structText config mapper entry := by
  have hfragment (keep : Bool) (more : List Step) :
      textAt 0 (.fragment (structDraft config mapper entry.1 entry.2) keep :: more) =
        (if keep then textAt 0 (structDraft config mapper entry.1 entry.2) else "") ++
          textAt 0 more := by
    rw [← List.singleton_append, Code.textAt_append, Code.textAt_fragment]
  rw [structFragment, hfragment, structText, structCode, isStructWritten]
  cases hsteps : (structSteps config mapper entry.1 entry.2).value with
  | ok steps =>
    rw [structDraft_of_ok entry.2 hsteps, except_isOk_ok, if_pos rfl, if_pos rfl,
      Code.textAt_append]
  | error fault => rfl

theorem structs_isConcatenation (config : Config) (mapper : TypeMapper) :
    IsConcatenation (structs config mapper) (structsOpening config) (structText config mapper)
      "" := by
  intro records
  rw [structs, Logged.value_bind, Logged.value_pure, GeneratedFile.contents_ofSteps,
    allStructSteps_value, Code.textAt_flatMap]
  exact String.append_empty.symm

/-! Functions -/

def isFunctionWritten (mapper : TypeMapper) (entry : String × Prototype) : Bool :=
  (signature? mapper entry.2).isSome

/-- The declaration of a function with a blank line in front, if it is written. -/
def functionCode (mapper : TypeMapper) (entry : String × Prototype) : List Step :=
  match signature? mapper entry.2 with
  | some lines => .blank :: .line (importLine entry.1) :: lines.map .line
  | none => []

theorem functionCode_of_not_isFunctionWritten {entry : String × Prototype}
    (h : isFunctionWritten mapper entry = false) : functionCode mapper entry = [] := by
  rw [isFunctionWritten, Option.isSome_eq_false_iff, Option.isNone_iff_eq_none] at h
  rw [functionCode, h]

theorem functionSteps_value (functions : List (String × Prototype)) :
    (functionSteps mapper functions).value = functions.flatMap (functionCode mapper) := by
  induction functions with
  | nil => rfl
  | cons entry rest ih =>
    obtain ⟨name, function⟩ := entry
    rw [List.flatMap_cons, ← ih, functionSteps, functionCode]
    cases signature? mapper function with
    | some lines => rfl
    | none => rfl

def commandsOpening (config : Config) : String :=
  textAt 0 (Code.opening config.rootNamespace ["System.Runtime.InteropServices"] none) ++
    textAt 0 [.line (config.visibility ++ " static unsafe partial class " ++ config.className),
      .line "\x7b"] ++
    textAt 1 [.line
      (config.visibility ++ " const string LibraryName = \"" ++ config.libraryName ++ "\";")]

def functionText (mapper : TypeMapper) (entry : String × Prototype) : String :=
  textAt 1 (functionCode mapper entry)

theorem commands_isConcatenation (config : Config) (mapper : TypeMapper) :
    IsConcatenation (commands config mapper) (commandsOpening config) (functionText mapper)
      "\x7d\n" := by
  intro functions
  have hclosing : textAt 0 [.line "\x7d"] = "\x7d\n" := by decide
  have hbody (first : Step) (rest : List Step) :
      textAt 1 (first :: rest) = textAt 1 [first] ++ textAt 1 rest :=
    Code.textAt_append [first] rest
  rw [commands, Logged.value_bind, Logged.value_pure, GeneratedFile.contents_ofSteps,
    functionSteps_value, Code.textAt_block, hbody, Code.textAt_flatMap, hclosing, commandsOpening]
  simp only [String.append_assoc]
  rfl

/-! Constants -/

def isConstantWritten (config : Config) (entry : String × Macro) : Bool :=
  Constant.isFormed config.constants entry.2

/-- The constants that are known behind a macro without one are those that were known before it. -/
theorem constantSteps_filter (known : Constant.Known) (macros : List (String × Macro)) :
    (constantSteps config mapper known (macros.filter (isConstantWritten config))).value =
      (constantSteps config mapper known macros).value := by
  induction macros generalizing known with
  | nil => rfl
  | cons entry rest ih =>
    obtain ⟨name, m⟩ := entry
    have hsome := Constant.isSome_ofMacro? mapper config.constants known m
    cases hwritten : isConstantWritten config (name, m) with
    | true =>
      obtain ⟨constant, hconstant⟩ := Option.isSome_iff_exists.mp (hsome.trans hwritten)
      rw [List.filter_cons_of_pos hwritten, constantSteps, constantSteps, Logged.value_bind,
        Logged.value_bind, hconstant]
      simp only [Logged.value_bind, Logged.value_pure, ih]
    | false =>
      have hnone := Option.isNone_iff_eq_none.mp
        (Option.isSome_eq_false_iff.mp (hsome.trans hwritten))
      rw [List.filter_cons_of_neg (by simp [hwritten]), ih, constantSteps, Logged.value_bind, hnone]
      rfl

/-! Files -/

/-- What is left out leaves no trace in the file of records, in that of functions and in that of
constants, and the first two have a text of its own for each record and each function. A type without
a managed name is one whose mapping returns and gives none; a mapping that goes round a cycle of
typedefs does not return, and leaves nothing out. -/
theorem skipped_leaveNoTrace (config : Config) (mapper : TypeMapper) :
    (LeavesNoTrace (structs config mapper) (isStructWritten config mapper) ∧
        ∀ name record, isStructWritten config mapper (name, record) = true ↔
          IsLaidOut mapper name record.fields) ∧
      (LeavesNoTrace (commands config mapper) (isFunctionWritten mapper) ∧
        ∀ name function, isFunctionWritten mapper (name, function) = true ↔
          ∀ type ∈ signatureTypes function, (mapper.map type).isSome = true) ∧
      (LeavesNoTrace (constants config mapper) (isConstantWritten config) ∧
        ∀ name m known, isConstantWritten config (name, m) =
          (Constant.ofMacro? config.constants mapper known m).value.isSome) ∧
      IsConcatenation (structs config mapper) (structsOpening config) (structText config mapper)
        "" ∧
      (∀ entry, structText config mapper entry = textAt 0 (structFragment config mapper entry)) ∧
      IsConcatenation (commands config mapper) (commandsOpening config) (functionText mapper)
        "\x7d\n" := by
  refine ⟨⟨fun records => ?_, fun name record => isOk_structSteps config name record⟩,
    ⟨fun functions => ?_, fun name function => isSome_signature? function⟩,
    ⟨fun macros => ?_, fun name m known => (Constant.isSome_ofMacro? mapper _ known m).symm⟩,
    structs_isConcatenation config mapper, fun entry => (textAt_structFragment entry).symm,
    commands_isConcatenation config mapper⟩
  · rw [structs, structs, Logged.value_bind, Logged.value_bind, allStructSteps_value,
      allStructSteps_value, flatMap_filter_of_nil fun _ => structCode_of_not_isStructWritten]
  · rw [commands, commands, Logged.value_bind, Logged.value_bind, functionSteps_value,
      functionSteps_value, flatMap_filter_of_nil fun _ => functionCode_of_not_isFunctionWritten]
  · rw [constants, constants, Logged.value_bind, Logged.value_bind, constantSteps_filter]

end Emit

end HeaderInterop
