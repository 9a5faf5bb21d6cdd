import HeaderInterop.CType.Normal
import HeaderInterop.Proofs.TypeMap.Words

/-!
Managed types as expressions. A managed type is a word or a function pointer with its arguments, and
stars. The arguments can be read off the text of a function pointer: a comma separates them where no
bracket is open, since words have neither brackets nor commas.
-/

namespace HeaderInterop.TypeMapper

/-- A built-in name, a name that the settings put in the place of another, or a native one. -/
inductive IsWord (settings : TypeSettings) : String → Prop where
  | builtIn {kind name} (h : primitiveName? kind = some name) : IsWord settings name
  | address : IsWord settings "nint"
  | managed {mapping} (h : mapping ∈ settings.mappings ++ settings.boolLike) :
      IsWord settings mapping.managed
  | native {name} (h : isName name = true) : IsWord settings name

/-- A word, or a function pointer whose arguments are expressions, followed by any number of
stars. -/
inductive IsExpression (settings : TypeSettings) : String → Prop where
  | word {text} (h : IsWord settings text) : IsExpression settings text
  | delegate {arguments} (hne : arguments ≠ [])
      (h : ∀ argument ∈ arguments, IsExpression settings argument) :
      IsExpression settings (delegateText arguments)
  | star {text} (h : IsExpression settings text) : IsExpression settings (text ++ "*")

/-- What the arguments of a function pointer are told apart by. -/
def argumentMarks : List Char :=
  ['<', '>', ',']

def isUnmarked (text : List Char) : Bool :=
  text.all fun char => !argumentMarks.contains char

/-- The names that the settings put in the place of others have no mark of arguments in them. -/
def Unmarked (settings : TypeSettings) : Prop :=
  ∀ mapping ∈ settings.mappings ++ settings.boolLike, isUnmarked mapping.managed.toList = true

instance (settings : TypeSettings) : Decidable (Unmarked settings) :=
  inferInstanceAs (Decidable (∀ mapping ∈ _, _))

/-- The number of open brackets behind a character, from that in front of it. -/
def depthBehind (depth : Nat) (char : Char) : Nat :=
  if char = '<' then depth + 1 else if char = '>' then depth - 1 else depth

/-- The pieces between the commas that stand in no bracket. -/
def splitArguments (depth : Nat) : List Char → List (List Char)
  | [] => [[]]
  | char :: rest =>
    if char = ',' ∧ depth = 0 then [] :: splitArguments 0 rest
    else (splitArguments (depthBehind depth char) rest).modifyHead (char :: ·)

/-- The arguments of a function pointer. Each stands behind a blank, the first one behind the opening
bracket. -/
def argumentsOf (managed : String) : List String :=
  let inside := (managed.toList.drop "delegate* unmanaged<".length).dropLast
  (splitArguments 0 (' ' :: inside)).map fun piece => String.ofList piece.tail

/-! Reading arguments -/

/-- With at least so many brackets open in front of it, the text stays inside one argument and leaves
as many open. -/
def StaysInside (least : Nat) (text : List Char) : Prop :=
  ∀ depth, least ≤ depth → ∀ rest,
    splitArguments depth (text ++ rest) = (splitArguments depth rest).modifyHead (text ++ ·)

theorem splitArguments_cons {depth : Nat} {char : Char} (h : char = ',' → depth ≠ 0)
    (rest : List Char) :
    splitArguments depth (char :: rest) =
      (splitArguments (depthBehind depth char) rest).modifyHead (char :: ·) := by
  rw [splitArguments, if_neg fun hcomma => h hcomma.1 hcomma.2]

namespace StaysInside

variable {least : Nat} {text other : List Char}

theorem nil : StaysInside least [] := by
  intro depth _ rest
  exact (congrFun List.modifyHead_id _).symm

theorem append (h : StaysInside least text) (hother : StaysInside least other) :
    StaysInside least (text ++ other) := by
  intro depth hdepth rest
  rw [List.append_assoc, h depth hdepth, hother depth hdepth, List.modifyHead_modifyHead]
  congr 1
  funext piece
  exact (List.append_assoc text other piece).symm

theorem mono (h : StaysInside least text) {more : Nat} (hmore : least ≤ more) :
    StaysInside more text :=
  fun depth hdepth rest => h depth (Nat.le_trans hmore hdepth) rest

theorem comma : StaysInside 1 [','] := by
  intro depth hdepth rest
  exact splitArguments_cons (fun _ => by omega) rest

theorem of_unmarked (h : isUnmarked text = true) : StaysInside 0 text := by
  induction text with
  | nil => exact nil
  | cons char text ih =>
    obtain ⟨hchar, htext⟩ := Bool.and_eq_true_iff.mp h
    simp only [argumentMarks, Bool.not_eq_true', List.contains_eq_mem, List.mem_cons,
      decide_eq_false_iff_not, not_or] at hchar
    have hone : StaysInside 0 [char] := by
      intro depth _ rest
      have hdepth : depthBehind depth char = depth := by
        rw [depthBehind, if_neg hchar.1, if_neg hchar.2.1]
      rw [List.singleton_append, splitArguments_cons (fun hcomma => absurd hcomma hchar.2.2.1), hdepth]
      rfl
    exact hone.append (ih htext)

/-- Brackets keep the commas between them. -/
theorem bracketed (h : StaysInside 1 text) : StaysInside 0 ('<' :: (text ++ ['>'])) := by
  intro depth _ rest
  -- Behind the closing bracket the depth is that in front of the opening one, be it zero.
  have hopen : depthBehind depth '<' = depth + 1 := rfl
  have hclose : depthBehind (depth + 1) '>' = depth := rfl
  rw [List.cons_append, List.append_assoc, List.singleton_append,
    splitArguments_cons (fun hcomma => absurd hcomma (by decide)), hopen, h (depth + 1) (by omega),
    splitArguments_cons (fun hcomma => absurd hcomma (by decide)), hclose,
    List.modifyHead_modifyHead, List.modifyHead_modifyHead]
  congr 1
  funext piece
  simp

theorem intercalate {parts : List String} (h : ∀ part ∈ parts, StaysInside 0 part.toList) :
    StaysInside 1 (", ".intercalate parts).toList := by
  have hseparator : ", ".toList = [','] ++ [' '] := by decide
  have hblank : StaysInside 0 [' '] := of_unmarked (by decide)
  induction parts with
  | nil => exact nil
  | cons part rest ih =>
    obtain ⟨hpart, hrest⟩ := List.forall_mem_cons.mp h
    have hpart : StaysInside 1 part.toList := hpart.mono (Nat.zero_le 1)
    cases rest with
    | nil => simpa using hpart
    | cons other rest =>
      rw [String.intercalate_cons_cons, String.toList_append, String.toList_append, hseparator]
      exact (hpart.append (comma.append (hblank.mono (Nat.zero_le 1)))).append (ih hrest)

end StaysInside

theorem splitArguments_intercalate {parts : List String} (hne : parts ≠ [])
    (h : ∀ part ∈ parts, StaysInside 0 part.toList) :
    splitArguments 0 (' ' :: (", ".intercalate parts).toList) =
      parts.map fun part => ' ' :: part.toList := by
  have hseparator : ", ".toList = [',', ' '] := by decide
  induction parts with
  | nil => exact absurd rfl hne
  | cons part rest ih =>
    obtain ⟨hpart, hrest⟩ := List.forall_mem_cons.mp h
    have hblank : StaysInside 0 (' ' :: part.toList) :=
      (StaysInside.of_unmarked (show isUnmarked [' '] = true by decide)).append hpart
    cases rest with
    | nil =>
      have hread := hblank 0 (Nat.le_refl 0) []
      simpa [splitArguments] using hread
    | cons other rest =>
      rw [String.intercalate_cons_cons, String.toList_append, String.toList_append, hseparator,
        List.append_assoc, ← List.cons_append, hblank 0 (Nat.le_refl 0), List.cons_append, splitArguments,
        if_pos ⟨rfl, rfl⟩, List.cons_append, List.nil_append,
        ih (List.cons_ne_nil other rest) hrest, List.modifyHead_cons, List.append_nil]
      rfl

theorem argumentsOf_delegateText {arguments : List String} (hne : arguments ≠ [])
    (h : ∀ argument ∈ arguments, StaysInside 0 argument.toList) :
    argumentsOf (delegateText arguments) = arguments := by
  have hlength : "delegate* unmanaged<".length = "delegate* unmanaged".toList.length + 1 := by
    decide
  have hinside : ((delegateText arguments).toList.drop "delegate* unmanaged<".length).dropLast =
      (", ".intercalate arguments).toList := by
    rw [toList_delegateText, hlength, ← List.drop_drop, List.drop_left, List.drop_succ_cons,
      List.drop_zero, List.dropLast_concat]
  have hread : argumentsOf (delegateText arguments) =
      (splitArguments 0 (' ' :: (", ".intercalate arguments).toList)).map fun piece =>
        String.ofList piece.tail := by
    rw [argumentsOf, hinside]
  rw [hread, splitArguments_intercalate hne h, List.map_map]
  exact (List.map_congr_left fun argument _ => String.ofList_toList).trans (List.map_id arguments)

/-! Marks in expressions -/

theorem isUnmarked_of_isName {name : String} (h : isName name = true) :
    isUnmarked name.toList = true := by
  have hpart : ∀ char ∈ name.toList, Text.isNamePart char = true := by
    unfold isName at h
    split at h
    · cases h
    next first rest hname =>
      obtain ⟨hfirst, hrest⟩ := Bool.and_eq_true_iff.mp h
      rw [hname]
      exact List.forall_mem_cons.mpr
        ⟨Text.isNamePart_of_isNameStart hfirst, List.all_eq_true.mp hrest⟩
  have hmarks : (argumentMarks.all fun mark => !Text.isNamePart mark) = true := by decide
  refine List.all_eq_true.mpr fun char hchar => ?_
  rw [Bool.not_eq_true', List.contains_eq_mem, decide_eq_false_iff_not]
  intro hmark
  have hother := List.all_eq_true.mp hmarks char hmark
  rw [hpart char hchar] at hother
  cases hother

section Unmarked

variable {settings : TypeSettings} (hunmarked : Unmarked settings)
include hunmarked

theorem IsWord.isUnmarked {text : String} (h : IsWord settings text) :
    isUnmarked text.toList = true := by
  cases h with
  | @builtIn kind _ hname => cases kind <;> cases hname <;> decide
  | address => decide
  | managed hmapping => exact hunmarked _ hmapping
  | native hname => exact isUnmarked_of_isName hname

theorem IsExpression.staysInside {text : String} (h : IsExpression settings text) :
    StaysInside 0 text.toList := by
  induction h with
  | word hword => exact .of_unmarked (hword.isUnmarked hunmarked)
  | delegate _ _ ih =>
    rw [toList_delegateText]
    have hopening : StaysInside 0 "delegate* unmanaged".toList := .of_unmarked (by decide)
    exact hopening.append (StaysInside.intercalate ih).bracketed
  | star _ ih =>
    rw [String.toList_append]
    exact ih.append (.of_unmarked (by decide))

end Unmarked

end HeaderInterop.TypeMapper
