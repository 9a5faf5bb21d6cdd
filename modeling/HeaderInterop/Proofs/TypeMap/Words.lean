import HeaderInterop.TypeMap

/-!
Words of managed types. A managed type is text, in which names that the mapping has put there stand
among words of the managed language.
-/

namespace HeaderInterop

/-- Stands between the words of a managed type. -/
def isSeparator (char : Char) : Bool :=
  ['*', '<', '>', ',', ' '].contains char

/-- The words of a managed type, in order. -/
def words (managed : List Char) : List (List Char) :=
  (managed.splitOnP isSeparator).filter fun word => !word.isEmpty

/-- The words of the managed language: its own, and those that no native name stands behind. -/
def ownWords : List String :=
  ["void", "bool", "sbyte", "byte", "ushort", "short", "int", "uint", "CLong", "CULong", "long",
   "ulong", "float", "double", "nint", "delegate", "unmanaged"]

/-- The name is a word of the managed type, and none of the language. -/
def Names (name managed : String) : Prop :=
  name.toList ∈ words managed.toList ∧ name ∉ ownWords

instance (name managed : String) : Decidable (Names name managed) :=
  inferInstanceAs (Decidable (_ ∧ _))

theorem words_nil : words [] = [] :=
  rfl

theorem words_append_separator {char : Char} (h : isSeparator char = true)
    (before after : List Char) :
    words (before ++ char :: after) = words before ++ words after := by
  rw [words, List.splitOnP_append_cons before after h, List.filter_append]
  rfl

theorem words_starred (pointer : Bool) (managed : String) :
    words (TypeMapper.starred pointer managed).toList = words managed.toList := by
  cases pointer with
  | false => rfl
  | true =>
    rw [TypeMapper.starred, if_pos rfl, String.toList_append]
    exact (words_append_separator rfl managed.toList []).trans (List.append_nil _)

theorem words_intercalate (parts : List String) :
    words (", ".intercalate parts).toList = parts.flatMap fun part => words part.toList := by
  induction parts with
  | nil => rfl
  | cons part rest ih =>
    cases rest with
    | nil => simp
    | cons other rest =>
      rw [String.intercalate_cons_cons, List.flatMap_cons, ← ih, String.toList_append,
        String.toList_append, List.append_assoc]
      exact (words_append_separator rfl part.toList _).trans
        (congrArg (words part.toList ++ ·) (words_append_separator rfl [] _))

variable {name : String}

theorem names_starred {pointer : Bool} {managed : String} :
    Names name (TypeMapper.starred pointer managed) ↔ Names name managed := by
  rw [Names, words_starred, Names]

theorem not_names_of_words {managed : String}
    (h : words managed.toList = [managed.toList] ∧ managed ∈ ownWords) : ¬ Names name managed := by
  rintro ⟨hword, hown⟩
  rw [h.1, List.mem_singleton, String.toList_inj] at hword
  exact hown (hword ▸ h.2)

theorem TypeMapper.toList_delegateText (parts : List String) :
    (delegateText parts).toList =
      "delegate* unmanaged".toList ++ '<' :: ((", ".intercalate parts).toList ++ ['>']) := by
  have hopening : "delegate* unmanaged<".toList = "delegate* unmanaged".toList ++ ['<'] := by
    decide
  have hclosing : ">".toList = ['>'] := by decide
  unfold delegateText
  rw [String.toList_append, String.toList_append, hopening, hclosing, List.append_assoc,
    List.append_assoc, List.singleton_append]

theorem words_delegateText (parts : List String) :
    words (TypeMapper.delegateText parts).toList =
      "delegate".toList :: "unmanaged".toList :: parts.flatMap fun part => words part.toList := by
  have hless : isSeparator '<' = true := rfl
  have hgreater : isSeparator '>' = true := rfl
  have hwords : words "delegate* unmanaged".toList =
      ["delegate".toList, "unmanaged".toList] := by decide
  rw [TypeMapper.toList_delegateText, words_append_separator hless, words_append_separator hgreater,
    words_intercalate, hwords, words_nil, List.append_nil, List.cons_append, List.cons_append,
    List.nil_append]

theorem names_delegateText {parts : List String} :
    Names name (TypeMapper.delegateText parts) ↔ ∃ part ∈ parts, Names name part := by
  rw [Names, words_delegateText]
  simp only [List.mem_cons, String.toList_inj, List.mem_flatMap, Names]
  constructor
  · rintro ⟨rfl | rfl | ⟨part, hpart, hword⟩, hown⟩
    · exact absurd (by decide) hown
    · exact absurd (by decide) hown
    · exact ⟨part, hpart, hword, hown⟩
  · rintro ⟨part, hpart, hword, hown⟩
    exact ⟨Or.inr (Or.inr ⟨part, hpart, hword⟩), hown⟩

namespace TypeMapper

theorem getLast?_delegateText (parts : List String) :
    (delegateText parts).toList.getLast? = some '>' := by
  rw [toList_delegateText, ← List.cons_append, ← List.append_assoc, List.getLast?_concat]

theorem delegateText_ne_nint (parts : List String) : delegateText parts ≠ "nint" := by
  intro hnint
  have hlast := getLast?_delegateText parts
  have hchars : "nint".toList = ['n', 'i', 'n', 't'] := by decide
  rw [hnint, hchars] at hlast
  simp at hlast

/-- Function pointers that differ in one part are different. -/
theorem delegateText_inj {before after : List String} {first second : String} :
    delegateText (before ++ first :: after) = delegateText (before ++ second :: after) ↔
      first = second := by
  unfold delegateText
  rw [String.append_left_inj, String.append_right_inj]
  induction before with
  | nil =>
    cases after with
    | nil => simp
    | cons other after =>
      rw [List.nil_append, List.nil_append, String.intercalate_cons_cons,
        String.intercalate_cons_cons, String.append_left_inj, String.append_left_inj]
  | cons part before ih =>
    rw [List.cons_append, List.cons_append, String.intercalate_cons_of_ne_nil (by simp),
      String.intercalate_cons_of_ne_nil (by simp), String.append_right_inj, ih]

theorem not_names_primitive {pointer : Bool} {kind : Primitive} {managed : String}
    (h : primitive? pointer kind = some managed) : ¬ Names name managed := by
  have hnames : ∀ kind managed, primitiveName? kind = some managed →
      words managed.toList = [managed.toList] ∧ managed ∈ ownWords := by
    rintro kind managed hname
    cases kind <;> cases hname <;> decide
  rw [primitive?] at h
  split at h
  · obtain rfl := Option.some.inj h
    cases pointer <;> exact not_names_of_words (by decide)
  · obtain ⟨word, hword, rfl⟩ := Option.map_eq_some_iff.mp h
    rw [names_starred]
    exact not_names_of_words (hnames kind word hword)

theorem not_names_voidPointer : ¬ Names name "void*" := by
  have hvoid : "void*" = starred true "void" := by decide
  rw [hvoid, names_starred]
  exact not_names_of_words (by decide)

end TypeMapper

end HeaderInterop
