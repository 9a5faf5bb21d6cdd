import Mathlib.Data.List.Nodup
import HeaderInterop.TypeMap

/-!
Names as identifiers. What a reserved word is written as is none, so the names that are escaped can
stand anywhere. No reserved word has an underscore or the escape in it, so a name that is made up
with one of them does not need an escape.
-/

namespace HeaderInterop

variable {name other : String}

theorem escape_notMem_of_reserved : ∀ word ∈ reservedWords, '@' ∉ word.toList := by
  decide +kernel

theorem underscore_notMem_of_reserved : ∀ word ∈ reservedWords, '_' ∉ word.toList := by
  decide +kernel

theorem identifier_of_reserved (h : name ∈ reservedWords) : identifier name = "@" ++ name := by
  rw [identifier, List.contains_iff_mem.mpr h, if_pos rfl]

theorem identifier_of_not_reserved (h : name ∉ reservedWords) : identifier name = name := by
  rw [identifier, if_neg fun hcontains => h (List.contains_iff_mem.mp hcontains)]

theorem escaped_notMem_reservedWords (name : String) : "@" ++ name ∉ reservedWords := by
  intro h
  exact escape_notMem_of_reserved _ h (by simp)

/-- Two names are written alike if one of them is how the other is escaped. -/
theorem identifier_eq_iff :
    identifier name = identifier other ↔ name = other ∨
      (name ∈ reservedWords ∧ other = "@" ++ name) ∨
      (other ∈ reservedWords ∧ name = "@" ++ other) := by
  by_cases hname : name ∈ reservedWords <;> by_cases hother : other ∈ reservedWords
  · have hescaped (word : String) (h : word ∈ reservedWords) (name : String) :
        word ≠ "@" ++ name := fun heq => escaped_notMem_reservedWords name (heq ▸ h)
    rw [identifier_of_reserved hname, identifier_of_reserved hother, String.append_right_inj]
    simp [hescaped name hname, hescaped other hother]
  · rw [identifier_of_reserved hname, identifier_of_not_reserved hother]
    have hne : name ≠ other := fun heq => hother (heq ▸ hname)
    simp [hname, hother, hne, eq_comm]
  · rw [identifier_of_not_reserved hname, identifier_of_reserved hother]
    have hne : name ≠ other := fun heq => hname (heq ▸ hother)
    simp [hname, hother, hne]
  · rw [identifier_of_not_reserved hname, identifier_of_not_reserved hother]
    simp [hname, hother]

/-- A word that does not need an escape is written for itself only. -/
theorem mem_map_identifier_iff {word : String} {names : List String} (hword : word ∉ reservedWords)
    (hescape : word.toList.head? ≠ some '@') : word ∈ names.map identifier ↔ word ∈ names := by
  have hname (name : String) : identifier name = word ↔ name = word := by
    by_cases hname : name ∈ reservedWords
    · rw [identifier_of_reserved hname]
      refine iff_of_false ?_ fun heq => hword (heq ▸ hname)
      rintro rfl
      exact hescape (by simp)
    · rw [identifier_of_not_reserved hname]
  simp only [List.mem_map, hname, exists_eq_right]

/-- Different names are written differently unless one of them is how another is escaped. -/
theorem nodup_map_identifier_iff {names : List String} :
    (names.map identifier).Nodup ↔
      names.Nodup ∧ ∀ word ∈ reservedWords, word ∈ names → "@" ++ word ∉ names := by
  constructor
  · intro hwritten
    have hnames : names.Nodup := hwritten.of_map
    refine ⟨hnames, fun word hword hmem hescaped => ?_⟩
    have hsame : identifier word = identifier ("@" ++ word) :=
      identifier_eq_iff.mpr (Or.inr (Or.inl ⟨hword, rfl⟩))
    have heq := (List.nodup_map_iff_inj_on hnames).mp hwritten _ hmem _ hescaped hsame
    exact escaped_notMem_reservedWords word (heq ▸ hword)
  · rintro ⟨hnames, hfree⟩
    rw [List.nodup_map_iff_inj_on hnames]
    intro name hname other hother hsame
    rcases identifier_eq_iff.mp hsame with heq | ⟨hword, rfl⟩ | ⟨hword, rfl⟩
    · exact heq
    · exact absurd hother (hfree name hword hname)
    · exact absurd hname (hfree other hword hother)

end HeaderInterop
