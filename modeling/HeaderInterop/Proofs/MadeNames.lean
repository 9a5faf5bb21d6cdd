import Mathlib.Data.List.Nodup
import Mathlib.Data.List.ReduceOption

/-!
Names that are made up. Where a list of names has a gap, the gap is filled with a name that is made
from a number. Made names of different numbers are different, so the filled list is free of
repetitions as long as no made name is one of those that the list has by itself.
-/

namespace HeaderInterop

/-- Names with gaps, each entry with a number. -/
abbrev GappedNames := List (Option String × Nat)

namespace GappedNames

variable {own : String → String} {made : Nat → String} {entries : GappedNames}

/-- A name of the list as it is written, or the one that is made from the number. -/
def filled (own : String → String) (made : Nat → String) (entry : Option String × Nat) : String :=
  match entry.1 with
  | some name => own name
  | none => made entry.2

/-- The names that the list has by itself. -/
def names (entries : GappedNames) : List String :=
  entries.filterMap Prod.fst

/-- The numbers of the gaps. -/
def gaps (entries : GappedNames) : List Nat :=
  (entries.filter fun entry => entry.1.isNone).map Prod.snd

theorem mem_gaps {number : Nat} : number ∈ gaps entries ↔ (none, number) ∈ entries := by
  simp [gaps]

/-- The filled list is the list's own names and the made ones, in another order. -/
theorem perm_filled (own : String → String) (made : Nat → String) (entries : GappedNames) :
    (entries.map (filled own made)).Perm ((names entries).map own ++ (gaps entries).map made) := by
  induction entries with
  | nil => exact .nil
  | cons entry rest ih =>
    obtain ⟨name, number⟩ := entry
    cases name with
    | some name => exact ih.cons (own name)
    | none => exact (ih.cons (made number)).trans List.perm_middle.symm

theorem nodup_filled_iff (hgaps : (gaps entries).Nodup)
    (hmade : Function.Injective made) :
    (entries.map (filled own made)).Nodup ↔
      ((names entries).map own).Nodup ∧
        ∀ number ∈ gaps entries, made number ∉ (names entries).map own := by
  have hnumbered : ((gaps entries).map made).Nodup := hgaps.map hmade
  rw [(perm_filled own made entries).nodup_iff, List.nodup_append', List.disjoint_right,
    and_iff_right hnumbered, List.forall_mem_map]

/-- The names of a list, with its gaps counted from the start. -/
def ofLabels (start : Nat) : List (Option String) → GappedNames
  | [] => []
  | some name :: rest => (some name, start) :: ofLabels start rest
  | none :: rest => (none, start) :: ofLabels (start + 1) rest

theorem names_ofLabels (start : Nat) (labels : List (Option String)) :
    (ofLabels start labels).names = labels.reduceOption := by
  induction labels generalizing start with
  | nil => rfl
  | cons label rest ih =>
    cases label with
    | none => exact ih (start + 1)
    | some name => exact congrArg (name :: ·) (ih start)

theorem gaps_ofLabels (start : Nat) (labels : List (Option String)) :
    (ofLabels start labels).gaps = List.range' start (labels.count none) := by
  induction labels generalizing start with
  | nil => rfl
  | cons label rest ih =>
    cases label with
    | none =>
      rw [List.count_cons_self, List.range'_succ, ← ih (start + 1)]
      rfl
    | some name =>
      rw [List.count_cons_of_ne (by simp), ← ih start]
      rfl

end GappedNames

/-- Numbers behind a word make different names. -/
theorem injective_append_toString (word : String) :
    Function.Injective fun number : Nat => word ++ toString number := by
  intro number other h
  have htexts := congrArg String.toList h
  simp only [String.toList_append, List.append_cancel_left_eq] at htexts
  have hnumbers := congrArg (fun digits => Nat.ofDigitChars 10 digits 0) htexts
  simpa [Nat.toString_eq_ofList_toDigits] using hnumbers

end HeaderInterop
