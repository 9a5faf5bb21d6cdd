import HeaderInterop.Proofs.Text.Numerals
import Mathlib.Data.List.Basic
import Mathlib.Data.List.TakeWhile

/-!
Fractions with a letter in them. A letter is the mark of an exponent or it makes the text no
fraction, so what is in front of it is a fraction by itself and what is behind it are digits.
-/

namespace HeaderInterop.Text

/-- Nothing, or an exponent: its mark, a sign and digits. -/
def isExponent : List Char → Bool
  | [] => true
  | e :: rest => (e == 'e' || e == 'E') && (digits? (dropSign rest)).isSome

theorem isFraction_of_point {cs behind : List Char}
    (h : (dropSign cs).dropWhile Char.isDigit = '.' :: behind) :
    isFraction cs =
      ((!((dropSign cs).takeWhile Char.isDigit).isEmpty ||
          !(behind.takeWhile Char.isDigit).isEmpty) &&
        isExponent (behind.dropWhile Char.isDigit)) := by
  unfold isFraction
  simp only [h]
  rfl

theorem isFraction_of_no_point {cs behind : List Char}
    (h : (dropSign cs).dropWhile Char.isDigit = behind) (hpoint : behind.head? ≠ some '.') :
    isFraction cs =
      (!((dropSign cs).takeWhile Char.isDigit).isEmpty && isExponent behind) := by
  unfold isFraction
  simp only [h]
  split
  next rest => exact absurd rfl hpoint
  next =>
    rw [List.isEmpty_nil, Bool.not_true, Bool.or_false]
    rfl

/-- A number with a point in it and no exponent. -/
structure IsPointed (cs : List Char) : Prop where
  isFraction_eq : isFraction cs = true
  mem_point : '.' ∈ cs
  small_notMem : 'e' ∉ cs
  capital_notMem : 'E' ∉ cs

theorem dropSign_suffix (cs : List Char) : dropSign cs <:+ cs := by
  unfold dropSign
  split
  next => exact List.suffix_cons _ _
  next => exact List.suffix_cons _ _
  next => exact List.suffix_refl _

theorem dropSign_subset (cs : List Char) : dropSign cs ⊆ cs :=
  (dropSign_suffix cs).subset

theorem mem_dropSign {cs : List Char} {c : Char} (hmem : c ∈ cs) (hsign : c ≠ '+' ∧ c ≠ '-') :
    c ∈ dropSign cs := by
  unfold dropSign
  split
  next => exact (List.mem_cons.mp hmem).resolve_left hsign.1
  next => exact (List.mem_cons.mp hmem).resolve_left hsign.2
  next => exact hmem

theorem digits?_dropSign_eq_none {rest : List Char} {c : Char} (hmem : c ∈ rest)
    (hdigit : c.isDigit = false) (hsign : c ≠ '+' ∧ c ≠ '-') : digits? (dropSign rest) = none := by
  rw [digits?, if_neg]
  rw [Bool.and_eq_true, not_and, List.all_eq_true]
  intro _ hall
  rw [hall c (mem_dropSign hmem hsign)] at hdigit
  cases hdigit

theorem isSome_digits?_dropSign {digits : List Char} (hne : digits ≠ [])
    (hall : ∀ c ∈ digits, c.isDigit = true) :
    (digits? (dropSign digits)).isSome = true := by
  have hdrop : dropSign digits = digits := by
    unfold dropSign
    split
    next => exact absurd (hall '+' (by simp)) (by decide)
    next => exact absurd (hall '-' (by simp)) (by decide)
    next => rfl
  rw [hdrop, digits?, if_pos]
  · rfl
  · simpa [hne] using hall

/-- Digits end in one. -/
theorem isDigit_getLast? {cs : List Char}
    (h : (digits? (dropSign cs)).isSome = true) :
    ∀ c ∈ cs.getLast?, c.isDigit = true := by
  obtain ⟨value, hvalue⟩ := Option.isSome_iff_exists.mp h
  obtain ⟨hne, hall⟩ := digits?_eq_some hvalue
  obtain ⟨sign, hsign⟩ := dropSign_suffix cs
  intro c hc
  rw [← hsign, List.getLast?_append_of_ne_nil _ hne] at hc
  exact List.all_eq_true.mp hall c (List.mem_of_getLast? hc)

theorem isExponent_append_cons {c : Char} (hdigit : c.isDigit = false) (hsign : c ≠ '+' ∧ c ≠ '-')
    (front rest : List Char) :
    isExponent (front ++ c :: rest) = true ↔
      front = [] ∧ (c = 'e' ∨ c = 'E') ∧ (digits? (dropSign rest)).isSome = true := by
  cases front with
  | nil => simp [isExponent]
  | cons e front =>
    have hmem : c ∈ front ++ c :: rest := by simp
    have hnone := digits?_dropSign_eq_none hmem hdigit hsign
    simp [isExponent, hnone]

/-- An exponent has a mark. -/
theorem mem_of_isExponent {cs : List Char} (h : isExponent cs = true) (hne : cs ≠ []) :
    'e' ∈ cs ∨ 'E' ∈ cs := by
  obtain ⟨e, rest, rfl⟩ := List.exists_cons_of_ne_nil hne
  rcases (by simpa using (Bool.and_eq_true_iff.mp h).1 : e = 'e' ∨ e = 'E') with rfl | rfl
  · exact Or.inl List.mem_cons_self
  · exact Or.inr List.mem_cons_self

theorem dropWhile_append_cons {c : Char} (hdigit : c.isDigit = false) (front rest : List Char) :
    (front ++ c :: rest).dropWhile Char.isDigit = front.dropWhile Char.isDigit ++ c :: rest := by
  rw [List.dropWhile_append]
  split
  next hempty =>
    rw [List.isEmpty_iff.mp hempty, List.dropWhile_cons_of_neg (by simp [hdigit]), List.nil_append]
  next => rfl

theorem takeWhile_append_cons {c : Char} (hdigit : c.isDigit = false) (front rest : List Char) :
    (front ++ c :: rest).takeWhile Char.isDigit = front.takeWhile Char.isDigit := by
  rw [List.takeWhile_append]
  split
  next hall =>
    rw [List.takeWhile_cons_of_neg (by simp [hdigit]), List.append_nil,
      (List.takeWhile_prefix Char.isDigit).eq_of_length hall]
  next => rfl

theorem dropSign_append_cons {c : Char} (hsign : c ≠ '+' ∧ c ≠ '-') (front rest : List Char) :
    dropSign (front ++ c :: rest) = dropSign front ++ c :: rest := by
  cases front with
  | nil =>
    unfold dropSign
    split <;> simp_all
  | cons s front =>
    unfold dropSign
    split <;> simp_all

/-- Behind a point there are digits only, or an exponent is there too. -/
theorem isPointed_iff {cs behind : List Char}
    (h : (dropSign cs).dropWhile Char.isDigit = '.' :: behind) :
    IsPointed cs ↔
      (((dropSign cs).takeWhile Char.isDigit).isEmpty = false ∨
          (behind.takeWhile Char.isDigit).isEmpty = false) ∧
        behind.dropWhile Char.isDigit = [] := by
  have hsplit := List.takeWhile_append_dropWhile (p := Char.isDigit) (l := dropSign cs)
  rw [h] at hsplit
  have hsubset : '.' :: behind ⊆ cs := by
    rw [← h]
    exact List.Subset.trans (List.dropWhile_subset _) (dropSign_subset cs)
  constructor
  · rintro ⟨hfraction, -, hsmall, hcapital⟩
    rw [isFraction_of_point h] at hfraction
    obtain ⟨hdigits, hexponent⟩ := Bool.and_eq_true_iff.mp hfraction
    refine ⟨by simpa using hdigits, Classical.byContradiction fun hne => ?_⟩
    have hbehind : behind.dropWhile Char.isDigit ⊆ cs :=
      List.Subset.trans (List.dropWhile_subset _)
        (List.Subset.trans (List.subset_cons_self _ _) hsubset)
    rcases mem_of_isExponent hexponent hne with hmem | hmem
    · exact hsmall (hbehind hmem)
    · exact hcapital (hbehind hmem)
  · rintro ⟨hdigits, hnone⟩
    have hall := List.dropWhile_eq_nil_iff.mp hnone
    have hletter {c : Char} (hdigit : c.isDigit = false) (hpoint : c ≠ '.')
        (hsign : c ≠ '+' ∧ c ≠ '-') : c ∉ cs := by
      intro hmem
      have hdrop := mem_dropSign hmem hsign
      rw [← hsplit, List.mem_append, List.mem_cons] at hdrop
      rcases hdrop with hwhole | rfl | hpart
      · rw [List.mem_takeWhile_imp hwhole] at hdigit
        cases hdigit
      · exact hpoint rfl
      · rw [hall c hpart] at hdigit
        cases hdigit
    refine ⟨?_, hsubset List.mem_cons_self, hletter (by decide) (by decide) (by decide),
      hletter (by decide) (by decide) (by decide)⟩
    rw [isFraction_of_point h, hnone]
    simpa [isExponent] using hdigits

/-- Without a point right behind the first digits there is none in a number. -/
theorem point_notMem {cs : List Char} (h : (dropSign cs).dropWhile Char.isDigit = []) :
    '.' ∉ cs := by
  intro hmem
  have hpoint := List.dropWhile_eq_nil_iff.mp h '.' (mem_dropSign hmem (by decide))
  cases hpoint

theorem not_isPointed {cs : List Char}
    (h : ((dropSign cs).dropWhile Char.isDigit).head? ≠ some '.') : ¬ IsPointed cs := by
  rintro ⟨hfraction, hpoint, hsmall, hcapital⟩
  rw [isFraction_of_no_point rfl h] at hfraction
  have hsubset : (dropSign cs).dropWhile Char.isDigit ⊆ cs :=
    List.Subset.trans (List.dropWhile_subset _) (dropSign_subset cs)
  by_cases hnone : (dropSign cs).dropWhile Char.isDigit = []
  · exact point_notMem hnone hpoint
  · rcases mem_of_isExponent (Bool.and_eq_true_iff.mp hfraction).2 hnone with hmem | hmem
    · exact hsmall (hsubset hmem)
    · exact hcapital (hsubset hmem)

/-- A text with a letter and a point in it is a fraction exactly if the letter is the mark of an
exponent: what is in front of it is a number with a point, and what is behind it are digits. -/
theorem isFraction_append_cons_iff {c : Char} (hdigit : c.isDigit = false) (hpoint : c ≠ '.')
    (hsign : c ≠ '+' ∧ c ≠ '-') (front rest : List Char) :
    (isFraction (front ++ c :: rest) = true ∧ '.' ∈ front ++ c :: rest) ↔
      IsPointed front ∧ (c = 'e' ∨ c = 'E') ∧ (digits? (dropSign rest)).isSome = true := by
  have hdrop : (dropSign (front ++ c :: rest)).dropWhile Char.isDigit =
      (dropSign front).dropWhile Char.isDigit ++ c :: rest := by
    rw [dropSign_append_cons hsign, dropWhile_append_cons hdigit]
  have htake : (dropSign (front ++ c :: rest)).takeWhile Char.isDigit =
      (dropSign front).takeWhile Char.isDigit := by
    rw [dropSign_append_cons hsign, takeWhile_append_cons hdigit]
  by_cases hhead : ((dropSign front).dropWhile Char.isDigit).head? = some '.'
  · obtain ⟨behind, hbehind⟩ := List.head?_eq_some_iff.mp hhead
    rw [hbehind, List.cons_append] at hdrop
    have hmem : '.' ∈ front ++ c :: rest := by
      refine List.mem_append_left _ (dropSign_subset front (List.dropWhile_subset Char.isDigit ?_))
      rw [hbehind]
      exact List.mem_cons_self
    rw [isFraction_of_point hdrop, htake, dropWhile_append_cons hdigit,
      takeWhile_append_cons hdigit, isPointed_iff hbehind, Bool.and_eq_true,
      isExponent_append_cons hdigit hsign]
    simp [hmem, and_assoc]
  · have hnot := not_isPointed hhead
    have hhead' : ((dropSign front).dropWhile Char.isDigit ++ c :: rest).head? ≠ some '.' := by
      cases hfront : (dropSign front).dropWhile Char.isDigit with
      | nil => simpa using hpoint
      | cons d others =>
        rw [hfront] at hhead
        exact hhead
    rw [isFraction_of_no_point hdrop hhead', Bool.and_eq_true, isExponent_append_cons hdigit hsign]
    refine iff_of_false ?_ fun h => hnot h.1
    rintro ⟨⟨-, hnone, -, hdigits⟩, hmem⟩
    rcases List.mem_append.mp hmem with hfront | hrest
    · exact point_notMem hnone hfront
    · have hbehind := (List.mem_cons.mp hrest).resolve_left (Ne.symm hpoint)
      rw [digits?_dropSign_eq_none hbehind (by decide) (by decide)] at hdigits
      cases hdigits

end HeaderInterop.Text
