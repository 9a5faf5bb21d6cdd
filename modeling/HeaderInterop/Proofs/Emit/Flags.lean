import HeaderInterop.Config.Default
import HeaderInterop.Emit.Enums
import HeaderInterop.Proofs.Text.Numerals
import Mathlib.Algebra.Ring.Int.Defs

/-!
Sets of flags, told from the values. A positive number and the number below it have no bit in common
exactly if it is a power of two; a sorted list without repetitions is as long as before exactly if its
values are distinct; and its last value is its largest. So the test of the values is one of which
numbers there are, in whatever order they come.
-/

namespace HeaderInterop.Emit

/-! Words -/

theorem isSome_isPowerOfTwo? (value : Int) : (isPowerOfTwo? value).isSome = true := by
  unfold isPowerOfTwo?
  split
  next hpositive =>
    have hword : Text.minInt128 < value := by
      unfold Text.minInt128
      omega
    rw [predecessor?, if_pos hword]
    rfl
  next => rfl

theorem toNat_word {value : Int} (hnonneg : 0 ≤ value) (hmost : value ≤ Text.maxInt128) :
    (word value).toNat = value.toNat := by
  rw [word, BitVec.toNat_ofInt]
  congr 1
  refine Int.emod_eq_of_lt hnonneg ?_
  unfold Text.maxInt128 at hmost
  omega

/-- A number shares no bit with the one below it exactly if it is a power of two. -/
theorem isPowerOfTwo?_eq_some_true {value : Int} (hmost : value ≤ Text.maxInt128) :
    isPowerOfTwo? value = some true ↔ ∃ exponent : Nat, value = 2 ^ exponent := by
  by_cases hpositive : 0 < value
  · have hword : Text.minInt128 < value := by
      unfold Text.minInt128
      omega
    have hbelow : (value - 1).toNat = value.toNat - 1 := by omega
    have hbits : (word value &&& word (value - 1)).toNat = value.toNat &&& (value.toNat - 1) := by
      rw [BitVec.toNat_and, toNat_word (by omega) hmost, toNat_word (by omega) (by omega), hbelow]
    have htest : isPowerOfTwo? value = some (word value &&& word (value - 1) == 0) := by
      rw [isPowerOfTwo?, if_pos hpositive, predecessor?, if_pos hword]
      rfl
    rw [htest, Option.some.injEq, beq_iff_eq, ← BitVec.toNat_inj, hbits]
    change value.toNat &&& (value.toNat - 1) = 0 ↔ _
    rw [Nat.and_sub_one_eq_zero_iff_isPowerOfTwo (by omega), Nat.isPowerOfTwo]
    refine exists_congr fun exponent => ?_
    have hpower : ((2 ^ exponent : Nat) : Int) = 2 ^ exponent := by simp
    omega
  · rw [isPowerOfTwo?, if_neg hpositive]
    refine iff_of_false (by simp) ?_
    rintro ⟨exponent, rfl⟩
    exact hpositive (Int.pow_pos (by decide))

/-- A test that always answers is made of each element. -/
theorem allM_eq_some {α : Type} {test : α → Option Bool} (h : ∀ item, (test item).isSome = true)
    (items : List α) : items.allM test = some (items.all fun item => test item == some true) := by
  have htest : test = fun item => pure (test item == some true) := by
    funext item
    obtain ⟨answer, hanswer⟩ := Option.isSome_iff_exists.mp (h item)
    rw [hanswer]
    cases answer <;> rfl
  rw [htest, List.allM_pure]
  simp

/-! Sorted values -/

theorem eraseReps_loop (first : Int) (rest kept : List Int) :
    List.eraseRepsBy.loop (· == ·) first rest kept =
      kept.reverse ++ List.eraseRepsBy.loop (· == ·) first rest [] := by
  induction rest generalizing first kept with
  | nil => simp [List.eraseRepsBy.loop]
  | cons second rest ih =>
    rw [List.eraseRepsBy.loop, List.eraseRepsBy.loop]
    cases first == second with
    | true => exact ih first kept
    | false =>
      dsimp only
      rw [ih second (first :: kept), ih second [first]]
      simp

theorem eraseReps_cons_cons (first second : Int) (rest : List Int) :
    (first :: second :: rest).eraseReps =
      if first = second then (second :: rest).eraseReps
      else first :: (second :: rest).eraseReps := by
  change List.eraseRepsBy.loop (· == ·) first (second :: rest) [] =
    if first = second then List.eraseRepsBy.loop (· == ·) second rest []
    else first :: List.eraseRepsBy.loop (· == ·) second rest []
  rw [List.eraseRepsBy.loop]
  by_cases h : first = second
  · subst h
    simp
  · rw [beq_eq_false_iff_ne.mpr h, if_neg h]
    exact eraseReps_loop second rest [first]

theorem length_eraseReps_le (values : List Int) : values.eraseReps.length ≤ values.length := by
  induction values with
  | nil => exact Nat.le_refl 0
  | cons first rest ih =>
    cases rest with
    | nil => exact Nat.le_refl 1
    | cons second rest =>
      rw [eraseReps_cons_cons]
      split
      · exact Nat.le_succ_of_le ih
      · exact Nat.succ_le_succ ih

/-- Nothing is erased from a sorted list exactly if its values are distinct. -/
theorem length_eraseReps_eq_iff {values : List Int} (h : values.Pairwise (· ≤ ·)) :
    values.eraseReps.length = values.length ↔ values.Nodup := by
  induction values with
  | nil => exact iff_of_true rfl List.nodup_nil
  | cons first rest ih =>
    cases rest with
    | nil => exact iff_of_true rfl (by simp)
    | cons second rest =>
      obtain ⟨hfirst, hrest⟩ := List.pairwise_cons.mp h
      rw [eraseReps_cons_cons]
      by_cases heq : first = second
      · have hle := length_eraseReps_le (second :: rest)
        rw [if_pos heq]
        refine iff_of_false (fun hlength => ?_) (fun hnodup => ?_)
        · rw [List.length_cons] at hlength
          omega
        · exact (List.nodup_cons.mp hnodup).1 (heq ▸ List.mem_cons_self ..)
      · -- what is above the second value is above the first one too
        have hnotMem : first ∉ second :: rest := by
          intro hmem
          have hsecond := hfirst second (List.mem_cons_self ..)
          rcases List.mem_cons.mp hmem with hhead | htail
          · exact heq hhead
          · have hle := (List.pairwise_cons.mp hrest).1 first htail
            omega
        have hnodup : (first :: second :: rest).Nodup ↔
            first ∉ second :: rest ∧ (second :: rest).Nodup := List.nodup_cons
        rw [if_neg heq, List.length_cons, List.length_cons, Nat.succ_inj, ih hrest,
          hnodup, and_iff_right hnotMem]

/-- Nothing that is erased stands at the end. -/
theorem getLast?_eraseReps (values : List Int) : values.eraseReps.getLast? = values.getLast? := by
  induction values with
  | nil => rfl
  | cons first rest ih =>
    cases rest with
    | nil => rfl
    | cons second rest =>
      have hrest : (second :: rest).eraseReps ≠ [] := by
        intro hnil
        rw [hnil, List.getLast?_nil] at ih
        exact List.cons_ne_nil _ _ (List.getLast?_eq_none_iff.mp ih.symm)
      rw [eraseReps_cons_cons, List.getLast?_cons_cons, ← ih]
      split
      · rfl
      · obtain ⟨head, tail, htail⟩ := List.exists_cons_of_ne_nil hrest
        rw [htail, List.getLast?_cons_cons]

/-- The last of sorted values reaches what any of them reaches. -/
theorem any_getLast?_iff {values : List Int} (h : values.Pairwise (· ≤ ·)) (least : Int) :
    values.getLast?.any (least ≤ ·) = true ↔ ∃ value ∈ values, least ≤ value := by
  rcases List.eq_nil_or_concat values with rfl | ⟨front, last, rfl⟩
  · simp
  · rw [List.concat_eq_append] at h ⊢
    have hlast := (List.pairwise_append.mp h).2.2
    simp only [List.getLast?_concat, Option.any_some, decide_eq_true_eq]
    constructor
    · exact fun hle => ⟨last, List.mem_concat_self, hle⟩
    · rintro ⟨value, hmem, hle⟩
      rcases List.mem_append.mp hmem with hfront | hend
      · exact Int.le_trans hle (hlast value hfront last (List.mem_singleton_self _))
      · exact (List.mem_singleton.mp hend) ▸ hle

/-! Flags -/

/-- Distinct powers of two, at least two of them, one of which is four or more. -/
def AreFlags (values : List Int) : Prop :=
  2 ≤ values.length ∧ values.Nodup ∧ (∀ value ∈ values, ∃ exponent : Nat, value = 2 ^ exponent) ∧
    ∃ value ∈ values, 4 ≤ value

theorem AreFlags.of_perm {values permuted : List Int} (hperm : permuted.Perm values)
    (h : AreFlags values) : AreFlags permuted := by
  obtain ⟨hlength, hnodup, hpowers, value, hmem, hlarge⟩ := h
  exact ⟨hperm.length_eq ▸ hlength, hperm.nodup_iff.mpr hnodup,
    fun other hother => hpowers other (hperm.mem_iff.mp hother),
    value, hperm.mem_iff.mpr hmem, hlarge⟩

/-- The test of the values always ends, and asks for four properties of them. -/
theorem hasFlagValues?_eq (definition : Enumeration) :
    let values := nonzeroValues definition
    let distinct := (values.mergeSort fun a b => a ≤ b).eraseReps
    hasFlagValues? definition =
      some (2 ≤ values.length && distinct.length == values.length &&
        (values.all fun value => isPowerOfTwo? value == some true) &&
        distinct.getLast?.any (4 ≤ ·)) := by
  intro values distinct
  rw [hasFlagValues?, allM_eq_some isSome_isPowerOfTwo?]
  change (if (2 ≤ values.length && distinct.length == values.length) = true then
      some ((values.all fun value => isPowerOfTwo? value == some true) &&
        distinct.getLast?.any (4 ≤ ·))
    else some false) = _
  cases 2 ≤ values.length && distinct.length == values.length with
  | true => rw [if_pos rfl, Bool.true_and]
  | false => rfl

theorem le_of_mem_nonzeroValues {definition : Enumeration} {limit value : Int}
    (hmost : ∀ member ∈ definition.constants, member.value ≤ limit)
    (h : value ∈ nonzeroValues definition) : value ≤ limit := by
  obtain ⟨member, hmember, rfl⟩ := List.mem_map.mp (List.mem_filter.mp h).1
  exact hmost member hmember

theorem hasFlagValues?_eq_some_true {definition : Enumeration}
    (hmost : ∀ member ∈ definition.constants, member.value ≤ Text.maxInt128) :
    hasFlagValues? definition = some true ↔ AreFlags (nonzeroValues definition) := by
  let values := nonzeroValues definition
  let sorted := values.mergeSort fun a b => a ≤ b
  have hperm : sorted.Perm values := List.mergeSort_perm ..
  have hsorted : sorted.Pairwise (· ≤ ·) := by
    have htrans (a b c : Int) (hab : decide (a ≤ b) = true) (hbc : decide (b ≤ c) = true) :
        decide (a ≤ c) = true :=
      decide_eq_true (Int.le_trans (of_decide_eq_true hab) (of_decide_eq_true hbc))
    have htotal (a b : Int) : (decide (a ≤ b) || decide (b ≤ a)) = true := by
      simpa using Int.le_total a b
    exact (List.pairwise_mergeSort htrans htotal values).imp fun hle => of_decide_eq_true hle
  have hdistinct : sorted.eraseReps.length = values.length ↔ values.Nodup := by
    rw [← hperm.length_eq, length_eraseReps_eq_iff hsorted, hperm.nodup_iff]
  have hpowers : (values.all fun value => isPowerOfTwo? value == some true) = true ↔
      ∀ value ∈ values, ∃ exponent : Nat, value = 2 ^ exponent := by
    rw [List.all_eq_true]
    refine forall₂_congr fun value hvalue => ?_
    rw [beq_iff_eq, isPowerOfTwo?_eq_some_true (le_of_mem_nonzeroValues hmost hvalue)]
  have hlargest : sorted.eraseReps.getLast?.any (4 ≤ ·) = true ↔ ∃ value ∈ values, 4 ≤ value := by
    rw [getLast?_eraseReps, any_getLast?_iff hsorted]
    exact exists_congr fun value => and_congr_left fun _ => hperm.mem_iff
  rw [hasFlagValues?_eq, Option.some.injEq, Bool.and_eq_true, Bool.and_eq_true, Bool.and_eq_true,
    decide_eq_true_eq, beq_iff_eq, hdistinct, hpowers, hlargest, and_assoc, and_assoc]
  rfl

/-- Zeros do not matter to the values, and neither does the order. -/
theorem nonzeroValues_perm {definition permuted : Enumeration}
    (h : permuted.constants.Perm definition.constants) :
    (nonzeroValues permuted).Perm (nonzeroValues definition) :=
  (h.map EnumConstant.value).filter _

/-- An enum that is not named as a set of flags is one exactly if its values other than zero are at
least two distinct powers of two, and one of them is four or more. The order of its members does not
matter, and no test of a value leaves the word. -/
theorem isFlags_iff_areFlags (config : Config) {name : String} {definition : Enumeration}
    (hlisted : name ∉ config.types.flagEnums) (hsuffix : ¬ "Flags".toList <:+ name.toList)
    (hwords : ∀ member ∈ definition.constants,
      Text.minInt128 ≤ member.value ∧ member.value ≤ Text.maxInt128) :
    (isFlags config name definition = true ↔
        AreFlags ((definition.constants.map EnumConstant.value).filter (· ≠ 0))) ∧
      (∀ permuted : Enumeration, permuted.constants.Perm definition.constants →
        isFlags config name permuted = isFlags config name definition) ∧
      (hasFlagValues? definition).isSome = true ∧
      ∀ value, (isPowerOfTwo? value).isSome = true := by
  have hends : Text.endsWith "Flags".toList name.toList = false :=
    Bool.eq_false_iff.mpr fun h => hsuffix (Text.endsWith_eq_true_iff.mp h)
  have hmost (permuted : Enumeration) (hperm : permuted.constants.Perm definition.constants) :
      ∀ member ∈ permuted.constants, member.value ≤ Text.maxInt128 :=
    fun member hmember => (hwords member (hperm.mem_iff.mp hmember)).2
  have hiff (permuted : Enumeration) (hperm : permuted.constants.Perm definition.constants) :
      isFlags config name permuted = true ↔ AreFlags (nonzeroValues permuted) := by
    rw [← hasFlagValues?_eq_some_true (hmost permuted hperm), isFlags, hends]
    simp [hlisted]
  refine ⟨hiff definition (List.Perm.refl _), fun permuted hperm => ?_, ?_,
    isSome_isPowerOfTwo?⟩
  · have hvalues := nonzeroValues_perm hperm
    rw [Bool.eq_iff_iff, hiff permuted hperm, hiff definition (List.Perm.refl _)]
    exact ⟨AreFlags.of_perm hvalues.symm, AreFlags.of_perm hvalues⟩
  · rw [hasFlagValues?_eq]
    rfl

/-- Values in no order, with zeros among them; one is the largest power of two of the word. -/
def accessEnum : Enumeration where
  name := some "Access"
  underlying := none
  constants :=
    [⟨"ALL", 0x40000000000000000000000000000000⟩, ⟨"NONE", 0⟩, ⟨"READ", 1⟩, ⟨"DEFAULT", 0⟩]

theorem isFlags_iff_areFlags_access :
    "Access" ∉ Config.standard.types.flagEnums ∧ ¬ "Flags".toList <:+ "Access".toList ∧
      (∀ member ∈ accessEnum.constants,
        Text.minInt128 ≤ member.value ∧ member.value ≤ Text.maxInt128) ∧
      isFlags Config.standard "Access" accessEnum = true := by
  have hlisted : "Access" ∉ Config.standard.types.flagEnums := by decide +kernel
  have hsuffix : ¬ "Flags".toList <:+ "Access".toList := by decide +kernel
  have hwords : ∀ member ∈ accessEnum.constants,
      Text.minInt128 ≤ member.value ∧ member.value ≤ Text.maxInt128 := by decide +kernel
  have hflags : AreFlags ((accessEnum.constants.map EnumConstant.value).filter (· ≠ 0)) := by
    refine ⟨by decide, by decide, fun value hvalue => ?_, _, List.mem_cons_self .., by decide⟩
    have hmem : value ∈ [(0x40000000000000000000000000000000 : Int), 1] := hvalue
    rcases List.mem_cons.mp hmem with rfl | hread
    · exact ⟨126, by decide⟩
    · exact ⟨0, List.mem_singleton.mp hread⟩
  exact ⟨hlisted, hsuffix, hwords,
    (isFlags_iff_areFlags Config.standard hlisted hsuffix hwords).1.mpr hflags⟩

end HeaderInterop.Emit
