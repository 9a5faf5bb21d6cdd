import HeaderInterop.Macro.Token
import HeaderInterop.Proofs.Constant.Parentheses

/-!
The tokens of a number, with a minus sign in front of it and parentheses around it: one for each sign
and parenthesis, and one for the number with all its letters.
-/

namespace HeaderInterop

theorem Text.isBlank_eq_false_of_isDigit {c : Char} (h : c.isDigit = true) : isBlank c = false := by
  simp only [Char.isDigit, Bool.and_eq_true, decide_eq_true_eq, UInt32.le_iff_toNat_le] at h
  change 48 ≤ c.toNat ∧ c.toNat ≤ 57 at h
  simp [isBlank, inRanges, blankRanges]
  omega

namespace Macro

/-- What may stand behind a number without being read as a part of it. -/
def endsNumber (tail : List Char) : Prop :=
  ∀ c ∈ tail.head?, c = ')'

theorem endsNumber_replicate (n : Nat) : endsNumber (List.replicate n ')') := by
  intro c hc
  exact List.eq_of_mem_replicate (List.mem_of_mem_head? hc)

theorem numberTail_append_of_endsNumber {rest tail : List Char}
    (hrest : rest.all Char.isAlphanum = true) (htail : endsNumber tail) (isHex : Bool)
    (last : Char) : numberTail isHex last (rest ++ tail) = (rest, tail) := by
  induction rest generalizing last with
  | nil =>
    cases tail with
    | nil => rfl
    | cons c tail =>
      obtain rfl : c = ')' := htail c rfl
      rfl
  | cons c rest ih =>
    obtain ⟨hc, hrest⟩ := Bool.and_eq_true_iff.mp hrest
    rw [List.cons_append, numberTail, hc, ih hrest]
    rfl

theorem pieces_number {c : Char} {rest tail : List Char} (hc : c.isDigit = true)
    (hrest : rest.all Char.isAlphanum = true) (htail : endsNumber tail) :
    pieces (c :: rest ++ tail) = (c :: rest) :: pieces tail := by
  have hquote : ¬ (c = '"' ∨ c = '\'') := by
    rintro (rfl | rfl) <;> simp at hc
  have htoken : tokenTail c (rest ++ tail) = (rest, tail) := by
    unfold tokenTail
    rw [if_neg hquote, startsNumber, hc, Bool.true_or, if_pos rfl,
      numberTail_append_of_endsNumber hrest htail]
  rw [List.cons_append, pieces, Text.isBlank_eq_false_of_isDigit hc, if_neg Bool.false_ne_true,
    htoken]

/-- A character that starts nothing longer is a token. -/
theorem pieces_single {c : Char} {rest : List Char} (hblank : Text.isBlank c = false)
    (hquote : ¬ (c = '"' ∨ c = '\'')) (hnumber : (c.isDigit || c == '.') = false)
    (hword : Text.isWordStart c = false) (hpair : ∀ d ∈ rest.head?, [c, d] ∉ pairs) :
    pieces (c :: rest) = [c] :: pieces rest := by
  obtain ⟨hdigit, hpoint⟩ := Bool.or_eq_false_iff.mp hnumber
  have htoken : tokenTail c rest = ([], rest) := by
    unfold tokenTail
    rw [if_neg hquote, startsNumber, hdigit, hpoint, hword]
    cases rest with
    | nil => rfl
    | cons d after => exact if_neg (hpair d rfl)
  rw [pieces, hblank, if_neg Bool.false_ne_true, htoken]

theorem pieces_open (rest : List Char) : pieces ('(' :: rest) = ['('] :: pieces rest :=
  pieces_single (by decide) (by decide) (by decide) (by decide) fun d _ => by simp [pairs]

theorem pieces_close (rest : List Char) : pieces (')' :: rest) = [')'] :: pieces rest :=
  pieces_single (by decide) (by decide) (by decide) (by decide) fun d _ => by simp [pairs]

theorem pieces_minus {c : Char} (hc : c.isDigit = true) (rest : List Char) :
    pieces ('-' :: c :: rest) = ['-'] :: pieces (c :: rest) := by
  refine pieces_single (by decide) (by decide) (by decide) (by decide) fun d hd => ?_
  obtain rfl : c = d := Option.some.inj hd
  have hnot : c ≠ '>' ∧ c ≠ '-' := by
    constructor <;> rintro rfl <;> simp at hc
  simp [pairs, hnot]

theorem tokenize_ofList (text : List Char) :
    tokenize (String.ofList text) = (pieces text).map String.ofList := by
  rw [tokenize, String.toList_ofList]

theorem tokenize_replicate (n : Nat) :
    tokenize (String.ofList (List.replicate n ')')) = List.replicate n ")" := by
  rw [tokenize_ofList]
  induction n with
  | zero => rw [List.replicate_zero, pieces]; rfl
  | succ n ih =>
    rw [List.replicate_succ, pieces_close, List.map_cons, ih]
    rfl

/-- The text in as many pairs of parentheses. -/
def inParens : Nat → List Char → List Char
  | 0, text => text
  | pairs + 1, text => '(' :: (inParens pairs text ++ [')'])

/-- The text of a number, behind a minus sign if it is negative. -/
def signedText (negative : Bool) (number : List Char) : List Char :=
  if negative then '-' :: number else number

def signedTokens (negative : Bool) (number : List Char) : List String :=
  if negative then ["-", String.ofList number] else [String.ofList number]

theorem tokenize_signedText {c : Char} {rest : List Char} (hc : c.isDigit = true)
    (hrest : rest.all Char.isAlphanum = true) (negative : Bool) (closing : Nat) :
    tokenize (String.ofList (signedText negative (c :: rest) ++ List.replicate closing ')')) =
      signedTokens negative (c :: rest) ++ List.replicate closing ")" := by
  have hnumber : (pieces (c :: rest ++ List.replicate closing ')')).map String.ofList =
      String.ofList (c :: rest) :: List.replicate closing ")" := by
    rw [pieces_number hc hrest (endsNumber_replicate closing), List.map_cons, ← tokenize_ofList,
      tokenize_replicate]
  rw [tokenize_ofList]
  cases negative with
  | false => exact hnumber
  | true =>
    change (pieces ('-' :: c :: (rest ++ List.replicate closing ')'))).map String.ofList = _
    rw [pieces_minus hc, List.map_cons]
    exact congrArg ("-" :: ·) hnumber

theorem tokenize_inParens_append {c : Char} {rest : List Char} (hc : c.isDigit = true)
    (hrest : rest.all Char.isAlphanum = true) (negative : Bool) (pairs closing : Nat) :
    tokenize (String.ofList
        (inParens pairs (signedText negative (c :: rest)) ++ List.replicate closing ')')) =
      Literal.enclosed pairs (signedTokens negative (c :: rest)) ++ List.replicate closing ")" := by
  induction pairs generalizing closing with
  | zero => exact tokenize_signedText hc hrest negative closing
  | succ pairs ih =>
    have hinner := ih (closing + 1)
    rw [tokenize_ofList] at hinner ⊢
    rw [inParens, List.cons_append, List.append_assoc, List.singleton_append,
      ← List.replicate_succ, pieces_open, List.map_cons, hinner, Literal.enclosed,
      List.cons_append, List.append_assoc, List.singleton_append, ← List.replicate_succ]

/-- Parentheses around a number are tokens of their own. -/
theorem tokenize_inParens {number : List Char} (hdigit : Literal.startsWithDigit number = true)
    (hall : number.all Char.isAlphanum = true) (negative : Bool) (pairs : Nat) :
    tokenize (String.ofList (inParens pairs (signedText negative number))) =
      Literal.enclosed pairs (signedTokens negative number) := by
  cases number with
  | nil => cases hdigit
  | cons c rest =>
    have htokens := tokenize_inParens_append hdigit (Bool.and_eq_true_iff.mp hall).2 negative pairs 0
    simpa using htokens

end Macro

end HeaderInterop
