import HeaderInterop.Config.Default
import HeaderInterop.Proofs.Constant.Rules

/-!
Enclosing parentheses. A pair around balanced tokens is closed by the last token and is taken off
again, so the text, the cast and the constant that is referred to are found as if it were not there.
Only string literals are looked for in the tokens as they stand, and are missed behind a parenthesis.
-/

namespace HeaderInterop

namespace Literal

/-- No front part of the tokens closes more groups than it opens, and all of them are closed. -/
structure IsBalanced (tokens : List String) : Prop where
  count_le (front : List String) : front <+: tokens → front.count ")" ≤ front.count "("
  count_eq : tokens.count ")" = tokens.count "("

theorem isBalanced_iff {tokens : List String} :
    IsBalanced tokens ↔
      (∀ n < tokens.length + 1, (tokens.take n).count ")" ≤ (tokens.take n).count "(") ∧
        tokens.count ")" = tokens.count "(" := by
  constructor
  · intro h
    exact ⟨fun n _ => h.count_le _ (List.take_prefix n tokens), h.count_eq⟩
  · rintro ⟨hle, heq⟩
    refine ⟨fun front hfront => ?_, heq⟩
    have htake := hle front.length (Nat.lt_succ_of_le hfront.length_le)
    rwa [← List.prefix_iff_eq_take.mp hfront] at htake

instance (tokens : List String) : Decidable (IsBalanced tokens) :=
  decidable_of_iff _ isBalanced_iff.symm

/-- The tokens in as many pairs of parentheses. -/
def enclosed : Nat → List String → List String
  | 0, tokens => tokens
  | pairs + 1, tokens => "(" :: (enclosed pairs tokens ++ [")"])

theorem isBalanced_of_notMem {tokens : List String} (hopen : "(" ∉ tokens) (hclose : ")" ∉ tokens) :
    IsBalanced tokens where
  count_le front hfront := by
    rw [List.count_eq_zero.mpr fun hmem => hclose (hfront.subset hmem)]
    exact Nat.zero_le _
  count_eq := by rw [List.count_eq_zero.mpr hopen, List.count_eq_zero.mpr hclose]

theorem closesAtEnd_open (depth : Nat) (rest : List String) :
    closesAtEnd depth ("(" :: rest) = closesAtEnd (depth + 1) rest :=
  rfl

theorem closesAtEnd_close (outer : Nat) (rest : List String) :
    closesAtEnd (outer + 1) (")" :: rest) = closesAtEnd outer rest :=
  rfl

theorem closesAtEnd_other {token : String} (hopen : token ≠ "(") (hclose : token ≠ ")")
    (depth : Nat) (rest : List String) :
    closesAtEnd depth (token :: rest) = closesAtEnd depth rest := by
  rw [closesAtEnd.eq_def]
  simp only [if_neg hopen, if_neg hclose]

/-- The scan gets to the last parenthesis with all inner groups closed. -/
theorem closesAtEnd_append {depth : Nat} {tokens : List String}
    (hle : ∀ front, front <+: tokens → front.count ")" ≤ depth + front.count "(")
    (heq : tokens.count ")" = depth + tokens.count "(") :
    closesAtEnd depth (tokens ++ [")"]) = true := by
  induction tokens generalizing depth with
  | nil =>
    obtain rfl : depth = 0 := by simpa using heq.symm
    rfl
  | cons token rest ih =>
    have hrest (front : List String) (hfront : front <+: rest) :=
      hle (token :: front) ((List.prefix_cons_inj token).mpr hfront)
    rw [List.cons_append]
    by_cases hopen : token = "("
    · subst hopen
      rw [closesAtEnd_open]
      refine ih (fun front hfront => ?_) ?_
      · have := hrest front hfront
        simp at this
        omega
      · simp at heq
        omega
    · by_cases hclose : token = ")"
      · subst hclose
        cases depth with
        | zero =>
          have := hrest [] List.nil_prefix
          simp at this
        | succ outer =>
          rw [closesAtEnd_close]
          refine ih (fun front hfront => ?_) ?_
          · have := hrest front hfront
            simp at this
            omega
          · simp at heq
            omega
      · rw [closesAtEnd_other hopen hclose]
        refine ih (fun front hfront => ?_) ?_
        · have := hrest front hfront
          simpa [hopen, hclose] using this
        · simpa [hopen, hclose] using heq

theorem IsBalanced.inside?_enclosed {tokens : List String} (h : IsBalanced tokens) :
    inside? ("(" :: (tokens ++ [")"])) = some tokens := by
  have hend : closesAtEnd 0 (tokens ++ [")"]) = true :=
    closesAtEnd_append (by simpa using h.count_le) (by simpa using h.count_eq)
  simp [inside?, hend]

theorem IsBalanced.enclosed {tokens : List String} (h : IsBalanced tokens) (pairs : Nat) :
    IsBalanced (enclosed pairs tokens) := by
  induction pairs with
  | zero => exact h
  | succ pairs ih =>
    refine ⟨fun front hfront => ?_, by simp [Literal.enclosed, ih.count_eq]⟩
    cases front with
    | nil => simp
    | cons token front =>
      rw [Literal.enclosed, List.cons_prefix_cons] at hfront
      obtain ⟨rfl, hfront⟩ := hfront
      rcases List.prefix_concat_iff.mp hfront with rfl | hinner
      · simp [ih.count_eq]
      · have := ih.count_le front hinner
        simp
        omega

theorem stripParens_of_inside? {tokens inner : List String} (h : inside? tokens = some inner) :
    stripParens tokens = stripParens inner := by
  rw [stripParens]
  split
  next inside hinside =>
    rw [h, Option.some.injEq] at hinside
    rw [hinside]
  next hnone => rw [h] at hnone; cases hnone

theorem stripParens_of_inside?_eq_none {tokens : List String} (h : inside? tokens = none) :
    stripParens tokens = tokens := by
  rw [stripParens]
  split
  next inside hinside => rw [h] at hinside; cases hinside
  next => rfl

theorem stripParens_of_head_ne {tokens : List String} (h : tokens.head? ≠ some "(") :
    stripParens tokens = tokens := by
  refine stripParens_of_inside?_eq_none ?_
  cases tokens with
  | nil => rfl
  | cons token rest =>
    have hopen : token ≠ "(" := fun heq => h (congrArg some heq)
    simp [inside?, hopen]

theorem stripParens_enclosed {tokens : List String} (h : IsBalanced tokens) (pairs : Nat) :
    stripParens (enclosed pairs tokens) = stripParens tokens := by
  induction pairs with
  | zero => rfl
  | succ pairs ih =>
    rw [Literal.enclosed, stripParens_of_inside? (h.enclosed pairs).inside?_enclosed, ih]

theorem normalize_enclosed {tokens : List String} (h : IsBalanced tokens) (pairs : Nat) :
    normalize (enclosed pairs tokens) = normalize tokens := by
  rw [normalize, normalize, stripParens_enclosed h]

end Literal

namespace Constant

open Literal (enclosed IsBalanced)

variable {settings : ConstantSettings} {mapper : TypeMapper} {known : Known}

theorem cast?_enclosed {tokens : List String} (h : IsBalanced tokens) (pairs : Nat) :
    cast? mapper (enclosed pairs tokens) = cast? mapper tokens := by
  rw [cast?, cast?, Literal.stripParens_enclosed h]

/-- A parenthesis is not the identifier that a text refers to first. -/
theorem referred?_enclosed (pairs : Nat) (tokens : List String) :
    referred? known (enclosed pairs tokens) = referred? known tokens := by
  have hfind : (enclosed pairs tokens).find? isIdentifierToken = tokens.find? isIdentifierToken := by
    induction pairs with
    | zero => rfl
    | succ pairs ih =>
      rw [enclosed, List.find?_cons_of_neg (by decide), List.find?_append, ih,
        List.find?_cons_of_neg (by decide), List.find?_nil, Option.or_none]
  rw [referred?, referred?, hfind]

theorem ofExpression_enclosed {tokens : List String} (h : IsBalanced tokens) (pairs : Nat)
    (name : String) :
    ofExpression mapper known name (enclosed pairs tokens) =
      ofExpression mapper known name tokens := by
  rw [ofExpression, ofExpression, Literal.normalize_enclosed h, cast?_enclosed h,
    referred?_enclosed]

/-- Tokens behind a parenthesis are not taken for string literals. -/
theorem areStrings_enclosed (pairs : Nat) (tokens : List String) :
    areStrings (enclosed (pairs + 1) tokens) = false := by
  rw [areStrings, enclosed, List.all_cons]
  rfl

theorem isIdentifierToken_of_isStringToken {token : String} (h : isStringToken token = true) :
    isIdentifierToken token = false := by
  rw [isIdentifierToken, eq_of_beq h]
  decide

theorem cast?_of_areStrings {tokens : List String} (h : areStrings tokens = true) :
    cast? mapper tokens = none := by
  cases tokens with
  | nil => cases h
  | cons token rest =>
    have hopen : token ≠ "(" := by
      rintro rfl
      cases h
    have hstrip : Literal.stripParens (token :: rest) = token :: rest :=
      Literal.stripParens_of_head_ne fun heq => hopen (Option.some.inj heq)
    rw [cast?, hstrip]
    split
    next name others htokens => exact absurd (List.cons.inj htokens).1 hopen
    next => rfl

theorem referred?_of_areStrings {tokens : List String} (h : areStrings tokens = true) :
    referred? known tokens = none := by
  have hall := List.all_eq_true.mp (Bool.and_eq_true_iff.mp h).2
  have hfind : tokens.find? isIdentifierToken = none := by
    rw [List.find?_eq_none]
    intro token htoken
    simp [isIdentifierToken_of_isStringToken (hall token htoken)]
  rw [referred?, hfind]
  rfl

/-- The other rules make no UTF-8 text of string literals. -/
theorem ofExpression_ne_utf8OfTokens {tokens : List String} (h : areStrings tokens = true)
    (name : String) :
    (ofExpression mapper known name tokens).value ≠ utf8OfTokens tokens := by
  intro heq
  rw [ofExpression, cast?_of_areStrings h, referred?_of_areStrings h] at heq
  cases hkind : Literal.kind? (Literal.normalize tokens) with
  | some kind =>
    rw [hkind] at heq
    cases heq
  | none =>
    rw [hkind] at heq
    cases heq

/-- Pairs of parentheses around the tokens of a macro leave its constant as it is, unless the tokens
are string literals: these are then no UTF-8 text. -/
theorem ofMacro?_enclosed_iff (settings : ConstantSettings) (mapper : TypeMapper) (known : Known)
    {m other : Macro} (hname : other.name = m.name) (hgiven : isGiven settings m.name = false)
    (hbalanced : IsBalanced m.tokens) {pairs : Nat} (htokens : other.tokens = enclosed pairs m.tokens) :
    (ofMacro? settings mapper known other).value = (ofMacro? settings mapper known m).value ↔
      pairs = 0 ∨ areStrings m.tokens = false := by
  rw [ofMacro?_eq_ofTokens hgiven, ofMacro?_eq_ofTokens (hname ▸ hgiven), htokens, hname]
  cases pairs with
  | zero => exact iff_of_true rfl (Or.inl rfl)
  | succ pairs =>
    have hother : ofTokens mapper known m.name (enclosed (pairs + 1) m.tokens) =
        ofExpression mapper known m.name m.tokens := by
      rw [ofTokens, areStrings_enclosed, if_neg Bool.false_ne_true,
        ofExpression_enclosed hbalanced]
    rw [hother, ofTokens]
    cases hstrings : areStrings m.tokens with
    | false => exact iff_of_true rfl (Or.inr rfl)
    | true =>
      refine iff_of_false (fun heq => ?_) (by simp)
      exact ofExpression_ne_utf8OfTokens hstrings m.name (Option.some.inj heq)

/-- The mapper of the standard settings, with no type known. -/
def standardMapper : TypeMapper where
  settings := Config.standard.types
  registry := {}

/-- Two groups side by side, none of them around all. -/
def maskMacro : Macro where
  name := "MASK"
  value := "(LOW) | (HIGH)"

def enclosedMaskMacro : Macro where
  name := "MASK"
  value := "(((LOW) | (HIGH)))"

theorem ofMacro?_enclosed_iff_mask :
    enclosedMaskMacro.name = maskMacro.name ∧
      isGiven Config.standard.constants maskMacro.name = false ∧ IsBalanced maskMacro.tokens ∧
      enclosedMaskMacro.tokens = enclosed 2 maskMacro.tokens ∧
      (ofMacro? Config.standard.constants standardMapper [("LOW", .const "uint" "1")]
          enclosedMaskMacro).value =
        (ofMacro? Config.standard.constants standardMapper [("LOW", .const "uint" "1")]
          maskMacro).value := by
  have hname : enclosedMaskMacro.name = maskMacro.name := rfl
  have hgiven : isGiven Config.standard.constants maskMacro.name = false := by decide
  have hbalanced : IsBalanced maskMacro.tokens := by decide +kernel
  have htokens : enclosedMaskMacro.tokens = enclosed 2 maskMacro.tokens := by decide +kernel
  exact ⟨hname, hgiven, hbalanced, htokens,
    (ofMacro?_enclosed_iff Config.standard.constants standardMapper [("LOW", .const "uint" "1")]
      hname hgiven hbalanced htokens).mpr (Or.inr (by decide +kernel))⟩

def titleMacro : Macro where
  name := "TITLE"
  value := "\"a\""

def enclosedTitleMacro : Macro where
  name := "TITLE"
  value := "(\"a\")"

/-- A string literal is UTF-8 text; in parentheses it is a string with quotes in it. -/
theorem ofMacro?_enclosedTitle :
    enclosedTitleMacro.tokens = enclosed 1 titleMacro.tokens ∧ IsBalanced titleMacro.tokens ∧
      isGiven Config.standard.constants titleMacro.name = false ∧
      (ofMacro? Config.standard.constants standardMapper [] titleMacro).value =
        some (.utf8 "\"a\"u8") ∧
      (ofMacro? Config.standard.constants standardMapper [] enclosedTitleMacro).value =
        some (.const "string" "\"\\\"a\\\"\"") := by
  decide +kernel

end Constant

end HeaderInterop
