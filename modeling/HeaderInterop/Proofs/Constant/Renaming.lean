import HeaderInterop.Proofs.Constant.Joining
import HeaderInterop.Proofs.Constant.Names
import Mathlib.Logic.Equiv.Basic

/-!
Names and the text that the type of a constant is read off. Other names leave the parentheses, the
numbers and the operators of a text as they are, so the text of the renamed tokens is the renamed
text.
-/

namespace HeaderInterop

namespace Macro

/-- An identifier or a keyword. -/
def isWord (token : String) : Bool :=
  match token.toList with
  | [] => false
  | c :: tail => Text.isWordStart c && tail.all Text.isWordPart

theorem exists_of_isWord {token : String} (h : isWord token = true) :
    ∃ c tail, token.toList = c :: tail ∧ Text.isWordStart c = true ∧
      ∀ d ∈ tail, Text.isWordPart d = true := by
  unfold isWord at h
  split at h
  next => cases h
  next c tail htoken =>
    obtain ⟨hc, htail⟩ := Bool.and_eq_true_iff.mp h
    exact ⟨c, tail, htoken, hc, List.all_eq_true.mp htail⟩

/-- A token that starts like a word is one. -/
theorem isWord_of_isToken {token : String} (htoken : IsToken token.toList)
    (hstart : ∀ c ∈ token.toList.head?, Text.isWordStart c = true) : isWord token = true := by
  unfold isWord
  split
  next hnil =>
    rw [hnil] at htoken
    exact htoken.elim
  next c tail hcons =>
    rw [hcons] at htoken hstart
    have hc := hstart c rfl
    have hquote : ¬ (c = '"' ∨ c = '\'') := by
      rintro (rfl | rfl) <;> exact absurd hc (by decide)
    have hnumber : startsNumber c tail = false := by
      simp [startsNumber, Text.isDigit_eq_false_of_isWordStart hc,
        Text.ne_of_isWordStart hc (d := '.') (by decide)]
    have htail := htoken.2
    rw [tokenTail_word hquote hnumber hc] at htail
    rw [hc, Bool.true_and, List.all_eq_true]
    exact List.takeWhile_eq_self_iff.mp (congrArg Prod.fst htail)

/-- The text of tokens with nothing between them. -/
def joined (tokens : List String) : List Char :=
  tokens.flatMap String.toList

theorem joined_append (front back : List String) :
    joined (front ++ back) = joined front ++ joined back :=
  List.flatMap_append

theorem joined_cons (token : String) (rest : List String) :
    joined (token :: rest) = token.toList ++ joined rest :=
  rfl

theorem joined_nil : joined [] = [] :=
  rfl

theorem joined_singleton (token : String) : joined [token] = token.toList :=
  List.append_nil token.toList

theorem ne_nil_of_isToken {token : List Char} (h : IsToken token) : token ≠ [] := by
  rintro rfl
  exact h

theorem joined_ne_nil {tokens : List String} {token : String} (hmem : token ∈ tokens)
    (htoken : IsToken token.toList) : joined tokens ≠ [] :=
  fun hnil => ne_nil_of_isToken htoken (List.flatMap_eq_nil_iff.mp hnil token hmem)

/-- Other names for the names in a text. -/
structure Renaming where
  apply : String → String
  isWord_apply {token : String} : isWord token = true → isWord (apply token) = true
  injective {token other : String} :
    isWord token = true → isWord other = true → apply token = apply other → token = other
  apply_other {token : String} : isWord token = false → apply token = token

namespace Renaming

variable {r : Renaming}

theorem apply_eq_iff {mark : String} (hmark : isWord mark = false) (token : String) :
    r.apply token = mark ↔ token = mark := by
  constructor
  · rintro rfl
    have hword : isWord token = false := by
      rw [← Bool.not_eq_true] at hmark ⊢
      exact mt r.isWord_apply hmark
    exact (r.apply_other hword).symm
  · rintro rfl
    exact r.apply_other hmark

theorem map_of_forall {tokens : List String} (h : ∀ token ∈ tokens, isWord token = false) :
    tokens.map r.apply = tokens :=
  (List.map_congr_left fun token htoken => r.apply_other (h token htoken)).trans
    (List.map_id tokens)

/-- Every name as it is. -/
def refl : Renaming where
  apply := id
  isWord_apply h := h
  injective _ _ h := h
  apply_other _ := rfl

theorem map_refl (tokens : List String) : tokens.map refl.apply = tokens :=
  List.map_id tokens

/-- Two names for each other. -/
def swap (name other : String) (hname : isWord name = true) (hother : isWord other = true) :
    Renaming where
  apply := Equiv.swap name other
  isWord_apply {token} h := by
    rw [Equiv.swap_apply_def]
    split
    · exact hother
    · split
      · exact hname
      · exact h
  injective _ _ h := (Equiv.swap name other).injective h
  apply_other {token} h := by
    refine Equiv.swap_apply_of_ne_of_ne ?_ ?_
    · rintro rfl
      rw [hname] at h
      cases h
    · rintro rfl
      rw [hother] at h
      cases h

theorem swap_apply {name other : String} (hname : isWord name = true)
    (hother : isWord other = true) : (swap name other hname hother).apply name = other :=
  Equiv.swap_apply_left name other

end Renaming

end Macro

namespace Literal

open Macro (IsToken Renaming isWord joined joined_append joined_cons)

/-! Renaming and normalizing -/

section Normalizing

variable (r : Renaming)

theorem closesAtEnd_map (depth : Nat) (tokens : List String) :
    closesAtEnd depth (tokens.map r.apply) = closesAtEnd depth tokens := by
  induction tokens generalizing depth with
  | nil => rfl
  | cons token rest ih =>
    have hopen : r.apply token = "(" ↔ token = "(" := Renaming.apply_eq_iff (by decide) token
    have hclose : r.apply token = ")" ↔ token = ")" := Renaming.apply_eq_iff (by decide) token
    rw [List.map_cons, closesAtEnd.eq_def, closesAtEnd.eq_def depth (token :: rest)]
    simp only [hopen, hclose, ih, List.isEmpty_map]

theorem inside?_map (tokens : List String) :
    inside? (tokens.map r.apply) = (inside? tokens).map fun inner =>
      inner.map r.apply := by
  cases tokens with
  | nil => rfl
  | cons token rest =>
    have hopen : r.apply token = "(" ↔ token = "(" := Renaming.apply_eq_iff (by decide) token
    rw [List.map_cons, inside?, inside?, closesAtEnd_map]
    simp only [hopen]
    split
    next => simp
    next => rfl

theorem stripParens_map (tokens : List String) :
    stripParens (tokens.map r.apply) = (stripParens tokens).map r.apply := by
  fun_induction stripParens tokens with
  | case1 tokens inner hinside _ ih =>
    have hmapped : inside? (tokens.map r.apply) = some (inner.map r.apply) := by
      rw [inside?_map, hinside]
      rfl
    rw [stripParens_of_inside? hmapped, ih]
  | case2 tokens hnone =>
    refine stripParens_of_inside?_eq_none ?_
    rw [inside?_map, hnone]
    rfl

theorem shortenedToken_of_isWord {token : String} (h : isWord token = true) :
    shortenedToken token = token := by
  obtain ⟨c, tail, htoken, hc, -⟩ := Macro.exists_of_isWord h
  have hdigit : startsWithDigit token.toList = false := by
    rw [htoken]
    exact Text.isDigit_eq_false_of_isWordStart hc
  rw [shortenedToken, shortenSuffix, hdigit, Bool.false_and, if_neg Bool.false_ne_true,
    String.ofList_toList]

theorem isWord_shortenedToken {token : String} (h : isWord token = false) :
    isWord (shortenedToken token) = false := by
  rw [shortenedToken]
  rcases shortenSuffix_cases token.toList with heq | ⟨c, front, x, y, hdigit, -, -, heq⟩
  · rwa [heq, String.ofList_toList]
  · have hc : Text.isWordStart c = false :=
      Text.forall_isDigit (p := fun c => Text.isWordStart c = false) (by decide) hdigit
    rw [heq, isWord, String.toList_ofList]
    exact Bool.and_eq_false_imp.mpr fun hstart => absurd hstart (by simp [hc])

/-- A name is not shortened, and what is shortened is not renamed. -/
theorem shortenedToken_apply (token : String) :
    shortenedToken (r.apply token) = r.apply (shortenedToken token) := by
  cases hword : isWord token with
  | true => rw [shortenedToken_of_isWord hword, shortenedToken_of_isWord (r.isWord_apply hword)]
  | false => rw [r.apply_other hword, r.apply_other (isWord_shortenedToken hword)]

/-- The tokens that a normalized text is joined from. -/
def normalTokens (tokens : List String) : List String :=
  (stripParens tokens).map shortenedToken

theorem toList_normalize (tokens : List String) :
    (normalize tokens).toList = joined (normalTokens tokens) := by
  rw [normalize, String.toList_ofList, joined, normalTokens, List.flatMap_map]
  simp [shortenedToken]

theorem normalTokens_map (tokens : List String) :
    normalTokens (tokens.map r.apply) = (normalTokens tokens).map r.apply := by
  rw [normalTokens, normalTokens, stripParens_map, List.map_map, List.map_map]
  exact List.map_congr_left fun token _ => shortenedToken_apply r token

end Normalizing

end Literal

end HeaderInterop
