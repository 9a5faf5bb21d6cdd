import HeaderInterop.Proofs.Macro.Tokens
import HeaderInterop.Proofs.Text.Numerals

/-!
The tokens of a normalized text. The tokens are joined with nothing between them, so they are found
again just when none of them takes in the first character of the next: a word takes in a word behind
it, and two minus signs are one operator.
-/

namespace HeaderInterop

open Macro (IsToken IsApart numberTail)

namespace Macro

/-- The front of what a number reads is read the same way. -/
theorem numberTail_self_of_append {isHex : Bool} {last : Char} {front back : List Char}
    (h : numberTail isHex last (front ++ back) = (front ++ back, [])) :
    numberTail isHex last front = (front, []) := by
  induction front generalizing last with
  | nil => rfl
  | cons c front ih =>
    rw [List.cons_append, numberTail_cons] at h
    split at h
    next hc =>
      simp only [Prod.mk.injEq, List.cons.injEq, true_and] at h
      rw [numberTail_cons, if_pos hc, ih (Prod.ext h.1 h.2)]
    next => simp at h

end Macro

namespace Literal

/-- A token stays as it is, or it starts with a digit and ends in two `L`s, of which one is kept. -/
theorem shortenSuffix_cases (token : List Char) :
    shortenSuffix token = token ∨
      ∃ c front x y, c.isDigit = true ∧ x.toLower = 'l' ∧ token = c :: (front ++ [x, y]) ∧
        shortenSuffix token = c :: (front ++ ['L']) := by
  cases hlong : startsWithDigit token && Text.endsWith ['l', 'l'] (Text.lowerAscii token) with
  | false =>
    rw [shortenSuffix, hlong]
    exact Or.inl rfl
  | true =>
    obtain ⟨hdigit, hends⟩ := Bool.and_eq_true_iff.mp hlong
    obtain ⟨start, hstart⟩ := Text.endsWith_eq_true_iff.mp hends
    obtain ⟨number, letters, rfl, -, hletters⟩ := List.map_eq_append_iff.mp hstart.symm
    obtain ⟨x, rest, rfl, hx, hrest⟩ := List.map_eq_cons_iff.mp hletters
    obtain ⟨y, rest, rfl, hy, hnil⟩ := List.map_eq_cons_iff.mp hrest
    obtain rfl := List.map_eq_nil_iff.mp hnil
    cases number with
    | nil =>
      have hnot : x.toLower ≠ 'l' :=
        Text.forall_isDigit (p := fun c => c.toLower ≠ 'l') (by decide) hdigit
      exact absurd hx hnot
    | cons c front =>
      refine Or.inr ⟨c, front, x, y, hdigit, hx, rfl, ?_⟩
      rw [shortenSuffix, hlong, if_pos rfl]
      simp

/-- What starts with an `L` does not make a hexadecimal number. -/
theorem startsHex_of_toLower {c x : Char} (hx : x.toLower = 'l') (rest : List Char) :
    Macro.startsHex c (x :: rest) = false := by
  have hmark : (x == 'x' || x == 'X') = false := by
    rw [← Bool.not_eq_true, Bool.or_eq_true, beq_iff_eq, beq_iff_eq]
    rintro (rfl | rfl) <;> simp at hx
  rw [Macro.startsHex, List.head?_cons, Option.any_some, hmark, Bool.and_false]

theorem isToken_shortenSuffix {token : List Char} (h : IsToken token) :
    IsToken (shortenSuffix token) := by
  rcases shortenSuffix_cases token with heq | ⟨c, front, x, y, hdigit, hx, rfl, heq⟩
  · rwa [heq]
  · obtain ⟨hblank, htail⟩ := h
    have hquote : ¬ (c = '"' ∨ c = '\'') := by
      rintro (rfl | rfl) <;> simp at hdigit
    have hnumber (rest : List Char) : Macro.startsNumber c rest = true := by
      rw [Macro.startsNumber, hdigit, Bool.true_or]
    have hhex : Macro.startsHex c (front ++ ['L']) = Macro.startsHex c (front ++ [x, y]) := by
      cases front with
      | nil =>
        rw [List.nil_append, List.nil_append, startsHex_of_toLower hx, startsHex_of_toLower rfl]
      | cons d front => rfl
    rw [Macro.tokenTail_number hquote (hnumber _)] at htail
    rw [heq]
    refine ⟨hblank, ?_⟩
    rw [Macro.tokenTail_number hquote (hnumber _), hhex,
      Macro.numberTail_append_of_self (Macro.numberTail_self_of_append htail)]
    rfl

theorem subset_of_inside? {tokens inner : List String} (h : inside? tokens = some inner) :
    inner ⊆ tokens := by
  cases tokens with
  | nil => cases h
  | cons token rest =>
    rw [inside?] at h
    split at h
    next =>
      obtain rfl := Option.some.inj h
      exact List.Subset.trans (List.dropLast_subset rest) (List.subset_cons_self token rest)
    next => cases h

theorem stripParens_subset (tokens : List String) : stripParens tokens ⊆ tokens := by
  fun_induction stripParens tokens with
  | case1 tokens inner hinside hlt ih => exact List.Subset.trans ih (subset_of_inside? hinside)
  | case2 tokens hnone => exact List.Subset.refl _

/-- A token as a normalized text has it. -/
def shortenedToken (token : String) : String :=
  String.ofList (shortenSuffix token.toList)

/-- The tokens of a normalized text are those that it is joined from exactly when none of them takes
in the first character of the next. -/
theorem tokenize_normalize_iff (text : String) :
    Macro.tokenize (normalize (Macro.tokenize text)) =
        (stripParens (Macro.tokenize text)).map shortenedToken ↔
      ((stripParens (Macro.tokenize text)).map shortenedToken).IsChain
        fun token next => IsApart token.toList next.toList := by
  have htokens : ∀ token ∈ (stripParens (Macro.tokenize text)).map fun token =>
      shortenSuffix token.toList, IsToken token := by
    intro token hmem
    obtain ⟨whole, hwhole, rfl⟩ := List.mem_map.mp hmem
    obtain ⟨piece, hpiece, rfl⟩ := List.mem_map.mp (stripParens_subset _ hwhole)
    rw [String.toList_ofList]
    exact isToken_shortenSuffix (Macro.isToken_of_mem_pieces hpiece)
  have hmap : (stripParens (Macro.tokenize text)).map shortenedToken =
      ((stripParens (Macro.tokenize text)).map fun token => shortenSuffix token.toList).map
        String.ofList := by
    rw [List.map_map]
    rfl
  have hjoined := Macro.pieces_flatten_iff htokens
  rw [normalize, Macro.tokenize_ofList, List.flatMap_def, hmap, List.isChain_map]
  simp only [String.toList_ofList]
  rw [← hjoined]
  exact (List.map_injective_iff.mpr fun _ _ => String.ofList_inj.mp).eq_iff

/-- Two minus signs become one operator, and two words one word. -/
theorem tokenize_normalize_ne :
    Macro.tokenize (normalize (Macro.tokenize "1 - -1")) ≠
        (stripParens (Macro.tokenize "1 - -1")).map shortenedToken ∧
      Macro.tokenize (normalize (Macro.tokenize "unsigned int")) ≠
        (stripParens (Macro.tokenize "unsigned int")).map shortenedToken := by
  decide +kernel

end Literal

end HeaderInterop
