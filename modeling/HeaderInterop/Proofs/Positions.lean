import HeaderInterop.Proofs.CType.Positions
import HeaderInterop.Proofs.Constant.Nesting
import HeaderInterop.Proofs.Macro.Positions

/-!
Scans by positions. The parentheses around a replacement text are also found by counting, at
positions in its tokens. With them, all scans by positions are safe: none of them takes a step that
it must not take, and each gives what its description without positions gives.
-/

namespace HeaderInterop

namespace Literal

open Scan

/-- Whether the last of the open groups is closed by the last of the tokens, of which `i` are read
and there are `count` in all. -/
def closesLast (count i depth : Nat) : List String → Except Breach Bool
  | [] => .ok false
  | token :: rest =>
    if token = "(" then closesLast count (i + 1) (depth + 1) rest
    else if token = ")" then
      match minus depth 1 with
      | .error breach => .error breach
      | .ok 0 => (minus count 1).map fun last => i == last
      | .ok outer => closesLast count (i + 1) outer rest
    else closesLast count (i + 1) depth rest

def isEnclosed (tokens : List String) : Except Breach Bool :=
  if 2 ≤ tokens.length then do
    let first ← item tokens 0
    let last ← item tokens (← minus tokens.length 1)
    if first = "(" ∧ last = ")" then closesLast tokens.length 0 0 tokens else return false
  else return false

/-- The tokens without the parentheses that enclose them all. -/
def strip (tokens : List String) : Except Breach (List String) :=
  match isEnclosed tokens with
  | .error breach => .error breach
  | .ok false => .ok tokens
  | .ok true => do
    let inner ← slice tokens 1 (← minus tokens.length 1)
    if _h : inner.length < tokens.length then strip inner else throw .standstill
  termination_by tokens.length

/-- Where a group is open, the count of open groups is not zero at any closing parenthesis. -/
theorem closesLast_eq (i depth : Nat) (rest : List String) :
    closesLast (i + rest.length) i (depth + 1) rest = .ok (closesAtEnd depth rest) := by
  induction rest generalizing i depth with
  | nil => rfl
  | cons token rest ih =>
    have hcount : i + (token :: rest).length = i + 1 + rest.length := by
      rw [List.length_cons]
      omega
    rw [hcount, closesLast]
    by_cases hopen : token = "("
    · rw [if_pos hopen, ih, hopen, closesAtEnd_open]
    by_cases hclose : token = ")"
    · rw [if_neg hopen, if_pos hclose, minus_add, hclose]
      cases depth with
      | zero =>
        change (minus _ 1).map (fun last => i == last) = .ok rest.isEmpty
        rw [Nat.add_right_comm, minus_add]
        cases rest <;> simp [Except.map]
      | succ outer => exact ih (i + 1) outer
    · rw [if_neg hopen, if_neg hclose, ih, closesAtEnd_other hopen hclose]

theorem isSome_inside?_cons (token : String) (rest : List String) :
    (inside? (token :: rest)).isSome = (decide (token = "(") && closesAtEnd 0 rest) := by
  rw [inside?]
  split
  next h => exact h.symm
  next h => exact (Bool.not_eq_true _ ▸ h).symm

/-- The last token is the only one that can close the first. -/
theorem closesAtEnd_eq_false_of_getLast {depth : Nat} {rest : List String} (hne : rest ≠ [])
    (hlast : rest.getLast hne ≠ ")") : closesAtEnd depth rest = false := by
  rw [← Bool.not_eq_true, closesAtEnd_eq_true_iff]
  rintro ⟨inner, rfl, -⟩
  exact hlast (List.getLast_concat)

theorem isEnclosed_eq (tokens : List String) : isEnclosed tokens = .ok (inside? tokens).isSome := by
  cases tokens with
  | nil => rfl
  | cons token rest =>
    rw [isSome_inside?_cons]
    by_cases hne : rest = []
    · rw [hne, closesAtEnd, Bool.and_false]
      rfl
    have hlength : 2 ≤ (token :: rest).length := by
      have := List.length_pos_iff.mpr hne
      rw [List.length_cons]
      omega
    have hlast : item (token :: rest) rest.length = .ok (rest.getLast hne) := by
      refine item_eq ?_
      rw [← List.getLast_cons hne, ← List.getLast?_eq_some_getLast, List.getLast?_eq_getElem?]
      rfl
    have hround : isEnclosed (token :: rest) =
        if token = "(" ∧ rest.getLast hne = ")" then
          closesLast (rest.length + 1) 0 0 (token :: rest)
        else .ok false := by
      rw [isEnclosed, if_pos hlength, List.length_cons, minus_add]
      simp only [bind, Except.bind, hlast]
      rfl
    rw [hround]
    by_cases hopen : token = "("
    · by_cases hclose : rest.getLast hne = ")"
      · rw [if_pos ⟨hopen, hclose⟩, hopen, Nat.add_comm]
        exact closesLast_eq 1 0 rest
      · rw [if_neg fun h => hclose h.2, closesAtEnd_eq_false_of_getLast hne hclose, Bool.and_false]
    · rw [if_neg fun h => hopen h.1, decide_eq_false hopen, Bool.false_and]

theorem strip_eq (tokens : List String) : strip tokens = .ok (stripParens tokens) := by
  induction tokens using stripParens.induct with
  | case1 tokens inner h hlt ih =>
    obtain ⟨rfl, -⟩ := inside?_eq_some_iff.mp h
    have hlength : ("(" :: (inner ++ [")"])).length = inner.length + 1 + 1 := by simp
    have hcut : slice ("(" :: (inner ++ [")"])) 1 (inner.length + 1) = .ok inner := by
      simpa [Nat.add_comm] using slice_append ["("] inner [")"]
    rw [strip, isEnclosed_eq, h, hlength, minus_add, stripParens_of_inside? h]
    simp only [Option.isSome_some, bind, Except.bind, hcut]
    rw [dif_pos (by omega)]
    exact ih
  | case2 tokens h => rw [strip, isEnclosed_eq, h, stripParens_of_inside?_eq_none h]; rfl

end Literal

/-- No scan by positions takes a step that it must not take, on any text or tokens: none counts
below zero, none reads or cuts outside of the text or inside of a character, and each goes on to its
end and gives the tokens that are described without positions. -/
theorem scans_stayInside (typeText : List Char) (replacement : String) (tokens : List String) :
    CType.scan typeText = .ok (CType.tokenize typeText) ∧
      Macro.scan replacement = .ok (Macro.tokenize replacement) ∧
      Literal.strip tokens = .ok (Literal.stripParens tokens) :=
  ⟨CType.scan_eq typeText, Macro.scan_eq replacement, Literal.strip_eq tokens⟩

end HeaderInterop
