import HeaderInterop.Proofs.Macro.Boundaries
import HeaderInterop.Proofs.Text.Positions

/-!
Preprocessing tokens by positions. Here a replacement text is read at positions in its characters: a
scan of a literal may run past the end behind a backslash there and is brought back, a number looks
at the character in front of the one it reads, and a token is cut out from its first position to the
one behind it. No step of this is a breach, and the tokens are those of the tokenizer.
-/

namespace HeaderInterop.Macro

open Scan

/-- The position of the quote that closes a literal, from position `i` on. Without one it is the end
of the text, or the position behind it if the last character is a backslash that hides nothing. -/
def literalStop (close : Char) (chars : List Char) (i : Nat) : Nat :=
  if h : i < chars.length then
    if chars[i] = close then i
    else if chars[i] = '\\' then literalStop close chars (i + 2)
    else literalStop close chars (i + 1)
  else i
  termination_by chars.length - i

/-- The first position from `i` on where a number ends. -/
def numberStop (isHex : Bool) (chars : List Char) (i : Nat) : Except Breach Nat :=
  if h : i < chars.length then do
    let last ← item chars (← minus i 1)
    if continuesNumber isHex last chars[i] then numberStop isHex chars (i + 1) else return i
  else return i
  termination_by chars.length - i

/-- The position behind the operator at position `i`, of which two characters are read if there are
two. -/
def operatorStop (chars : List Char) (i : Nat) : Except Breach Nat := do
  let pair ← slice chars i (min (i + 2) chars.length)
  if pairs.contains pair then return i + 2 else return i + 1

/-- The position behind the token that starts with `c` at position `i`. -/
def tokenStop (chars : List Char) (i : Nat) (c : Char) : Except Breach Nat :=
  if c = '"' ∨ c = '\'' then .ok (min (literalStop c chars (i + 1) + 1) chars.length)
  else if startsNumber c (chars.drop (i + 1)) then
    numberStop (startsHex c (chars.drop (i + 1))) chars (i + 1)
  else if Text.isWordStart c then .ok (runStop Text.isWordPart chars i)
  else operatorStop chars i

/-- The tokens of a text from position `i` on. Each of them is cut out behind its first position and
inside of the text. -/
def scanFrom (chars : List Char) (i : Nat) : Except Breach (List (List Char)) :=
  if h : i < chars.length then
    if Text.isBlank chars[i] then scanFrom chars (i + 1)
    else
      match tokenStop chars i chars[i] with
      | .error breach => .error breach
      | .ok stop =>
        if i < stop then do
          let token ← slice chars i stop
          let tokens ← scanFrom chars stop
          return token :: tokens
        else .error .standstill
  else .ok []
  termination_by chars.length - i

def scan (text : String) : Except Breach (List String) :=
  (scanFrom text.toList 0).map (List.map String.ofList)

/-! Where tokens stop. -/

section Cons

variable (front : List Char) (c : Char) (rest : List Char)

theorem length_lt_append_cons : front.length < (front ++ c :: rest).length := by
  simp

theorem literalStop_cons (close : Char) :
    literalStop close (front ++ c :: rest) front.length =
      if c = close then front.length
      else if c = '\\' then literalStop close (front ++ c :: rest) (front.length + 2)
      else literalStop close (front ++ c :: rest) (front.length + 1) := by
  rw [literalStop, dif_pos (length_lt_append_cons front c rest)]
  simp

theorem literalStop_of_le {close : Char} {chars : List Char} {i : Nat} (h : chars.length ≤ i) :
    literalStop close chars i = i := by
  rw [literalStop, dif_neg (Nat.not_lt.mpr h)]

end Cons

/-- Brought back into the text, the position behind the closing quote is the one behind the
literal. -/
theorem min_literalStop (close : Char) (front rest : List Char) :
    min (literalStop close (front ++ rest) front.length + 1) (front ++ rest).length =
      front.length + (literalTail close rest).1.length := by
  fun_induction literalTail close rest generalizing front with
  | case1 => simp [literalStop_of_le]
  | case2 rest => simp [literalStop_cons]
  | case3 hescape =>
    rw [literalStop_cons, if_neg hescape, if_pos rfl, literalStop_of_le (by simp)]
    simp
  | case4 d rest tail hescape ih =>
    have hinside := ih (front ++ ['\\', d])
    rw [List.append_assoc, List.length_append] at hinside
    rw [literalStop_cons, if_neg hescape, if_pos rfl]
    refine hinside.trans ?_
    simp [tail]
    omega
  | case5 c rest hclose hescape tail ih =>
    have hinside := ih (front ++ [c])
    rw [List.append_assoc, List.length_append] at hinside
    rw [literalStop_cons, if_neg hclose, if_neg hescape]
    refine hinside.trans ?_
    simp [tail]
    omega

example : literalStop '"' ['"', 'a', '\\'] 1 = 4 := by cbv

/-- The character in front of the one that a number's scan reads is the last one of the number. -/
theorem numberStop_append (isHex : Bool) (last : Char) (front rest : List Char) :
    numberStop isHex (front ++ last :: rest) (front.length + 1) =
      .ok (front.length + 1 + (numberTail isHex last rest).1.length) := by
  induction rest generalizing last front with
  | nil =>
    rw [numberStop, dif_neg (by simp)]
    rfl
  | cons c rest ih =>
    have hlast : item (front ++ last :: c :: rest) front.length = .ok last :=
      item_eq (by simp)
    have hcurrent : (front ++ last :: c :: rest)[front.length + 1]? = some c := by simp
    have hin : front.length + 1 < (front ++ last :: c :: rest).length := by simp
    rw [List.getElem?_eq_getElem hin, Option.some.injEq] at hcurrent
    have hrest := ih c (front ++ [last])
    rw [List.append_assoc, List.length_append] at hrest
    rw [numberStop, dif_pos hin, minus_add, numberTail_cons]
    simp only [bind, Except.bind, hlast, hcurrent]
    split
    · refine hrest.trans ?_
      simp
      omega
    · rfl

theorem operatorStop_single (front : List Char) (c : Char) :
    operatorStop (front ++ [c]) front.length = .ok (front.length + 1) := by
  have hcut : slice (front ++ [c]) front.length
      (min (front.length + 2) (front ++ [c]).length) = .ok [c] := by
    simpa using slice_append front [c] []
  have hsingle : pairs.contains [c] = false := by simp [pairs]
  simp only [operatorStop, hcut, bind, Except.bind, hsingle]
  rfl

theorem operatorStop_append (front : List Char) (c d : Char) (rest : List Char) :
    operatorStop (front ++ c :: d :: rest) front.length =
      .ok (if pairs.contains [c, d] then front.length + 2 else front.length + 1) := by
  have hcut : slice (front ++ c :: d :: rest) front.length
      (min (front.length + 2) (front ++ c :: d :: rest).length) = .ok [c, d] := by
    simpa using slice_append front [c, d] rest
  simp only [operatorStop, hcut, bind, Except.bind]
  split <;> rfl

theorem tokenStop_append (front : List Char) (c : Char) (rest : List Char) :
    tokenStop (front ++ c :: rest) front.length c =
      .ok (front.length + 1 + (tokenTail c rest).1.length) := by
  have hbehind : (front ++ c :: rest).drop (front.length + 1) = rest := by simp
  unfold tokenStop tokenTail
  rw [hbehind]
  split
  · have hliteral := min_literalStop c (front ++ [c]) rest
    rw [List.append_assoc, List.length_append] at hliteral
    exact congrArg Except.ok hliteral
  split
  · exact numberStop_append _ c front rest
  split
  next hword =>
    have hpart := Text.isWordPart_of_isWordStart hword
    rw [runStop_eq, List.drop_left, List.takeWhile_cons_of_pos hpart, List.length_cons,
      Nat.add_comm _ 1, Nat.add_assoc]
  cases rest with
  | nil => exact operatorStop_single front c
  | cons d rest =>
    rw [operatorStop_append]
    refine congrArg Except.ok ?_
    by_cases hpair : [c, d] ∈ pairs <;> simp [hpair]

/-! The scan. -/

/-- From any position on, the scan takes no step that it must not take and gives the tokens of the
text that is left there. -/
theorem scanFrom_append (front rest : List Char) :
    scanFrom (front ++ rest) front.length = .ok (pieces rest) := by
  fun_induction pieces rest generalizing front with
  | case1 => rw [scanFrom, dif_neg (by simp)]
  | case2 c rest hblank ih =>
    have hrest := ih (front ++ [c])
    rw [List.append_assoc, List.length_append] at hrest
    rw [scanFrom, dif_pos (length_lt_append_cons front c rest), if_pos (by simpa using hblank)]
    exact hrest
  | case3 c rest hblank _ ih =>
    have hin := length_lt_append_cons front c rest
    have hfirst : (front ++ c :: rest)[front.length] = c := by simp
    have htext : front ++ c :: rest =
        front ++ c :: (tokenTail c rest).1 ++ (tokenTail c rest).2 := by
      rw [List.append_assoc, List.cons_append, tokenTail_append]
    have hcut := slice_append front (c :: (tokenTail c rest).1) (tokenTail c rest).2
    have hrest := ih (front ++ c :: (tokenTail c rest).1)
    have hlength : (front ++ c :: (tokenTail c rest).1).length =
        front.length + 1 + (tokenTail c rest).1.length := by
      rw [List.length_append, List.length_cons]
      omega
    have hlt : front.length < front.length + 1 + (tokenTail c rest).1.length := by omega
    rw [← htext, hlength] at hcut hrest
    rw [scanFrom, dif_pos hin, hfirst, if_neg hblank, tokenStop_append]
    simp only [if_pos hlt, hcut, hrest, bind, Except.bind]
    rfl

/-- The scan of a replacement text by positions never leaves the text and never stands still, and it
gives the tokens of the text. -/
theorem scan_eq (text : String) : scan text = .ok (tokenize text) :=
  congrArg (Except.map (List.map String.ofList)) (scanFrom_append [] text.toList)

end HeaderInterop.Macro
