import HeaderInterop.Macro.Token
import Mathlib.Data.List.TakeWhile

/-!
Where tokens end. Read by itself, a token is one token again, and with more text behind it it ends
where it did, unless it takes in the first character of that text.
-/

namespace HeaderInterop.Macro

/-- Whether a character belongs to a number right behind its character `last`. -/
def continuesNumber (isHex : Bool) (last c : Char) : Bool :=
  c.isAlphanum || c == '.' || c == '_' ||
    ((c == '+' || c == '-') && isExponentMark last && !isHex)

/-- Whether the closing quote of a literal stands in the text behind its opening one. -/
def isClosed (close : Char) : List Char → Bool
  | [] => false
  | c :: rest =>
    if c = close then true
    else if c = '\\' then
      match rest with
      | [] => false
      | _ :: rest => isClosed close rest
    else isClosed close rest

/-- Whether a token takes in a character that comes right behind it: a literal without its closing
quote takes in anything, a number what continues it, a word what is a part of words, and an operator
of one character the second one of a pair; a point takes in a digit. -/
def absorbs (token : List Char) (next : Char) : Bool :=
  match token with
  | [] => false
  | c :: tail =>
    if c = '"' ∨ c = '\'' then !isClosed c tail
    else if startsNumber c tail then
      continuesNumber (startsHex c tail) (tail.getLast?.getD c) next
    else if Text.isWordStart c then Text.isWordPart next
    else tail.isEmpty && (pairs.contains [c, next] || (c == '.' && next.isDigit))

theorem absorbs_cons (c : Char) (tail : List Char) (next : Char) :
    absorbs (c :: tail) next =
      if c = '"' ∨ c = '\'' then !isClosed c tail
      else if startsNumber c tail then
        continuesNumber (startsHex c tail) (tail.getLast?.getD c) next
      else if Text.isWordStart c then Text.isWordPart next
      else tail.isEmpty && (pairs.contains [c, next] || (c == '.' && next.isDigit)) :=
  rfl

/-- The text behind a token does not start with a character that the token takes in. -/
def IsApart (token rest : List Char) : Prop :=
  ∀ next ∈ rest.head?, absorbs token next = false

theorem isApart_nil (token : List Char) : IsApart token [] := by
  intro next hnext
  cases hnext

theorem isApart_cons {token rest : List Char} {next : Char} :
    IsApart token (next :: rest) ↔ absorbs token next = false := by
  simp [IsApart]

/-! Literals. -/

section Literals

variable {close c : Char}

theorem literalTail_close (rest : List Char) :
    literalTail close (close :: rest) = ([close], rest) := by
  rw [literalTail.eq_def]
  exact if_pos rfl

theorem literalTail_escape (hescape : '\\' ≠ close) (rest : List Char) :
    literalTail close ('\\' :: c :: rest) =
      ('\\' :: c :: (literalTail close rest).1, (literalTail close rest).2) := by
  rw [literalTail.eq_def]
  exact if_neg hescape

theorem literalTail_other (hclose : c ≠ close) (hescape : c ≠ '\\') (rest : List Char) :
    literalTail close (c :: rest) =
      (c :: (literalTail close rest).1, (literalTail close rest).2) := by
  rw [literalTail.eq_def]
  simp only [if_neg hclose, if_neg hescape]

theorem isClosed_close (rest : List Char) : isClosed close (close :: rest) = true := by
  rw [isClosed.eq_def]
  exact if_pos rfl

theorem isClosed_escape (hescape : '\\' ≠ close) (rest : List Char) :
    isClosed close ('\\' :: c :: rest) = isClosed close rest := by
  rw [isClosed.eq_def]
  exact if_neg hescape

theorem isClosed_other (hclose : c ≠ close) (hescape : c ≠ '\\') (rest : List Char) :
    isClosed close (c :: rest) = isClosed close rest := by
  rw [isClosed.eq_def]
  simp only [if_neg hclose, if_neg hescape]

theorem literalTail_append_of_isClosed {text : List Char} (h : isClosed close text = true)
    (rest : List Char) :
    literalTail close (text ++ rest) =
      ((literalTail close text).1, (literalTail close text).2 ++ rest) := by
  fun_induction isClosed close text with
  | case1 => cases h
  | case2 text => rw [List.cons_append, literalTail_close, literalTail_close]
  | case3 => cases h
  | case4 d text hescape ih =>
    rw [List.cons_append, List.cons_append, literalTail_escape hescape, literalTail_escape hescape,
      ih h]
  | case5 d text hclose hescape ih =>
    rw [List.cons_append, literalTail_other hclose hescape, literalTail_other hclose hescape, ih h]

theorem literalTail_self (close : Char) (text : List Char) :
    literalTail close (literalTail close text).1 = ((literalTail close text).1, []) := by
  fun_induction literalTail close text with
  | case1 => rfl
  | case2 => exact literalTail_close []
  | case3 hescape => rw [literalTail.eq_def]; exact if_neg hescape
  | case4 d text tail hescape ih => rw [literalTail_escape hescape, ih]
  | case5 d text hclose hescape tail ih => rw [literalTail_other hclose hescape, ih]

/-- A literal ends before the text does only behind its closing quote. -/
theorem isClosed_of_ne_nil {text : List Char} (h : (literalTail close text).2 ≠ []) :
    isClosed close (literalTail close text).1 = true := by
  fun_induction literalTail close text with
  | case1 => exact absurd rfl h
  | case2 => exact isClosed_close []
  | case3 => exact absurd rfl h
  | case4 d text tail hescape ih => rw [isClosed_escape hescape, ih h]
  | case5 d text hclose hescape tail ih => rw [isClosed_other hclose hescape, ih h]

theorem literalTail_append_iff {tail : List Char} (htail : literalTail close tail = (tail, []))
    (rest : List Char) :
    literalTail close (tail ++ rest) = (tail, rest) ↔
      ∀ next ∈ rest.head?, isClosed close tail = true := by
  constructor
  · intro happend next hnext
    have hne : (literalTail close (tail ++ rest)).2 ≠ [] := by
      rw [happend]
      rintro rfl
      cases hnext
    have hclosed := isClosed_of_ne_nil hne
    rwa [happend] at hclosed
  · intro hclosed
    cases rest with
    | nil => rw [List.append_nil, htail]
    | cons next rest =>
      rw [literalTail_append_of_isClosed (hclosed next rfl), htail, List.nil_append]

end Literals

/-! Numbers. -/

theorem numberTail_cons (isHex : Bool) (last c : Char) (rest : List Char) :
    numberTail isHex last (c :: rest) =
      if continuesNumber isHex last c then
        (c :: (numberTail isHex c rest).1, (numberTail isHex c rest).2)
      else ([], c :: rest) :=
  rfl

theorem numberTail_self (isHex : Bool) (last : Char) (text : List Char) :
    numberTail isHex last (numberTail isHex last text).1 =
      ((numberTail isHex last text).1, []) := by
  induction text generalizing last with
  | nil => rfl
  | cons c rest ih =>
    rw [numberTail_cons]
    split
    next hc => rw [numberTail_cons, if_pos hc, ih]
    next => rfl

theorem numberTail_append_of_self {isHex : Bool} {last : Char} {tail : List Char}
    (htail : numberTail isHex last tail = (tail, [])) (rest : List Char) :
    numberTail isHex last (tail ++ rest) =
      (tail ++ (numberTail isHex (tail.getLast?.getD last) rest).1,
        (numberTail isHex (tail.getLast?.getD last) rest).2) := by
  induction tail generalizing last with
  | nil => rfl
  | cons c tail ih =>
    rw [numberTail_cons] at htail
    split at htail
    next hc =>
      simp only [Prod.mk.injEq, List.cons.injEq, true_and] at htail
      have hrest := ih (Prod.ext htail.1 htail.2)
      rw [List.cons_append, numberTail_cons, if_pos hc, hrest, List.getLast?_cons]
      rfl
    next => simp at htail

theorem numberTail_append_iff {isHex : Bool} {last : Char} {tail : List Char}
    (htail : numberTail isHex last tail = (tail, [])) (rest : List Char) :
    numberTail isHex last (tail ++ rest) = (tail, rest) ↔
      ∀ next ∈ rest.head?, continuesNumber isHex (tail.getLast?.getD last) next = false := by
  rw [numberTail_append_of_self htail]
  cases rest with
  | nil => simp [numberTail]
  | cons next rest =>
    rw [numberTail_cons]
    by_cases hnext : continuesNumber isHex (tail.getLast?.getD last) next = true <;> simp [hnext]

/-- Behind a digit the first character of a number decides alone whether it is read further. -/
theorem continuesNumber_of_isDigit {last : Char} (h : last.isDigit = true) (isHex other : Bool)
    (c : Char) : continuesNumber isHex last c = continuesNumber other last c := by
  have hmark : isExponentMark last = false := by
    rw [← Bool.not_eq_true]
    intro hmark
    simp only [isExponentMark, Bool.or_eq_true, beq_iff_eq] at hmark
    rcases hmark with ((rfl | rfl) | rfl) | rfl <;> simp at h
  simp only [continuesNumber, hmark, Bool.and_false, Bool.false_and]

/-! Tokens of any kind. -/

section Kinds

variable {c : Char} {tail : List Char}

theorem tokenTail_literal (hquote : c = '"' ∨ c = '\'') (rest : List Char) :
    tokenTail c rest = literalTail c rest :=
  if_pos hquote

theorem tokenTail_number (hquote : ¬ (c = '"' ∨ c = '\'')) {rest : List Char}
    (hnumber : startsNumber c rest = true) :
    tokenTail c rest = numberTail (startsHex c rest) c rest := by
  unfold tokenTail
  rw [if_neg hquote, if_pos hnumber]

theorem tokenTail_word (hquote : ¬ (c = '"' ∨ c = '\'')) {rest : List Char}
    (hnumber : startsNumber c rest = false) (hword : Text.isWordStart c = true) :
    tokenTail c rest = (rest.takeWhile Text.isWordPart, rest.dropWhile Text.isWordPart) := by
  unfold tokenTail
  rw [if_neg hquote, hnumber, if_neg Bool.false_ne_true, if_pos hword]

/-- An operator has one character, or two that are a pair. -/
theorem tokenTail_operator (hquote : ¬ (c = '"' ∨ c = '\'')) (hword : Text.isWordStart c = false)
    {d : Char} {rest : List Char} (hnumber : startsNumber c (d :: rest) = false) :
    tokenTail c (d :: rest) = if [c, d] ∈ pairs then ([d], rest) else ([], d :: rest) := by
  unfold tokenTail
  rw [if_neg hquote, hnumber, hword, if_neg Bool.false_ne_true, if_neg Bool.false_ne_true]

/-- Only a point depends on what is behind it, if it starts a number. -/
theorem startsNumber_append {rest : List Char} (hnumber : startsNumber c tail = false)
    (hpoint : tail = [] → c = '.' → ∀ d ∈ rest.head?, d.isDigit = false) :
    startsNumber c (tail ++ rest) = false := by
  cases tail with
  | cons d tail => exact hnumber
  | nil =>
    have hdigit : c.isDigit = false := by simpa [startsNumber] using hnumber
    cases rest with
    | nil => exact hnumber
    | cons d rest =>
      by_cases hc : c = '.'
      · simp [startsNumber, hdigit, hpoint rfl hc d rfl]
      · simp [startsNumber, hdigit, hc]

theorem literal_append_iff (hquote : c = '"' ∨ c = '\'')
    (htail : tokenTail c tail = (tail, [])) (rest : List Char) :
    tokenTail c (tail ++ rest) = (tail, rest) ↔ IsApart (c :: tail) rest := by
  rw [tokenTail_literal hquote] at htail ⊢
  rw [literalTail_append_iff htail]
  simp [IsApart, absorbs, hquote]

theorem number_append_iff (hquote : ¬ (c = '"' ∨ c = '\''))
    (hnumber : startsNumber c tail = true) (htail : tokenTail c tail = (tail, []))
    (rest : List Char) :
    tokenTail c (tail ++ rest) = (tail, rest) ↔ IsApart (c :: tail) rest := by
  have hboth : startsNumber c (tail ++ rest) = true := by
    cases tail with
    | nil => simpa [startsNumber] using Or.inl hnumber
    | cons d tail => exact hnumber
  rw [tokenTail_number hquote hnumber] at htail
  rw [tokenTail_number hquote hboth]
  cases tail with
  | nil =>
    have hdigit : c.isDigit = true := by simpa [startsNumber] using hnumber
    rw [numberTail_append_iff rfl]
    simp [IsApart, absorbs, hquote, hnumber, continuesNumber_of_isDigit hdigit _ (startsHex c [])]
  | cons d tail =>
    have hhex : startsHex c (d :: tail ++ rest) = startsHex c (d :: tail) := rfl
    rw [hhex, numberTail_append_iff htail]
    simp [IsApart, absorbs, hquote, hnumber]

theorem word_append_iff (hquote : ¬ (c = '"' ∨ c = '\''))
    (hnumber : startsNumber c tail = false) (hword : Text.isWordStart c = true)
    (htail : tokenTail c tail = (tail, [])) (rest : List Char) :
    tokenTail c (tail ++ rest) = (tail, rest) ↔ IsApart (c :: tail) rest := by
  have hpoint : c ≠ '.' := by
    rintro rfl
    exact absurd hword (by decide)
  have hboth : startsNumber c (tail ++ rest) = false :=
    startsNumber_append hnumber fun _ hc => absurd hc hpoint
  rw [tokenTail_word hquote hnumber hword] at htail
  have hall : ∀ d ∈ tail, Text.isWordPart d = true :=
    List.takeWhile_eq_self_iff.mp (congrArg Prod.fst htail)
  rw [tokenTail_word hquote hboth hword, List.takeWhile_append_of_pos hall,
    List.dropWhile_append_of_pos hall]
  cases rest with
  | nil => simp [isApart_nil]
  | cons next rest =>
    have habsorbs : absorbs (c :: tail) next = Text.isWordPart next := by
      simp [absorbs, hquote, hnumber, hword]
    rw [isApart_cons, habsorbs]
    by_cases hnext : Text.isWordPart next = true <;> simp [hnext]

theorem operator_append_iff (hquote : ¬ (c = '"' ∨ c = '\''))
    (hnumber : startsNumber c tail = false) (hword : Text.isWordStart c = false)
    (htail : tokenTail c tail = (tail, [])) (rest : List Char) :
    tokenTail c (tail ++ rest) = (tail, rest) ↔ IsApart (c :: tail) rest := by
  cases tail with
  | nil =>
    cases rest with
    | nil => simp [htail, isApart_nil]
    | cons next rest =>
      have habsorbs : absorbs [c] next =
          (pairs.contains [c, next] || (c == '.' && next.isDigit)) := by
        simp [absorbs, hquote, hnumber, hword]
      have hdigit : c.isDigit = false := by simpa [startsNumber] using hnumber
      rw [isApart_cons, habsorbs, List.nil_append]
      by_cases hpoint : (c == '.' && next.isDigit) = true
      · have hstarts : startsNumber c (next :: rest) = true := by
          simp only [startsNumber, List.head?_cons, Option.any_some, hpoint, Bool.or_true]
        have hnext : continuesNumber (startsHex c (next :: rest)) c next = true := by
          simp [continuesNumber, Char.isAlphanum, (Bool.and_eq_true_iff.mp hpoint).2]
        rw [tokenTail_number hquote hstarts, numberTail_cons, if_pos hnext]
        simp [hpoint]
      · have hstarts : startsNumber c (next :: rest) = false := by
          simpa [startsNumber, hdigit] using hpoint
        rw [tokenTail_operator hquote hword hstarts]
        by_cases hpair : [c, next] ∈ pairs <;> simp [hpair, hpoint]
  | cons d tail =>
    rw [tokenTail_operator hquote hword hnumber] at htail
    split at htail
    next hpair =>
      obtain rfl : tail = [] := congrArg Prod.snd htail
      have hboth : startsNumber c (d :: rest) = false := hnumber
      have habsorbs (next : Char) : absorbs [c, d] next = false := by
        simp [absorbs, hquote, hnumber, hword]
      rw [List.cons_append, List.nil_append, tokenTail_operator hquote hword hboth, if_pos hpair]
      simp [IsApart, habsorbs]
    next => simp at htail

/-- A token with more text behind it ends where it did by itself, unless it takes in the first
character of that text. -/
theorem tokenTail_append_iff (htail : tokenTail c tail = (tail, [])) (rest : List Char) :
    tokenTail c (tail ++ rest) = (tail, rest) ↔ IsApart (c :: tail) rest := by
  by_cases hquote : c = '"' ∨ c = '\''
  · exact literal_append_iff hquote htail rest
  · cases hnumber : startsNumber c tail with
    | true => exact number_append_iff hquote hnumber htail rest
    | false =>
      cases hword : Text.isWordStart c with
      | true => exact word_append_iff hquote hnumber hword htail rest
      | false => exact operator_append_iff hquote hnumber hword htail rest

theorem tokenTail_nil (c : Char) : tokenTail c [] = ([], []) := by
  unfold tokenTail
  split
  · rfl
  · split
    · rfl
    · split <;> rfl

theorem number_self (hquote : ¬ (c = '"' ∨ c = '\'')) {text : List Char}
    (hnumber : startsNumber c text = true) :
    tokenTail c (tokenTail c text).1 = ((tokenTail c text).1, []) := by
  rw [tokenTail_number hquote hnumber]
  cases text with
  | nil => exact tokenTail_nil c
  | cons d rest =>
    by_cases hd : continuesNumber (startsHex c (d :: rest)) c d = true
    · have hself := numberTail_self (startsHex c (d :: rest)) c (d :: rest)
      rw [numberTail_cons, if_pos hd] at hself ⊢
      -- The first two characters are those of the text, so it is a number of the same kind.
      have hagain : startsNumber c (d :: (numberTail (startsHex c (d :: rest)) d rest).1) = true :=
        hnumber
      rw [tokenTail_number hquote hagain]
      exact hself
    · rw [numberTail_cons, if_neg hd]
      exact tokenTail_nil c

theorem word_self (hquote : ¬ (c = '"' ∨ c = '\'')) {text : List Char}
    (hnumber : startsNumber c text = false) (hword : Text.isWordStart c = true) :
    tokenTail c (tokenTail c text).1 = ((tokenTail c text).1, []) := by
  rw [tokenTail_word hquote hnumber hword]
  cases text with
  | nil => exact tokenTail_nil c
  | cons d rest =>
    by_cases hd : Text.isWordPart d = true
    · have hall : ∀ x ∈ d :: rest.takeWhile Text.isWordPart, Text.isWordPart x = true := by
        rw [← List.takeWhile_cons_of_pos hd]
        exact fun x hx => List.mem_takeWhile_imp hx
      have hagain : startsNumber c (d :: rest.takeWhile Text.isWordPart) = false := hnumber
      rw [List.takeWhile_cons_of_pos hd, tokenTail_word hquote hagain hword,
        List.takeWhile_eq_self_iff.mpr hall, List.dropWhile_eq_nil_iff.mpr hall]
    · rw [List.takeWhile_cons_of_neg hd]
      exact tokenTail_nil c

theorem operator_self (hquote : ¬ (c = '"' ∨ c = '\'')) {text : List Char}
    (hnumber : startsNumber c text = false) (hword : Text.isWordStart c = false) :
    tokenTail c (tokenTail c text).1 = ((tokenTail c text).1, []) := by
  cases text with
  | nil => rw [tokenTail_nil]; exact tokenTail_nil c
  | cons d rest =>
    rw [tokenTail_operator hquote hword hnumber]
    split
    next hpair =>
      have hagain : startsNumber c [d] = false := hnumber
      rw [tokenTail_operator hquote hword hagain, if_pos hpair]
    next => exact tokenTail_nil c

/-- Read by itself, a token is one token again. -/
theorem tokenTail_self (c : Char) (text : List Char) :
    tokenTail c (tokenTail c text).1 = ((tokenTail c text).1, []) := by
  by_cases hquote : c = '"' ∨ c = '\''
  · rw [tokenTail_literal hquote, tokenTail_literal hquote]
    exact literalTail_self c text
  · cases hnumber : startsNumber c text with
    | true => exact number_self hquote hnumber
    | false =>
      cases hword : Text.isWordStart c with
      | true => exact word_self hquote hnumber hword
      | false => exact operator_self hquote hnumber hword

end Kinds

end HeaderInterop.Macro
