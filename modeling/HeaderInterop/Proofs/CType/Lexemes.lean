import HeaderInterop.CType.Normal
import HeaderInterop.CType.Printer
import HeaderInterop.Proofs.Except

/-!
The tokens of a text. Whatever the text, its words are names and its numbers are 64-bit words. In
the other direction, tokens written with a blank between them are read back; there the phrase of an
unnamed type must be one that the scan finds the end of.
-/

namespace HeaderInterop

namespace Text

theorem all_isDigit_toDigits (n : Nat) : (Nat.toDigits 10 n).all Char.isDigit = true :=
  List.all_eq_true.mpr fun _ hc => Nat.isDigit_of_mem_toDigits (by decide) (by decide) hc

theorem digits?_toDigits (n : Nat) : digits? (Nat.toDigits 10 n) = some n := by
  have hvalue : digitsValue (Nat.toDigits 10 n) = n := by
    have h := Nat.ofDigitChars_toDigits (b := 10) (n := n) (by decide) (by decide)
    rw [Nat.ofDigitChars_eq_foldl] at h
    exact h
  simp [digits?, all_isDigit_toDigits, hvalue, Nat.toDigits_ne_nil]

theorem isDigit_eq_false_of_isNameStart {c : Char} (h : isNameStart c = true) :
    c.isDigit = false := by
  have hletter : ('A'.val ≤ c.val ∧ c.val ≤ 'Z'.val) ∨ ('a'.val ≤ c.val ∧ c.val ≤ 'z'.val) ∨
      c = '_' := by
    rcases Bool.or_eq_true_iff.mp h with halpha | hunderscore
    · rcases Bool.or_eq_true_iff.mp halpha with hupper | hlower
      · exact Or.inl (of_decide_eq_true hupper)
      · obtain ⟨hleast, hmost⟩ := Bool.and_eq_true_iff.mp hlower
        exact Or.inr (Or.inl ⟨of_decide_eq_true hleast, of_decide_eq_true hmost⟩)
    · exact Or.inr (Or.inr (eq_of_beq hunderscore))
  simp only [UInt32.le_iff_toNat_le] at hletter
  rw [← Bool.not_eq_true]
  intro hdigit
  simp only [Char.isDigit, Bool.and_eq_true, decide_eq_true_eq, UInt32.le_iff_toNat_le] at hdigit
  rcases hletter with hupper | hlower | rfl
  · simp at hupper hdigit
    omega
  · simp at hlower hdigit
    omega
  · simp at hdigit

end Text

namespace CType

/-- A token that a text can give: its word is a name, its number fits a word. -/
def Token.isProper : Token → Bool
  | .ident word => isTagName word
  | .number value => value ≤ Text.maxUInt64
  | _ => true

theorem isTagName_of_scanned {c : Char} {rest : List Char} {word : String}
    (hc : Text.isNameStart c = true)
    (hscan : word = String.ofList (c :: rest.takeWhile Text.isNamePart))
    (hword : word ≠ attributeWord) : isTagName word = true := by
  have hlist : word.toList = c :: rest.takeWhile Text.isNamePart := by simp [hscan]
  simp [isTagName, isName, hlist, hc, hword]

private theorem all_isProper_of_map {token : Token} {result : Except Fault (List Token)}
    {tokens : List Token} (htoken : token.isProper = true)
    (hresult : ∀ {others}, result = .ok others → others.all Token.isProper = true)
    (h : result.map (token :: ·) = .ok tokens) : tokens.all Token.isProper = true := by
  obtain ⟨others, hothers, rfl⟩ := except_map_eq_ok.mp h
  simp [htoken, hresult hothers]

theorem isProper_of_tokenize {text : List Char} {tokens : List Token}
    (h : tokenize text = .ok tokens) : tokens.all Token.isProper = true := by
  fun_induction tokenize text generalizing tokens with
  | case1 => simp_all
  | case2 _ _ _ ih => exact ih h
  | case3 => simp at h
  | case4 _ _ _ _ _ _ _ ih => exact all_isProper_of_map rfl ih h
  | case5 _ _ _ ih => exact all_isProper_of_map rfl ih h
  | case6 _ _ _ _ _ ih => exact all_isProper_of_map rfl ih h
  | case7 => simp at h
  | case8 _ _ _ _ _ _ _ hvalue _ ih =>
    exact all_isProper_of_map (by simpa [Token.isProper] using Text.unsigned?_le hvalue) ih h
  | case9 => simp at h
  | case10 =>
    rename_i ih
    exact ih h
  | case11 => simp at h
  | case12 =>
    rename_i hstart _ _ hword ih
    have hproper : (Token.ident _).isProper = true := isTagName_of_scanned hstart rfl hword
    exact all_isProper_of_map hproper ih h
  | case13 c _ _ _ _ _ _ _ htoken ih =>
    refine all_isProper_of_map ?_ ih h
    unfold punctuation? at htoken
    split at htoken <;> simp_all [Token.isProper]
    all_goals simp [← htoken]
  | case14 => simp at h

/-! Tokens that are written with a blank between them. -/

/-- A token that is read back from its text: the phrase of an unnamed type says that there is no
name, and has no parenthesis in it. -/
def Token.isPlain : Token → Bool
  | .anonymous phrase =>
    "unnamed ".toList.isPrefixOf phrase.toList && phrase.toList.all fun c => c != '(' && c != ')'
  | token => token.isProper

theorem splitGroup_append {inside : List Char}
    (h : (inside.all fun c => c != '(' && c != ')') = true) (after : List Char) :
    splitGroup 0 (inside ++ ')' :: after) = some (inside, after) := by
  induction inside with
  | nil => simp [splitGroup]
  | cons c inside ih =>
    simp only [List.all_cons, Bool.and_eq_true, bne_iff_ne] at h
    simp [splitGroup, h.1.1, h.1.2, ih h.2]

/-- What may stand behind a token's text: the blank in front of the next token, or nothing. -/
def endsToken (tail : List Char) : Prop :=
  ∀ c ∈ tail.head?, c = ' '

theorem takeWhile_append_of_endsToken {p : Char → Bool} (hp : p ' ' = false) {cs tail : List Char}
    (hcs : cs.all p = true) (htail : endsToken tail) : (cs ++ tail).takeWhile p = cs := by
  rw [List.takeWhile_append_of_pos (by simpa using hcs)]
  cases tail with
  | nil => simp
  | cons c tail =>
    obtain rfl : c = ' ' := htail c rfl
    simp [hp]

theorem dropWhile_append_of_endsToken {p : Char → Bool} (hp : p ' ' = false) {cs tail : List Char}
    (hcs : cs.all p = true) (htail : endsToken tail) : (cs ++ tail).dropWhile p = tail := by
  rw [List.dropWhile_append_of_pos (by simpa using hcs)]
  cases tail with
  | nil => simp
  | cons c tail =>
    obtain rfl : c = ' ' := htail c rfl
    simp [hp]

theorem tokenize_ident {word : String} (hword : isTagName word = true) {tail : List Char}
    (htail : endsToken tail) :
    tokenize (word.toList ++ tail) = (tokenize tail).map (.ident word :: ·) := by
  simp only [isTagName, isName, Bool.and_eq_true, bne_iff_ne] at hword
  obtain ⟨hname, hword⟩ := hword
  split at hname
  · simp at hname
  · next c rest hlist =>
    simp only [Bool.and_eq_true] at hname
    obtain ⟨hstart, hrest⟩ := hname
    have hback : String.ofList (c :: rest) = word := by rw [← hlist, String.ofList_toList]
    have htake := takeWhile_append_of_endsToken (p := Text.isNamePart) (by decide) hrest htail
    have hdrop := dropWhile_append_of_endsToken (p := Text.isNamePart) (by decide) hrest htail
    have hblank : ¬ (c = ' ' ∨ c = '\t') := by
      rintro (rfl | rfl) <;> simp [Text.isNameStart] at hstart
    have hparen : c ≠ '(' := by rintro rfl; simp [Text.isNameStart] at hstart
    have hdot : '.' ≠ c := by rintro rfl; simp [Text.isNameStart] at hstart
    have hdigit := Text.isDigit_eq_false_of_isNameStart hstart
    rw [hlist, List.cons_append, tokenize]
    simp [hblank, hparen, hdot, hdigit, hstart, htake, hdrop, hback, hword, List.isPrefixOf]

theorem tokenize_number {value : Nat} (hvalue : value ≤ Text.maxUInt64) {tail : List Char}
    (htail : endsToken tail) :
    tokenize ((toString value).toList ++ tail) = (tokenize tail).map (.number value :: ·) := by
  have hlist : (toString value).toList = Nat.toDigits 10 value := Nat.toList_repr
  have hall := Text.all_isDigit_toDigits value
  have hdigits := Text.digits?_toDigits value
  rw [hlist]
  cases hcs : Nat.toDigits 10 value with
  | nil => exact absurd hcs Nat.toDigits_ne_nil
  | cons c rest =>
    rw [hcs] at hall hdigits
    simp only [List.all_cons, Bool.and_eq_true] at hall
    obtain ⟨hc, hrest⟩ := hall
    have htake := takeWhile_append_of_endsToken (p := Char.isDigit) (by decide) hrest htail
    have hdrop := dropWhile_append_of_endsToken (p := Char.isDigit) (by decide) hrest htail
    have hblank : ¬ (c = ' ' ∨ c = '\t') := by rintro (rfl | rfl) <;> simp at hc
    have hparen : c ≠ '(' := by rintro rfl; simp at hc
    have hdot : '.' ≠ c := by rintro rfl; simp at hc
    have hplus : c ≠ '+' := by rintro rfl; simp at hc
    have hunsigned : Text.unsigned? Text.maxUInt64 (c :: rest) = some value := by
      unfold Text.unsigned?
      split
      · simp_all
      · simp [hdigits, hvalue]
    rw [List.cons_append, tokenize]
    simp [hblank, hparen, hdot, hc, htake, hdrop, hunsigned, List.isPrefixOf]

theorem tokenize_token {token : Token} (htoken : token.isPlain = true) {tail : List Char}
    (htail : endsToken tail) :
    tokenize (token.text.toList ++ tail) = (tokenize tail).map (token :: ·) := by
  cases token with
  | ident word => exact tokenize_ident htoken htail
  | number value =>
    have hvalue : value ≤ Text.maxUInt64 := by simpa [Token.isPlain, Token.isProper] using htoken
    exact tokenize_number hvalue htail
  | anonymous phrase =>
    simp only [Token.isPlain, Bool.and_eq_true] at htoken
    have hsplit := splitGroup_append htoken.2 tail
    have hopens : opensAnonymous (phrase.toList ++ ')' :: tail) = true := by
      obtain ⟨rest, hrest⟩ := List.isPrefixOf_iff_prefix.mp htoken.1
      simp only [opensAnonymous, Bool.or_eq_true, List.isPrefixOf_iff_prefix]
      exact Or.inl ⟨rest ++ ')' :: tail, by rw [← List.append_assoc, hrest]⟩
    have htext : (Token.anonymous phrase).text.toList ++ tail =
        '(' :: (phrase.toList ++ ')' :: tail) := by simp [Token.text]
    rw [htext, tokenize, if_neg (by decide), if_pos rfl, if_pos hopens]
    split
    next h => simp [hsplit] at h
    next inside after h =>
      obtain ⟨rfl, rfl⟩ : phrase.toList = inside ∧ tail = after := by simpa [hsplit] using h
      simp
  | lparen =>
    have hopens : opensAnonymous tail = false := by
      cases tail with
      | nil => rfl
      | cons c tail =>
        obtain rfl : c = ' ' := htail c rfl
        simp [opensAnonymous, List.isPrefixOf]
    simp [Token.text, tokenize, hopens]
  | _ => simp [Token.text, tokenize, punctuation?, Text.isNameStart, List.isPrefixOf]

/-- The texts of tokens, with a blank between them. -/
def spaced (tokens : List Token) : List Char :=
  (" ".intercalate (tokens.map Token.text)).toList

theorem tokenize_spaced {tokens : List Token} (h : tokens.all Token.isPlain = true) :
    tokenize (spaced tokens) = .ok tokens := by
  induction tokens with
  | nil => simp [spaced, tokenize]
  | cons token rest ih =>
    simp only [List.all_cons, Bool.and_eq_true] at h
    cases rest with
    | nil =>
      have hread : tokenize (token.text.toList ++ []) = (tokenize []).map (token :: ·) :=
        tokenize_token h.1 (by simp [endsToken])
      simpa [spaced, tokenize, Except.map] using hread
    | cons next rest =>
      have hspaced : spaced (token :: next :: rest) =
          token.text.toList ++ ' ' :: spaced (next :: rest) := by
        simp [spaced, String.intercalate_cons_cons]
      have hskip (text : List Char) : tokenize (' ' :: text) = tokenize text := by
        rw [tokenize]
        simp
      rw [hspaced, tokenize_token h.1 (by simp [endsToken]), hskip, ih h.2]
      rfl

end CType

end HeaderInterop
