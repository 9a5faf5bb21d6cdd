import HeaderInterop.Proofs.Constant.Rules
import HeaderInterop.Proofs.Macro.Tokens
import HeaderInterop.Proofs.Text.Escapes

/-!
String literals side by side. Their texts are joined before the escapes in them are read, so an
escape at the end of one takes in the digits at the start of the next. The joined text stands for
the bytes of the literals exactly if there are no such digits.
-/

namespace HeaderInterop

/-- A string literal: the text between its quotes, and the bytes that it stands for. -/
structure StringLiteral where
  body : List Char
  bytes : List UInt8
  decodes : StringLiteral.decode? body = some bytes

namespace StringLiteral

def token (x : StringLiteral) : String :=
  String.ofList ('"' :: x.body ++ ['"'])

/-- No text ends in an escape that takes in the first character behind it. -/
def StandApart : List (List Char) → Prop
  | [] => True
  | text :: rest =>
    (∀ next ∈ rest.flatten.head?, takes (lastUnit text) next = false) ∧ StandApart rest

section Joined

variable (literals : List StringLiteral)

theorem decode?_joined_of_standApart (h : StandApart (literals.map body)) :
    decode? (literals.flatMap body) = some (literals.flatMap bytes) := by
  induction literals with
  | nil => rfl
  | cons x rest ih =>
    obtain ⟨hapart, hrest⟩ := h
    rw [← List.flatMap_def] at hapart
    rw [List.flatMap_cons, decode?_append_of_apart hapart, x.decodes, ih hrest]
    rfl

/-- The joined text stands for as many bytes as the literals at most, and for fewer if an escape
takes in digits of the next literal. -/
theorem length_le_of_decode?_joined {value : List UInt8}
    (h : decode? (literals.flatMap body) = some value) :
    value.length ≤ (literals.flatMap bytes).length ∧
      (¬ StandApart (literals.map body) → value.length < (literals.flatMap bytes).length) := by
  induction literals generalizing value with
  | nil =>
    obtain rfl : [] = value := Option.some.inj h
    exact ⟨Nat.le_refl _, fun hnot => absurd trivial hnot⟩
  | cons x rest ih =>
    rw [List.flatMap_cons] at h
    obtain ⟨others, hothers, hle, hlt⟩ := length_le_of_decode?_append x.decodes h
    obtain ⟨hrest, hfewer⟩ := ih hothers
    rw [List.flatMap_cons, List.length_append]
    refine ⟨by omega, fun hnot => ?_⟩
    by_cases hapart : ∀ next ∈ (rest.flatMap body).head?, takes (lastUnit x.body) next = false
    · have hbehind : ¬ StandApart (rest.map body) := by
        rw [List.flatMap_def] at hapart
        exact fun hstand => hnot ⟨hapart, hstand⟩
      have hfewer := hfewer hbehind
      omega
    · have htaken := hlt (by simpa using hapart)
      omega

theorem decode?_joined_iff :
    decode? (literals.flatMap body) = some (literals.flatMap bytes) ↔
      StandApart (literals.map body) := by
  constructor
  · intro h
    refine Classical.byContradiction fun hnot => ?_
    exact Nat.lt_irrefl _ ((length_le_of_decode?_joined literals h).2 hnot)
  · exact decode?_joined_of_standApart literals

end Joined

/-! Literals as tokens -/

theorem isDigitOf_of_takes {unit : List Char} {next : Char} (h : takes unit next = true)
    (hne : unit ≠ ['\\']) : Text.isDigitOf 16 next = true := by
  cases unit with
  | nil => cases h
  | cons c escape =>
    obtain ⟨hc, htakes⟩ := Bool.and_eq_true_iff.mp h
    obtain rfl : c = '\\' := of_decide_eq_true hc
    refine isDigitOf_of_escapeTakes htakes ?_
    rintro rfl
    exact hne rfl

/-- A text that stands for bytes has no quote in it that a backslash does not hide. The backslash is
the one in front of the text if `unit` is one. -/
theorem literalTail_of_unitsBytes? {unit text : List Char} {bytes : List UInt8}
    (h : unitsBytes? (unitsFrom unit text) = some bytes) (rest : List Char) :
    if unit = ['\\'] then
      Macro.literalTail '"' ('\\' :: (text ++ '"' :: rest)) = ('\\' :: (text ++ ['"']), rest)
    else Macro.literalTail '"' (text ++ '"' :: rest) = (text ++ ['"'], rest) := by
  induction text generalizing unit bytes with
  | nil =>
    rw [unitsFrom, unitsBytes?_singleton] at h
    split
    next hunit =>
      subst hunit
      cases h
    next => exact Macro.literalTail_close rest
  | cons c text ih =>
    rw [unitsFrom] at h
    split
    next hunit =>
      subst hunit
      have htail := ih h
      rw [if_neg (by simp)] at htail
      rw [List.cons_append, Macro.literalTail_escape (by decide), htail]
      rfl
    next hunit =>
      split at h
      next htakes =>
        have hdigit := isDigitOf_of_takes htakes hunit
        have hmore : unit ++ [c] ≠ ['\\'] := by
          intro heq
          obtain rfl : unit = [] := by simpa using congrArg List.dropLast heq
          cases htakes
        have htail := ih h
        rw [if_neg hmore] at htail
        rw [List.cons_append, Macro.literalTail_other (ne_of_isDigitOf hdigit (by decide))
          (ne_of_isDigitOf hdigit (by decide)), htail]
        rfl
      next =>
        obtain ⟨-, others, -, hothers, -⟩ := unitsBytes?_append_eq_some [unit] h
        have htail := ih hothers
        by_cases hescape : c = '\\'
        · subst hescape
          rwa [if_pos rfl] at htail
        · rw [if_neg (by simpa using hescape)] at htail
          have hquote : c ≠ '"' := by
            rintro rfl
            have hapart : ∀ next ∈ text.head?, takes ['"'] next = false := fun next _ => rfl
            rw [unitsFrom_of_apart hapart] at hothers
            cases hothers
          rw [List.cons_append, Macro.literalTail_other hquote hescape, htail]
          rfl

theorem pieces_append_token (x : StringLiteral) (rest : List Char) :
    Macro.pieces (x.token.toList ++ rest) = x.token.toList :: Macro.pieces rest := by
  -- a character in front of the text that takes in nothing of it
  have hbytes : unitsBytes? (unitsFrom [' '] x.body) = some ([32] ++ x.bytes) := by
    rw [unitsFrom_of_apart fun next _ => rfl, unitsBytes?, ← decode?, x.decodes]
    rfl
  have hliteral := literalTail_of_unitsBytes? hbytes rest
  rw [if_neg (by decide)] at hliteral
  have htail : Macro.tokenTail '"' (x.body ++ '"' :: rest) = (x.body ++ ['"'], rest) := by
    rw [Macro.tokenTail_literal (Or.inl rfl), hliteral]
  have htext : x.token.toList ++ rest = '"' :: (x.body ++ '"' :: rest) := by
    rw [token, String.toList_ofList]
    simp
  rw [htext, Macro.pieces_token (by decide), htail, token, String.toList_ofList]
  rfl

/-- The literals side by side are the tokens of their text. -/
theorem tokenize_join_token (literals : List StringLiteral) :
    Macro.tokenize (String.join (literals.map token)) = literals.map token := by
  have hpieces : Macro.pieces (literals.flatMap fun x => x.token.toList) =
      literals.map fun x => x.token.toList := by
    induction literals with
    | nil => rw [List.flatMap_nil, Macro.pieces, List.map_nil]
    | cons x rest ih => rw [List.flatMap_cons, pieces_append_token, ih, List.map_cons]
  rw [Macro.tokenize, String.toList_join, List.flatMap_map, hpieces, List.map_map]
  exact List.map_congr_left fun x _ => String.ofList_toList

end StringLiteral

namespace Constant

variable {settings : ConstantSettings} {mapper : TypeMapper} {known : Known} {m : Macro}

theorem literalBody_token (x : StringLiteral) : literalBody x.token = x.body := by
  rw [literalBody, StringLiteral.token, String.toList_ofList]
  simp

theorem areStrings_map_token {literals : List StringLiteral} (hne : literals ≠ []) :
    areStrings (literals.map StringLiteral.token) = true := by
  rw [areStrings, Bool.and_eq_true]
  refine ⟨by simpa using hne, List.all_eq_true.mpr fun token htoken => ?_⟩
  obtain ⟨x, -, rfl⟩ := List.mem_map.mp htoken
  rw [isStringToken, StringLiteral.token, String.toList_ofList]
  rfl

/-- String literals side by side become one literal. Its text stands for the bytes of the literals,
one behind the other, exactly if no literal ends in an escape that takes in the first character of
the text behind it. -/
theorem ofMacro?_literals_iff {literals : List StringLiteral}
    (hgiven : isGiven settings m.name = false) (hne : literals ≠ [])
    (htokens : m.tokens = literals.map StringLiteral.token) :
    ∃ body, ofMacro? settings mapper known m =
        pure (some (.utf8 (String.ofList ('"' :: body ++ ['"', 'u', '8'])))) ∧
      (StringLiteral.decode? body = some (literals.flatMap StringLiteral.bytes) ↔
        StringLiteral.StandApart (literals.map StringLiteral.body)) := by
  refine ⟨literals.flatMap StringLiteral.body, ?_, StringLiteral.decode?_joined_iff literals⟩
  rw [ofMacro?_eq_ofTokens hgiven, ofTokens, htokens, areStrings_map_token hne, if_pos rfl,
    utf8OfTokens, List.flatMap_map]
  simp only [literalBody_token]
  rfl

/-- An escape character and what it escapes, as two literals. -/
def resetLiterals : List StringLiteral :=
  [⟨"\\x1b".toList, [27], by decide⟩, ⟨"[0m".toList, [91, 48, 109], by decide⟩]

def resetMacro : Macro where
  name := "RESET"
  value := String.join (resetLiterals.map StringLiteral.token)

theorem ofMacro?_literals_iff_reset :
    resetMacro.value = "\"\\x1b\"\"[0m\"" ∧
      ∃ body, ofMacro? Config.standard.constants standardMapper [] resetMacro =
          pure (some (.utf8 (String.ofList ('"' :: body ++ ['"', 'u', '8'])))) ∧
        StringLiteral.decode? body = some [27, 91, 48, 109] := by
  have hgiven : isGiven Config.standard.constants resetMacro.name = false := by decide +kernel
  have htokens : resetMacro.tokens = resetLiterals.map StringLiteral.token :=
    StringLiteral.tokenize_join_token resetLiterals
  obtain ⟨body, hmacro, hdecode⟩ := ofMacro?_literals_iff hgiven (by decide) htokens
  have hapart : StringLiteral.StandApart (resetLiterals.map StringLiteral.body) := by
    refine ⟨fun next hnext => ?_, fun next hnext => ?_, trivial⟩
    · obtain rfl : '[' = next := Option.some.inj hnext
      decide
    · cases hnext
  exact ⟨by decide, body, hmacro, hdecode.mpr hapart⟩

def controlMacro : Macro where
  name := "CONTROL"
  value := "\"\\x4\" \"1\""

/-- The digit of a second literal is taken in by the escape at the end of the first. -/
theorem ofMacro?_control :
    StringLiteral.decode? "\\x4".toList = some [4] ∧ StringLiteral.decode? "1".toList = some [49] ∧
      controlMacro.tokens = ["\"\\x4\"", "\"1\""] ∧
      (ofMacro? Config.standard.constants standardMapper [] controlMacro).value =
        some (.utf8 "\"\\x41\"u8") ∧
      StringLiteral.decode? "\\x41".toList = some [65] := by
  decide +kernel

end Constant

end HeaderInterop
