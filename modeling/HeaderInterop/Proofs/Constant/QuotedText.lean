import HeaderInterop.Proofs.Constant.Parentheses

/-!
Strings of the last rule. A text that no other rule makes a constant of becomes a string literal.
Each backslash and each quote in it has a backslash in front, so the literal ends at its last
character and reads as the text again.
-/

namespace HeaderInterop

namespace Text

/-- What a string literal says behind its opening quote, and what is left behind its closing one.
Only a backslash and a quote may be escaped. -/
def readLiteral? : List Char → Option (List Char × List Char)
  | [] => none
  | c :: rest =>
    if c = '"' then some ([], rest)
    else if c = '\\' then
      match rest with
      | [] => none
      | d :: rest =>
        if d = '\\' ∨ d = '"' then (readLiteral? rest).map fun read => (d :: read.1, read.2)
        else none
    else (readLiteral? rest).map fun read => (c :: read.1, read.2)

theorem readLiteral?_close (rest : List Char) : readLiteral? ('"' :: rest) = some ([], rest) := by
  rw [readLiteral?.eq_def]
  exact if_pos rfl

theorem readLiteral?_escape {d : Char} (hd : d = '\\' ∨ d = '"') (rest : List Char) :
    readLiteral? ('\\' :: d :: rest) = (readLiteral? rest).map fun read => (d :: read.1, read.2) := by
  rw [readLiteral?.eq_def]
  exact if_pos hd

theorem readLiteral?_other {c : Char} (hc : ¬ (c = '\\' ∨ c = '"')) (rest : List Char) :
    readLiteral? (c :: rest) = (readLiteral? rest).map fun read => (c :: read.1, read.2) := by
  obtain ⟨hescape, hquote⟩ := not_or.mp hc
  rw [readLiteral?.eq_def]
  simp only [if_neg hquote, if_neg hescape]

/-- The text with each backslash and each quote behind a backslash. -/
def escaped (text : List Char) : List Char :=
  text.flatMap fun c => if c = '\\' ∨ c = '"' then ['\\', c] else [c]

/-- The text with another one in place of a character, wherever it stands. -/
def replaceAll (c : Char) (replacement text : List Char) : List Char :=
  text.flatMap fun d => if d = c then replacement else [d]

/-- The backslashes may be escaped first and the quotes after them: no quote is escaped twice. The
other way round, the backslashes in front of the quotes would be. -/
theorem escaped_eq_replaceAll (text : List Char) :
    escaped text = replaceAll '"' ['\\', '"'] (replaceAll '\\' ['\\', '\\'] text) := by
  rw [escaped, replaceAll, replaceAll, List.flatMap_assoc]
  congr 1
  funext c
  by_cases hescape : c = '\\'
  · subst hescape
    rfl
  · by_cases hquote : c = '"'
    · subst hquote
      rfl
    · simp [hescape, hquote]

theorem readLiteral?_escaped (text rest : List Char) :
    readLiteral? (escaped text ++ '"' :: rest) = some (text, rest) := by
  induction text with
  | nil => exact readLiteral?_close rest
  | cons c text ih =>
    rw [escaped] at ih ⊢
    rw [List.flatMap_cons, List.append_assoc]
    by_cases hc : c = '\\' ∨ c = '"'
    · rw [if_pos hc, List.cons_append, List.singleton_append, readLiteral?_escape hc, ih]
      rfl
    · rw [if_neg hc, List.singleton_append, readLiteral?_other hc, ih]
      rfl

end Text

namespace Constant

variable {settings : ConstantSettings} {mapper : TypeMapper} {known : Known} {m : Macro}

/-- No rule but the last one makes a constant of the macro. -/
structure IsText (settings : ConstantSettings) (mapper : TypeMapper) (known : Known) (m : Macro) :
    Prop where
  notGiven : isGiven settings m.name = false
  notStrings : areStrings m.tokens = false
  notNumber : Literal.kind? (Literal.normalize m.tokens) = none
  notCast : cast? mapper m.tokens = none
  notReferred : referred? known m.tokens = none

theorem IsText.ofMacro?_eq (h : IsText settings mapper known m) :
    ofMacro? settings mapper known m = pure (some (textConstant (Literal.normalize m.tokens))) := by
  rw [ofMacro?_eq_ofTokens h.notGiven, ofTokens, h.notStrings, if_neg Bool.false_ne_true,
    ofExpression, h.notNumber, h.notCast, h.notReferred]
  rfl

/-- The literal of a text is the text with its backslashes escaped and then its quotes, between
quotes. Behind its first quote it ends at its last character, and it reads as the text. -/
theorem ofMacro?_readLiteral? (h : IsText settings mapper known m) :
    ∃ body, ofMacro? settings mapper known m =
        pure (some (.const "string" (String.ofList ('"' :: body)))) ∧
      body = Text.replaceAll '"' ['\\', '"']
        (Text.replaceAll '\\' ['\\', '\\'] (Literal.normalize m.tokens).toList) ++ ['"'] ∧
      Text.readLiteral? body = some ((Literal.normalize m.tokens).toList, []) := by
  refine ⟨Text.escaped (Literal.normalize m.tokens).toList ++ ['"'], h.ofMacro?_eq, ?_, ?_⟩
  · rw [Text.escaped_eq_replaceAll]
  · exact Text.readLiteral?_escaped _ []

/-- A call with backslashes in front of quotes in its argument. -/
def pathMacro : Macro where
  name := "PATH"
  value := "( open(\"C:\\\\\", \"\\\"\") )"

theorem ofMacro?_readLiteral?_path :
    Literal.normalize pathMacro.tokens = "open(\"C:\\\\\",\"\\\"\")" ∧
      IsText Config.standard.constants standardMapper [("LOW", .const "uint" "1")] pathMacro ∧
      ∃ body, ofMacro? Config.standard.constants standardMapper [("LOW", .const "uint" "1")]
          pathMacro = pure (some (.const "string" (String.ofList ('"' :: body)))) ∧
        String.ofList body = "open(\\\"C:\\\\\\\\\\\",\\\"\\\\\\\"\\\")\"" ∧
        Text.readLiteral? body = some ("open(\"C:\\\\\",\"\\\"\")".toList, []) := by
  have hnormal : Literal.normalize pathMacro.tokens = "open(\"C:\\\\\",\"\\\"\")" := by
    decide +kernel
  have htext : IsText Config.standard.constants standardMapper [("LOW", .const "uint" "1")]
      pathMacro := by
    refine ⟨?_, ?_, ?_, ?_, ?_⟩ <;> decide +kernel
  obtain ⟨body, hmacro, hbody, hread⟩ := ofMacro?_readLiteral? htext
  rw [hnormal] at hbody hread
  refine ⟨hnormal, htext, body, hmacro, ?_, hread⟩
  rw [hbody]
  decide

end Constant

end HeaderInterop
