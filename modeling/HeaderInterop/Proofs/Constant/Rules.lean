import HeaderInterop.Constant.Basic

/-!
The rules for constants that are not given in the settings. They look at the tokens of a macro only,
and always make a constant of them: the last rule takes any text.
-/

namespace HeaderInterop.Constant

/-- The settings say what becomes of the name: its value is given, or it is the composite. -/
def isGiven (settings : ConstantSettings) (name : String) : Bool :=
  (settings.overrides.any fun given => given.name = name) ||
    settings.composite.any fun composite => composite.name = name

/-- String literals and nothing else. -/
def areStrings (tokens : List String) : Bool :=
  !tokens.isEmpty && tokens.all isStringToken

/-- The rules for tokens that are not string literals: a number, a cast of one, the type of the
constant that the tokens refer to first, and a string of the text. -/
def ofExpression (mapper : TypeMapper) (known : Known) (name : String) (tokens : List String) :
    Logged Constant :=
  match Literal.kind? (Literal.normalize tokens) with
  | some kind => pure (.const kind.name (Literal.normalize tokens))
  | none =>
    match cast? mapper tokens with
    | some constant => pure constant
    | none =>
      match referred? known tokens with
      | some (identifier, constant) => do
        Logged.note .debug
          (name ++ " takes its type from " ++ Text.showOption Text.quote (some identifier))
        return constant.withValue (Literal.normalize tokens)
      | none => pure (textConstant (Literal.normalize tokens))

def ofTokens (mapper : TypeMapper) (known : Known) (name : String) (tokens : List String) :
    Logged Constant :=
  if areStrings tokens then pure (utf8OfTokens tokens) else ofExpression mapper known name tokens

variable {settings : ConstantSettings} {mapper : TypeMapper} {known : Known}

theorem isGiven_eq_false_iff {name : String} : isGiven settings name = false ↔
    settings.overrides.find? (fun given => given.name = name) = none ∧
      settings.composite.filter (fun composite => composite.name = name) = none := by
  rw [isGiven, Bool.or_eq_false_iff, List.any_eq_false, List.find?_eq_none]
  refine and_congr_right fun _ => ?_
  cases settings.composite with
  | none => exact iff_of_true rfl rfl
  | some composite => simp [Option.filter]

theorem ofMacro?_eq_ofTokens {m : Macro} (h : isGiven settings m.name = false) :
    ofMacro? settings mapper known m = some <$> ofTokens mapper known m.name m.tokens := by
  obtain ⟨hfind, hfilter⟩ := isGiven_eq_false_iff.mp h
  rw [ofMacro?, hfind, hfilter]
  dsimp only
  rw [ofTokens, ofExpression, areStrings]
  split
  next => rfl
  next =>
    cases Literal.kind? (Literal.normalize m.tokens) with
    | some kind => rfl
    | none =>
      cases cast? mapper m.tokens with
      | some constant => rfl
      | none => cases referred? known m.tokens <;> rfl

theorem ofTokens_of_kind? {name : String} {tokens : List String} {kind : Literal.Kind}
    (hstrings : areStrings tokens = false)
    (hkind : Literal.kind? (Literal.normalize tokens) = some kind) :
    ofTokens mapper known name tokens = pure (.const kind.name (Literal.normalize tokens)) := by
  rw [ofTokens, hstrings, if_neg Bool.false_ne_true, ofExpression, hkind]

end HeaderInterop.Constant
