import HeaderInterop.Proofs.Constant.QuotedText

/-!
What a macro takes from the constants that are known. The rules for what the settings give, for
string literals, numbers and casts look at the macro alone. The one behind them takes form and type
from the constant that is known under the first identifier.
-/

namespace HeaderInterop

namespace Constant

/-- The forms of a declaration. -/
inductive Form where
  | const
  | readonly
  | property
deriving DecidableEq, Repr

/-- The form that the constant is declared in. -/
def form : Constant → Form
  | const .. => .const
  | readonly .. => .readonly
  | utf8 _ => .property

/-- The type that the constant is declared with. -/
def type : Constant → String
  | const type _ => type
  | readonly type _ => type
  | utf8 _ => "ReadOnlySpan<byte>"

/-- The declarations of two constants differ in name and value only. -/
def IsLike (constant other : Constant) : Prop :=
  constant.form = other.form ∧ constant.type = other.type

theorem isLike_refl (constant : Constant) : IsLike constant constant :=
  ⟨rfl, rfl⟩

theorem IsLike.trans {first second third : Constant} (h : IsLike first second)
    (hsecond : IsLike second third) : IsLike first third :=
  ⟨h.1.trans hsecond.1, h.2.trans hsecond.2⟩

theorem isLike_withValue (value : String) (constant : Constant) :
    IsLike (constant.withValue value) constant := by
  cases constant <;> exact ⟨rfl, rfl⟩

variable {settings : ConstantSettings} {mapper : TypeMapper} {m : Macro}

/-- Neither the settings nor the form of the tokens make a constant of the macro: it is not given,
and no string literals, number or cast of one. -/
structure IsOpen (settings : ConstantSettings) (mapper : TypeMapper) (m : Macro) : Prop where
  notGiven : isGiven settings m.name = false
  notStrings : areStrings m.tokens = false
  notNumber : Literal.kind? (Literal.normalize m.tokens) = none
  notCast : cast? mapper m.tokens = none

section

variable {known : Known} {tokens : List String} {name : String} {given : Constant}

theorem referred?_eq_some_iff : referred? known tokens = some (name, given) ↔
    name ∈ tokens.find? isIdentifierToken ∧ known.lookup name = some given := by
  constructor
  · intro h
    obtain ⟨first, hfirst, h⟩ := Option.bind_eq_some_iff.mp h
    obtain ⟨constant, hconstant, h⟩ := Option.bind_eq_some_iff.mp h
    cases h
    exact ⟨hfirst, hconstant⟩
  · rintro ⟨hname, hgiven⟩
    exact Option.bind_eq_some_iff.mpr
      ⟨name, hname, Option.bind_eq_some_iff.mpr ⟨given, hgiven, rfl⟩⟩

theorem lookup_eq_none_of_referred? (h : referred? known tokens = none)
    (hname : name ∈ tokens.find? isIdentifierToken) : known.lookup name = none := by
  rw [Option.eq_none_iff_forall_ne_some]
  intro given hgiven
  have hsome := referred?_eq_some_iff.mpr ⟨hname, hgiven⟩
  rw [h] at hsome
  cases hsome

end

theorem IsOpen.isText (h : IsOpen settings mapper m) {known : Known}
    (hnone : referred? known m.tokens = none) : IsText settings mapper known m :=
  ⟨h.notGiven, h.notStrings, h.notNumber, h.notCast, hnone⟩

theorem IsOpen.ofMacro?_of_referred? (h : IsOpen settings mapper m) {known : Known}
    {name : String} {given : Constant} (hreferred : referred? known m.tokens = some (name, given)) :
    (ofMacro? settings mapper known m).value =
      some (given.withValue (Literal.normalize m.tokens)) := by
  rw [ofMacro?_eq_ofTokens h.notGiven, ofTokens, h.notStrings, if_neg Bool.false_ne_true,
    ofExpression, h.notNumber, h.notCast, hreferred]
  rfl

/-- What becomes of a given name does not depend on what is known. -/
theorem ofMacro?_eq_of_isGiven (h : isGiven settings m.name = true) (known more : Known) :
    ofMacro? settings mapper known m = ofMacro? settings mapper more m := by
  rw [ofMacro?, ofMacro?]
  cases hfind : settings.overrides.find? fun given => given.name = m.name with
  | some given => rfl
  | none =>
    cases hfilter : settings.composite.filter fun composite => composite.name = m.name with
    | some composite => rfl
    | none =>
      rw [isGiven_eq_false_iff.mpr ⟨hfind, hfilter⟩] at h
      cases h

/-- The other macros become the same constant whatever is known. -/
theorem ofMacro?_eq_of_not_isOpen (h : ¬ IsOpen settings mapper m) (known more : Known) :
    ofMacro? settings mapper known m = ofMacro? settings mapper more m := by
  cases hgiven : isGiven settings m.name with
  | true => exact ofMacro?_eq_of_isGiven hgiven known more
  | false =>
    rw [ofMacro?_eq_ofTokens hgiven, ofMacro?_eq_ofTokens hgiven, ofTokens, ofTokens, ofExpression,
      ofExpression]
    cases hstrings : areStrings m.tokens with
    | true => rfl
    | false =>
      cases hnumber : Literal.kind? (Literal.normalize m.tokens) with
      | some kind => rfl
      | none =>
        cases hcast : cast? mapper m.tokens with
        | some constant => rfl
        | none => exact absurd ⟨hgiven, hstrings, hnumber, hcast⟩ h

end Constant

end HeaderInterop
