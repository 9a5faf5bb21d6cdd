import HeaderInterop.Macro.Token

/-!
Macro definitions. The tokens of a macro are those of its replacement text, so they are a function
of it and not a field.
-/

namespace HeaderInterop

structure Macro where
  name : String
  /-- The replacement text, without blanks at its ends. -/
  value : String
  functionLike : Bool := false
deriving DecidableEq, Repr

namespace Macro

def tokens (m : Macro) : List String :=
  tokenize m.value

/-- An object-like macro. -/
def ofText (name : String) (text : List Char) : Macro :=
  { name, value := String.ofList (Text.trim text) }

end Macro

end HeaderInterop
