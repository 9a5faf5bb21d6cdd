import HeaderInterop.Constant.Literal
import HeaderInterop.Macro.Basic
import HeaderInterop.TypeMap
import HeaderInterop.CType.Parser

/-!
Constants that macros become. The rules are tried in a fixed order: a value given by hand, a
composite, string literals, a number, a cast of a number, the type of the constant that the text
refers to first, and a string of the text itself.
-/

namespace HeaderInterop

/-- How a constant is declared. -/
inductive Constant where
  | const (type value : String)
  | readonly (type value : String)
  | utf8 (value : String)
deriving DecidableEq, Repr

namespace Constant

def declaration (name : String) : Constant → String
  | const type value => "public const " ++ type ++ " " ++ name ++ " = " ++ value ++ ";"
  | readonly type value =>
    "public static readonly " ++ type ++ " " ++ name ++ " = " ++ value ++ ";"
  | utf8 value => "public static ReadOnlySpan<byte> " ++ name ++ " => " ++ value ++ ";"

/-- The same declaration with another value. -/
def withValue (value : String) : Constant → Constant
  | const type _ => const type value
  | readonly type _ => readonly type value
  | utf8 _ => utf8 value

/-- Constants by name, the latest first. -/
abbrev Known := List (String × Constant)

/-- A composite is written as a new value with the third, fifth and seventh token as arguments. -/
def composite? (composite : CompositeConstant) (tokens : List String) : Option Constant := do
  let a ← tokens[2]?
  let b ← tokens[4]?
  let c ← tokens[6]?
  let args := ", ".intercalate ([a, b, c] ++ composite.extraArgs)
  return .readonly composite.typeName ("new " ++ composite.typeName ++ "(" ++ args ++ ")")

def isStringToken (token : String) : Bool :=
  token.toList.head? == some '"'

/-- The text between the quotes of a token; a token that is not closed stays as it is. -/
def literalBody (token : String) : List Char :=
  match token.toList with
  | '"' :: rest => if rest.getLast? = some '"' then rest.dropLast else token.toList
  | other => other

/-- String literals side by side are one literal. -/
def utf8OfTokens (tokens : List String) : Constant :=
  .utf8 (String.ofList ('"' :: tokens.flatMap literalBody ++ ['"', 'u', '8']))

/-- A number behind a type in parentheses. Built-in targets stay compile-time constants. -/
def cast? (mapper : TypeMapper) (tokens : List String) : Option Constant :=
  match Literal.stripParens tokens with
  | "(" :: name :: ")" :: rest => do
    guard !rest.isEmpty
    let type ← (CType.parse name).toOption
    let managed ← mapper.map type
    let literal := Literal.normalize rest
    guard (Literal.kind? literal).isSome
    let value := "(" ++ managed ++ ")" ++ literal
    return if isFixedBufferType managed then .const managed value else .readonly managed value
  | _ => none

def isIdentifierToken (token : String) : Bool :=
  token.toList.head?.any Text.isWordStart

/-- The text as a string, with backslashes and quotes escaped. -/
def textConstant (value : String) : Constant :=
  let escaped := value.toList.flatMap fun c => if c = '\\' ∨ c = '"' then ['\\', c] else [c]
  .const "string" (String.ofList ('"' :: escaped ++ ['"']))

/-- The constant known under the first identifier of the tokens, and that identifier. -/
def referred? (known : Known) (tokens : List String) : Option (String × Constant) := do
  let name ← tokens.find? isIdentifierToken
  let constant ← known.lookup name
  return (name, constant)

/-- The constant that a macro becomes, given those before it. -/
def ofMacro? (settings : ConstantSettings) (mapper : TypeMapper) (known : Known) (m : Macro) :
    Logged (Option Constant) :=
  match settings.overrides.find? fun given => given.name = m.name with
  | some given => pure (some (.readonly given.type given.value))
  | none =>
    match settings.composite.filter fun composite => composite.name = m.name with
    | some composite => pure (composite? composite m.tokens)
    | none =>
      if !m.tokens.isEmpty && m.tokens.all isStringToken then pure (some (utf8OfTokens m.tokens))
      else
        let value := Literal.normalize m.tokens
        match Literal.kind? value with
        | some kind => pure (some (.const kind.name value))
        | none =>
          match cast? mapper m.tokens with
          | some constant => pure (some constant)
          | none =>
            match referred? known m.tokens with
            | some (name, constant) => do
              Logged.note .debug
                (m.name ++ " takes its type from " ++ Text.showOption Text.quote (some name))
              return some (constant.withValue value)
            | none => pure (some (textConstant value))

end Constant

end HeaderInterop
