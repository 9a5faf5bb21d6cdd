import HeaderInterop.CType.Token

/-!
The words of a type: qualifiers, words that say nothing about layout, tag keywords, the words of
built-in types, and names. `primitive?` reads a built-in type off the words that spell it, in any
order.
-/

namespace HeaderInterop.CType

/-- The words that built-in types are spelled with. -/
def builtinWords : List String :=
  ["void", "_Bool", "bool", "char", "short", "int", "long", "signed", "unsigned", "float",
   "double", "__int128", "wchar_t"]

/-- Qualifiers and calling conventions that change nothing about a type's layout. -/
def ignoredWords : List String :=
  ["restrict", "__restrict", "_Nonnull", "_Nullable", "_Null_unspecified", "__unaligned",
   "__cdecl", "__stdcall", "__fastcall"]

inductive TagKind where
  | enum
  | record (kind : RecordKind)
deriving DecidableEq, Repr

def TagKind.type : TagKind → Option String → CType
  | enum, name => .enum name
  | record kind, name => .record kind name

/-- What a word does in a type. -/
inductive Word where
  | const
  | volatile
  | ignored
  | tag (kind : TagKind)
  | builtin
  | name
deriving DecidableEq, Repr

def Word.of (word : String) : Word :=
  if word = "const" then .const
  else if word = "volatile" then .volatile
  else if word ∈ ignoredWords then .ignored
  else if word = "enum" then .tag .enum
  else
    match RecordKind.ofTag? word with
    | some kind => .tag (.record kind)
    | none => if word ∈ builtinWords then .builtin else .name

/-- The integer type of the given rank: how often `long` is written, and whether it is unsigned. -/
def integer? : Nat → Bool → Option Primitive
  | 0, false => some .int
  | 0, true => some .unsignedInt
  | 1, false => some .long
  | 1, true => some .unsignedLong
  | 2, false => some .longLong
  | 2, true => some .unsignedLongLong
  | _, _ => none

/-- The built-in type that the words spell. -/
def primitive? (words : List String) : Option Primitive :=
  let longs := words.count "long"
  let isUnsigned := words.contains "unsigned"
  if words.contains "void" then some .void
  else if words.contains "_Bool" || words.contains "bool" then some .bool
  else if words.contains "float" then some .float
  else if words.contains "double" then some (if longs > 0 then .longDouble else .double)
  else if words.contains "wchar_t" then some .wideChar
  else if words.contains "char" then
    some (if isUnsigned then .unsignedChar
      else if words.contains "signed" then .signedChar else .char)
  else if words.contains "__int128" then some (if isUnsigned then .unsignedInt128 else .int128)
  else if words.contains "short" then some (if isUnsigned then .unsignedShort else .short)
  else integer? longs isUnsigned

end HeaderInterop.CType
