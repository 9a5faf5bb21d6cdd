import HeaderInterop.CType.Word

/-!
Types as they are written: specifiers, then an abstract declarator from the inside out. A pointer to
an array or a function is put in parentheses, since suffixes bind first.
-/

namespace HeaderInterop

/-- The keyword that declares a tag of the kind. -/
def RecordKind.tag : RecordKind → String
  | struct => "struct"
  | union => "union"
  | classLike => "class"

/-- The words that spell a built-in type. -/
def Primitive.words : Primitive → List String
  | void => ["void"]
  | bool => ["_Bool"]
  | char => ["char"]
  | signedChar => ["signed", "char"]
  | unsignedChar => ["unsigned", "char"]
  | wideChar => ["wchar_t"]
  | short => ["short"]
  | unsignedShort => ["unsigned", "short"]
  | int => ["int"]
  | unsignedInt => ["unsigned", "int"]
  | long => ["long"]
  | unsignedLong => ["unsigned", "long"]
  | longLong => ["long", "long"]
  | unsignedLongLong => ["unsigned", "long", "long"]
  | int128 => ["__int128"]
  | unsignedInt128 => ["unsigned", "__int128"]
  | float => ["float"]
  | double => ["double"]
  | longDouble => ["long", "double"]

def Qualifier.words : Qualifier → List String
  | constant => ["const"]
  | volatile => ["volatile"]
  | constantVolatile => ["const", "volatile"]

namespace CType

theorem primitive?_words (kind : Primitive) : primitive? kind.words = some kind := by
  cases kind <;> decide

def Token.text : Token → String
  | ident word => word
  | number value => toString value
  | anonymous phrase => "(" ++ phrase ++ ")"
  | star => "*"
  | lparen => "("
  | rparen => ")"
  | lbracket => "["
  | rbracket => "]"
  | comma => ","
  | ellipsis => "..."

def wordTokens (words : List String) : List Token :=
  words.map .ident

/-- A tag behind its keyword; an unnamed one is written with a place. -/
def tagTokens (keyword : String) (name : Option String) : List Token :=
  [.ident keyword, match name with
    | some name => .ident name
    | none => .anonymous ("unnamed " ++ keyword ++ " at a.h:1:1")]

/-- Whether a declarator of the type ends in a suffix. -/
def hasSuffix : CType → Bool
  | array .. | function .. => true
  | _ => false

/-- The declarator of a pointer, inside the one of its pointee. -/
def pointerTokens (pointee : CType) (declarator : List Token) : List Token :=
  if pointee.hasSuffix then .lparen :: declarator ++ [.rparen] else declarator

/-- Parameters between commas, with an ellipsis at the end if the flag is set. -/
def listTokens (variadic : Bool) : List (List Token) → List Token
  | [] => if variadic then [.ellipsis] else []
  | [param] => param ++ if variadic then [.comma, .ellipsis] else []
  | param :: rest => param ++ .comma :: listTokens variadic rest

mutual

/-- The tokens of a type around a declarator. -/
def declared (declarator : List Token) : CType → List Token
  | primitive kind => wordTokens kind.words ++ declarator
  | enum name => tagTokens "enum" name ++ declarator
  | typedef name => .ident name :: declarator
  | record kind name => tagTokens kind.tag name ++ declarator
  | qualified qualifier (pointer pointee) =>
    pointee.declared
      (pointerTokens pointee (.star :: wordTokens qualifier.words ++ declarator))
  | qualified qualifier inner => wordTokens qualifier.words ++ inner.declared declarator
  | pointer pointee => pointee.declared (pointerTokens pointee (.star :: declarator))
  | array element size =>
    element.declared (declarator ++ .lbracket :: (size.toList.map .number ++ [.rbracket]))
  | function ret params variadic =>
    ret.declared
      (declarator ++ .lparen :: (listTokens variadic (paramTokens params) ++ [.rparen]))

def paramTokens : List CType → List (List Token)
  | [] => []
  | type :: rest => type.declared [] :: paramTokens rest

end

/-- The text of a type, with a blank between its tokens. -/
def print (type : CType) : String :=
  " ".intercalate ((type.declared []).map Token.text)

end CType

end HeaderInterop
