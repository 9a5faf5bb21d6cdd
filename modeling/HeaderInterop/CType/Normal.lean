import HeaderInterop.CType.Word
import HeaderInterop.Text.Class

/-!
Types in normal form. Qualifiers stand only where a type can be written with them, names are names,
and a function without parameters has no parameter rather than one of type `void`.
-/

namespace HeaderInterop

/-- An ASCII letter or underscore, then letters, digits and underscores. -/
def isName (text : String) : Bool :=
  match text.toList with
  | [] => false
  | c :: rest => Text.isNameStart c && rest.all Text.isNamePart

namespace CType

/-- A name that may be a tag: an attribute's keyword is none. -/
def isTagName (text : String) : Bool :=
  isName text && text != attributeWord

/-- A name that may be a typedef: one that means nothing else. -/
def isTypedefName (text : String) : Bool :=
  isTagName text && Word.of text == .name

/-- Whether qualifiers may stand directly around the type. -/
def isQualifiable : CType → Bool
  | primitive _ | enum _ | typedef _ | record .. | pointer _ => true
  | qualified .. | array .. | function .. => false

/-- Whether a parameter list is the one that stands for no parameters. -/
def isLoneVoid : List CType → Bool
  | [primitive .void] => true
  | _ => false

mutual

def isNormal : CType → Bool
  | primitive _ => true
  | qualified _ inner => inner.isQualifiable && inner.isNormal
  | enum name | record _ name => name.all isTagName
  | typedef name => isTypedefName name
  | pointer pointee => pointee.isNormal
  | array element size => element.isNormal && size.all (· ≤ Text.maxUInt64)
  | function ret params _ => ret.isNormal && !isLoneVoid params && allNormal params

def allNormal : List CType → Bool
  | [] => true
  | type :: rest => type.isNormal && allNormal rest

end

end CType

end HeaderInterop
