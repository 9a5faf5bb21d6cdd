/-!
Native types. A name refers to an entry of the registry built from the headers; enums and records
without a tag have no name. Qualifiers stand around the type they qualify, so a constant pointer is
a qualified pointer and a pointer to a constant is a pointer to a qualified type.
-/

namespace HeaderInterop

inductive Primitive where
  | void
  | bool
  | char
  | signedChar
  | unsignedChar
  | wideChar
  | short
  | unsignedShort
  | int
  | unsignedInt
  | long
  | unsignedLong
  | longLong
  | unsignedLongLong
  | int128
  | unsignedInt128
  | float
  | double
  | longDouble
deriving DecidableEq, Repr

inductive Qualifier where
  | constant
  | volatile
  | constantVolatile
deriving DecidableEq, Repr

namespace Qualifier

def ofFlags? (isConst isVolatile : Bool) : Option Qualifier :=
  match isConst, isVolatile with
  | false, false => none
  | true, false => some constant
  | false, true => some volatile
  | true, true => some constantVolatile

def isConst : Qualifier → Bool
  | constant | constantVolatile => true
  | volatile => false

def isVolatile : Qualifier → Bool
  | volatile | constantVolatile => true
  | constant => false

theorem ofFlags?_flags (q : Qualifier) : ofFlags? q.isConst q.isVolatile = some q := by
  cases q <;> rfl

end Qualifier

inductive RecordKind where
  | struct
  | union
  | classLike
deriving DecidableEq, Repr

/-- The kind that a tag keyword declares. -/
def RecordKind.ofTag? (tag : String) : Option RecordKind :=
  if tag = "struct" then some .struct
  else if tag = "union" then some .union
  else if tag = "class" then some .classLike
  else none

inductive CType where
  | primitive (kind : Primitive)
  | qualified (qualifier : Qualifier) (inner : CType)
  | enum (name : Option String)
  | typedef (name : String)
  | record (kind : RecordKind) (name : Option String)
  | pointer (pointee : CType)
  | array (element : CType) (size : Option Nat)
  | function (ret : CType) (params : List CType) (variadic : Bool)
deriving Repr

namespace CType

/-- The type inside the qualifiers around it. -/
def unqualified : CType → CType
  | qualified _ inner => inner.unqualified
  | type => type

def isFunction : CType → Bool
  | function .. => true
  | _ => false

/-- The function type behind a pointer, for a possibly qualified pointer to a function. -/
def functionPointee? (type : CType) : Option CType :=
  match type.unqualified with
  | pointer pointee =>
    if pointee.unqualified.isFunction then some pointee.unqualified else none
  | _ => none

/-- The type at the end of the arrays, pointers and qualifiers. -/
def spineEnd : CType → CType
  | qualified _ inner => inner.spineEnd
  | pointer pointee => pointee.spineEnd
  | array element _ => element.spineEnd
  | type => type

/-- The array dimensions in front, outermost first, and the element type inside them. Qualifiers
around and between the dimensions are skipped; the element is unqualified. -/
def dimensions : CType → List (Option Nat) × CType
  | qualified _ inner => inner.dimensions
  | array element size => (size :: element.dimensions.1, element.dimensions.2)
  | type => ([], type)

end CType

end HeaderInterop
