import HeaderInterop.Registry
import HeaderInterop.Config.Basic

/-!
Managed names of native types. A name goes through the substitution table first, then the structure
of the type decides; `none` means that the type has no managed equivalent.

A typedef leaves the type at hand for one of the registry, so the mapping is built in levels: level
`n + 1` is defined by recursion on the type and looks typedefs up at level `n`. A typedef is looked
up for its managed name, where one that is kept by name is the end, or for the function type behind
it, where it is not. A chain that looks one up twice for the same purpose has no end, so any other
has at most two links for each typedef, and `map` starts at a level above that.

What `map` gives for a type with such an endless chain stands for nothing: a mapping that follows
typedefs without a bound does not come back from it. `Returns` is that mapping; each answer that it
has is the one of `map`, and without cycles among the typedefs it has one for each type.
-/

namespace HeaderInterop

/-- The element types of a fixed buffer. -/
def fixedBufferTypes : List String :=
  ["bool", "byte", "char", "short", "int", "long", "sbyte", "ushort", "uint", "ulong", "float",
   "double"]

def isFixedBufferType (managed : String) : Bool :=
  fixedBufferTypes.contains managed

/-- Words that need an escape to be a name. -/
def reservedWords : List String :=
  ["abstract", "as", "base", "bool", "break", "byte", "case", "catch", "char", "checked",
   "class", "const", "continue", "decimal", "default", "delegate", "do", "double", "else",
   "enum", "event", "explicit", "extern", "false", "finally", "fixed", "float", "for",
   "foreach", "goto", "if", "implicit", "in", "int", "interface", "internal", "is", "lock",
   "long", "namespace", "new", "null", "object", "operator", "out", "override", "params",
   "private", "protected", "public", "readonly", "ref", "return", "sbyte", "sealed", "short",
   "sizeof", "stackalloc", "static", "string", "struct", "switch", "this", "throw", "true",
   "try", "typeof", "uint", "ulong", "unchecked", "unsafe", "ushort", "using", "virtual",
   "void", "volatile", "while"]

/-- The name of a field or parameter, escaped if it is a reserved word. -/
def identifier (name : String) : String :=
  if reservedWords.contains name then "@" ++ name else name

/-- Whether a managed type has a pointer in it. -/
def hasPointer (managed : String) : Bool :=
  managed.toList.contains '*'

structure TypeMapper where
  settings : TypeSettings
  registry : Registry

namespace TypeMapper

def starred (pointer : Bool) (name : String) : String :=
  if pointer then name ++ "*" else name

/-- Names of the built-in types; those of C's `long` follow the platform. -/
def primitiveName? : Primitive → Option String
  | .void => some "void"
  | .bool => some "bool"
  | .char | .signedChar => some "sbyte"
  | .unsignedChar => some "byte"
  | .wideChar | .unsignedShort => some "ushort"
  | .short => some "short"
  | .int => some "int"
  | .unsignedInt => some "uint"
  | .long => some "CLong"
  | .unsignedLong => some "CULong"
  | .longLong => some "long"
  | .unsignedLongLong => some "ulong"
  | .float => some "float"
  | .double => some "double"
  | .longDouble | .int128 | .unsignedInt128 => none

/-- A built-in type, or a pointer to it; a pointer to nothing in particular is an address. -/
def primitive? (pointer : Bool) (kind : Primitive) : Option String :=
  if kind = .void then some (if pointer then "nint" else "void")
  else (primitiveName? kind).map (starred pointer)

/-- The substitution of a name: its first mapping, or an address for a handle. -/
def substitute? (mapper : TypeMapper) (name : String) : Option String :=
  match mappedName? mapper.settings.mappings name with
  | some managed => some managed
  | none =>
    if mapper.settings.handlePrefixes.any fun start => start.toList.isPrefixOf name.toList
    then some "nint" else none

def cleanName (mapper : TypeMapper) (name : String) : String :=
  (mapper.substitute? name).getD name

/-- A typedef that is referred to by its name. -/
def isKept (mapper : TypeMapper) (name : String) : Bool :=
  mapper.settings.keepTypedefs.contains name || mapper.registry.isPointerHandle name

/-- The integer type of a truth value in the signature of a function pointer. -/
def boolLike? (mapper : TypeMapper) (name : String) : Option String :=
  mappedName? mapper.settings.boolLike name

/-- The integer type of a part that is written as a typedef for a truth value. -/
def boolLikePart? (mapper : TypeMapper) (type : CType) : Option String :=
  match type.unqualified with
  | .typedef name => mapper.boolLike? name
  | _ => none

/-- A parameter or return type of a function pointer, given its managed name, which is not looked at
if the part is written as a truth value. -/
@[macro_inline]
def part? (mapper : TypeMapper) (type : CType) (managed : Option String) : Option String :=
  match mapper.boolLikePart? type with
  | some integer => some integer
  | none => managed.map fun name => (mapper.boolLike? name).getD name

/-- What is known of the types that typedefs stand for. -/
structure Resolver where
  /-- The managed name; the flag asks for that of a pointer to the type. -/
  map : Bool → CType → Option String
  /-- The managed name of a pointer to a function type. -/
  delegate : CType → Option String

/-- A pointer to a constant nothing. -/
def isConstVoid : CType → Bool
  | .qualified qualifier (.primitive .void) => qualifier.isConst
  | _ => false

def typedefAt (mapper : TypeMapper) (below : Resolver) (pointer : Bool) (name : String) :
    Option String :=
  match mapper.substitute? name with
  | some managed => some (starred pointer managed)
  | none =>
    if mapper.isKept name then some (starred pointer name)
    else (mapper.registry.typedef? name).bind (below.map pointer)

/-- A function pointer from the names of its parts, the parameters first. -/
def delegateText (parts : List String) : String :=
  "delegate* unmanaged<" ++ ", ".intercalate parts ++ ">"

mutual

def mapAt (mapper : TypeMapper) (below : Resolver) (pointer : Bool) : CType → Option String
  | .primitive kind => primitive? pointer kind
  | .qualified _ inner => mapAt mapper below pointer inner
  | .enum name => name.map fun name => starred pointer (mapper.cleanName name)
  | .typedef name => mapper.typedefAt below pointer name
  | .record _ name => name.map fun name => starred pointer (mapper.cleanName name)
  | .pointer pointee =>
    let managed := match delegateAt mapper below pointee with
      | some text => some text
      | none =>
        if isConstVoid pointee then some "void*" else mapAt mapper below true pointee
    managed.map (starred pointer)
  | .array element _ => mapAt mapper below true element
  | .function .. => none

/-- The managed name of a pointer to the type, if it is a function type behind qualifiers and
typedefs. -/
def delegateAt (mapper : TypeMapper) (below : Resolver) : CType → Option String
  | .qualified _ inner => delegateAt mapper below inner
  | .function ret params variadic =>
    if variadic then some "nint"
    else
      match partsAt mapper below params with
      | none => some "nint"
      | some parts =>
        match mapper.part? ret (mapAt mapper below false ret) with
        | none => some "nint"
        | some last => some (delegateText (parts ++ [last]))
  | .typedef name =>
    if (mapper.substitute? name).isSome then none
    else (mapper.registry.typedef? name).bind below.delegate
  | _ => none

def partsAt (mapper : TypeMapper) (below : Resolver) : List CType → Option (List String)
  | [] => some []
  | type :: rest =>
    match mapper.part? type (mapAt mapper below false type) with
    | none => none
    | some part => (partsAt mapper below rest).map (part :: ·)

end

/-- The mapping that follows at most `n` typedefs. -/
def resolver (mapper : TypeMapper) : Nat → Resolver
  | 0 => { map := fun _ _ => none, delegate := fun _ => none }
  | n + 1 =>
    { map := mapAt mapper (resolver mapper n), delegate := delegateAt mapper (resolver mapper n) }

/-- A level above any chain of lookups that has an end. -/
def top (mapper : TypeMapper) : Resolver :=
  mapper.resolver (2 * mapper.registry.typedefs.length + 1)

/-- The managed name of a type used by value: a field, a parameter or a return type. -/
def map (mapper : TypeMapper) (type : CType) : Option String :=
  mapper.top.map false type

/-- The managed name of a pointer to a function type; an address if it has no signature. -/
def functionPointer (mapper : TypeMapper) (type : CType) : String :=
  if type.isFunction then (mapper.top.delegate type).getD "nint" else "nint"

end TypeMapper

end HeaderInterop
