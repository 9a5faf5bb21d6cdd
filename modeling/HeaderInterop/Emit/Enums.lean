import HeaderInterop.Code.File
import HeaderInterop.TypeMap

/-!
The file of enums. An enum is a set of flags if it is named as one or if its values are distinct
powers of two that reach beyond a plain sequence. Its underlying type is the fixed one, if that is
integral, or else the first that holds every value.
-/

namespace HeaderInterop.Emit

open Code (Step)

def integralTypes : List String :=
  ["byte", "sbyte", "short", "ushort", "int", "uint", "long", "ulong"]

/-- The value as a word of 128 bits, in two's complement. -/
def word (value : Int) : BitVec 128 :=
  .ofInt 128 value

/-- The number below; the least of the word has none. -/
def predecessor? (value : Int) : Option Int :=
  if Text.minInt128 < value then some (value - 1) else none

/-- Whether the number is positive and has one bit set. The number below is asked for behind the test
of the sign only; `none` would be an overflow there. -/
def isPowerOfTwo? (value : Int) : Option Bool :=
  if 0 < value then do
    let below ← predecessor? value
    return word value &&& word below == 0
  else some false

def nonzeroValues (definition : Enumeration) : List Int :=
  (definition.constants.map EnumConstant.value).filter (· ≠ 0)

/-- Whether the values that are not zero are distinct powers of two, at least two of them, and the
largest is four or more. -/
def hasFlagValues? (definition : Enumeration) : Option Bool := do
  let values := nonzeroValues definition
  let distinct := (values.mergeSort fun a b => a ≤ b).eraseReps
  if 2 ≤ values.length && distinct.length == values.length then do
    let arePowers ← values.allM isPowerOfTwo?
    return arePowers && distinct.getLast?.any (4 ≤ ·)
  else return false

def isFlags (config : Config) (name : String) (definition : Enumeration) : Bool :=
  config.types.flagEnums.contains name || Text.endsWith "Flags".toList name.toList ||
    hasFlagValues? definition == some true

def allWithin (low high : Int) (definition : Enumeration) : Bool :=
  definition.constants.all fun constant => low ≤ constant.value && constant.value ≤ high

/-- The first of the four integer types that holds every value. -/
def narrowestType (definition : Enumeration) : String :=
  if allWithin Text.minInt32 Text.maxInt32 definition then "int"
  else if allWithin 0 Text.maxUInt32 definition then "uint"
  else if allWithin Text.minInt64 Text.maxInt64 definition then "long"
  else "ulong"

def underlyingType (mapper : TypeMapper) (definition : Enumeration) : Logged String :=
  match definition.underlying.bind mapper.map with
  | some fixed =>
    if integralTypes.contains fixed then pure fixed
    else do
      Logged.note .debug ("Fixed enum type " ++ fixed ++ " is not integral")
      return narrowestType definition
  | none => pure (narrowestType definition)

def nativeTag (config : Config) (name : String) : List Step :=
  if config.enumUnmanagedTag then [.line ("/// <unmanaged>" ++ name ++ "</unmanaged>")] else []

def enumMember (config : Config) (constant : EnumConstant) : List Step :=
  nativeTag config constant.name ++
    [.line (constant.name ++ " = " ++ toString constant.value ++ ",")]

def enumSteps (config : Config) (mapper : TypeMapper) (name : String) (definition : Enumeration) :
    Logged (List Step) := do
  let underlying ← underlyingType mapper definition
  let header := config.visibility ++ " enum " ++ name ++ " : " ++ underlying
  return nativeTag config name ++
    (if isFlags config name definition then [.line "[Flags]"] else []) ++
    [.block header (definition.constants.flatMap (enumMember config)), .blank]

def allEnumSteps (config : Config) (mapper : TypeMapper) :
    List (String × Enumeration) → Logged (List Step)
  | [] => pure []
  | (name, definition) :: rest => do
    let first ← enumSteps config mapper name definition
    let others ← allEnumSteps config mapper rest
    return first ++ others

def enums (config : Config) (mapper : TypeMapper) (definitions : List (String × Enumeration)) :
    Logged GeneratedFile := do
  let steps ← allEnumSteps config mapper definitions
  return .ofSteps "Enums.cs" config.rootNamespace ["System"] none steps

end HeaderInterop.Emit
