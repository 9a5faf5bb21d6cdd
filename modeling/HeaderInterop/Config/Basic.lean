import HeaderInterop.Path

/-!
The configuration of a run: which headers are read, what is collected from them, how native types
are named, and how constants are written.
-/

namespace HeaderInterop

/-- Substitutes a managed name for a native one. -/
structure TypeMapping where
  native : String
  managed : String
deriving DecidableEq, Repr

/-- The managed name that the first mapping of a native name gives. -/
def mappedName? (mappings : List TypeMapping) (native : String) : Option String :=
  (mappings.find? fun mapping => mapping.native = native).map TypeMapping.managed

/-- What the collector leaves out. -/
structure CollectSettings where
  /-- A macro whose name ends in one of these, in any case, guards a header. -/
  guardSuffixes : List String
  excludedMacros : List String
  /-- Records that are written by hand beside the generated code. -/
  handwrittenStructs : List String
  /-- Marks the record behind a handle. -/
  opaqueSuffix : String
  excludedFunctions : List String
deriving DecidableEq, Repr

structure TypeSettings where
  /-- Consulted before the structure of a type. -/
  mappings : List TypeMapping
  /-- Truth values that are integers inside the signature of a function pointer. -/
  boolLike : List TypeMapping
  /-- A name that starts with one of these is an untyped handle. -/
  handlePrefixes : List String
  /-- Enums that are always sets of flags. -/
  flagEnums : List String
  /-- Typedefs that are referred to by name and never resolved. -/
  keepTypedefs : List String
deriving DecidableEq, Repr

/-- A macro that is written as a new value of a type, built from three of its tokens. -/
structure CompositeConstant where
  name : String
  typeName : String
  extraArgs : List String
deriving DecidableEq, Repr

/-- The type and value of a macro, given by hand. -/
structure ConstantOverride where
  name : String
  type : String
  value : String
deriving DecidableEq, Repr

structure ConstantSettings where
  composite : Option CompositeConstant
  overrides : List ConstantOverride
deriving DecidableEq, Repr

structure Config where
  /-- The compiler that dumps declarations and macros. -/
  clang : Path
  /-- The directory of the native headers. -/
  includes : Path
  /-- The directory in `includes` that the headers are relative to; it may be empty. -/
  headerDir : String
  headers : List String
  rootNamespace : String
  /-- The static class of the constants and the functions. -/
  className : String
  libraryName : String
  publicVisibility : Bool
  /-- Whether enums and their members are preceded by their native name. -/
  enumUnmanagedTag : Bool
  collect : CollectSettings
  types : TypeSettings
  constants : ConstantSettings
  /-- The keys that mean nothing, with their section in front, in order. -/
  unknownKeys : List String := []
deriving DecidableEq, Repr

namespace Config

/-- The keyword in front of generated declarations. -/
def visibility (config : Config) : String :=
  if config.publicVisibility then "public" else "internal"

def includesDir (config : Config) (base : Path) : Path :=
  if config.includes.isAbsolute then config.includes else base.join config.includes

/-- The paths of the headers, in order. -/
def headerPaths (config : Config) (includes : Path) : List Path :=
  let dir := if config.headerDir = "" then includes else includes.join config.headerDir
  config.headers.map fun header => dir.join header

end Config

end HeaderInterop
