import HeaderInterop.Code.File
import HeaderInterop.TypeMap
import HeaderInterop.Log

/-!
The file of functions: a declaration for every function whose return type and parameters have a
managed equivalent.
-/

namespace HeaderInterop.Emit

open Code (Step)

/-- The name of a parameter; one without a name is numbered by its place. -/
def paramName (place : Nat) (name : Option String) : String :=
  match name with
  | some name => identifier name
  | none => "arg" ++ toString place

def isTruthValue (managed : String) : Bool :=
  managed == "bool"

/-- A parameter as written, given its managed type. -/
def paramText (place : Nat) (name : Option String) (managed : String) : String :=
  (if isTruthValue managed then "[MarshalAs(UnmanagedType.U1)] " else "") ++ managed ++ " " ++
    paramName place name

/-- The managed types of the parameters, if all have one. -/
def paramTypes? (mapper : TypeMapper) (params : List Param) : Option (List String) :=
  params.mapM fun param => mapper.map param.type

def paramTexts (params : List Param) (managed : List String) : List String :=
  (params.zip managed).zipIdx.map fun entry => paramText entry.2 entry.1.1.name entry.1.2

/-- The lines of a function behind its import attribute. -/
def signature? (mapper : TypeMapper) (function : Prototype) : Option (List String) := do
  let ret ← mapper.map function.ret
  let types ← paramTypes? mapper function.params
  let unsafeWord := if (ret :: types).any hasPointer then "unsafe " else ""
  let marshal := if isTruthValue ret then ["[return: MarshalAs(UnmanagedType.U1)]"] else []
  return marshal ++
    ["public static extern " ++ unsafeWord ++ ret ++ " " ++ function.name ++ "(" ++
      ", ".intercalate (paramTexts function.params types) ++ ");"]

def importLine (name : String) : String :=
  "[DllImport(LibraryName, CallingConvention = CallingConvention.Cdecl, EntryPoint = \"" ++ name ++
    "\")]"

def functionSteps (mapper : TypeMapper) : List (String × Prototype) → Logged (List Step)
  | [] => pure []
  | (name, function) :: rest =>
    match signature? mapper function with
    | some lines => do
      let others ← functionSteps mapper rest
      return .blank :: .line (importLine name) :: lines.map .line ++ others
    | none => do
      Logged.note .warning
        ("Skipping function " ++ name ++ ": no C# equivalent for its signature")
      functionSteps mapper rest

def commands (config : Config) (mapper : TypeMapper) (functions : List (String × Prototype)) :
    Logged GeneratedFile := do
  let steps ← functionSteps mapper functions
  let header := config.visibility ++ " static unsafe partial class " ++ config.className
  let library :=
    config.visibility ++ " const string LibraryName = \"" ++ config.libraryName ++ "\";"
  return .ofSteps "Commands.cs" config.rootNamespace ["System.Runtime.InteropServices"] none
    [.block header (.line library :: steps)]

end HeaderInterop.Emit
