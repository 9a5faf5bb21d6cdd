import HeaderInterop.Code.File
import HeaderInterop.Config.Basic

/-!
The file of handles: opaque native types, which managed code sees behind a pointer only, and
typedefs of pointers to them, which become wrappers around an address.
-/

namespace HeaderInterop

inductive HandleKind where
  /-- A record that is only ever declared. -/
  | opaqueRecord
  /-- A typedef of a pointer to an opaque record. -/
  | pointer
deriving DecidableEq, Repr

namespace Emit

open Code (Step)

def opaqueRecord (visibility name : String) : List Step :=
  [.block (visibility ++ " partial struct " ++ name) []]

/-- Equality of two wrappers, or of a wrapper and an address. -/
def handleComparison (name other right op : String) : Step :=
  .line ("public static bool operator " ++ op ++ "(" ++ name ++ " left, " ++ other ++
    " right) => left.Handle " ++ op ++ " " ++ right ++ ";")

def pointerHandleBody (name : String) : List Step :=
  [.line "public nint Handle \x7b get; \x7d = handle;",
   .line "public bool IsNull => Handle == 0;",
   .blank,
   .line ("public static " ++ name ++ " Null => new(0);"),
   .line ("public static implicit operator " ++ name ++ "(nint handle) => new(handle);"),
   .blank,
   handleComparison name name "right.Handle" "==",
   handleComparison name name "right.Handle" "!=",
   handleComparison name "nint" "right" "==",
   handleComparison name "nint" "right" "!=",
   .blank,
   .line ("public bool Equals(" ++ name ++ " other) => Handle == other.Handle;"),
   .line ("public override bool Equals(object? obj) => obj is " ++ name ++
     " handle && Equals(handle);"),
   .line "public override int GetHashCode() => Handle.GetHashCode();",
   .blank,
   .line ("private string DebuggerDisplay => $\"\x7bnameof(" ++ name ++
     ")\x7d [0x\x7bHandle:X\x7d]\";")]

def pointerHandle (visibility name : String) : List Step :=
  [.line "[DebuggerDisplay(\"\x7bDebuggerDisplay,nq\x7d\")]",
   .block (visibility ++ " readonly partial struct " ++ name ++ "(nint handle) : IEquatable<" ++
     name ++ ">") (pointerHandleBody name)]

def handleSteps (config : Config) (name : String) : HandleKind → List Step
  | .opaqueRecord => opaqueRecord config.visibility name ++ [.blank]
  | .pointer => pointerHandle config.visibility name ++ [.blank]

def handles (config : Config) (entries : List (String × HandleKind)) : GeneratedFile :=
  .ofSteps "Handles.cs" config.rootNamespace ["System", "System.Diagnostics"] none
    (entries.flatMap fun entry => handleSteps config entry.1 entry.2)

end Emit

end HeaderInterop
