import HeaderInterop.Code.Writer

/-!
Generated files: a notice, the namespaces in use, a line that goes before all code, the namespace
of the file, and the code.
-/

namespace HeaderInterop.Code

/-- The lines at the top of every generated file. -/
def notice : List String :=
  ["// ------------------------------------------------------------------------------",
   "// <auto-generated>",
   "//     This code was generated by a tool.",
   "//",
   "//     Changes to this file may cause incorrect behavior and will be lost if",
   "//     the code is regenerated.",
   "// </auto-generated>",
   "// ------------------------------------------------------------------------------"]

/-- What stands in front of the code. -/
def opening (rootNamespace : String) (usings : List String) (preamble : Option String) : List Step :=
  notice.map .line ++ [.blank] ++
    (if usings.isEmpty then []
      else usings.map (fun name => .line ("using " ++ name ++ ";")) ++ [.blank]) ++
    (match preamble with
      | some text => [.line text, .blank]
      | none => []) ++
    [.line ("namespace " ++ rootNamespace ++ ";"), .blank]

end HeaderInterop.Code

namespace HeaderInterop

structure GeneratedFile where
  /-- The file's name in the output directory. -/
  name : String
  contents : String
deriving DecidableEq, Repr

namespace GeneratedFile

def summary (file : GeneratedFile) : String :=
  file.name ++ " (" ++ toString file.contents.utf8ByteSize ++ " bytes)"

/-- The file with the opening and the code. -/
def ofSteps (name rootNamespace : String) (usings : List String) (preamble : Option String)
    (code : List Code.Step) : GeneratedFile :=
  { name
    contents := (Code.runAll (Code.opening rootNamespace usings preamble ++ code) {}).text }

end GeneratedFile

end HeaderInterop
