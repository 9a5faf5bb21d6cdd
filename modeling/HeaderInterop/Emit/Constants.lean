import HeaderInterop.Code.File
import HeaderInterop.Constant.Basic

/-!
The file of constants: macros and members of unnamed enums, in the static class. A macro that no
rule makes a constant of is left out.
-/

namespace HeaderInterop.Emit

open Code (Step)

def constantLines (name : String) (constant : Constant) : List Step :=
  [.line ("/// <unmanaged>" ++ name ++ "</unmanaged>"), .line (constant.declaration name)]

def constantSteps (config : Config) (mapper : TypeMapper) (known : Constant.Known) :
    List (String × Macro) → Logged (List Step)
  | [] => pure []
  | (name, m) :: rest => do
    match ← Constant.ofMacro? config.constants mapper known m with
    | some constant =>
      let steps ← constantSteps config mapper ((name, constant) :: known) rest
      return constantLines name constant ++ steps
    | none =>
      Logged.note .warning
        ("Skipping constant " ++ name ++ ": cannot form a value from " ++ Text.quote m.value)
      constantSteps config mapper known rest

def constants (config : Config) (mapper : TypeMapper) (macros : List (String × Macro)) :
    Logged GeneratedFile := do
  let steps ← constantSteps config mapper [] macros
  let header := config.visibility ++ " static partial class " ++ config.className
  return .ofSteps "Constants.cs" config.rootNamespace [] none [.block header steps]

end HeaderInterop.Emit
