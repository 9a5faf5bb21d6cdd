import HeaderInterop.Cli.Session

/-!
The program. Processes are not started from here: what the compiler answers for a header is read
from two files beside it, `HEADER.ast.json` for the syntax tree and `HEADER.macros` for the macro
dump. All decisions are in `Cli.call`; this module only reads and writes.
-/

namespace HeaderInterop.Cli

/-- The text of a file, if it can be read. -/
def readText? (path : Path) : IO (Option String) := do
  try
    return some (← IO.FS.readFile path)
  catch _ =>
    return none

/-- The user's directory for settings: below `XDG_CONFIG_HOME`, or else below `HOME`. -/
def userConfigDir : IO (Option Path) := do
  match ← IO.getEnv "XDG_CONFIG_HOME", ← IO.getEnv "HOME" with
  | some dir, home =>
    if Path.isAbsolute dir then return some (Path.join dir "csbind")
    return home.map (Path.join · ".config/csbind")
  | none, home => return home.map (Path.join · ".config/csbind")

/-- The answers saved beside a header, each with the option that asks for it. -/
def savedAnswers (header : Path) : IO (List ((String × Path) × Answer)) := do
  let kinds := [("-fsyntax-only", ".ast.json"), ("-E", ".macros")]
  let found ← kinds.mapM fun (option, ending) => do
    let text ← readText? (header ++ ending)
    return text.map fun output => ((option, header), ({ output } : Answer))
  return found.filterMap id

/-- The answer for the header and the option in the arguments. -/
def answerFrom (saved : List ((String × Path) × Answer)) (arguments : List String) :
    Except String Answer :=
  match saved.find? fun ((option, header), _) =>
      arguments.contains option && arguments.getLast? = some header with
  | some (_, answer) => .ok answer
  | none => .error "no saved answer"

/-- The headers that a call will read. -/
def headersOf (around : Surroundings) (arguments : List String) : List Path :=
  match Arguments.ofList arguments with
  | .error _ => []
  | .ok arguments =>
    match Config.load around.userSettings around.localSettings arguments.settings with
    | .error _ => []
    | .ok config => config.headerPaths (config.includesDir around.programDir)

def surroundings (arguments : List String) : IO Surroundings := do
  let programDir := ((← IO.appPath).parent.map (·.toString)).getD "."
  let configDir ← userConfigDir
  let userSettings ← match configDir with
    | some dir => readText? (settingsFile dir)
    | none => pure none
  let localSettings ← readText? "csbind.toml"
  let around : Surroundings :=
    { programDir, configDir, userSettings, localSettings, files := {}
      answer := fun _ _ => .error "no saved answer" }
  let saved ← (headersOf around arguments).flatMapM savedAnswers
  return { around with answer := fun _ => answerFrom saved }

/-- Writes the files of a report, with the directories on the way. -/
def store (files : FileSystem) : IO Unit :=
  files.entries.forM fun (place, entry) => do
    let path := "/" ++ "/".intercalate place
    match entry with
    | .directory => IO.FS.createDirAll path
    | .file text =>
      IO.FS.createDirAll ("/" ++ "/".intercalate place.dropLast)
      IO.FS.writeFile path text

/-- The events that the arguments ask for. -/
def logLimit (arguments : List String) : Severity :=
  match Arguments.ofList arguments with
  | .ok { verbose := true, .. } => .debug
  | _ => .info

end HeaderInterop.Cli

open HeaderInterop Cli in
def main (arguments : List String) : IO UInt32 := do
  let report := call (← surroundings arguments) arguments
  for event in eventsUpTo (logLimit arguments) report.events do
    IO.println event.line
  IO.print report.value.printed
  IO.eprint report.value.errors
  try
    store report.value.files
    return UInt32.ofNat report.value.status
  catch fault =>
    IO.eprintln (toString fault)
    return 1
