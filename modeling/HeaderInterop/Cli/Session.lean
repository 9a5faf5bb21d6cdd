import HeaderInterop.Cli.Arguments
import HeaderInterop.Config.Load
import HeaderInterop.Run

/-!
A call of the program as a function: from its arguments and what it finds around it to its exit
status, what it prints, the compiler runs it makes, and the files it leaves. A header that does not
compile is reported and is no failure of the program.
-/

namespace HeaderInterop.Cli

/-- What the program finds around it. -/
structure Surroundings where
  /-- Where the program is; relative paths start there. -/
  programDir : Path
  /-- The user's directory for settings, if there is one. -/
  configDir : Option Path
  /-- The text of the user's settings file, and of the one in the working directory. -/
  userSettings : Option String
  localSettings : Option String
  /-- What a compiler answers to arguments, or why it does not start. -/
  answer : Path → List String → Except String Answer
  files : FileSystem

/-- What a call leaves behind. -/
structure Report where
  status : Nat
  /-- Standard output, the log apart. -/
  printed : String := ""
  errors : String := ""
  /-- The arguments of each compiler run, in order. -/
  calls : List (List String) := []
  files : FileSystem

def usage : String :=
  "Usage: generate [OPTIONS] [OUTPUT]\n\n" ++
  "  [OUTPUT]                 Directory to write the bindings to\n" ++
  "  -c, --config <NAME=VALUE>  Set a configuration value\n" ++
  "      --print-config-path  Print the location of the configuration file\n" ++
  "  -v, --verbose            Enable debug logging\n" ++
  "  -h, --help               Print help\n"

def settingsFile (configDir : Path) : Path :=
  configDir.join "generate.toml"

/-- Lines about a header that does not compile. -/
def complaint (header : Path) (diagnostics : List String) : String :=
  header ++ ":\n" ++ String.join (diagnostics.map fun line => "  " ++ line ++ "\n")

/-- The report of a program that fails. -/
def failed (files : FileSystem) (message : String) (calls : List (List String)) :
    Logged Report := do
  .note .error ("Error: " ++ message)
  return { status := 1, calls, files }

/-- Runs the generator with a configuration. -/
def generate (around : Surroundings) (arguments : Arguments) (config : Config) :
    Logged Report := do
  let outputDir := resolveOutputDir arguments.output around.programDir
  let includes := config.includesDir around.programDir
  let compiler : Compiler :=
    { program := config.clang, includes, answer := around.answer config.clang }
  let result ← run config compiler.parser includes outputDir around.files
  let calls := result.parsed.flatMap compiler.calls
  match result.outcome with
  | .error fault => failed result.files fault.message calls
  | .ok (.aborted header diagnostics) =>
    return { status := 0, errors := complaint header diagnostics, calls, files := result.files }
  | .ok (.generated files) =>
    .note .info ("Generated " ++ toString files.length ++ " files in " ++ outputDir)
    return { status := 0, calls, files := result.files }

/-- What the program does with arguments that make up a command. -/
def perform (around : Surroundings) (arguments : Arguments) : Logged Report :=
  match around.configDir with
  | none => failed around.files "no home directory found for the user config file" []
  | some configDir =>
    if arguments.printConfigPath then
      return { status := 0, files := around.files,
               printed := "Config file location: " ++ Text.quote (settingsFile configDir) ++ "\n" }
    else
      match Config.load around.userSettings around.localSettings arguments.settings with
      | .error fault =>
        failed around.files fault.message []
      | .ok config => do
        config.reportUnknown
        generate around arguments config

/-- What the program does when it is called with arguments. -/
def call (around : Surroundings) (arguments : List String) : Logged Report :=
  match Arguments.ofList arguments with
  | .error .help => return { status := 0, printed := usage, files := around.files }
  | .error fault => return { status := fault.status, errors := usage, files := around.files }
  | .ok arguments => perform around arguments

end HeaderInterop.Cli
