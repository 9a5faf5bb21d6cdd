import HeaderInterop.Compiler
import HeaderInterop.Emit.Output
import HeaderInterop.FileSystem

/-!
A run: every configured header is parsed, what is worth binding is collected, all files are
rendered, and only then are they written. The first header that cannot be parsed ends the run before
anything is written.
-/

namespace HeaderInterop

/-- Why a run fails. -/
inductive RunFault where
  | header (fault : HeaderFault)
  /-- A directory cannot be made or a file cannot be written. -/
  | output (path : Path)
deriving DecidableEq, Repr

def RunFault.message : RunFault → String
  | header fault => fault.message
  | output path => "I/O error at " ++ path

/-- How a run that does not fail ends. -/
inductive Outcome where
  | generated (files : List Path)
  /-- A header does not compile; nothing is written. -/
  | aborted (header : Path) (diagnostics : List String)
deriving DecidableEq, Repr

/-- What a run leaves behind. -/
structure RunResult where
  files : FileSystem
  outcome : Except RunFault Outcome
  /-- The headers that were handed to the parser, in order. -/
  parsed : List Path

def outputDirName : String := "Generated"

/-- The directory of the output: `given`, or else the program's own, which relative paths start
at; unless it is named so already, a directory for generated files in it. -/
def resolveOutputDir (given : Option Path) (programDir : Path) : Path :=
  let base := match given with
    | some path => programDir.join path
    | none => programDir
  if base.endsWith outputDirName then base else base.join outputDirName

/-- Writes the files one by one. -/
def writeAll (files : FileSystem) (dir : Path) :
    List GeneratedFile → Logged (FileSystem × Except RunFault (List Path))
  | [] => pure (files, .ok [])
  | file :: rest =>
    let path := dir.join file.name
    match files.write? path file.contents with
    | none => pure (files, .error (.output path))
    | some files => do
      .note .info ("Wrote " ++ file.summary)
      let (files, written) ← writeAll files dir rest
      return (files, written.map (path :: ·))

/-- Makes the directory if it is not there and writes every file into it. -/
def materialize (files : FileSystem) (dir : Path) (output : List GeneratedFile) :
    Logged (FileSystem × Except RunFault (List Path)) :=
  match files.makeDirectories dir with
  | (files, true) => writeAll files dir output
  | (files, false) => pure (files, .error (.output dir))

/-- Parses the headers in order up to the first that fails, and says which were tried. -/
def parseAll (parser : HeaderParser) :
    List Path → Logged (Except HeaderFault (List Header) × List Path)
  | [] => pure (.ok [], [])
  | path :: rest => do
    .note .info ("Parsing " ++ path ++ " with " ++ parser.name)
    match ← parser.parse path with
    | .error fault => return (.error fault, [path])
    | .ok header =>
      let (headers, tried) ← parseAll parser rest
      return (headers.map (header :: ·), path :: tried)

/-- Renders the files of the headers and writes them. -/
def generateInto (config : Config) (headers : List Header) (outputDir : Path)
    (files : FileSystem) : Logged (FileSystem × Except RunFault Outcome) := do
  let collection ← Collection.ofHeaders config.collect headers
  let output ← Emit.output config collection
  let (files, written) ← materialize files outputDir output
  return (files, written.map .generated)

/-- Parses the configured headers below `includes` and writes the bindings into `outputDir`. -/
def run (config : Config) (parser : HeaderParser) (includes outputDir : Path)
    (files : FileSystem) : Logged RunResult := do
  let (headers, parsed) ← parseAll parser (config.headerPaths includes)
  match headers with
  | .ok headers =>
    let (files, outcome) ← generateInto config headers outputDir files
    return { files, outcome, parsed }
  | .error (.diagnostics header messages) =>
    .note .error (header ++ " failed to compile")
    return { files, outcome := .ok (.aborted header messages), parsed }
  | .error fault => return { files, outcome := .error (.header fault), parsed }

end HeaderInterop
