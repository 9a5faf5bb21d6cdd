import HeaderInterop.Header
import HeaderInterop.Ast.Decode
import HeaderInterop.Macro.Dump

/-!
Headers from the compiler. It runs twice on a header, for the syntax tree and for the macro dump; a
run that fails or prints an error line says what is wrong with the header, so a header is read only
if both runs are clean.
-/

namespace HeaderInterop

/-- Why a header cannot be read. -/
inductive HeaderFault where
  /-- The header does not compile. -/
  | diagnostics (header : Path) (messages : List String)
  /-- The compiler cannot be started. -/
  | spawn (program : Path) (cause : String)
  /-- The syntax tree cannot be decoded. -/
  | tree (header : Path)
deriving DecidableEq, Repr

def HeaderFault.message : HeaderFault → String
  | diagnostics header messages => header ++ " has " ++ toString messages.length ++ " error(s)"
  | spawn program cause => "failed to run " ++ program ++ ": " ++ cause
  | tree header => "failed to decode the AST of " ++ header

/-- Anything that turns the path of a header into what the header says. -/
structure HeaderParser where
  name : String
  parse : Path → Logged (Except HeaderFault Header)

/-- What a process leaves: its exit status and what it printed. -/
structure Answer where
  status : Nat := 0
  /-- The signal that ended the process, if it did not exit. -/
  signal : Option String := none
  output : String := ""
  errors : String := ""
deriving DecidableEq, Repr

/-- How a process ended, unless it exited with success. -/
def Answer.failure? (answer : Answer) : Option String :=
  match answer.signal with
  | some signal => some ("signal: " ++ signal)
  | none => if answer.status = 0 then none else some ("exit status: " ++ toString answer.status)

/-- The lines that report an error. -/
def errorMessages (printed : String) : List String :=
  ((Text.lines printed.toList).filter (Text.contains "error:".toList)).map String.ofList

structure Compiler where
  program : Path
  includes : Path
  /-- The answer to the given arguments, or why the program does not start. -/
  answer : List String → Except String Answer

namespace Compiler

inductive Mode where
  | syntaxTree
  | macroDump
deriving DecidableEq, Repr

def Mode.arguments : Mode → List String
  | syntaxTree => ["-fsyntax-only", "-Xclang", "-ast-dump=json"]
  | macroDump => ["-E", "-dD"]

def arguments (compiler : Compiler) (mode : Mode) (header : Path) : List String :=
  ["-x", "c", "-std=gnu11"] ++ mode.arguments ++ ["-I", compiler.includes, header]

/-- The answer to the given arguments. No process starts if its name or an argument holds the
character zero, which ends them. -/
def start (compiler : Compiler) (arguments : List String) : Except String Answer :=
  if (compiler.program :: arguments).any (·.contains '\x00') then
    .error "nul byte found in provided data"
  else compiler.answer arguments

/-- What the compiler prints for a header, if nothing is wrong with it. -/
def run (compiler : Compiler) (mode : Mode) (header : Path) : Except HeaderFault String :=
  match compiler.start (compiler.arguments mode header) with
  | .error cause => .error (.spawn compiler.program cause)
  | .ok answer =>
    match errorMessages answer.errors with
    | [] =>
      match answer.failure? with
      | none => .ok answer.output
      | some ending => .error (.diagnostics header ["clang exited with " ++ ending])
    | messages => .error (.diagnostics header messages)

/-- The syntax tree of a header, and the size of its dump. -/
def syntaxTree (compiler : Compiler) (header : Path) : Except HeaderFault (Ast.Node × Nat) := do
  let dump ← compiler.run .syntaxTree header
  match (Json.parse? dump).bind Ast.Node.ofJson? with
  | some tree => return (tree, dump.utf8ByteSize)
  | none => .error (.tree header)

def summary (header : Header) : String :=
  "Parsed " ++ header.path ++ ": " ++ toString header.macros.length ++ " macros, " ++
    toString header.decls.length ++ " declarations (" ++ toString header.included.length ++
    " included)"

def parse (compiler : Compiler) (header : Path) : Logged (Except HeaderFault Header) :=
  match compiler.syntaxTree header with
  | .error fault => pure (.error fault)
  | .ok (tree, size) => do
    .note .debug ("Decoded AST of " ++ header ++ " (" ++ toString size ++ " bytes)")
    match compiler.run .macroDump header with
    | .error fault => return .error fault
    | .ok dump =>
      let parsed ←
        Header.ofAst header tree (Macro.ofDump dump (some header)) (some compiler.includes)
      .note .info (summary parsed)
      return .ok parsed

/-- The runs that reading a header takes. -/
def modes (compiler : Compiler) (header : Path) : List Mode :=
  match compiler.syntaxTree header with
  | .ok _ => [.syntaxTree, .macroDump]
  | .error _ => [.syntaxTree]

/-- The arguments of each process that reading a header starts. -/
def calls (compiler : Compiler) (header : Path) : List (List String) :=
  ((compiler.modes header).map (compiler.arguments · header)).filter fun arguments =>
    (compiler.start arguments).isOk

def parser (compiler : Compiler) : HeaderParser :=
  { name := "clang", parse := compiler.parse }

end Compiler

end HeaderInterop
