import HeaderInterop.Text.Lines

/-!
The arguments of the command line: at most one path, settings, and flags. Long options take a value
behind an equals sign or in the next argument; short ones may share a dash, and the last of them may
be followed by its value. Two dashes end the options.

An option that still waits for its value, or an empty path, is complained of when the next option or
path is taken or when the arguments end, so another mistake in between is named first.
-/

namespace HeaderInterop.Cli

structure Arguments where
  /-- Where the output goes. -/
  output : Option String := none
  /-- Settings, each `NAME=VALUE`. -/
  settings : List String := []
  printConfigPath : Bool := false
  verbose : Bool := false
deriving DecidableEq, Repr

/-- Why the arguments do not make up a command. -/
inductive ArgumentFault where
  /-- Help is asked for. -/
  | help
  | unknownArgument
  /-- An option without its value, or an empty path. -/
  | invalidValue
  | repeatedFlag
  /-- A flag with a value. -/
  | unwantedValue
deriving DecidableEq, Repr

/-- What is not complete yet. -/
inductive Pending where
  | nothing
  | settingValue
  | emptyPath
deriving DecidableEq, Repr

/-- The arguments read so far. -/
structure Progress where
  arguments : Arguments := {}
  pending : Pending := .nothing
deriving DecidableEq, Repr

inductive Flag where
  | printConfigPath
  | verbose
  | help
deriving DecidableEq, Repr

namespace Progress

/-- The arguments so far, if nothing is pending. -/
def settled (progress : Progress) : Except ArgumentFault Arguments :=
  match progress.pending with
  | .nothing => .ok progress.arguments
  | .settingValue | .emptyPath => .error .invalidValue

def addSetting (progress : Progress) (text : String) : Except ArgumentFault Progress := do
  let arguments ← progress.settled
  return { arguments := { arguments with settings := arguments.settings ++ [text] } }

/-- A setting whose value is the next argument. -/
def awaitSetting (progress : Progress) : Except ArgumentFault Progress := do
  let arguments ← progress.settled
  return { arguments, pending := .settingValue }

def setFlag (progress : Progress) (flag : Flag) : Except ArgumentFault Progress := do
  let arguments ← progress.settled
  match flag with
  | .help => throw .help
  | .verbose =>
    if arguments.verbose then throw .repeatedFlag
    return { arguments := { arguments with verbose := true } }
  | .printConfigPath =>
    if arguments.printConfigPath then throw .repeatedFlag
    return { arguments := { arguments with printConfigPath := true } }

def setPath (progress : Progress) (path : String) : Except ArgumentFault Progress := do
  if progress.arguments.output.isSome || progress.pending = .emptyPath then throw .unknownArgument
  let arguments ← progress.settled
  if path = "" then return { arguments, pending := .emptyPath }
  return { arguments := { arguments with output := some path } }

/-- An argument that is no option: the value that is waited for, or a path. -/
def addPlain (progress : Progress) (text : String) : Except ArgumentFault Progress :=
  if progress.pending = .settingValue then
    ({ progress with pending := .nothing } : Progress).addSetting text
  else progress.setPath text

/-- A long option by its name and the value behind its equals sign. -/
def addLong (progress : Progress) (name : List Char) (value : Option (List Char)) :
    Except ArgumentFault Progress :=
  let flag (which : Flag) := if value.isSome then .error .unwantedValue else progress.setFlag which
  if name = "config".toList then
    match value with
    | some text => progress.addSetting (String.ofList text)
    | none => progress.awaitSetting
  else if name = "print-config-path".toList then flag .printConfigPath
  else if name = "verbose".toList then flag .verbose
  else if name = "help".toList then flag .help
  else .error .unknownArgument

/-- Short options that share a dash. -/
def addShort (progress : Progress) : List Char → Except ArgumentFault Progress
  | [] => .ok progress
  | 'v' :: rest => do (← progress.setFlag .verbose).addShort rest
  | 'h' :: rest => do (← progress.setFlag .help).addShort rest
  | ['c'] => progress.awaitSetting
  | 'c' :: '=' :: text => progress.addSetting (String.ofList text)
  | 'c' :: text => progress.addSetting (String.ofList text)
  | _ :: _ => .error .unknownArgument

/-- One argument before the end of the options. -/
def addArgument (progress : Progress) (argument : String) : Except ArgumentFault Progress :=
  match argument.toList with
  | '-' :: '-' :: option =>
    match Text.splitAtFirst '=' option with
    | some (name, value) => progress.addLong name (some value)
    | none => progress.addLong option none
  | '-' :: c :: rest => progress.addShort (c :: rest)
  | _ => progress.addPlain argument

def addAll (progress : Progress) : List String → Except ArgumentFault Progress
  | [] => .ok progress
  | argument :: rest => do
    if argument = "--" then rest.foldlM setPath progress
    else (← progress.addArgument argument).addAll rest

end Progress

/-- The command that the arguments after the program's name spell. -/
def Arguments.ofList (arguments : List String) : Except ArgumentFault Arguments := do
  (← ({} : Progress).addAll arguments).settled

/-- The exit status after a fault. -/
def ArgumentFault.status : ArgumentFault → Nat
  | help => 0
  | _ => 2

end HeaderInterop.Cli
