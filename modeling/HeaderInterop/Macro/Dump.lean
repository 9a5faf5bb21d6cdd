import HeaderInterop.Macro.Basic
import HeaderInterop.Text.Lines
import HeaderInterop.Path

/-!
The preprocessor's dump of macro definitions. Line markers say which file the directives after them
stand in, so the definitions of one file or directory can be picked out.
-/

namespace HeaderInterop.Macro

/-- The text up to the quote that closes it; a backslash stands for the character behind it. -/
def unquoted? : List Char → Option (List Char)
  | [] => none
  | '"' :: _ => some []
  | '\\' :: c :: rest => (unquoted? rest).map (c :: ·)
  | '\\' :: [] => none
  | c :: rest => (unquoted? rest).map (c :: ·)

/-- The file that a line marker names: a line number and the file's name in quotes. -/
def markerFile? (line : List Char) : Option Path := do
  let rest ← (Text.after? "# ".toList line).or (Text.after? "#line ".toList line)
  match Text.trimStart (rest.dropWhile Char.isDigit) with
  | '"' :: quoted => (unquoted? quoted).map String.ofList
  | _ => none

/-- The macro that the text after `#define` defines. -/
def definition? (text : List Char) : Option Macro :=
  let name := text.takeWhile Text.isNamePart
  let after := text.dropWhile Text.isNamePart
  if name.isEmpty then none
  else
    match after with
    | '(' :: _ =>
      let body := match Text.splitAtFirst ')' after with
        | some (_, body) => body
        | none => []
      some { ofText (String.ofList name) body with functionLike := true }
    | _ => some (ofText (String.ofList name) after)

inductive Directive where
  | marker (file : Path)
  | define (definition : Macro)
  | undefine (name : String)
deriving DecidableEq, Repr

def Directive.ofLine? (line : List Char) : Option Directive :=
  match markerFile? line with
  | some file => some (.marker file)
  | none =>
    match Text.after? "#define ".toList line with
    | some rest => (definition? rest).map .define
    | none =>
      (Text.after? "#undef ".toList line).map fun rest =>
        .undefine (String.ofList (Text.trim rest))

/-- The directives of a dump, in order. -/
def directives (dump : String) : List Directive :=
  (Text.lines dump.toList).filterMap Directive.ofLine?

/-- Whether the directives in `file` count; without a scope all of them do. -/
def inScope (scope : Option Path) (file : Option Path) : Bool :=
  match scope, file with
  | none, _ => true
  | some scope, some file => file.startsWith scope
  | some _, none => false

/-- Adds a definition behind the others, unless its name is defined. -/
def define (macros : List Macro) (definition : Macro) : List Macro :=
  if macros.any fun m => m.name = definition.name then macros else macros ++ [definition]

def undefine (macros : List Macro) (name : String) : List Macro :=
  macros.filter fun m => m.name ≠ name

/-- The definitions left after the directives, given those before them and the current file. -/
def collectFrom (scope : Option Path) (file : Option Path) (macros : List Macro) :
    List Directive → List Macro
  | [] => macros
  | .marker next :: rest => collectFrom scope (some next) macros rest
  | .define definition :: rest =>
    collectFrom scope file (if inScope scope file then define macros definition else macros) rest
  | .undefine name :: rest =>
    collectFrom scope file (if inScope scope file then undefine macros name else macros) rest

/-- The macros that a dump defines in files under the scope, in the order of their definitions.
The first definition of a name stays until the name is undefined. -/
def ofDump (dump : String) (scope : Option Path) : List Macro :=
  collectFrom scope none [] (directives dump)

end HeaderInterop.Macro
