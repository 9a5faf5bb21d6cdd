import HeaderInterop.Path

/-!
A file system as a value: what stands at each location. A location is the list of names from the
root, which is always a directory. Only what output needs is there: making directories and writing
whole files. A relative path starts at the root. Links, permissions, a medium that is full and a
write that fails after the file was emptied are left out, so a file is either written as a whole or
as it was.
-/

namespace HeaderInterop

inductive Entry where
  | directory
  | file (text : String)
deriving DecidableEq, Repr

abbrev Location := List String

structure FileSystem where
  entries : List (Location × Entry) := []
deriving DecidableEq, Repr

namespace FileSystem

def entryAt? (files : FileSystem) (place : Location) : Option Entry :=
  if place = [] then some .directory else files.entries.lookup place

def set (files : FileSystem) (place : Location) (entry : Entry) : FileSystem :=
  { entries := (place, entry) :: files.entries.filter fun old => old.1 ≠ place }

def isDirectory (files : FileSystem) (place : Location) : Bool :=
  files.entryAt? place = some .directory

/-- The names in a directory with what they stand for, in no particular order. -/
def children (files : FileSystem) (place : Location) : List (String × Entry) :=
  files.entries.filterMap fun (found, entry) =>
    match found.getLast? with
    | some name => if found.dropLast = place then some (name, entry) else none
    | none => none

/-- One step along a path through directories that are there. -/
def enter? (files : FileSystem) (place : Location) : Path.Component → Option Location
  | .root => some []
  | .here => some place
  | .up => some place.dropLast
  | .name text =>
    if files.isDirectory (place ++ [text]) then some (place ++ [text]) else none

def walk? (files : FileSystem) (place : Location) : List Path.Component → Option Location
  | [] => some place
  | step :: rest => (files.enter? place step).bind fun next => walk? files next rest

/-- The location of a directory that is there. -/
def directory? (files : FileSystem) (path : Path) : Option Location :=
  files.walk? [] path.components

/-- A name that can be given to a file has at most 255 bytes. -/
def isFileName (text : String) : Bool :=
  text.utf8ByteSize ≤ 255

/-- A path that can be used has at most 4095 bytes, and no character zero. -/
def isUsable (path : Path) : Bool :=
  path.utf8ByteSize ≤ 4095 && !path.contains '\x00'

/-- A path that ends in a dot behind a slash, slashes at its end apart. -/
def endsInDot (path : Path) : Bool :=
  ['.', '/'].isPrefixOf (path.toList.reverse.dropWhile (· = '/'))

/-- One step along a path, making the directory if nothing is there. -/
def makeStep (files : FileSystem) (place : Location) (step : Path.Component) :
    Option (FileSystem × Location) :=
  match step with
  | .name text =>
    match files.entryAt? (place ++ [text]) with
    | some .directory => some (files, place ++ [text])
    | some (.file _) => none
    | none =>
      if isFileName text then some (files.set (place ++ [text]) .directory, place ++ [text])
      else none
  | _ => (files.enter? place step).map fun next => (files, next)

/-- Makes the directories along the steps. The flag says whether the way was free to the end; those
made before a file stood in the way stay. -/
def makeSteps (files : FileSystem) (place : Location) : List Path.Component → FileSystem × Bool
  | [] => (files, true)
  | step :: rest =>
    match files.makeStep place step with
    | some (files, place) => makeSteps files place rest
    | none => (files, false)

/-- Makes the directories of a path. A dot at its end stands for a directory that is there, so the
last one is not made if such a dot follows. -/
def makeDirectories (files : FileSystem) (path : Path) : FileSystem × Bool :=
  if !isUsable path then (files, false)
  else if endsInDot path then
    let (files, made) := files.makeSteps [] path.components.dropLast
    (files, made && (files.directory? path).isSome)
  else files.makeSteps [] path.components

/-- A path whose text ends in a slash, or in a slash and a dot, can only be a directory. -/
def namesDirectory (path : Path) : Bool :=
  Text.endsWith ['/'] path.toList || Text.endsWith ['/', '.'] path.toList

/-- The location that a file of the path has or would have: a name in a directory that is there. -/
def fileLocation? (files : FileSystem) (path : Path) : Option Location :=
  match path.components.getLast? with
  | some (.name text) =>
    if namesDirectory path || !isUsable path || !isFileName text then none
    else (files.walk? [] path.components.dropLast).map fun place => place ++ [text]
  | _ => none

/-- Writes a whole file; a directory is not overwritten. -/
def write? (files : FileSystem) (path : Path) (text : String) : Option FileSystem := do
  let place ← files.fileLocation? path
  guard !files.isDirectory place
  return files.set place (.file text)

theorem entryAt?_set_of_ne {files : FileSystem} {place other : Location} (entry : Entry)
    (h : other ≠ place) : (files.set place entry).entryAt? other = files.entryAt? other := by
  unfold entryAt?
  split
  · rfl
  · have hb : (other == place) = false := by simpa using h
    simp only [set, List.lookup_cons, hb]
    induction files.entries with
    | nil => rfl
    | cons old rest ih =>
      obtain ⟨key, value⟩ := old
      by_cases ho : key = place
      · subst ho
        rw [List.filter_cons_of_neg (by simp), List.lookup_cons, hb]
        exact ih
      · rw [List.filter_cons_of_pos (by simpa using ho), List.lookup_cons, List.lookup_cons, ih]

end FileSystem

end HeaderInterop
