import HeaderInterop.Text.Lines

/-!
Slash-separated paths. A path is a text; what it names is its list of components, in which repeated
slashes, inner dots and a slash at the end do not show. Two dots stay as they are.
-/

namespace HeaderInterop

abbrev Path := String

namespace Path

inductive Component where
  | root
  | here
  | up
  | name (text : String)
deriving DecidableEq, Repr

/-- The pieces between slashes; the first argument holds the current piece, reversed. -/
def piecesFrom (current : List Char) : List Char → List (List Char)
  | [] => [current.reverse]
  | '/' :: rest => current.reverse :: piecesFrom [] rest
  | c :: rest => piecesFrom (c :: current) rest

def component? (piece : List Char) : Option Component :=
  if piece = [] || piece = ['.'] then none
  else if piece = ['.', '.'] then some .up
  else some (.name (String.ofList piece))

def isAbsolute (path : Path) : Bool :=
  path.toList.head? == some '/'

/-- The components of a path. A dot counts only at the start of a relative path. -/
def components (path : Path) : List Component :=
  let pieces := piecesFrom [] path.toList
  let named := pieces.filterMap component?
  if path.isAbsolute then .root :: named
  else if pieces.head? = some ['.'] then .here :: named
  else named

/-- `base` followed by `path`; an absolute `path` replaces the base. -/
def join (base path : Path) : Path :=
  if path.isAbsolute || base.isEmpty then path
  else if base.toList.getLast? = some '/' then base ++ path
  else base ++ "/" ++ path

/-- Whether the components of `base` are the first ones of `path`. -/
def startsWith (path base : Path) : Bool :=
  base.components.isPrefixOf path.components

/-- Whether the components of `tail` are the last ones of `path`. -/
def endsWith (path tail : Path) : Bool :=
  tail.components.isSuffixOf path.components

/-- The last component, when it is a name. -/
def fileName? (path : Path) : Option String :=
  match path.components.getLast? with
  | some (.name text) => some text
  | _ => none

end Path

end HeaderInterop
