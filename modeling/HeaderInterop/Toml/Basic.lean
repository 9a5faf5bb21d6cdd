import HeaderInterop.Config.Value

/-!
TOML documents as statements, before it is known whether the statements fit together.
-/

namespace HeaderInterop.Toml

/-- A dotted key: the names of the tables on the way, and the name in the last of them. -/
structure Key where
  path : List String := []
  name : String
deriving DecidableEq, Repr

/-- The value of an assignment as it is written. -/
inductive Term where
  | scalar (value : Config.Value)
  | array (items : List Term)
  | inlineTable (members : List (Key × Term))
deriving Repr, Inhabited

inductive Statement where
  | assign (key : Key) (term : Term)
  /-- `[key]` opens a table. -/
  | table (key : Key)
  /-- `[[key]]` opens a new item of an array of tables. -/
  | tableItem (key : Key)
deriving Repr

end HeaderInterop.Toml
