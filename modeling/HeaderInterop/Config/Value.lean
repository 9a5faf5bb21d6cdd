import HeaderInterop.Decimal.Binary64

/-!
Settings before they are given their types. A table keeps each key once; setting a table merges it
into what is there, key by key, and setting anything else replaces what is there.
-/

namespace HeaderInterop.Config

inductive Value where
  | nil
  | bool (value : Bool)
  | integer (value : Int)
  | float (value : Binary64)
  | text (value : String)
  | list (items : List Value)
  | table (members : List (String × Value))
deriving Repr, Inhabited

namespace Value

def members : Value → List (String × Value)
  | table members => members
  | _ => []

def items : Value → List Value
  | list items => items
  | _ => []

def get? (key : String) (value : Value) : Option Value :=
  value.members.lookup key

/-- The members with the one of the key replaced by what `change` makes of it, or added. -/
def alter (key : String) (change : Value → Value) : List (String × Value) → List (String × Value)
  | [] => [(key, change nil)]
  | (found, value) :: rest =>
    if found = key then (found, change value) :: rest
    else (found, value) :: alter key change rest

mutual

/-- The value `old` after `new` has been set in its place. -/
def merge (new old : Value) : Value :=
  match new with
  | table members => table (mergeMembers members old.members)
  | other => other

def mergeMembers : List (String × Value) → List (String × Value) → List (String × Value)
  | [], old => old
  | (key, value) :: rest, old => mergeMembers rest (alter key (merge value) old)

end

end Value

end HeaderInterop.Config
