import HeaderInterop.Toml.Reader

/-!
TOML documents as tables. A name is given its value once, a table its header once. A header may open
a table that only the headers of its subtables have named before, and that no dotted key has passed
since; a dotted key may add to tables without a header, but not to finished values.
-/

namespace HeaderInterop.Toml

/-- How a table has been named so far. -/
inductive Origin where
  /-- Only by the headers of tables below it. -/
  | passage
  /-- By a dotted key, but by no header of its own. -/
  | dottedKey
  | header
deriving DecidableEq, Repr

/-- What a name stands for while a document is read. -/
inductive Node where
  | value (value : Config.Value)
  | table (origin : Origin) (members : List (String × Node))
  /-- An array of tables, its last item first. -/
  | tables (latest : List (String × Node)) (earlier : List (List (String × Node)))

abbrev Members := List (String × Node)

/-- Replaces what the name stands for, or adds it. -/
def alterMember (name : String) (change : Option Node → Option Node) :
    Members → Option Members
  | [] => (change none).map fun node => [(name, node)]
  | (found, node) :: rest =>
    if found = name then (change (some node)).map fun node => (found, node) :: rest
    else (alterMember name change rest).map ((found, node) :: ·)

/-- Changes the table at the end of a path from a table of the given origin, making what is missing
as `maker`. Only headers pass through tables with a header; a dotted key leaves its mark on those
that it passes. -/
def alterTable (maker : Origin) (change : Origin → Members → Option Members) :
    List String → Origin → Members → Option Members
  | [], origin, members => change origin members
  | name :: rest, _, members =>
    alterMember name (fun found =>
      match found with
      | none => (alterTable maker change rest maker []).map (.table maker)
      | some (.value _) => none
      | some (.table origin inside) =>
        if maker = .dottedKey then
          if origin = .header then none
          else (alterTable maker change rest .dottedKey inside).map (.table .dottedKey)
        else (alterTable maker change rest origin inside).map (.table origin)
      | some (.tables latest earlier) =>
        (alterTable maker change rest .header latest).map fun latest => .tables latest earlier)
      members

/-- Adds a member that is not there. -/
def addMember (name : String) (node : Node) (members : Members) : Option Members :=
  alterMember name (fun found => if found.isSome then none else some node) members

/-- Gives a value to a key in a table of the given origin. The last table of a dotted key is not the
item of an array of tables. -/
def assign (key : Key) (value : Config.Value) (origin : Origin) (members : Members) :
    Option Members :=
  alterTable .dottedKey (fun last members =>
      if !key.path.isEmpty ∧ last ≠ .dottedKey then none
      else addMember key.name (.value value) members)
    key.path origin members

/-- The node of a name after the header of its table. -/
def openTable : Option Node → Option Node
  | none => some (.table .header [])
  | some (.table .passage members) => some (.table .header members)
  | some _ => none

/-- The node of a name after the header of an item of its array. -/
def openItem : Option Node → Option Node
  | none => some (.tables [] [])
  | some (.tables latest earlier) => some (.tables [] (latest :: earlier))
  | some _ => none

mutual

def Node.toValue : Node → Config.Value
  | .value value => value
  | .table _ members => .table (membersValue members)
  | .tables latest earlier => .list (itemsValue earlier [.table (membersValue latest)])

def membersValue : List (String × Node) → List (String × Config.Value)
  | [] => []
  | (name, node) :: rest => (name, node.toValue) :: membersValue rest

/-- The items in order, before those that come after them. -/
def itemsValue : List (List (String × Node)) → List Config.Value → List Config.Value
  | [], later => later
  | item :: earlier, later => itemsValue earlier (.table (membersValue item) :: later)

end

mutual

/-- The value of a term, unless an inline table in it names something twice. -/
def Term.value? : Term → Option Config.Value
  | .scalar value => some value
  | .array items => (termValues? items).map .list
  | .inlineTable members => (inlineMembers? [] members).map fun nodes => .table (membersValue nodes)

def termValues? : List Term → Option (List Config.Value)
  | [] => some []
  | term :: rest =>
    match term.value?, termValues? rest with
    | some value, some values => some (value :: values)
    | _, _ => none

def inlineMembers? (nodes : Members) : List (Key × Term) → Option Members
  | [] => some nodes
  | (key, term) :: rest =>
    match term.value? with
    | none => none
    | some value => (assign key value .header nodes).bind fun nodes => inlineMembers? nodes rest

end

/-- A document as far as it has been read: its members, and the path of the open table. -/
structure Document where
  members : Members := []
  opened : List String := []

namespace Document

/-- Changes the table at a path of headers. -/
def atPath? (document : Document) (path : List String)
    (change : Origin → Members → Option Members) : Option Members :=
  alterTable .passage change path .header document.members

/-- The document after one more statement, if that fits. -/
def add? (document : Document) : Statement → Option Document
  | .assign key term => do
    let value ← term.value?
    let members ← document.atPath? document.opened (assign key value)
    return { document with members }
  | .table key => do
    let members ← document.atPath? key.path fun _ => alterMember key.name openTable
    return { members, opened := key.path ++ [key.name] }
  | .tableItem key => do
    let members ← document.atPath? key.path fun _ => alterMember key.name openItem
    return { members, opened := key.path ++ [key.name] }

end Document

/-- The members of the table that a text spells. -/
def parse? (text : String) : Option (List (String × Config.Value)) := do
  let document ← (← statements? text).foldlM Document.add? {}
  return membersValue document.members

end HeaderInterop.Toml
