import HeaderInterop.Config.Value
import HeaderInterop.Text.Class
import HeaderInterop.Text.Lines
import HeaderInterop.Text.Numeral

/-!
Paths to settings: a key, then keys behind dots and places in brackets. Setting at a path makes the
tables and lists along it where there is something else. A place counts from the end if it is
negative; a list grows to hold the place, at its end or at its start, with empty items.
-/

namespace HeaderInterop.Config

inductive PathStep where
  | key (name : String)
  | place (index : Int)
deriving DecidableEq, Repr

/-- A path: its first key and the steps behind it. -/
structure KeyPath where
  root : String
  steps : List PathStep := []
deriving DecidableEq, Repr

namespace KeyPath

def isKeyChar (c : Char) : Bool :=
  c.isAlphanum || c == '_' || c == '-'

/-- The text without the gaps around it. -/
def trimGaps (text : List Char) : List Char :=
  ((text.dropWhile Text.isGap).reverse.dropWhile Text.isGap).reverse

/-- A place: an optional minus sign and digits. -/
def index? (text : List Char) : Option Int :=
  match text with
  | '+' :: _ => none
  | _ => Text.signed? Text.minInt64 Text.maxInt64 text

/-- The steps behind the first key, all of the text. -/
def steps? (text : List Char) : Option (List PathStep) :=
  match text with
  | [] => some []
  | c :: rest =>
    if c = '.' then
      have := (List.dropWhile_sublist isKeyChar (l := rest)).length_le
      let name := String.ofList (rest.takeWhile isKeyChar)
      if name = "" then none
      else (steps? (rest.dropWhile isKeyChar)).map (.key name :: ·)
    else if c = '[' then
      match h : Text.splitAtFirst ']' rest with
      | none => none
      | some (inside, after) =>
        have := congrArg List.length (Text.splitAtFirst_eq_some h)
        match index? (trimGaps inside), steps? after with
        | some index, some steps => some (.place index :: steps)
        | _, _ => none
    else none
  termination_by text.length
  decreasing_by all_goals simp_all; try omega

def ofText? (text : String) : Option KeyPath :=
  let root := text.toList.takeWhile isKeyChar
  if root.isEmpty then none
  else (steps? (text.toList.dropWhile isKeyChar)).map fun steps =>
    { root := String.ofList root, steps }

/-- The items with room for the place, and where it is. -/
def makeRoom (index : Int) (items : List Value) : List Value × Nat :=
  let place := if index < 0 then Int.ofNat items.length + index else index
  if place < 0 then (List.replicate (-place).toNat .nil ++ items, 0)
  else (items ++ List.replicate (place.toNat + 1 - items.length) .nil, place.toNat)

/-- The value with what is at the end of the steps changed. -/
def alterAt (change : Value → Value) : List PathStep → Value → Value
  | [], value => change value
  | .key name :: rest, value => .table (Value.alter name (alterAt change rest) value.members)
  | .place index :: rest, value =>
    let (items, place) := makeRoom index value.items
    .list (items.modify place (alterAt change rest))

/-- Sets a value at the path. -/
def set (path : KeyPath) (new root : Value) : Value :=
  alterAt (Value.merge new) (.key path.root :: path.steps) root

end KeyPath

/-- Sets the members of a layer, each at the path that its key spells, or else under the key
itself. -/
def setLayer (layer : List (String × Value)) (root : Value) : Value :=
  layer.foldl (fun root (key, value) =>
    let path := (KeyPath.ofText? key).getD { root := key }
    path.set value root) root

end HeaderInterop.Config
