import HeaderInterop.Ast.Node
import HeaderInterop.Json.Reader

/-!
Syntax trees from the compiler's JSON dump. A node starts with its identifier and its kind; which
other members count depends on the kind, and those that do not count may hold anything. A location
without a file stands in the file of the location written before it, so decoding goes through the
members in the order in which they are written and carries the last file along. The arrays and
objects that count nest at most 127 deep; `depth` is how many more may be entered.
-/

namespace HeaderInterop.Ast

def maxDepth : Nat := 127

/-- What a member must hold. -/
inductive Shape where
  | text
  | flag
  | type
deriving DecidableEq, Repr

/-- A member that counts for a kind of node. A member with a default may be missing but not `null`;
an optional one may be either. -/
structure Member where
  key : String
  shape : Shape
  isOptional : Bool := false
  hasDefault : Bool := false

def nameMember : Member := { key := "name", shape := .text }

def optionalName : Member := { key := "name", shape := .text, isOptional := true }

def typeMember : Member := { key := "type", shape := .type }

def valueMember : Member := { key := "value", shape := .text, isOptional := true }

def flagMember (key : String) : Member := { key, shape := .flag, hasDefault := true }

/-- The members of each known kind of node, its location apart; `none` for any other kind. -/
def membersOf? : String → Option (List Member)
  | "TranslationUnitDecl" => some []
  | "TypedefDecl" => some [nameMember, typeMember]
  | "FunctionDecl" =>
    some [nameMember, { key := "storageClass", shape := .text, isOptional := true }, typeMember,
      flagMember "variadic", flagMember "inline"]
  | "RecordDecl" =>
    some [optionalName, { key := "tagUsed", shape := .text, isOptional := true },
      flagMember "completeDefinition"]
  | "FieldDecl" => some [optionalName, typeMember, flagMember "isBitfield"]
  | "EnumDecl" =>
    some [optionalName, { key := "fixedUnderlyingType", shape := .type, isOptional := true }]
  | "EnumConstantDecl" => some [nameMember, typeMember]
  | "ParmVarDecl" => some [optionalName, typeMember]
  | "ConstantExpr" => some [valueMember]
  | "IntegerLiteral" => some [valueMember]
  | "Other" => some [{ key := "kind", shape := .text, isOptional := true }]
  | _ => none

/-- The kinds whose location is read. -/
def locatedKinds : List String :=
  ["TypedefDecl", "FunctionDecl", "RecordDecl", "FieldDecl", "EnumDecl", "EnumConstantDecl",
   "ParmVarDecl"]

/-- A member that is there twice makes a node ambiguous. -/
def single? (key : String) (members : List (String × Json)) : Option (Option Json) :=
  match members.filter fun member => member.1 = key with
  | [] => some none
  | [member] => some (some member.2)
  | _ => none

/-- A desugared type may be missing, `null` or text. -/
def isDesugared (value : Option Json) : Bool :=
  match value with
  | none | some .null | some (.string _) => true
  | some _ => false

/-- A type is an object with the printed type, or a pair of the desugared type and the printed
one. -/
def printedType? : Json → Option String
  | .object members => do
    let desugared ← single? "desugaredQualType" members
    guard (isDesugared desugared)
    let printed ← single? "qualType" members
    printed.bind Json.text?
  | .array [desugared, printed] => if isDesugared (some desugared) then printed.text? else none
  | _ => none

def Shape.fits (shape : Shape) (depth : Nat) (value : Json) : Bool :=
  match shape with
  | text => value.text?.isSome
  | flag => value.bool?.isSome
  | type => 0 < depth && (printedType? value).isSome

def Member.fits (member : Member) (depth : Nat) (members : List (String × Json)) : Bool :=
  match single? member.key members with
  | none => false
  | some none => member.isOptional || member.hasDefault
  | some (some .null) => member.isOptional
  | some (some value) => member.shape.fits depth value

def textMember? (key : String) (members : List (String × Json)) : Option String :=
  (members.lookup key).bind Json.text?

def typeMember? (key : String) (members : List (String × Json)) : Option String :=
  (members.lookup key).bind printedType?

def flagMember? (key : String) (members : List (String × Json)) : Bool :=
  ((members.lookup key).bind Json.bool?).getD false

/-- The kind with what its members say; the members fit. -/
def nodeKind (kind : String) (file : Option Path) (members : List (String × Json)) : NodeKind :=
  let name? := textMember? "name" members
  let name := name?.getD ""
  let type := (typeMember? "type" members).getD ""
  match kind with
  | "TranslationUnitDecl" => .translationUnit
  | "TypedefDecl" => .typedef file name type
  | "FunctionDecl" =>
    .function file name (textMember? "storageClass" members) type
      (flagMember? "variadic" members) (flagMember? "inline" members)
  | "RecordDecl" =>
    .record file name? (textMember? "tagUsed" members) (flagMember? "completeDefinition" members)
  | "FieldDecl" => .field file name? type (flagMember? "isBitfield" members)
  | "EnumDecl" => .enum file name? (typeMember? "fixedUnderlyingType" members)
  | "EnumConstantDecl" => .enumConstant file name type
  | "ParmVarDecl" => .param file name? type
  | "ConstantExpr" => .constantExpr (textMember? "value" members)
  | "IntegerLiteral" => .integerLiteral (textMember? "value" members)
  | _ => .other (textMember? "kind" members)

/-- The kind of a node, if its members fit. A kind that is not known is not named twice. -/
def kindOf? (depth : Nat) (kind : String) (file : Option Path) (members : List (String × Json)) :
    Option NodeKind :=
  match membersOf? kind with
  | none => if members.any fun member => member.1 = "kind" then none
    else some (.other (some kind))
  | some expected =>
    if expected.all fun member => member.fits depth members then some (nodeKind kind file members)
    else none

/-! Locations -/

/-- A whole number of 64 bits. -/
def isWord (value : Json) : Bool :=
  value.nat?.any (· ≤ Text.maxUInt64)

/-- The file that includes a location: an object with the file. What includes that file in turn does
not count. -/
def isIncluder : Json → Bool
  | .object members =>
    members.all (fun member => member.1 = "includedFrom" || member.1 = "file") &&
      (single? "includedFrom" members).isSome &&
      ((single? "file" members).join.bind Json.text?).isSome
  | _ => false

/-- What the members of a location behind its offset must hold. -/
def locationMemberFits (depth : Nat) (member : String × Json) : Bool :=
  match member.1 with
  | "file" | "presumedFile" => member.2.text?.isSome
  | "line" | "presumedLine" | "col" | "tokLen" => isWord member.2
  | "includedFrom" => 0 < depth && isIncluder member.2
  | "isMacroArgExpansion" => member.2.bool?.isSome
  | _ => false

/-- The file of a location that starts with its offset; `last` is the file before it. Of a member
that is there more than once the last one counts. -/
def placeFile? (depth : Nat) (last : Path) : List (String × Json) → Option Path
  | ("offset", offset) :: members =>
    let keys := members.map Prod.fst
    if isWord offset ∧ "col" ∈ keys ∧ "tokLen" ∈ keys ∧
        members.all (locationMemberFits depth) then
      some ((textMember? "file" members.reverse).getD last)
    else none
  | _ => none

/-- The file a location points into, preferring where a macro was expanded over where its text was
spelled, and the last file after it. -/
def locationFile? (last : Path) : Nat → Json → Option (Option Path × Path)
  | _, .null => some (none, last)
  | _ + 1, .object [] => some (none, last)
  | depth + 2, .object [("spellingLoc", .object spelling), ("expansionLoc", .object expansion)] => do
    let spelled ← placeFile? depth last spelling
    let expanded ← placeFile? depth spelled expansion
    return (some expanded, expanded)
  | depth + 1, .object members => (placeFile? depth last members).map fun file => (some file, file)
  | _, _ => none

/-! Nodes -/

/-- `0x` and the hexadecimal digits of a 64-bit word. -/
def isIdentifier (value : Json) : Bool :=
  match value with
  | .string text =>
    match text.toList with
    | '0' :: 'x' :: digits =>
      let digits := match digits with
        | '+' :: digits => digits
        | digits => digits
      (Text.inBase? 16 digits).any (· ≤ Text.maxUInt64)
    | _ => false
  | _ => false

/-- How far the members of a node have been read: before its kind, or behind it. -/
inductive Phase where
  | head (hasId : Bool)
  | body (kind : String)

/-- What the members of a node have given so far. -/
structure Body where
  kind : Option String := none
  file : Option Path := none
  isLocated : Bool := false
  inner : List Node := []
  members : List (String × Json) := []

/-- The kind of a node that names none. -/
def unnamedKind : String := "null"

def Body.node? (depth : Nat) (body : Body) : Option Node :=
  (kindOf? depth (body.kind.getD unnamedKind) body.file body.members).map fun kind =>
    .mk kind body.inner

mutual

/-- The node of a JSON value, given the last file before it, and the last file after it. -/
def decodeNode (depth : Nat) (last : Path) : Json → Option (Node × Path)
  | .object members => do
    guard (0 < depth)
    let (body, last) ← decodeMembers (depth - 1) (.head false) {} last members
    let node ← body.node? (depth - 1)
    return (node, last)
  | _ => none

def decodeMembers (depth : Nat) (phase : Phase) (body : Body) (last : Path) :
    List (String × Json) → Option (Body × Path)
  | [] => some (body, last)
  | (key, value) :: rest =>
    match phase with
    | .head hasId =>
      if key = "id" then
        if !hasId && isIdentifier value then decodeMembers depth (.head true) body last rest
        else none
      else if key = "kind" then
        match value with
        | .string kind => decodeMembers depth (.body kind) { body with kind := some kind } last rest
        | _ => none
      else none
    | .body kind =>
      if key = "inner" then
        match value with
        | .array items => do
          guard (0 < depth)
          let (inner, last) ← decodeNodes (depth - 1) last items
          decodeMembers depth phase { body with inner } last rest
        | _ => none
      else if key = "loc" && locatedKinds.contains kind then do
        guard !body.isLocated
        let (file, last) ← locationFile? last depth value
        decodeMembers depth phase { body with file, isLocated := true } last rest
      else
        decodeMembers depth phase { body with members := body.members ++ [(key, value)] } last rest

def decodeNodes (depth : Nat) (last : Path) : List Json → Option (List Node × Path)
  | [] => some ([], last)
  | item :: rest => do
    let (node, last) ← decodeNode depth last item
    let (nodes, last) ← decodeNodes depth last rest
    return (node :: nodes, last)

end

/-- The tree of a whole dump. No file has been named before it. -/
def Node.ofJson? (value : Json) : Option Node :=
  (decodeNode maxDepth "" value).map Prod.fst

end HeaderInterop.Ast
