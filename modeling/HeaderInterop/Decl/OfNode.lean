import HeaderInterop.Ast.Node
import HeaderInterop.CType.Parser
import HeaderInterop.Decl.Basic
import HeaderInterop.Log

/-!
Declarations from syntax trees. A declaration that cannot be converted has a fault; a record that a
field defines is attached to that field, found by the tag at the end of the field's type.
-/

namespace HeaderInterop

inductive DeclFault where
  | type (failure : CType.ParseFailure)
  | bitField (name : String)
  | enumValue (name : String) (value : Option String)
  | notFunction (type : String)
deriving Repr

def DeclFault.message : DeclFault → String
  | type failure => failure.message
  | bitField name => "bit-field " ++ name ++ " has no explicit-layout equivalent"
  | enumValue name value =>
    "enum constant " ++ name ++ " has no usable value (" ++ Text.showOption Text.quote value ++ ")"
  | notFunction text => "declared type " ++ Text.quote text ++ " is not a function type"

namespace Decl

open Ast (Node NodeKind)

def parseType (text : String) : Except DeclFault CType :=
  (CType.parse text).mapError .type

/-! Records -/

/-- The name of a field; the fields without one are numbered from the second on. -/
def fieldName (name : Option String) (unnamedBefore : Nat) : String :=
  match name.filter (· ≠ "") with
  | some name => name
  | none =>
    match unnamedBefore with
    | 0 => "Anonymous"
    | n + 1 => "Anonymous" ++ toString (n + 2)

def isUnnamed (name : Option String) : Bool :=
  (name.filter (· ≠ "")).isNone

/-- The first pending record with the tag, and the others. -/
def takeNamed (tag : String) : List Record → Option (Record × List Record)
  | [] => none
  | candidate :: rest =>
    if candidate.name = some tag then some (candidate, rest)
    else (takeNamed tag rest).map fun (found, others) => (found, candidate :: others)

/-- The last pending record without a tag, and the others. -/
def takeLastUnnamed : List Record → Option (Record × List Record)
  | [] => none
  | candidate :: rest =>
    match takeLastUnnamed rest with
    | some (found, others) => some (found, candidate :: others)
    | none => if candidate.name = none then some (candidate, rest) else none

/-- The pending record that a field of the type uses, if there is one, and the others. -/
def takeNested (pending : List Record) (type : CType) : Option Record × List Record :=
  let taken := match type.spineEnd with
    | .record _ none => takeLastUnnamed pending
    | .record _ (some tag) => takeNamed tag pending
    | _ => none
  match taken with
  | some (found, others) => (some found, others)
  | none => (none, pending)

def noteUnused (pending : List Record) : List Event :=
  pending.map fun unused =>
    ⟨.debug, "Nested record " ++ Text.showOption Text.quote unused.name ++
      " is not used by any field"⟩

def kindOfTag (tag : Option String) : RecordKind :=
  (tag.bind RecordKind.ofTag?).getD .struct

mutual

/-- The record that a record node declares. -/
def recordOf (name tag : Option String) (complete : Bool) : Node → Logged (Except DeclFault Record)
  | .mk _ inner =>
    let fields := fieldsOf [] 0 inner
    ⟨fields.value.map fun fields => { name, kind := kindOfTag tag, complete, fields }, fields.events⟩

/-- The fields among the nodes, given the records that wait for their field and the number of
unnamed fields before. -/
def fieldsOf (pending : List Record) (unnamed : Nat) : List Node → Logged (Except DeclFault (List Field))
  | [] => ⟨.ok [], noteUnused pending⟩
  | node :: rest =>
    match node.kind with
    | .record _ name tag complete =>
      let record := recordOf name tag complete node
      match record.value with
      | .error fault => ⟨.error fault, record.events⟩
      | .ok definition =>
        let fields := fieldsOf (pending ++ [definition]) unnamed rest
        ⟨fields.value, record.events ++ fields.events⟩
    | .field _ name text isBitField =>
      let fieldName := fieldName name unnamed
      if isBitField then ⟨.error (.bitField fieldName), []⟩
      else
        match parseType text with
        | .error fault => ⟨.error fault, []⟩
        | .ok type =>
          let taken := takeNested pending type
          let unnamed := if isUnnamed name then unnamed + 1 else unnamed
          let fields := fieldsOf taken.2 unnamed rest
          ⟨fields.value.map ({ name := fieldName, type, nested := taken.1 } :: ·), fields.events⟩
    | _ => fieldsOf pending unnamed rest

end

/-! Enums -/

/-- The value that an enum constant's initializer records: `none` without an initializer, and
`some none` for one whose value is not recorded. -/
def recordedValue? (inner : List Node) : Option (Option String) :=
  inner.findSome? fun node =>
    match node.kind with
    | .constantExpr value | .integerLiteral value => some value
    | _ => none

/-- The value of an enum constant; `next` is the one that follows the constant before it. -/
def constantValue (name : String) (inner : List Node) (next : Int) : Except DeclFault Int :=
  match recordedValue? inner with
  | none => .ok next
  | some none => .error (.enumValue name none)
  | some (some text) =>
    match Text.signed? Text.minInt128 Text.maxInt128 text.toList with
    | some value => .ok value
    | none => .error (.enumValue name (some text))

def constantsOf (next : Int) : List Node → Except DeclFault (List EnumConstant)
  | [] => .ok []
  | node :: rest =>
    match node.kind with
    | .enumConstant _ name _ => do
      let value ← constantValue name node.inner next
      let constants ← constantsOf (value + 1) rest
      return { name, value } :: constants
    | _ => constantsOf next rest

def enumOf (name fixedType : Option String) (inner : List Node) : Except DeclFault Enumeration := do
  let underlying ← match fixedType with
    | some text => (parseType text).map some
    | none => pure none
  let constants ← constantsOf 0 inner
  return { name, underlying, constants }

/-! Functions -/

def paramsOf : List Node → Except DeclFault (List Param)
  | [] => .ok []
  | node :: rest =>
    match node.kind with
    | .param _ name text => do
      let type ← parseType text
      let params ← paramsOf rest
      return { name := name.filter (· ≠ ""), type } :: params
    | _ => paramsOf rest

def functionOf (name : String) (storage : Option String) (text : String) (variadic isInline : Bool)
    (inner : List Node) : Except DeclFault Prototype := do
  match ← parseType text with
  | .function ret _ _ =>
    let params ← paramsOf inner
    return { name, ret, params, variadic, isStatic := storage = some "static", isInline }
  | _ => .error (.notFunction text)

/-! Translation units -/

/-- The declaration that a top-level node stands for, if it is of a kind that declares. -/
def ofNode? (node : Node) : Logged (Except DeclFault (Option Decl)) :=
  match node.kind with
  | .typedef _ name text =>
    ⟨(parseType text).map fun underlying => some (.typedef { name, underlying }), []⟩
  | .record _ name tag complete =>
    let record := recordOf name tag complete node
    ⟨record.value.map fun definition => some (.record definition), record.events⟩
  | .enum _ name fixedType =>
    ⟨(enumOf name fixedType node.inner).map fun definition => some (.enum definition), []⟩
  | .function _ name storage text variadic isInline =>
    ⟨(functionOf name storage text variadic isInline node.inner).map fun definition =>
      some (.function definition), []⟩
  | _ => ⟨.ok none, []⟩

def noteSkipped (node : Node) (fault : DeclFault) : Event :=
  ⟨.warning, "Skipping " ++ (node.kind.name?).getD "<anonymous>" ++ ": " ++ fault.message⟩

/-- The declarations of the nodes that convert, in order; the others are noted. -/
def ofNodes : List Node → Logged (List Decl)
  | [] => ⟨[], []⟩
  | node :: rest =>
    let decl := ofNode? node
    let decls := ofNodes rest
    match decl.value with
    | .ok found => ⟨found.toList ++ decls.value, decl.events ++ decls.events⟩
    | .error fault => ⟨decls.value, decl.events ++ noteSkipped node fault :: decls.events⟩

end Decl

end HeaderInterop
