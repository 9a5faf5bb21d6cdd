import HeaderInterop.Worklist
import HeaderInterop.Registry
import HeaderInterop.Config.Basic
import HeaderInterop.Emit.Handles

/-!
What is selected for emission, and in what order. All headers are registered first; then each one
is gone through, its macros before its declarations. The filters that depend on other headers look
at the finished registry only.
-/

namespace HeaderInterop

structure Collection where
  registry : Registry := {}
  /-- Macros, and the members of unnamed enums. -/
  constants : Worklist Macro := {}
  enums : Worklist Enumeration := {}
  records : Worklist Record := {}
  handles : Worklist HandleKind := {}
  functions : Worklist Prototype := {}
deriving Repr

namespace Collection

/-- Why a macro is left out, if it is. -/
def macroReason? (settings : CollectSettings) (m : Macro) : Option String :=
  let name := Text.lowerAscii m.name.toList
  if m.functionLike then some "function-like"
  else if m.value = "" then some "empty"
  else if settings.guardSuffixes.any fun suffix =>
      Text.endsWith (Text.lowerAscii suffix.toList) name then some "header guard"
  else if settings.excludedMacros.any fun excluded => Text.lowerAscii excluded.toList = name then
    some "excluded"
  else none

/-- Why a function is left out, if it is. -/
def functionReason? (settings : CollectSettings) (function : Prototype) : Option String :=
  if function.isStatic then some "static"
  else if function.isInline then some "inline"
  else if function.variadic then some "variadic"
  else if settings.excludedFunctions.contains function.name then some "excluded"
  else none

/-- What becomes of a record's declaration. -/
inductive RecordRole where
  | struct
  /-- A handle, if no header defines the record. -/
  | declared
  | skipped (reason : String)
deriving DecidableEq, Repr

def recordRole (settings : CollectSettings) (name : String) (record : Record) : RecordRole :=
  if record.kind = .classLike then .skipped "class"
  else if Text.endsWith settings.opaqueSuffix.toList name.toList then
    .skipped "opaque handle target"
  else if settings.handwrittenStructs.contains name then .skipped "written by hand"
  else if !record.complete then .declared
  else if record.isZeroSized then .skipped "zero size"
  else .struct

/-- The literal of an enum member, with a suffix for a value that needs more than 32 bits. -/
def enumLiteral (value : Int) : String :=
  if (0 ≤ value ∧ value ≤ Text.maxUInt32) ∨ (Text.minInt32 ≤ value ∧ value ≤ Text.maxInt32) then
    toString value
  else if Text.minInt64 ≤ value ∧ value ≤ Text.maxInt64 then toString value ++ "L"
  else toString value ++ "UL"

/-- The macro that a member of an unnamed enum stands for. -/
def enumMacro (constant : EnumConstant) : Macro :=
  .ofText constant.name (enumLiteral constant.value).toList

def noteSkipped (kind name reason : String) : Logged Unit :=
  .note .debug ("Skipping " ++ kind ++ " " ++ name ++ " (" ++ reason ++ ")")

def addConstant (collection : Collection) (m : Macro) : Logged Collection := do
  let constants ← collection.constants.push m.name m
  return { collection with constants }

def addMacro (settings : CollectSettings) (collection : Collection) (m : Macro) :
    Logged Collection :=
  match macroReason? settings m with
  | some reason => do
    noteSkipped "macro" m.name reason
    return collection
  | none => collection.addConstant m

def addHandle (collection : Collection) (name : String) (kind : HandleKind) :
    Logged Collection := do
  let handles ← collection.handles.push name kind
  return { collection with handles }

def addNamedRecord (settings : CollectSettings) (collection : Collection) (name : String)
    (record : Record) : Logged Collection :=
  match recordRole settings name record with
  | .struct => do
    let records ← collection.records.push name record
    return { collection with records }
  | .declared =>
    if collection.registry.isOpaque name then collection.addHandle name .opaqueRecord
    else pure collection
  | .skipped reason => do
    noteSkipped "record" name reason
    return collection

def addRecord (settings : CollectSettings) (collection : Collection) (record : Record) :
    Logged Collection :=
  match record.name with
  | some name => addNamedRecord settings collection name record
  | none => do
    .note .debug "Skipping anonymous top-level record"
    return collection

/-- Goes through the items, each with the collection that the ones before it left. -/
def addAll {α : Type} (add : Collection → α → Logged Collection) (collection : Collection) :
    List α → Logged Collection
  | [] => pure collection
  | item :: rest => do
    let collection ← add collection item
    addAll add collection rest

def addEnum (collection : Collection) (definition : Enumeration) : Logged Collection :=
  match definition.name with
  | some name => do
    let enums ← collection.enums.push name definition
    return { collection with enums }
  | none => addAll addConstant collection (definition.constants.map enumMacro)

def addFunction (settings : CollectSettings) (collection : Collection) (function : Prototype) :
    Logged Collection :=
  match functionReason? settings function with
  | some reason => do
    noteSkipped "function" function.name reason
    return collection
  | none => do
    let functions ← collection.functions.push function.name function
    return { collection with functions }

def addTypedef (collection : Collection) (definition : Typedef) : Logged Collection :=
  if collection.registry.isPointerHandle definition.name then
    collection.addHandle definition.name .pointer
  else pure collection

def addDecl (settings : CollectSettings) (collection : Collection) : Decl → Logged Collection
  | .record definition => addRecord settings collection definition
  | .enum definition => collection.addEnum definition
  | .typedef definition => collection.addTypedef definition
  | .function definition => addFunction settings collection definition

def addHeader (settings : CollectSettings) (collection : Collection) (header : Header) :
    Logged Collection := do
  .note .debug ("Collecting " ++ header.path)
  let collection ← addAll (addMacro settings) collection header.macros
  addAll (addDecl settings) collection header.decls

def summary (collection : Collection) : String :=
  "Collected " ++ toString collection.constants.size ++ " constants, " ++
    toString collection.enums.size ++ " enums, " ++
    toString collection.records.size ++ " structs, " ++
    toString collection.handles.size ++ " handles, " ++
    toString collection.functions.size ++ " functions"

/-- Registers the types of every header, then collects each header in order. -/
def ofHeaders (settings : CollectSettings) (headers : List Header) : Logged Collection := do
  let start : Collection := { registry := .registerAll headers }
  let collection ← addAll (addHeader settings) start headers
  .note .info collection.summary
  return collection

end Collection

end HeaderInterop
