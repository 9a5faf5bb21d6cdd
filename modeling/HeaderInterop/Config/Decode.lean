import HeaderInterop.Config.Basic
import HeaderInterop.Config.Value
import HeaderInterop.Text.Lines

/-!
The configuration that a table of settings spells. Text is read from any plain value, a flag from
plain values that say yes or no; lists and sections are what they are. A setting that has no value
of its own when it is missing must be there. The keys of the sections that mean nothing are kept.
-/

namespace HeaderInterop.Config

namespace Value

def text? : Value → Option String
  | text value => some value
  | bool value => some (if value then "true" else "false")
  | integer value => some (toString value)
  | float value => some value.text
  | nil | list _ | table _ => none

/-- The words that stand for a flag, in small letters. -/
def flagOfWord? (word : String) : Option Bool :=
  if word ∈ ["1", "true", "on", "yes"] then some true
  else if word ∈ ["0", "false", "off", "no"] then some false
  else none

def flag? : Value → Option Bool
  | bool value => some value
  | integer value => some (value ≠ 0)
  | float value => some !value.isZero
  | text value => flagOfWord? (String.ofList (Text.lowerAscii value.toList))
  | nil | list _ | table _ => none

def list? {α : Type} (read : Value → Option α) : Value → Option (List α)
  | list items => items.mapM read
  | _ => none

/-- The table itself, if it is one. -/
def section? : Value → Option Value
  | table members => some (table members)
  | _ => none

/-- A setting that must be there. -/
def required? {α : Type} (read : Value → Option α) (key : String) (settings : Value) : Option α :=
  (settings.get? key).bind read

/-- A setting that may be missing. -/
def optional? {α : Type} (default : α) (read : Value → Option α) (key : String)
    (settings : Value) : Option α :=
  match settings.get? key with
  | some value => read value
  | none => some default

/-- A list with one item per name as the table that it spells. -/
def named (names : List String) : Value → Value
  | list items => table (names.zip items)
  | other => other

end Value

open Value

def mapping? (value : Value) : Option TypeMapping := do
  let value ← section? (named ["native", "managed"] value)
  return { native := ← required? text? "native" value
           managed := ← required? text? "managed" value }

def composite? (value : Value) : Option CompositeConstant := do
  let value ← section? (named ["name", "type_name", "extra_args"] value)
  return { name := ← required? text? "name" value
           typeName := ← required? text? "type_name" value
           extraArgs := ← optional? [] (list? text?) "extra_args" value }

/-- No composite constant, or one. -/
def compositeOrNone? : Value → Option (Option CompositeConstant)
  | .nil => some none
  | value => (composite? value).map some

def override? (value : Value) : Option ConstantOverride := do
  let value ← section? (named ["name", "type", "value"] value)
  return { name := ← required? text? "name" value
           type := ← required? text? "type" value
           value := ← required? text? "value" value }

def collectSettings? (value : Value) : Option CollectSettings := do
  return { guardSuffixes := ← required? (list? text?) "header_guard_suffixes" value
           excludedMacros := ← required? (list? text?) "excluded_macros" value
           handwrittenStructs := ← required? (list? text?) "handwritten_structs" value
           opaqueSuffix := ← required? text? "opaque_suffix" value
           excludedFunctions := ← optional? [] (list? text?) "excluded_functions" value }

def typeSettings? (value : Value) : Option TypeSettings := do
  return { mappings := ← required? (list? mapping?) "mappings" value
           boolLike := ← optional? [] (list? mapping?) "bool_like" value
           handlePrefixes := ← optional? [] (list? text?) "handle_prefixes" value
           flagEnums := ← optional? [] (list? text?) "flag_enums" value
           keepTypedefs := ← optional? [] (list? text?) "keep_typedefs" value }

def constantSettings? (value : Value) : Option ConstantSettings := do
  return { composite := ← optional? none compositeOrNone? "composite" value
           overrides := ← optional? [] (list? override?) "overrides" value }

/-- The keys that mean something in each section; the first one is the whole configuration. -/
def knownKeys : List (String × List String) :=
  [("", ["clang", "includes", "header_prefix", "headers", "namespace", "class_name",
      "library_name", "public_visibility", "enum_unmanaged_tag", "collect", "types", "constants"]),
   ("collect", ["header_guard_suffixes", "excluded_macros", "handwritten_structs",
      "opaque_suffix", "excluded_functions"]),
   ("types", ["mappings", "bool_like", "handle_prefixes", "flag_enums", "keep_typedefs"]),
   ("constants", ["composite", "overrides"])]

/-- The keys of a section that mean nothing, with the section in front. -/
def unknownIn (root : Value) (entry : String × List String) : List String :=
  let settings := if entry.1 = "" then some root else root.get? entry.1
  let keys := (settings.elim [] Value.members).map Prod.fst
  (keys.filter (· ∉ entry.2)).map fun key =>
    if entry.1 = "" then key else entry.1 ++ "." ++ key

/-- The keys of all sections that mean nothing, ordered by code points. -/
def allUnknown (root : Value) : List String :=
  (knownKeys.flatMap (unknownIn root)).mergeSort fun a b => a ≤ b

def ofValue? (root : Value) : Option Config := do
  let collect ← required? section? "collect" root
  let types ← required? section? "types" root
  let constants ← required? section? "constants" root
  return { clang := ← required? text? "clang" root
           includes := ← required? text? "includes" root
           headerDir := ← optional? "" text? "header_prefix" root
           headers := ← required? (list? text?) "headers" root
           rootNamespace := ← required? text? "namespace" root
           className := ← required? text? "class_name" root
           libraryName := ← required? text? "library_name" root
           publicVisibility := ← required? flag? "public_visibility" root
           enumUnmanagedTag := ← required? flag? "enum_unmanaged_tag" root
           collect := ← collectSettings? collect
           types := ← typeSettings? types
           constants := ← constantSettings? constants
           unknownKeys := allUnknown root }

end HeaderInterop.Config
