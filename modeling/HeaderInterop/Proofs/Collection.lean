import HeaderInterop.Collection
import HeaderInterop.Proofs.Worklist

/-!
What a collection holds, told from the declarations. Each macro and declaration offers entries to
the lists, whatever has been collected before; a list is then made of all that was offered to it,
where the first entry of a name stays.
-/

namespace HeaderInterop

/-- Entries that are offered to the lists of a collection. -/
structure Offers where
  constants : List (String × Macro) := []
  enums : List (String × Enumeration) := []
  records : List (String × Record) := []
  handles : List (String × HandleKind) := []
  functions : List (String × Prototype) := []

namespace Offers

def append (offers more : Offers) : Offers where
  constants := offers.constants ++ more.constants
  enums := offers.enums ++ more.enums
  records := offers.records ++ more.records
  handles := offers.handles ++ more.handles
  functions := offers.functions ++ more.functions

/-- The offers of all items, in order. -/
def flatMap {α : Type} (offers : α → Offers) (items : List α) : Offers where
  constants := items.flatMap fun item => (offers item).constants
  enums := items.flatMap fun item => (offers item).enums
  records := items.flatMap fun item => (offers item).records
  handles := items.flatMap fun item => (offers item).handles
  functions := items.flatMap fun item => (offers item).functions

theorem flatMap_cons {α : Type} (offers : α → Offers) (item : α) (rest : List α) :
    flatMap offers (item :: rest) = (offers item).append (flatMap offers rest) :=
  rfl

theorem flatMap_constant {α : Type} (constant : α → String × Macro) (items : List α) :
    flatMap (fun item => { constants := [constant item] }) items =
      { constants := items.map constant } := by
  induction items with
  | nil => rfl
  | cons item rest ih =>
    rw [flatMap_cons, ih]
    rfl

end Offers

namespace Collection

/-- The entries of a macro. -/
def macroOffers (settings : CollectSettings) (m : Macro) : Offers :=
  if (macroReason? settings m).isNone then { constants := [(m.name, m)] } else {}

/-- The entries of a declaration, given everything that is registered. -/
def declOffers (settings : CollectSettings) (registry : Registry) : Decl → Offers
  | .record definition =>
    match definition.name with
    | none => {}
    | some name =>
      match recordRole settings name definition with
      | .struct => { records := [(name, definition)] }
      | .declared => if registry.isOpaque name then { handles := [(name, .opaqueRecord)] } else {}
      | .skipped _ => {}
  | .enum definition =>
    match definition.name with
    | some name => { enums := [(name, definition)] }
    | none => { constants := definition.constants.map fun c => (c.name, enumMacro c) }
  | .typedef definition =>
    if registry.isPointerHandle definition.name then
      { handles := [(definition.name, .pointer)] }
    else {}
  | .function function =>
    if (functionReason? settings function).isNone then
      { functions := [(function.name, function)] }
    else {}

def headerOffers (settings : CollectSettings) (registry : Registry) (header : Header) : Offers :=
  (Offers.flatMap (macroOffers settings) header.macros).append
    (Offers.flatMap (declOffers settings registry) header.decls)

/-- The collection with the offers accepted. -/
def accept (collection : Collection) (offers : Offers) : Collection where
  registry := collection.registry
  constants := collection.constants.addAll offers.constants
  enums := collection.enums.addAll offers.enums
  records := collection.records.addAll offers.records
  handles := collection.handles.addAll offers.handles
  functions := collection.functions.addAll offers.functions

@[simp] theorem accept_empty (collection : Collection) : collection.accept {} = collection :=
  rfl

theorem accept_append (collection : Collection) (offers more : Offers) :
    collection.accept (offers.append more) = (collection.accept offers).accept more := by
  simp only [accept, Offers.append, Worklist.addAll_append]

/-- If each item is added by accepting its offers, all of them are. -/
theorem addAll_value {α : Type} {add : Collection → α → Logged Collection}
    (offers : Registry → α → Offers)
    (h : ∀ collection item, (add collection item).value =
      collection.accept (offers collection.registry item))
    (collection : Collection) (items : List α) :
    (addAll add collection items).value =
      collection.accept (Offers.flatMap (offers collection.registry) items) := by
  induction items generalizing collection with
  | nil => rfl
  | cons item rest ih =>
    rw [addAll, Logged.value_bind, h, ih, Offers.flatMap_cons, accept_append]
    rfl

theorem addMacro_value (settings : CollectSettings) (collection : Collection) (m : Macro) :
    (addMacro settings collection m).value = collection.accept (macroOffers settings m) := by
  unfold addMacro macroOffers
  cases macroReason? settings m <;> rfl

theorem addEnum_value (collection : Collection) (definition : Enumeration)
    (settings : CollectSettings) :
    (collection.addEnum definition).value =
      collection.accept (declOffers settings collection.registry (.enum definition)) := by
  obtain ⟨name, underlying, constants⟩ := definition
  cases name with
  | some name => rfl
  | none =>
    have hconstant (collection : Collection) (m : Macro) :
        (collection.addConstant m).value = collection.accept { constants := [(m.name, m)] } := rfl
    have hall := addAll_value (fun _ m => { constants := [(m.name, m)] }) hconstant collection
      (constants.map enumMacro)
    rw [Offers.flatMap_constant, List.map_map] at hall
    exact hall

theorem addDecl_value (settings : CollectSettings) (collection : Collection) (decl : Decl) :
    (addDecl settings collection decl).value =
      collection.accept (declOffers settings collection.registry decl) := by
  cases decl with
  | enum definition => exact addEnum_value collection definition settings
  | typedef definition =>
    simp only [addDecl, addTypedef, declOffers]
    split <;> rfl
  | function function =>
    simp only [addDecl, addFunction, declOffers]
    cases functionReason? settings function <;> rfl
  | record definition =>
    obtain ⟨name, kind, complete, fields⟩ := definition
    cases name with
    | none => rfl
    | some name =>
      simp only [addDecl, addRecord, addNamedRecord, declOffers]
      cases recordRole settings name { name := some name, kind, complete, fields } with
      | struct => rfl
      | skipped reason => rfl
      | declared =>
        simp only
        split <;> rfl

theorem addHeader_value (settings : CollectSettings) (collection : Collection) (header : Header) :
    (addHeader settings collection header).value =
      collection.accept (headerOffers settings collection.registry header) := by
  have hmacros := addAll_value (fun _ => macroOffers settings) (addMacro_value settings)
    collection header.macros
  have hdecls (collection : Collection) :=
    addAll_value (declOffers settings) (addDecl_value settings) collection header.decls
  rw [addHeader, Logged.value_bind, Logged.value_bind, hmacros, hdecls, headerOffers, accept_append]
  rfl

/-- Each list of a collection is made of what the headers offer to it, in order. -/
theorem ofHeaders_value (settings : CollectSettings) (headers : List Header) :
    (ofHeaders settings headers).value =
      accept { registry := .registerAll headers }
        (Offers.flatMap (headerOffers settings (.registerAll headers)) headers) := by
  have hall := addAll_value (headerOffers settings) (addHeader_value settings)
    { registry := .registerAll headers } headers
  rw [← hall]
  rfl

@[simp] theorem ofHeaders_registry (settings : CollectSettings) (headers : List Header) :
    (ofHeaders settings headers).value.registry = .registerAll headers := by
  rw [ofHeaders_value]
  rfl

end Collection

end HeaderInterop
