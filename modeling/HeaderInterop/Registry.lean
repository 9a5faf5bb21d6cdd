import HeaderInterop.Header

/-!
Typedefs and records of every registered header, by name. The first typedef of a name stays. A
record stays once it is complete, and a forward declaration until a complete one comes.
-/

namespace HeaderInterop

structure Registry where
  typedefs : List (String × CType) := []
  records : List (String × Record) := []
deriving Repr

namespace Registry

def typedef? (registry : Registry) (name : String) : Option CType :=
  registry.typedefs.lookup name

def record? (registry : Registry) (name : String) : Option Record :=
  registry.records.lookup name

/-- The table with the entry of the name set. -/
def setEntry {α : Type} (name : String) (entry : α) : List (String × α) → List (String × α)
  | [] => [(name, entry)]
  | (key, old) :: rest =>
    if key = name then (name, entry) :: rest else (key, old) :: setEntry name entry rest

def addTypedef (registry : Registry) (name : String) (underlying : CType) : Registry :=
  match registry.typedef? name with
  | some _ => registry
  | none => { registry with typedefs := registry.typedefs ++ [(name, underlying)] }

/-- Whether a record takes the place of the known one. -/
def supersedes (new : Record) : Option Record → Bool
  | none => true
  | some known => !known.complete && new.complete

def addRecord (registry : Registry) (name : String) (new : Record) : Registry :=
  if supersedes new (registry.record? name) then
    { registry with records := setEntry name new registry.records }
  else registry

def addDecl (registry : Registry) : Decl → Registry
  | .typedef definition => registry.addTypedef definition.name definition.underlying
  | .record definition =>
    match definition.name with
    | some name => registry.addRecord name definition
    | none => registry
  | .enum _ | .function _ => registry

/-- Adds the declarations of a header, the included ones first. -/
def register (registry : Registry) (header : Header) : Registry :=
  (header.included ++ header.decls).foldl addDecl registry

def registerAll (headers : List Header) : Registry :=
  headers.foldl register {}

/-- A record that no header defines. Only pointers to it can cross the boundary. -/
def isOpaque (registry : Registry) (name : String) : Bool :=
  !(registry.record? name).any Record.complete

/-- A typedef of a pointer to an opaque record. -/
def isPointerHandle (registry : Registry) (name : String) : Bool :=
  match (registry.typedef? name).map CType.unqualified with
  | some (.pointer pointee) =>
    match pointee.unqualified with
    | .record _ (some tag) => registry.isOpaque tag
    | _ => false
  | _ => false

theorem lookup_setEntry {α : Type} (name key : String) (entry : α) (table : List (String × α)) :
    (setEntry name entry table).lookup key =
      if key = name then some entry else table.lookup key := by
  induction table with
  | nil =>
    by_cases h : key = name
    · simp [setEntry, h]
    · simp [setEntry, List.lookup_cons, h, beq_eq_false_iff_ne.2 h]
  | cons pair rest ih =>
    obtain ⟨other, old⟩ := pair
    by_cases hk : key = other
    · subst hk
      by_cases ho : key = name <;> simp [setEntry, ho]
    · by_cases ho : other = name
      · subst ho
        simp [setEntry, List.lookup_cons, hk, beq_eq_false_iff_ne.2 hk]
      · simp [setEntry, List.lookup_cons, ho, ih, beq_eq_false_iff_ne.2 hk]

end Registry

end HeaderInterop
