import HeaderInterop.Config.Default
import HeaderInterop.Proofs.Collection.Selection
import HeaderInterop.Proofs.Registry

/-!
Handles beside structs. A handle stands for a record that is opaque once every header is registered,
and a struct comes from a complete record, which is registered too. So nothing is both, wherever the
forward declarations and definitions stand.
-/

namespace HeaderInterop

/-- The tag of the record that a pointer type points to. -/
def CType.pointedTag? (type : CType) : Option String :=
  match type.unqualified with
  | .pointer pointee =>
    match pointee.unqualified with
    | .record _ tag => tag
    | _ => none
  | _ => none

namespace Registry

theorem isPointerHandle_eq (registry : Registry) (name : String) :
    registry.isPointerHandle name =
      ((registry.typedef? name).bind CType.pointedTag?).any registry.isOpaque := by
  unfold isPointerHandle
  cases registry.typedef? name with
  | none => rfl
  | some underlying =>
    simp only [Option.map_some, Option.bind_some, CType.pointedTag?]
    cases underlying.unqualified with
    | pointer pointee =>
      dsimp only
      cases pointee.unqualified with
      | record kind tag => cases tag <;> rfl
      | _ => rfl
    | _ => rfl

theorem exists_pointedTag_of_isPointerHandle {registry : Registry} {name : String}
    (h : registry.isPointerHandle name = true) :
    ∃ underlying tag, registry.typedef? name = some underlying ∧
      underlying.pointedTag? = some tag ∧ registry.isOpaque tag = true := by
  rw [isPointerHandle_eq, Option.any_eq_true] at h
  obtain ⟨tag, hbind, hopaque⟩ := h
  obtain ⟨underlying, htypedef, htag⟩ := Option.bind_eq_some_iff.mp hbind
  exact ⟨underlying, tag, htypedef, htag, hopaque⟩

/-- What a header defines itself is not opaque. -/
theorem isOpaque_eq_false_of_mem {headers : List Header} {definition : Record} {name : String}
    (hmem : .record definition ∈ stream headers) (hname : definition.name = some name)
    (hcomplete : definition.complete = true) : (registerAll headers).isOpaque name = false := by
  rw [Bool.eq_false_iff]
  intro hopaque
  have hforward := isOpaque_registerAll_iff.mp hopaque definition hmem hname
  rw [hcomplete] at hforward
  cases hforward

end Registry

namespace Collection

variable {settings : CollectSettings} {headers : List Header}

theorem mem_stream_of_mem_ownDecls {decl : Decl} (h : decl ∈ ownDecls headers) :
    decl ∈ Registry.stream headers := by
  obtain ⟨header, hheader, hdecl⟩ := List.mem_flatMap.mp h
  exact List.mem_flatMap.mpr ⟨header, hheader, List.mem_append_right _ hdecl⟩

theorem structOffer?_eq_some {decl : Decl} {name : String} {record : Record}
    (h : structOffer? settings decl = some (name, record)) :
    decl = .record record ∧ record.name = some name ∧ record.complete = true := by
  cases decl with
  | record definition =>
    obtain ⟨tag, htag, hentry⟩ := Option.bind_eq_some_iff.mp h
    split at hentry
    next hstruct =>
      obtain ⟨rfl, rfl⟩ : tag = name ∧ definition = record := by simpa using hentry
      exact ⟨rfl, htag, hstruct.2.1⟩
    next => cases hentry
  | typedef | enum | function => cases h

theorem isOpaque_of_handleOffer? {registry : Registry} {decl : Decl} {name : String}
    (h : handleOffer? settings registry decl = some (name, .opaqueRecord)) :
    registry.isOpaque name = true := by
  cases decl with
  | record definition =>
    obtain ⟨tag, _, hentry⟩ := Option.bind_eq_some_iff.mp h
    split at hentry
    next hdeclared =>
      obtain rfl : tag = name := by simpa using hentry
      exact hdeclared.2.2
    next => cases hentry
  | typedef definition =>
    simp only [handleOffer?] at h
    split at h <;> cases h
  | enum | function => cases h

theorem exists_typedef_of_handleOffer? {registry : Registry} {decl : Decl} {name : String}
    (h : handleOffer? settings registry decl = some (name, .pointer)) :
    ∃ definition, decl = .typedef definition ∧ definition.name = name ∧
      registry.isPointerHandle name = true := by
  cases decl with
  | record definition =>
    obtain ⟨tag, _, hentry⟩ := Option.bind_eq_some_iff.mp h
    split at hentry <;> cases hentry
  | typedef definition =>
    simp only [handleOffer?] at h
    split at h
    next hpointer =>
      obtain rfl : definition.name = name := by simpa using h
      exact ⟨definition, rfl, rfl, hpointer⟩
    next => cases h
  | enum | function => cases h

theorem isPointerHandle_of_handleOffer? {registry : Registry} {decl : Decl} {name : String}
    (h : handleOffer? settings registry decl = some (name, .pointer)) :
    registry.isPointerHandle name = true := by
  obtain ⟨_, _, _, hpointer⟩ := exists_typedef_of_handleOffer? h
  exact hpointer

/-- What is a handle is one of some declaration. -/
theorem exists_handleOffer?_of_mem {entry : String × HandleKind}
    (h : entry ∈ (ofHeaders settings headers).value.handles.entries) :
    ∃ decl ∈ ownDecls headers,
      handleOffer? settings (.registerAll headers) decl = some entry := by
  rw [ofHeaders_eq_accept] at h
  exact List.mem_filterMap.mp (Worklist.mem_of_mem_addAll h)

/-- What is a struct is a complete record of some declaration. -/
theorem exists_record_of_mem {name : String}
    (h : name ∈ (ofHeaders settings headers).value.records.names) :
    ∃ definition, .record definition ∈ ownDecls headers ∧ definition.name = some name ∧
      definition.complete = true := by
  obtain ⟨⟨name, definition⟩, hentry, rfl⟩ := List.mem_map.mp h
  rw [ofHeaders_eq_accept] at hentry
  obtain ⟨decl, hdecl, hstruct⟩ := List.mem_filterMap.mp (Worklist.mem_of_mem_addAll hentry)
  obtain ⟨rfl, hname, hcomplete⟩ := structOffer?_eq_some hstruct
  exact ⟨definition, hdecl, hname, hcomplete⟩

/-- A struct is not opaque in the finished registry. -/
theorem isOpaque_of_mem_records {name : String}
    (h : name ∈ (ofHeaders settings headers).value.records.names) :
    (Registry.registerAll headers).isOpaque name = false := by
  obtain ⟨definition, hdecl, hname, hcomplete⟩ := exists_record_of_mem h
  exact Registry.isOpaque_eq_false_of_mem (mem_stream_of_mem_ownDecls hdecl) hname hcomplete

/-- An opaque handle is opaque in the finished registry. -/
theorem isOpaque_of_mem_handles {name : String}
    (h : (name, .opaqueRecord) ∈ (ofHeaders settings headers).value.handles.entries) :
    (Registry.registerAll headers).isOpaque name = true := by
  obtain ⟨_, _, hentry⟩ := exists_handleOffer?_of_mem h
  exact isOpaque_of_handleOffer? hentry

theorem notMem_records_of_isOpaque {name : String}
    (h : (Registry.registerAll headers).isOpaque name = true) :
    name ∉ (ofHeaders settings headers).value.records.names := by
  intro hstruct
  rw [isOpaque_of_mem_records hstruct] at h
  cases h

/-- Nothing is a struct and opaque: no struct is an opaque handle, and a pointer handle is known as a
typedef of a pointer to a record that is no struct. -/
theorem ofHeaders_exclusive (settings : CollectSettings) (headers : List Header) :
    let collection := (ofHeaders settings headers).value
    (∀ name ∈ collection.records.names,
        (name, .opaqueRecord) ∉ collection.handles.entries) ∧
      ∀ name, (name, .pointer) ∈ collection.handles.entries →
        ∃ underlying tag, collection.registry.typedef? name = some underlying ∧
          underlying.pointedTag? = some tag ∧ tag ∉ collection.records.names := by
  intro collection
  constructor
  · intro name hstruct hhandle
    exact notMem_records_of_isOpaque (isOpaque_of_mem_handles hhandle) hstruct
  · intro name hhandle
    obtain ⟨_, _, hentry⟩ := exists_handleOffer?_of_mem hhandle
    obtain ⟨underlying, tag, htypedef, htag, hopaque⟩ :=
      Registry.exists_pointedTag_of_isPointerHandle (isPointerHandle_of_handleOffer? hentry)
    have hregistry : collection.registry = .registerAll headers :=
      ofHeaders_registry settings headers
    rw [hregistry]
    exact ⟨underlying, tag, htypedef, htag, notMem_records_of_isOpaque hopaque⟩

/-- A typedef of a pointer to a record. -/
def surfaceRef : Typedef where
  name := "SurfaceRef"
  underlying := .pointer (.record .struct (some "Surface"))

/-- Two forward declarations, and a pointer to the record that is never defined. -/
def surfaceHeader : Header where
  path := "/include/surface.h"
  macros := []
  decls :=
    [.record ⟨some "Surface", .struct, false, []⟩, .typedef surfaceRef,
      .record ⟨some "Window", .struct, false, []⟩]
  included := []

/-- The definition of the other record, with a forward declaration behind it. -/
def windowHeader : Header where
  path := "/include/window.h"
  macros := []
  decls :=
    [.record ⟨some "Window", .struct, true, [⟨"width", .primitive .int, none⟩]⟩,
      .record ⟨some "Window", .struct, false, []⟩, .typedef surfaceRef]
  included := []

theorem ofHeaders_exclusive_surface :
    let collection :=
      (ofHeaders Config.standard.collect [surfaceHeader, windowHeader]).value
    "Window" ∈ collection.records.names ∧
      (surfaceRef.name, .pointer) ∈ collection.handles.entries ∧
      ("Window", .opaqueRecord) ∉ collection.handles.entries ∧
      "Surface" ∉ collection.records.names := by
  intro collection
  have hstruct : "Window" ∈ collection.records.names := List.mem_singleton_self _
  have hhandle : (surfaceRef.name, .pointer) ∈ collection.handles.entries :=
    List.mem_cons_of_mem _ (List.mem_singleton_self _)
  obtain ⟨hstructs, hpointers⟩ :=
    ofHeaders_exclusive Config.standard.collect [surfaceHeader, windowHeader]
  obtain ⟨underlying, tag, htypedef, htag, htarget⟩ := hpointers surfaceRef.name hhandle
  obtain rfl : surfaceRef.underlying = underlying := Option.some.inj htypedef
  obtain rfl : "Surface" = tag := Option.some.inj htag
  exact ⟨hstruct, hhandle, hstructs "Window" hstruct, htarget⟩

end Collection

end HeaderInterop
