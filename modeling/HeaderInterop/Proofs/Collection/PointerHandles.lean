import HeaderInterop.Emit.Output
import HeaderInterop.Proofs.Code.Lines
import HeaderInterop.Proofs.Collection.Handles

/-!
Typedefs that are pointer handles, where they are collected and where they are mapped. Both look at the
finished registry, so a typedef that keeps its name is one of the handles that are declared.
-/

namespace HeaderInterop

namespace TypeMapper

variable {mapper : TypeMapper} {name : String}

/-- What points to a record is no function type, and is not looked through for one. -/
theorem delegateAt_of_pointedTag? {type : CType} {tag : String} (h : type.pointedTag? = some tag)
    (below : Resolver) : delegateAt mapper below type = none := by
  induction type using CType.unqualified.induct with
  | case1 _ inner ih =>
    rw [delegateAt]
    exact ih h
  | case2 type hqualified =>
    cases type with
    | pointer pointee => rfl
    | qualified qualifier inner => exact absurd rfl (hqualified qualifier inner)
    | _ => cases h

theorem resolver_delegate_of_pointedTag? {type : CType} {tag : String}
    (h : type.pointedTag? = some tag) (n : Nat) : (mapper.resolver n).delegate type = none := by
  cases n with
  | zero => rfl
  | succ n => exact delegateAt_of_pointedTag? h (mapper.resolver n)

section Handle

variable (hhandle : mapper.registry.isPointerHandle name = true)
  (hsubstitute : mapper.substitute? name = none)
include hhandle hsubstitute

theorem typedefAt_of_isPointerHandle (below : Resolver) (pointer : Bool) :
    mapper.typedefAt below pointer name = some (starred pointer name) := by
  have hkept : mapper.isKept name = true := Bool.or_eq_true_iff.mpr (Or.inr hhandle)
  rw [typedefAt, hsubstitute]
  exact if_pos hkept

theorem map_typedef_of_isPointerHandle : mapper.map (.typedef name) = some name :=
  typedefAt_of_isPointerHandle hhandle hsubstitute _ false

/-- A pointer to a handle is one to its name: the record that is under it is not looked at. -/
theorem map_pointer_of_isPointerHandle :
    mapper.map (.pointer (.typedef name)) = some (name ++ "*") := by
  obtain ⟨underlying, tag, htypedef, htag, -⟩ :=
    Registry.exists_pointedTag_of_isPointerHandle hhandle
  let below := mapper.resolver (2 * mapper.registry.typedefs.length)
  have hdelegate : delegateAt mapper below (.typedef name) = none := by
    rw [delegateAt, hsubstitute, htypedef]
    exact resolver_delegate_of_pointedTag? htag _
  have hmap : mapAt mapper below true (.typedef name) = some (name ++ "*") := by
    rw [mapAt]
    exact typedefAt_of_isPointerHandle hhandle hsubstitute below true
  change mapAt mapper below false (.pointer (.typedef name)) = _
  rw [mapAt, hdelegate, hmap]
  rfl

end Handle

end TypeMapper

namespace Emit

theorem handles_mem_output (config : Config) (collection : Collection) :
    handles config collection.handles.entries ∈ (output config collection).value :=
  List.mem_of_getElem? (i := 2) rfl

/-- A handle of either kind is a struct of its name. -/
theorem infix_handleSteps (config : Config) (name : String) (kind : HandleKind) :
    ("partial struct " ++ name).toList <:+: (Code.textAt 0 (handleSteps config name kind)).toList := by
  obtain ⟨header, hheader, hname⟩ : ∃ header, Code.LineIn header (handleSteps config name kind) ∧
      ("partial struct " ++ name).toList <:+: header.toList := by
    cases kind with
    | opaqueRecord =>
      refine ⟨_, .header (List.mem_cons_self ..), config.visibility.toList ++ [' '], [], ?_⟩
      simp
    | pointer =>
      refine ⟨_, .header (List.mem_cons_of_mem _ (List.mem_cons_self ..)),
        config.visibility.toList ++ " readonly ".toList,
        ("(nint handle) : IEquatable<" ++ name ++ ">").toList, ?_⟩
      simp
  exact hname.trans (hheader.infix_textAt 0)

/-- The code of a handle of either kind stands in the file. -/
def DeclaresHandle (config : Config) (file : GeneratedFile) (name : String) : Prop :=
  ∃ kind before after,
    file.contents = before ++ Code.textAt 0 (handleSteps config name kind) ++ after

theorem DeclaresHandle.infix {config : Config} {file : GeneratedFile} {name : String}
    (h : DeclaresHandle config file name) :
    ("partial struct " ++ name).toList <:+: file.contents.toList := by
  obtain ⟨kind, before, after, hcontents⟩ := h
  have hfile : file.contents.toList =
      before.toList ++ (Code.textAt 0 (handleSteps config name kind)).toList ++ after.toList := by
    rw [hcontents, String.toList_append, String.toList_append]
  rw [hfile]
  exact (infix_handleSteps config name kind).trans (List.infix_append ..)

theorem declaresHandle_handles (config : Config) {entries : List (String × HandleKind)}
    {name : String} {kind : HandleKind} (h : (name, kind) ∈ entries) :
    DeclaresHandle config (handles config entries) name := by
  obtain ⟨earlier, later, rfl⟩ := List.append_of_mem h
  refine ⟨kind, ?_⟩
  rw [handles, GeneratedFile.contents_ofSteps, List.flatMap_append, List.flatMap_cons,
    Code.textAt_append, Code.textAt_append, ← String.append_assoc, ← String.append_assoc]
  exact ⟨_, _, rfl⟩

end Emit

namespace Collection

variable {settings : CollectSettings} {headers : List Header} {name : String}

/-- A header declares the typedef itself, and the registry knows it as a pointer to an opaque record. -/
def IsOwnHandle (registry : Registry) (headers : List Header) (name : String) : Prop :=
  (∃ definition, .typedef definition ∈ ownDecls headers ∧ definition.name = name) ∧
    registry.isPointerHandle name = true

theorem isOwnHandle_of_mem
    (h : (name, .pointer) ∈ (ofHeaders settings headers).value.handles.entries) :
    IsOwnHandle (.registerAll headers) headers name := by
  obtain ⟨_, hdecl, hoffer⟩ := exists_handleOffer?_of_mem h
  obtain ⟨definition, rfl, hname, hhandle⟩ := exists_typedef_of_handleOffer? hoffer
  exact ⟨⟨definition, hdecl, hname⟩, hhandle⟩

/-- An earlier handle of the name takes the place of the typedef, but the name stays. -/
theorem mem_names_of_isOwnHandle (h : IsOwnHandle (.registerAll headers) headers name) :
    name ∈ (ofHeaders settings headers).value.handles.names := by
  obtain ⟨⟨definition, hdecl, rfl⟩, hhandle⟩ := h
  have hoffer : handleOffer? settings (.registerAll headers) (.typedef definition) =
      some (definition.name, .pointer) := if_pos hhandle
  have hoffered : (definition.name, .pointer) ∈
      (ownDecls headers).filterMap (handleOffer? settings (.registerAll headers)) :=
    List.mem_filterMap.mpr ⟨_, hdecl, hoffer⟩
  rw [ofHeaders_eq_accept]
  exact Worklist.mem_names_addAll.mpr (List.mem_map_of_mem hoffered)

/-- A collection and the mapping of its types agree on pointer handles. Those that are collected come
from typedefs of the headers; each of these has a handle of its name, which the file of handles
declares, and unless something else is put in its place, the name is what the typedef is mapped to. -/
theorem ofHeaders_pointerHandles (config : Config) (headers : List Header) :
    let collection := (ofHeaders config.collect headers).value
    let mapper : TypeMapper := { settings := config.types, registry := collection.registry }
    (∀ name, (name, .pointer) ∈ collection.handles.entries →
        IsOwnHandle collection.registry headers name) ∧
      ∀ name, IsOwnHandle collection.registry headers name →
        name ∈ collection.handles.names ∧
        (∃ file ∈ (Emit.output config collection).value,
          file.name = "Handles.cs" ∧ Emit.DeclaresHandle config file name) ∧
        (mapper.substitute? name = none →
          mapper.map (.typedef name) = some name ∧
            mapper.map (.pointer (.typedef name)) = some (name ++ "*")) := by
  intro collection mapper
  have hregistry : collection.registry = .registerAll headers :=
    ofHeaders_registry config.collect headers
  constructor
  · intro name hentry
    rw [hregistry]
    exact isOwnHandle_of_mem hentry
  · intro name hown
    have hname : name ∈ collection.handles.names := mem_names_of_isOwnHandle (hregistry ▸ hown)
    refine ⟨hname, ?_, fun hsubstitute => ⟨?_, ?_⟩⟩
    · obtain ⟨⟨_, kind⟩, hentry, rfl⟩ := List.mem_map.mp hname
      exact ⟨_, Emit.handles_mem_output config collection, rfl,
        Emit.declaresHandle_handles config hentry⟩
    · exact TypeMapper.map_typedef_of_isPointerHandle hown.2 hsubstitute
    · exact TypeMapper.map_pointer_of_isPointerHandle hown.2 hsubstitute

theorem ofHeaders_pointerHandles_surface :
    let collection :=
      (ofHeaders Config.standard.collect [surfaceHeader, windowHeader]).value
    let mapper : TypeMapper :=
      { settings := Config.standard.types, registry := collection.registry }
    (surfaceRef.name, .pointer) ∈ collection.handles.entries ∧
      IsOwnHandle collection.registry [surfaceHeader, windowHeader] surfaceRef.name ∧
      (∃ file ∈ (Emit.output Config.standard collection).value, file.name = "Handles.cs" ∧
        Emit.DeclaresHandle Config.standard file surfaceRef.name ∧
        "partial struct SurfaceRef".toList <:+: file.contents.toList) ∧
      mapper.substitute? surfaceRef.name = none ∧
      mapper.map (.typedef surfaceRef.name) = some "SurfaceRef" ∧
      mapper.map (.pointer (.typedef surfaceRef.name)) = some "SurfaceRef*" := by
  intro collection mapper
  have hentry : (surfaceRef.name, .pointer) ∈ collection.handles.entries :=
    List.mem_cons_of_mem _ (List.mem_singleton_self _)
  have hsubstitute : mapper.substitute? surfaceRef.name = none := by decide +kernel
  obtain ⟨hentries, hhandles⟩ :=
    ofHeaders_pointerHandles Config.standard [surfaceHeader, windowHeader]
  have hown := hentries surfaceRef.name hentry
  obtain ⟨-, ⟨file, hfile, hname, hdeclares⟩, hmapped⟩ := hhandles surfaceRef.name hown
  exact ⟨hentry, hown, ⟨file, hfile, hname, hdeclares, hdeclares.infix⟩, hsubstitute,
    hmapped hsubstitute⟩

end Collection

end HeaderInterop
