import HeaderInterop.Proofs.Collection.Handles

/-!
What the order of the headers has a say in. The selection looks at other headers through the
registry only, and there the order decides which of several typedefs of a name is known. Where these
agree, another order of the headers leads to the same names in every list.
-/

namespace HeaderInterop

namespace Registry

/-- All typedefs of a name, in whatever header, are of the same type. -/
def TypedefsAgree (headers : List Header) : Prop :=
  ∀ first second : Typedef, .typedef first ∈ stream headers → .typedef second ∈ stream headers →
    first.name = second.name → first.underlying = second.underlying

variable {headers permuted : List Header}

theorem typedef?_eq_some_of_agree (hagree : TypedefsAgree headers) {key : String} {type : CType} :
    (registerAll headers).typedef? key = some type ↔
      .typedef { name := key, underlying := type } ∈ stream headers := by
  rw [typedef?_registerAll]
  constructor
  · intro h
    obtain ⟨decl, hmem, hdecl⟩ := List.exists_of_findSome?_eq_some h
    rwa [Decl.typedefAs?_eq_some.mp hdecl] at hmem
  · intro hmem
    have hfound : ((stream headers).findSome? (Decl.typedefAs? key)).isSome = true :=
      List.findSome?_isSome_iff.mpr ⟨_, hmem, by simp [Decl.typedefAs?]⟩
    obtain ⟨known, hknown⟩ := Option.isSome_iff_exists.mp hfound
    obtain ⟨decl, hfirst, hdecl⟩ := List.exists_of_findSome?_eq_some hknown
    rw [Decl.typedefAs?_eq_some.mp hdecl] at hfirst
    have htype : known = type := hagree _ _ hfirst hmem rfl
    rw [hknown, htype]

theorem TypedefsAgree.of_perm (hagree : TypedefsAgree headers) (hperm : permuted.Perm headers) :
    TypedefsAgree permuted := by
  intro first second hfirst hsecond hname
  have hstream := stream_perm hperm
  exact hagree first second (hstream.mem_iff.mp hfirst) (hstream.mem_iff.mp hsecond) hname

theorem typedef?_registerAll_of_perm (hagree : TypedefsAgree headers)
    (hperm : permuted.Perm headers) (key : String) :
    (registerAll permuted).typedef? key = (registerAll headers).typedef? key := by
  apply Option.ext
  intro type
  rw [typedef?_eq_some_of_agree hagree, typedef?_eq_some_of_agree (hagree.of_perm hperm),
    (stream_perm hperm).mem_iff]

theorem isPointerHandle_registerAll_of_perm (hagree : TypedefsAgree headers)
    (hperm : permuted.Perm headers) (key : String) :
    (registerAll permuted).isPointerHandle key = (registerAll headers).isPointerHandle key := by
  simp only [isPointerHandle, typedef?_registerAll_of_perm hagree hperm,
    isOpaque_registerAll_of_perm hperm]

end Registry

namespace Collection

variable {settings : CollectSettings} {headers permuted : List Header}

theorem handleOffer?_of_perm (hagree : Registry.TypedefsAgree headers)
    (hperm : permuted.Perm headers) :
    handleOffer? settings (.registerAll permuted) = handleOffer? settings (.registerAll headers) := by
  funext decl
  cases decl with
  | record definition => simp only [handleOffer?, Registry.isOpaque_registerAll_of_perm hperm]
  | typedef definition =>
    simp only [handleOffer?, Registry.isPointerHandle_registerAll_of_perm hagree hperm]
  | enum | function => rfl

theorem ownDecls_perm (hperm : permuted.Perm headers) :
    (ownDecls permuted).Perm (ownDecls headers) :=
  hperm.flatMap_right _

/-- Another order of headers whose typedefs agree leads to the same names in every list: only their
order, and which of several declarations of a name is kept, may be different. -/
theorem ofHeaders_sameNames (settings : CollectSettings) {headers permuted : List Header}
    (hagree : Registry.TypedefsAgree headers) (hperm : permuted.Perm headers) :
    let collection := (ofHeaders settings headers).value
    let other := (ofHeaders settings permuted).value
    let offers := offersOf settings (.registerAll headers) headers
    collection.constants.SameNames offers.constants other.constants ∧
      collection.enums.SameNames offers.enums other.enums ∧
      collection.records.SameNames offers.records other.records ∧
      collection.handles.SameNames offers.handles other.handles ∧
      collection.functions.SameNames offers.functions other.functions := by
  intro collection other offers
  have hcollection : collection = accept { registry := .registerAll headers } offers :=
    ofHeaders_eq_accept settings headers
  have hother : other = accept { registry := .registerAll permuted }
      (offersOf settings (.registerAll permuted) permuted) :=
    ofHeaders_eq_accept settings permuted
  have hdecls : (ownDecls permuted).Perm (ownDecls headers) := ownDecls_perm hperm
  rw [hcollection, hother]
  refine ⟨Worklist.sameNames_addAll ?_, Worklist.sameNames_addAll ?_, Worklist.sameNames_addAll ?_,
    Worklist.sameNames_addAll ?_, Worklist.sameNames_addAll ?_⟩
  · exact hperm.flatMap_right _
  · exact hdecls.filterMap _
  · exact hdecls.filterMap _
  · simp only [offers, offersOf, handleOffer?_of_perm hagree hperm]
    exact hdecls.filterMap _
  · exact hdecls.filterMap _

theorem typedefsAgree_surface : Registry.TypedefsAgree [surfaceHeader, windowHeader] := by
  intro first second hfirst hsecond _
  have honly {definition : Typedef}
      (h : .typedef definition ∈ Registry.stream [surfaceHeader, windowHeader]) :
      definition = surfaceRef := by
    simpa [Registry.stream, surfaceHeader, windowHeader] using h
  rw [honly hfirst, honly hsecond]

theorem ofHeaders_sameNames_surface :
    Registry.TypedefsAgree [surfaceHeader, windowHeader] ∧
      [windowHeader, surfaceHeader].Perm [surfaceHeader, windowHeader] ∧
      (ofHeaders Config.standard.collect [surfaceHeader, windowHeader]).value.handles.names =
        ["Surface", surfaceRef.name] ∧
      (ofHeaders Config.standard.collect [windowHeader, surfaceHeader]).value.handles.names ≠
        ["Surface", surfaceRef.name] ∧
      (ofHeaders Config.standard.collect [windowHeader, surfaceHeader]).value.handles.names.Perm
        ["Surface", surfaceRef.name] := by
  have hperm : [windowHeader, surfaceHeader].Perm [surfaceHeader, windowHeader] :=
    List.Perm.swap ..
  obtain ⟨_, _, _, hhandles, _⟩ :=
    ofHeaders_sameNames Config.standard.collect typedefsAgree_surface hperm
  refine ⟨typedefsAgree_surface, hperm, rfl, ?_, hhandles.names_perm.symm⟩
  intro h
  exact absurd (List.head_eq_of_cons_eq h) (by decide)

end Collection

end HeaderInterop
