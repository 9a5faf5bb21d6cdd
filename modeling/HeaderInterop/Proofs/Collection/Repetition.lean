import HeaderInterop.Proofs.Collection.Handles

/-!
A header that comes again. What it declares is registered already, so the registry stays as it is,
and the entries that it offers have names that the lists hold. The collection is the one without the
repetition, in its registry and in each of its lists.
-/

namespace HeaderInterop

namespace Registry

variable {registry : Registry}

theorem addTypedef_of_known {name : String} (h : (registry.typedef? name).isSome = true)
    (underlying : CType) : registry.addTypedef name underlying = registry := by
  obtain ⟨known, hknown⟩ := Option.isSome_iff_exists.mp h
  rw [addTypedef, hknown]

theorem addRecord_of_not_supersedes {name : String} {new : Record}
    (h : supersedes new (registry.record? name) = false) : registry.addRecord name new = registry :=
  if_neg (by simp [h])

/-- The preferred one of some records gives way to none of them. -/
theorem supersedes_preferred {records : List Record} {record : Record} (h : record ∈ records) :
    supersedes record (preferred records) = false := by
  unfold preferred
  cases hcomplete : records.find? Record.complete with
  | some found => simp [supersedes, List.find?_some hcomplete]
  | none =>
    have hforward : record.complete = false := by
      simpa using List.find?_eq_none.mp hcomplete record h
    cases hfound : records.find? fun record => !record.complete with
    | some found => simp [supersedes, hforward]
    | none => simpa [hforward] using List.find?_eq_none.mp hfound record h

/-- A declaration that has been registered adds nothing when it comes again. -/
theorem addDecl_registerAll {headers : List Header} {decl : Decl} (h : decl ∈ stream headers) :
    (registerAll headers).addDecl decl = registerAll headers := by
  cases decl with
  | typedef definition =>
    refine addTypedef_of_known ?_ definition.underlying
    rw [typedef?_registerAll, List.findSome?_isSome_iff]
    exact ⟨_, h, Option.isSome_iff_exists.mpr ⟨_, Decl.typedefAs?_eq_some.mpr rfl⟩⟩
  | record definition =>
    cases hname : definition.name with
    | none => simp [addDecl, hname]
    | some name =>
      rw [addDecl, hname]
      refine addRecord_of_not_supersedes ?_
      rw [record?_registerAll]
      refine supersedes_preferred (List.mem_filterMap.mpr ⟨_, h, ?_⟩)
      rw [Decl.recordAs?, if_pos hname]
  | enum | function => rfl

theorem foldl_addDecl_registerAll {headers : List Header} {decls : List Decl}
    (h : ∀ decl ∈ decls, decl ∈ stream headers) :
    decls.foldl addDecl (registerAll headers) = registerAll headers := by
  induction decls with
  | nil => rfl
  | cons decl rest ih =>
    rw [List.foldl_cons, addDecl_registerAll (h decl (List.mem_cons_self ..))]
    exact ih fun other hother => h other (List.mem_cons_of_mem _ hother)

theorem registerAll_concat {headers : List Header} {header : Header} (h : header ∈ headers) :
    registerAll (headers ++ [header]) = registerAll headers := by
  have hconcat : registerAll (headers ++ [header]) = (registerAll headers).register header := by
    rw [registerAll, List.foldl_append]
    rfl
  rw [hconcat, register]
  exact foldl_addDecl_registerAll fun decl hdecl => List.mem_flatMap.mpr ⟨header, h, hdecl⟩

end Registry

namespace Worklist

variable {α : Type}

/-- Entries leave a list as it is whose names it has. -/
theorem addAll_of_mem_names {list : Worklist α} {offered : List (String × α)}
    (h : ∀ entry ∈ offered, entry.1 ∈ list.names) : list.addAll offered = list := by
  induction offered with
  | nil => rfl
  | cons entry rest ih =>
    rw [addAll_cons, add_of_mem (h entry (List.mem_cons_self ..))]
    exact ih fun other hother => h other (List.mem_cons_of_mem _ hother)

theorem addAll_append_of_subset {offered again : List (String × α)} (h : again ⊆ offered) :
    addAll {} (offered ++ again) = addAll {} offered := by
  rw [addAll_append]
  refine addAll_of_mem_names fun entry hentry => ?_
  exact mem_names_addAll.mpr (List.mem_map_of_mem (h hentry))

end Worklist

namespace Collection

/-- What an item offers a second time is not accepted. -/
theorem accept_flatMap_concat {α : Type} {items : List α} {item : α} (h : item ∈ items)
    (offers : α → Offers) (registry : Registry) :
    accept { registry } (Offers.flatMap offers (items ++ [item])) =
      accept { registry } (Offers.flatMap offers items) := by
  have hlist {β : Type} (offered : α → List (String × β)) :
      Worklist.addAll {} ((items ++ [item]).flatMap offered) =
        Worklist.addAll {} (items.flatMap offered) := by
    rw [List.flatMap_append, List.flatMap_singleton]
    exact Worklist.addAll_append_of_subset fun entry hentry =>
      List.mem_flatMap.mpr ⟨item, h, hentry⟩
  simp only [accept, Offers.flatMap, hlist]

/-- A header that is in the list and comes once more changes nothing: the registry and the five lists
are those without it, entry for entry. -/
theorem ofHeaders_concat_of_mem (settings : CollectSettings) {headers : List Header}
    {header : Header} (h : header ∈ headers) :
    (ofHeaders settings (headers ++ [header])).value = (ofHeaders settings headers).value := by
  rw [ofHeaders_value, ofHeaders_value, Registry.registerAll_concat h, accept_flatMap_concat h]

/-- A forward declaration comes again behind the definition of its record. -/
theorem ofHeaders_concat_of_mem_surface :
    surfaceHeader ∈ [surfaceHeader, windowHeader] ∧
      let once := (ofHeaders Config.standard.collect [surfaceHeader, windowHeader]).value
      once.handles.names = ["Surface", "SurfaceRef"] ∧ once.records.names = ["Window"] ∧
        (ofHeaders Config.standard.collect
          ([surfaceHeader, windowHeader] ++ [surfaceHeader])).value = once := by
  have hmem : surfaceHeader ∈ [surfaceHeader, windowHeader] := List.mem_cons_self ..
  exact ⟨hmem, rfl, rfl, ofHeaders_concat_of_mem Config.standard.collect hmem⟩

end Collection

end HeaderInterop
