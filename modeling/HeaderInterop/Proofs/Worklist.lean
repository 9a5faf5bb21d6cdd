import HeaderInterop.Worklist

/-!
A work list after a run of offers. Whatever the offers are, the list ends with the first one of each
name, so its names do not depend on the order in which the offers come.
-/

namespace HeaderInterop

namespace Worklist

variable {α : Type}

/-- The list with the entries behind the others, as far as their names are not taken. -/
def addAll (list : Worklist α) (offered : List (String × α)) : Worklist α :=
  offered.foldl (fun list entry => list.add entry.1 entry.2) list

@[simp] theorem addAll_nil (list : Worklist α) : list.addAll [] = list :=
  rfl

@[simp] theorem addAll_cons (list : Worklist α) (entry : String × α)
    (offered : List (String × α)) :
    list.addAll (entry :: offered) = (list.add entry.1 entry.2).addAll offered :=
  rfl

theorem addAll_append (list : Worklist α) (offered more : List (String × α)) :
    list.addAll (offered ++ more) = (list.addAll offered).addAll more :=
  List.foldl_append

theorem contains_iff {list : Worklist α} {name : String} :
    list.contains name = true ↔ name ∈ list.names :=
  List.contains_iff_mem

theorem add_of_mem {list : Worklist α} {name : String} (h : name ∈ list.names) (item : α) :
    list.add name item = list :=
  if_pos (contains_iff.mpr h)

theorem add_of_notMem {list : Worklist α} {name : String} (h : name ∉ list.names) (item : α) :
    list.add name item = { entries := list.entries ++ [(name, item)] } :=
  if_neg fun hc => h (contains_iff.mp hc)

theorem names_add_of_notMem {list : Worklist α} {name : String} (h : name ∉ list.names) (item : α) :
    (list.add name item).names = list.names ++ [name] := by
  rw [names_add, if_neg fun hc => h (contains_iff.mp hc)]

/-- The entries without those whose name stands further in front. -/
def firstOfEachName (offered : List (String × α)) : List (String × α) :=
  offered.eraseDupsBy fun later earlier => later.1 == earlier.1

theorem firstOfEachName_cons (entry : String × α) (rest : List (String × α)) :
    firstOfEachName (entry :: rest) =
      entry :: firstOfEachName (rest.filter fun later => later.1 ≠ entry.1) := by
  rw [firstOfEachName, List.eraseDupsBy_cons, firstOfEachName]
  congr 3
  funext later
  simp

theorem entries_addAll (list : Worklist α) (offered : List (String × α)) :
    (list.addAll offered).entries =
      list.entries ++ firstOfEachName (offered.filter fun entry => entry.1 ∉ list.names) := by
  induction offered generalizing list with
  | nil => simp [firstOfEachName]
  | cons entry rest ih =>
    obtain ⟨name, item⟩ := entry
    rw [addAll_cons, ih]
    by_cases hname : name ∈ list.names
    · rw [add_of_mem hname, List.filter_cons_of_neg (by simpa using hname)]
    · -- the names of the longer list are the old ones and this one, so to drop them is to drop both
      have hrest :
          (rest.filter fun entry => entry.1 ∉ list.names).filter (fun later => later.1 ≠ name) =
            rest.filter fun entry => entry.1 ∉ (list.add name item).names := by
        rw [List.filter_filter]
        congr 1
        funext entry
        simp [names_add_of_notMem hname, and_comm]
      rw [List.filter_cons_of_pos (by simpa using hname), firstOfEachName_cons, hrest,
        add_of_notMem hname, List.append_assoc]
      rfl

/-- An entry is in the list when it was there, or is the first offer of a name that was free. -/
theorem mem_addAll_iff {list : Worklist α} {offered : List (String × α)} {name : String} {item : α} :
    (name, item) ∈ (list.addAll offered).entries ↔
      (name, item) ∈ list.entries ∨ (name ∉ list.names ∧ offered.lookup name = some item) := by
  induction offered generalizing list with
  | nil => simp
  | cons entry rest ih =>
    obtain ⟨first, firstItem⟩ := entry
    rw [addAll_cons, ih]
    by_cases hfirst : first ∈ list.names
    · rw [add_of_mem hfirst]
      by_cases heq : name = first
      · simp [heq, hfirst]
      · simp [List.lookup_cons, beq_eq_false_iff_ne.mpr heq]
    · rw [names_add_of_notMem hfirst, add_of_notMem hfirst]
      by_cases heq : name = first
      · subst heq
        simp [hfirst, eq_comm]
      · simp [List.lookup_cons, beq_eq_false_iff_ne.mpr heq, heq]

theorem mem_of_mem_addAll {offered : List (String × α)} {entry : String × α}
    (h : entry ∈ (addAll {} offered).entries) : entry ∈ offered := by
  obtain ⟨_, hfirst⟩ := (mem_addAll_iff.mp h).resolve_left List.not_mem_nil
  obtain ⟨before, after, rfl, _⟩ := List.lookup_eq_some_iff.mp hfirst
  exact List.mem_append_right before (List.mem_cons_self ..)

theorem nodup_addAll {list : Worklist α} (h : list.names.Nodup) (offered : List (String × α)) :
    (list.addAll offered).names.Nodup := by
  induction offered generalizing list with
  | nil => exact h
  | cons entry rest ih => exact ih (nodup_add h entry.1 entry.2)

/-- The list is what remains of the offers when the first one of a name counts: each name is in it
once, with its first offer, in the order of the offers. -/
structure HoldsFirst (list : Worklist α) (offered : List (String × α)) : Prop where
  entries_eq : list.entries = firstOfEachName offered
  names_nodup : list.names.Nodup
  mem_iff (name : String) (item : α) :
    (name, item) ∈ list.entries ↔ offered.lookup name = some item

theorem holdsFirst_addAll (offered : List (String × α)) :
    HoldsFirst (addAll {} offered) offered where
  entries_eq := by
    rw [entries_addAll, List.filter_eq_self.mpr (by simp [names])]
    rfl
  names_nodup := nodup_addAll (by simp [names]) offered
  mem_iff name item := by simp [mem_addAll_iff, names]

example : (addAll {} [("b", 1), ("a", 2), ("b", 3)]).entries = [("b", 1), ("a", 2)] := by
  decide

theorem mem_names_addAll {offered : List (String × α)} {name : String} :
    name ∈ (addAll {} offered).names ↔ name ∈ offered.map Prod.fst := by
  constructor
  · intro h
    obtain ⟨entry, hentry, rfl⟩ := List.mem_map.mp h
    exact List.mem_map_of_mem (mem_of_mem_addAll hentry)
  · intro h
    obtain ⟨⟨name, item⟩, hoffered, rfl⟩ := List.mem_map.mp h
    have hfound : (offered.lookup name).isSome = true :=
      List.lookup_isSome_iff.mpr ⟨(name, item), hoffered, by simp⟩
    obtain ⟨first, hfirst⟩ := Option.isSome_iff_exists.mp hfound
    have hentry : (name, first) ∈ (addAll {} offered).entries :=
      mem_addAll_iff.mpr (Or.inr ⟨List.not_mem_nil, hfirst⟩)
    exact List.mem_map.mpr ⟨(name, first), hentry, rfl⟩

/-- The lists hold the same names, all with entries that were offered. They differ in their order,
and in which of several offers of a name they hold. -/
structure SameNames (offered : List (String × α)) (list other : Worklist α) : Prop where
  names_perm : list.names.Perm other.names
  mem_of_mem : ∀ entry ∈ list.entries, entry ∈ offered
  mem_of_mem_other : ∀ entry ∈ other.entries, entry ∈ offered

theorem sameNames_addAll {offered more : List (String × α)} (h : more.Perm offered) :
    SameNames offered (addAll {} offered) (addAll {} more) where
  names_perm := by
    have hnodup (entries : List (String × α)) : (addAll {} entries).names.Nodup :=
      nodup_addAll (by simp [names]) entries
    rw [List.perm_ext_iff_of_nodup (hnodup offered) (hnodup more)]
    intro name
    rw [mem_names_addAll, mem_names_addAll, (h.map Prod.fst).mem_iff]
  mem_of_mem _ hentry := mem_of_mem_addAll hentry
  mem_of_mem_other _ hentry := h.mem_iff.mp (mem_of_mem_addAll hentry)

end Worklist

end HeaderInterop
