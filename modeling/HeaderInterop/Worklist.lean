import HeaderInterop.Log

/-!
Named entries in the order in which they were first seen. A name is in the list at most once, and
its entry is the first one pushed.
-/

namespace HeaderInterop

structure Worklist (α : Type) where
  entries : List (String × α) := []
deriving Repr

namespace Worklist

variable {α : Type}

def names (list : Worklist α) : List String :=
  list.entries.map Prod.fst

def size (list : Worklist α) : Nat :=
  list.entries.length

def isEmpty (list : Worklist α) : Bool :=
  list.entries.isEmpty

def contains (list : Worklist α) (name : String) : Bool :=
  list.names.contains name

/-- The list with the entry behind the others, unless the name is taken. -/
def add (list : Worklist α) (name : String) (item : α) : Worklist α :=
  if list.contains name then list else { entries := list.entries ++ [(name, item)] }

/-- Adds an entry; a name that is taken is noted. -/
def push (list : Worklist α) (name : String) (item : α) : Logged (Worklist α) :=
  ⟨list.add name item,
    if list.contains name then [⟨.debug, name ++ " already collected"⟩] else []⟩

theorem names_add (list : Worklist α) (name : String) (item : α) :
    (list.add name item).names =
      if list.contains name then list.names else list.names ++ [name] := by
  unfold add
  split <;> simp [names]

theorem nodup_add {list : Worklist α} (h : list.names.Nodup) (name : String) (item : α) :
    (list.add name item).names.Nodup := by
  rw [names_add]
  split
  · exact h
  · rename_i hn
    simp only [contains, List.contains_iff_mem] at hn
    rw [List.nodup_append]
    exact ⟨h, by simp, fun a ha b hb => by simp_all; rintro rfl; exact hn ha⟩

end Worklist

end HeaderInterop
