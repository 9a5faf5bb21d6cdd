import HeaderInterop.Proofs.Code.Lines
import HeaderInterop.Proofs.TypeMap.Stars

/-!
Records in managed types. A type that leads to a record, behind arrays, pointers, qualifiers and
typedefs, has the managed name of the tag with its stars. In the managed name of a function pointer
each part has its own, so a type may lead to records in more than one place.
-/

namespace HeaderInterop.TypeMapper

variable {mapper : TypeMapper} {tag : String} {pointer : Bool} {levels : Nat} {type part : CType}

/-- The type is the record with the tag behind arrays, pointers, qualifiers and typedefs that have no
managed name of their own, and its managed name has that many stars. The flag asks for that of a
pointer to it. -/
inductive LeadsToRecord (mapper : TypeMapper) (tag : String) : Bool → Nat → CType → Prop where
  | record {pointer kind} : LeadsToRecord mapper tag pointer pointer.toNat (.record kind (some tag))
  | qualified {pointer levels qualifier inner} (h : LeadsToRecord mapper tag pointer levels inner) :
      LeadsToRecord mapper tag pointer levels (.qualified qualifier inner)
  | typedef {pointer levels synonym underlying} (hname : mapper.typedefName? synonym = none)
      (htypedef : mapper.registry.typedef? synonym = some underlying)
      (h : LeadsToRecord mapper tag pointer levels underlying) :
      LeadsToRecord mapper tag pointer levels (.typedef synonym)
  | array {pointer levels element size} (h : LeadsToRecord mapper tag true levels element) :
      LeadsToRecord mapper tag pointer levels (.array element size)
  | pointer {pointer levels pointee} (h : LeadsToRecord mapper tag true levels pointee) :
      LeadsToRecord mapper tag pointer (levels + pointer.toNat) (.pointer pointee)

/-- The second type is a part of a function pointer in the first, and both have managed names: the
function pointer stands behind what mapping looks through, or in another part that is not replaced
as a truth value. -/
inductive Writes (mapper : TypeMapper) : CType → CType → Prop where
  | qualified {qualifier inner part} (h : Writes mapper inner part) :
      Writes mapper (.qualified qualifier inner) part
  | typedef {synonym underlying part} (hname : mapper.typedefName? synonym = none)
      (htypedef : mapper.registry.typedef? synonym = some underlying)
      (h : Writes mapper underlying part) : Writes mapper (.typedef synonym) part
  | array {element size part} (h : Writes mapper element part) :
      Writes mapper (.array element size) part
  | pointer {pointee part}
      (hplain : ∀ ret params variadic, ¬ IsCallback mapper ret params variadic pointee)
      (h : Writes mapper pointee part) : Writes mapper (.pointer pointee) part
  | part {pointee ret params part} (hcallback : IsCallback mapper ret params false pointee)
      (hparts : ∀ other ∈ params ++ [ret], (mapper.partText? other).isSome)
      (hpart : part ∈ params ++ [ret]) : Writes mapper (.pointer pointee) part
  | inside {pointee ret params other part} (hcallback : IsCallback mapper ret params false pointee)
      (hparts : ∀ other ∈ params ++ [ret], (mapper.partText? other).isSome)
      (hother : other ∈ params ++ [ret]) (htruth : mapper.truthValue? other = none)
      (h : Writes mapper other part) : Writes mapper (.pointer pointee) part

theorem starred_eq_append_stars (pointer : Bool) (managed : String) :
    starred pointer managed = managed ++ stars pointer.toNat := by
  cases pointer with
  | false => exact (append_stars_zero managed).symm
  | true =>
    rw [Bool.toNat_true, append_stars_succ, append_stars_zero]
    rfl

theorem append_stars_add (managed : String) (levels more : Nat) :
    managed ++ stars levels ++ stars more = managed ++ stars (levels + more) := by
  rw [String.append_assoc, stars, stars, stars, ← String.ofList_append, List.replicate_append_replicate]

/-! Types that lead to a record. -/

theorem LeadsToRecord.not_isCallback (h : mapper.LeadsToRecord tag pointer levels type)
    (ret : CType) (params : List CType) (variadic : Bool) :
    ¬ IsCallback mapper ret params variadic type := by
  induction h with
  | record | array | pointer => exact fun hcallback => by cases hcallback
  | qualified _ ih =>
    intro hcallback
    cases hcallback with
    | qualified hinner => exact ih hinner
  | typedef _ htypedef _ ih =>
    intro hcallback
    cases hcallback with
    | typedef _ hsame hunderlying =>
      rw [htypedef, Option.some.injEq] at hsame
      exact ih (hsame ▸ hunderlying)

theorem LeadsToRecord.isConstVoid_eq (h : mapper.LeadsToRecord tag pointer levels type) :
    isConstVoid type = false := by
  cases h with
  | qualified h =>
    cases h with
    | record | qualified | typedef | array | pointer => rfl
  | record | typedef | array | pointer => rfl

section Acyclic

variable (hacyclic : mapper.registry.Acyclic)
include hacyclic

theorem LeadsToRecord.top_map (h : mapper.LeadsToRecord tag pointer levels type) :
    mapper.top.map pointer type = some (mapper.cleanName tag ++ stars levels) := by
  induction h with
  | @record pointer kind =>
    rw [← starred_eq_append_stars]
    rfl
  | qualified _ ih => exact (top_map_behind hacyclic rfl _).trans ih
  | typedef hname htypedef _ ih =>
    exact (top_map_behind hacyclic (behind?_typedef_eq_some.mpr ⟨hname, htypedef⟩) _).trans ih
  | array _ ih => exact (top_map_array hacyclic _ _ _).trans ih
  | @pointer pointer levels pointee h ih =>
    rw [← mapAt_top hacyclic, mapAt_pointer_of_plain hacyclic h.not_isCallback, h.isConstVoid_eq,
      if_neg Bool.false_ne_true, ih, Option.map_some, starred_eq_append_stars, append_stars_add]

/-- A type that leads to a record has the name that the stars say. -/
theorem LeadsToRecord.map_eq_iff (h : mapper.LeadsToRecord tag false levels type)
    (struct : String) :
    mapper.map type = some (struct ++ stars levels) ↔ mapper.cleanName tag = struct := by
  rw [map, h.top_map hacyclic, Option.some_inj, String.append_left_inj]

/-- So has a part of a function pointer, unless an integer stands for it. -/
theorem LeadsToRecord.partText?_eq_iff (h : mapper.LeadsToRecord tag false levels type)
    (struct : String) :
    mapper.partText? type = some (struct ++ stars levels) ↔
      match mapper.truthValue? type with
      | some integer => integer = struct ++ stars levels
      | none => mapper.cleanName tag = struct := by
  rw [partText?_eq]
  cases mapper.truthValue? type with
  | some integer => exact Option.some_inj
  | none => exact h.map_eq_iff hacyclic struct

end Acyclic

/-! Parts of function pointers. -/

theorem isInfix_starred {text : List Char} {managed : String} (h : text <:+: managed.toList)
    (pointer : Bool) : text <:+: (starred pointer managed).toList := by
  cases pointer with
  | false => exact h
  | true =>
    rw [starred, if_pos rfl, String.toList_append]
    exact h.trans (List.prefix_append _ _).isInfix

theorem isInfix_delegateText {text : String} {parts : List String} (h : text ∈ parts) :
    text.toList <:+: (delegateText parts).toList := by
  have hjoined : text.toList <:+: (", ".intercalate parts).toList := infix_intercalate h
  refine hjoined.trans ?_
  rw [toList_delegateText, List.append_cons, ← List.append_assoc]
  exact List.infix_append _ _ _

theorem not_writes_of_isConstVoid (h : isConstVoid type = true) : ¬ mapper.Writes type part := by
  intro hwrites
  unfold isConstVoid at h
  split at h
  · cases hwrites with
    | qualified hinner => cases hinner
  · cases h

/-- Each part of a function pointer stands in its managed name, if all parts have one. -/
theorem isInfix_signatureText {ret : CType} {params : List CType}
    (hparts : ∀ other ∈ params ++ [ret], (mapper.partText? other).isSome)
    (hpart : part ∈ params ++ [ret]) {text : String} (htext : mapper.partText? part = some text) :
    text.toList <:+: (mapper.signatureText ret params false).toList := by
  obtain ⟨texts, htexts⟩ := Option.isSome_iff_exists.mp (isSome_mapM_iff.mpr hparts)
  have hmem : text ∈ texts := (mem_iff_of_mapM_eq_some htexts text).mpr ⟨part, hpart, htext⟩
  rw [signatureText, if_neg Bool.false_ne_true, htexts]
  exact isInfix_delegateText hmem

section Acyclic

variable (hacyclic : mapper.registry.Acyclic)
include hacyclic

theorem top_map_pointer_of_isCallback {pointee ret : CType} {params : List CType} {variadic : Bool}
    (hcallback : IsCallback mapper ret params variadic pointee) (pointer : Bool) :
    mapper.top.map pointer (.pointer pointee) =
      some (starred pointer (mapper.signatureText ret params variadic)) := by
  rw [← mapAt_top hacyclic, mapAt, delegateAt_top hacyclic,
    delegate_of_isCallback hacyclic hcallback]
  rfl

/-- A part that is written stands in the managed name of the type, if that has one. -/
theorem Writes.isInfix (h : mapper.Writes type part) {managed : String}
    (hmap : mapper.top.map pointer type = some managed) :
    ∃ text, mapper.partText? part = some text ∧ text.toList <:+: managed.toList := by
  induction h generalizing pointer managed with
  | qualified _ ih => exact ih ((top_map_behind hacyclic rfl _).symm.trans hmap)
  | typedef hname htypedef _ ih =>
    exact ih ((top_map_behind hacyclic (behind?_typedef_eq_some.mpr ⟨hname, htypedef⟩) _).symm.trans
      hmap)
  | array _ ih => exact ih ((top_map_array hacyclic _ _ _).symm.trans hmap)
  | @pointer pointee part hplain h ih =>
    rw [← mapAt_top hacyclic, mapAt_pointer_of_plain hacyclic hplain] at hmap
    obtain ⟨inner, hinner, rfl⟩ := Option.map_eq_some_iff.mp hmap
    split at hinner
    next hvoid => exact absurd h (not_writes_of_isConstVoid hvoid)
    next =>
      obtain ⟨text, htext, hwritten⟩ := ih hinner
      exact ⟨text, htext, isInfix_starred hwritten pointer⟩
  | part hcallback hparts hpart =>
    obtain ⟨text, htext⟩ := Option.isSome_iff_exists.mp (hparts _ hpart)
    rw [top_map_pointer_of_isCallback hacyclic hcallback] at hmap
    obtain rfl := Option.some.inj hmap
    exact ⟨text, htext, isInfix_starred (isInfix_signatureText hparts hpart htext) pointer⟩
  | @inside pointee ret params other part hcallback hparts hother htruth h ih =>
    obtain ⟨outer, houter⟩ := Option.isSome_iff_exists.mp (hparts _ hother)
    have hmapOther : mapper.top.map false other = some outer := by
      rw [partText?_eq, htruth] at houter
      exact houter
    obtain ⟨text, htext, hwritten⟩ := ih hmapOther
    rw [top_map_pointer_of_isCallback hacyclic hcallback] at hmap
    obtain rfl := Option.some.inj hmap
    have hsignature := isInfix_signatureText hparts hother houter
    exact ⟨text, htext, isInfix_starred (hwritten.trans hsignature) pointer⟩

end Acyclic

end HeaderInterop.TypeMapper
