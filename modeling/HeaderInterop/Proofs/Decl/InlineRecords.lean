import Mathlib.Data.List.Forall2
import Mathlib.Data.List.ReduceOption
import HeaderInterop.Proofs.CType.Layers
import HeaderInterop.Proofs.Decl.Records

/-!
Records that are defined in a record. Each of them waits for a field behind it whose type ends in a
record of its tag, and is given to one such field at most; what is left over is only noted. A field
that was given a record is of its type up to layers, so that giving the type another tag keeps them.
-/

namespace HeaderInterop.Decl

open Ast (Node NodeKind)

/-! Children of a record node -/

/-- The record that a node converts to. -/
def recordOf? (node : Node) : Option Record :=
  match declared? node with
  | some (.record definition) => some definition
  | _ => none

def isFieldNode (node : Node) : Bool :=
  match node.kind with
  | .field .. => true
  | _ => false

def definitionAt? (entry : Node × Nat) : Option (Nat × Record) :=
  (recordOf? entry.1).map (entry.2, ·)

/-- The records that the nodes define, each with its place. -/
def definitionsFrom (start : Nat) (nodes : List Node) : List (Nat × Record) :=
  (nodes.zipIdx start).filterMap definitionAt?

/-- The places of the nodes that are fields. -/
def fieldPlaces (start : Nat) (nodes : List Node) : List Nat :=
  ((nodes.zipIdx start).filter fun entry => isFieldNode entry.1).map Prod.snd

/-- What is noted about the records inside a record node. -/
def definitionEvents (nodes : List Node) : List Event :=
  nodes.flatMap fun node => if (recordOf? node).isSome then (ofNode? node).events else []

/-- The field was given the record, which stands before it and has the tag that its type ends in. -/
def IsGiven (site : Nat × Field) (given : Option (Nat × Record)) : Prop :=
  site.2.nested = given.map Prod.snd ∧
    ∀ place definition, given = some (place, definition) →
      place < site.1 ∧ ∃ kind, site.2.type.spineEnd = .record kind definition.name

/-- The fields are given some of the records that wait already or are defined among the nodes. -/
structure Attaches (waiting : List (Nat × Record)) (start : Nat) (nodes : List Node)
    (fields : List Field) (given : List (Option (Nat × Record))) (unused : List (Nat × Record)) :
    Prop where
  places : (fieldPlaces start nodes).length = fields.length
  sites : List.Forall₂ IsGiven ((fieldPlaces start nodes).zip fields) given
  /-- No record is lost and none is given twice. -/
  all : (given.reduceOption ++ unused).Perm (waiting ++ definitionsFrom start nodes)
  /-- A record is left over only if each later field of its tag was given another one. -/
  leftOver : ∀ entry ∈ unused, ∀ site ∈ (fieldPlaces start nodes).zip fields,
    entry.1 < site.1 → site.2.nested = none →
      ∀ kind, site.2.type.spineEnd ≠ .record kind entry.2.name

theorem definitionsFrom_cons_of_some {node : Node} {definition : Record}
    (h : recordOf? node = some definition) (start : Nat) (rest : List Node) :
    definitionsFrom start (node :: rest) =
      (start, definition) :: definitionsFrom (start + 1) rest := by
  have hentry : definitionAt? (node, start) = some (start, definition) := by
    rw [definitionAt?, h]
    rfl
  rw [definitionsFrom, List.zipIdx_cons, List.filterMap_cons_some hentry]
  rfl

theorem definitionsFrom_cons_of_none {node : Node} (h : recordOf? node = none) (start : Nat)
    (rest : List Node) :
    definitionsFrom start (node :: rest) = definitionsFrom (start + 1) rest := by
  have hentry : definitionAt? (node, start) = none := by
    rw [definitionAt?, h]
    rfl
  rw [definitionsFrom, List.zipIdx_cons, List.filterMap_cons_none hentry]
  rfl

theorem le_of_mem_definitionsFrom {start : Nat} {nodes : List Node} {entry : Nat × Record}
    (h : entry ∈ definitionsFrom start nodes) : start ≤ entry.1 := by
  obtain ⟨⟨node, place⟩, hmem, hentry⟩ := List.mem_filterMap.mp h
  obtain ⟨definition, _, rfl⟩ := Option.map_eq_some_iff.mp hentry
  exact (List.mem_zipIdx hmem).1

theorem nodup_definitionsFrom (start : Nat) (nodes : List Node) :
    ((definitionsFrom start nodes).map Prod.fst).Nodup := by
  induction nodes generalizing start with
  | nil => exact List.nodup_nil
  | cons node rest ih =>
    cases hrecord : recordOf? node with
    | none =>
      rw [definitionsFrom_cons_of_none hrecord]
      exact ih (start + 1)
    | some definition =>
      rw [definitionsFrom_cons_of_some hrecord, List.map_cons, List.nodup_cons]
      refine ⟨fun hmem => ?_, ih (start + 1)⟩
      obtain ⟨entry, hentry, hplace⟩ := List.mem_map.mp hmem
      have hbehind := le_of_mem_definitionsFrom hentry
      omega

theorem fieldPlaces_cons_of_field {node : Node} (h : isFieldNode node = true) (start : Nat)
    (rest : List Node) :
    fieldPlaces start (node :: rest) = start :: fieldPlaces (start + 1) rest := by
  simp [fieldPlaces, List.zipIdx_cons, h]

theorem fieldPlaces_cons_of_not_field {node : Node} (h : isFieldNode node = false) (start : Nat)
    (rest : List Node) : fieldPlaces start (node :: rest) = fieldPlaces (start + 1) rest := by
  simp [fieldPlaces, List.zipIdx_cons, h]

/-! The record that a field is given -/

theorem takeNamed_eq_some {tag : String} {pending others : List Record} {found : Record}
    (h : takeNamed tag pending = some (found, others)) :
    ∃ before after, pending = before ++ found :: after ∧ others = before ++ after ∧
      found.name = some tag := by
  induction pending generalizing others with
  | nil => cases h
  | cons candidate rest ih =>
    rw [takeNamed] at h
    split at h
    next hname =>
      obtain ⟨rfl, rfl⟩ := Prod.mk.inj (Option.some.inj h)
      exact ⟨[], rest, rfl, rfl, hname⟩
    next =>
      obtain ⟨⟨taken, left⟩, htaken, hpair⟩ := Option.map_eq_some_iff.mp h
      obtain ⟨rfl, rfl⟩ := Prod.mk.inj hpair
      obtain ⟨before, after, rfl, rfl, hname⟩ := ih htaken
      exact ⟨candidate :: before, after, rfl, rfl, hname⟩

theorem takeNamed_eq_none {tag : String} {pending : List Record}
    (h : takeNamed tag pending = none) : ∀ candidate ∈ pending, candidate.name ≠ some tag := by
  induction pending with
  | nil => exact List.forall_mem_nil _
  | cons candidate rest ih =>
    rw [takeNamed] at h
    split at h
    next => cases h
    next hname => exact List.forall_mem_cons.mpr ⟨hname, ih (Option.map_eq_none_iff.mp h)⟩

theorem takeLastUnnamed_eq_some {pending others : List Record} {found : Record}
    (h : takeLastUnnamed pending = some (found, others)) :
    ∃ before after, pending = before ++ found :: after ∧ others = before ++ after ∧
      found.name = none := by
  induction pending generalizing others with
  | nil => cases h
  | cons candidate rest ih =>
    rw [takeLastUnnamed] at h
    split at h
    next taken left htaken =>
      obtain ⟨rfl, rfl⟩ := Prod.mk.inj (Option.some.inj h)
      obtain ⟨before, after, rfl, rfl, hname⟩ := ih htaken
      exact ⟨candidate :: before, after, rfl, rfl, hname⟩
    next =>
      split at h
      next hname =>
        obtain ⟨rfl, rfl⟩ := Prod.mk.inj (Option.some.inj h)
        exact ⟨[], rest, rfl, rfl, hname⟩
      next => cases h

theorem takeLastUnnamed_eq_none {pending : List Record} (h : takeLastUnnamed pending = none) :
    ∀ candidate ∈ pending, candidate.name ≠ none := by
  induction pending with
  | nil => exact List.forall_mem_nil _
  | cons candidate rest ih =>
    rw [takeLastUnnamed] at h
    split at h
    next => cases h
    next hrest =>
      split at h
      next => cases h
      next hname => exact List.forall_mem_cons.mpr ⟨hname, ih hrest⟩

/-- A field is given a waiting record of its tag, or there is none. -/
theorem takeNested_cases (pending : List Record) (type : CType) :
    (takeNested pending type = (none, pending) ∧
        ∀ candidate ∈ pending, ∀ kind, type.spineEnd ≠ .record kind candidate.name) ∨
      ∃ before found after kind, pending = before ++ found :: after ∧
        takeNested pending type = (some found, before ++ after) ∧
        type.spineEnd = .record kind found.name := by
  unfold takeNested
  cases hend : type.spineEnd with
  | record kind tag =>
    cases tag with
    | none =>
      cases htaken : takeLastUnnamed pending with
      | none =>
        refine .inl ⟨by simp, fun candidate hcandidate other hother => ?_⟩
        exact takeLastUnnamed_eq_none htaken candidate hcandidate (CType.record.inj hother).2.symm
      | some taken =>
        obtain ⟨before, after, hpending, hothers, hname⟩ := takeLastUnnamed_eq_some htaken
        exact .inr ⟨before, taken.1, after, kind, hpending, by simp [hothers], by rw [hname]⟩
    | some tag =>
      cases htaken : takeNamed tag pending with
      | none =>
        refine .inl ⟨by simp [htaken], fun candidate hcandidate other hother => ?_⟩
        exact takeNamed_eq_none htaken candidate hcandidate (CType.record.inj hother).2.symm
      | some taken =>
        obtain ⟨before, after, hpending, hothers, hname⟩ := takeNamed_eq_some htaken
        exact .inr
          ⟨before, taken.1, after, kind, hpending, by simp [htaken, hothers], by rw [hname]⟩
  | _ => exact .inl ⟨rfl, nofun⟩

/-- The record that is taken leaves the others that wait at their places. -/
theorem takeNested_placed (waiting : List (Nat × Record)) (type : CType) :
    (takeNested (waiting.map Prod.snd) type = (none, waiting.map Prod.snd) ∧
        ∀ entry ∈ waiting, ∀ kind, type.spineEnd ≠ .record kind entry.2.name) ∨
      ∃ before entry after kind, waiting = before ++ entry :: after ∧
        takeNested (waiting.map Prod.snd) type =
          (some entry.2, (before ++ after).map Prod.snd) ∧
        type.spineEnd = .record kind entry.2.name := by
  rcases takeNested_cases (waiting.map Prod.snd) type with
    ⟨htaken, hnone⟩ | ⟨front, found, back, kind, hpending, htaken, hend⟩
  · exact .inl ⟨htaken, List.forall_mem_map.mp hnone⟩
  · obtain ⟨before, tail, rfl, rfl, htail⟩ := List.map_eq_append_iff.mp hpending
    obtain ⟨entry, after, rfl, rfl, rfl⟩ := List.map_eq_cons_iff.mp htail
    exact .inr ⟨before, entry, after, kind, rfl, by rw [htaken, List.map_append], hend⟩

/-! Steps over the children -/

namespace Attaches

variable {waiting unused : List (Nat × Record)} {start : Nat} {node : Node} {rest : List Node}
  {field : Field} {fields : List Field} {given : List (Option (Nat × Record))}

theorem nil : Attaches waiting start [] [] [] waiting where
  places := rfl
  sites := .nil
  all := by rw [definitionsFrom, List.zipIdx_nil, List.filterMap_nil, List.append_nil]; rfl
  leftOver := by simp [fieldPlaces]

theorem silent (hrecord : recordOf? node = none) (hfield : isFieldNode node = false)
    (h : Attaches waiting (start + 1) rest fields given unused) :
    Attaches waiting start (node :: rest) fields given unused := by
  have hplaces := fieldPlaces_cons_of_not_field hfield start rest
  refine ⟨hplaces ▸ h.places, hplaces ▸ h.sites, ?_, hplaces ▸ h.leftOver⟩
  rw [definitionsFrom_cons_of_none hrecord]
  exact h.all

/-- A record that is defined waits from there on. -/
theorem definition {definition : Record} (hrecord : recordOf? node = some definition)
    (hfield : isFieldNode node = false)
    (h : Attaches (waiting ++ [(start, definition)]) (start + 1) rest fields given unused) :
    Attaches waiting start (node :: rest) fields given unused := by
  have hplaces := fieldPlaces_cons_of_not_field hfield start rest
  refine ⟨hplaces ▸ h.places, hplaces ▸ h.sites, ?_, hplaces ▸ h.leftOver⟩
  rw [definitionsFrom_cons_of_some hrecord]
  exact h.all.trans (by rw [List.append_assoc]; rfl)

section Field

variable (hrecord : recordOf? node = none) (hfield : isFieldNode node = true)
include hrecord hfield

/-- A field that is given nothing leaves the waiting records, none of which has its tag. -/
theorem unmet (hnested : field.nested = none)
    (hnone : ∀ entry ∈ waiting, ∀ kind, field.type.spineEnd ≠ .record kind entry.2.name)
    (h : Attaches waiting (start + 1) rest fields given unused) :
    Attaches waiting start (node :: rest) (field :: fields) (none :: given) unused := by
  have hplaces := fieldPlaces_cons_of_field hfield start rest
  constructor
  · rw [hplaces, List.length_cons, List.length_cons, h.places]
  · rw [hplaces, List.zip_cons_cons]
    exact .cons ⟨hnested, nofun⟩ h.sites
  · rw [List.reduceOption_cons_of_none, definitionsFrom_cons_of_none hrecord]
    exact h.all
  · rw [hplaces, List.zip_cons_cons]
    intro entry hentry site hsite hbefore hnone'
    rcases List.mem_cons.mp hsite with rfl | hsite
    · -- What is left over and stands before the field has been waiting.
      rcases List.mem_append.mp (h.all.subset (List.mem_append_right _ hentry)) with hwait | hbehind
      · exact hnone entry hwait
      · have hplace := le_of_mem_definitionsFrom hbehind
        omega
    · exact h.leftOver entry hentry site hsite hbefore hnone'

/-- A field that is given a record takes it out of those that wait. -/
theorem met {before after : List (Nat × Record)} {entry : Nat × Record} {kind : RecordKind}
    (hwaiting : waiting = before ++ entry :: after) (hplace : entry.1 < start)
    (hnested : field.nested = some entry.2)
    (hend : field.type.spineEnd = .record kind entry.2.name)
    (h : Attaches (before ++ after) (start + 1) rest fields given unused) :
    Attaches waiting start (node :: rest) (field :: fields) (some entry :: given) unused := by
  have hplaces := fieldPlaces_cons_of_field hfield start rest
  constructor
  · rw [hplaces, List.length_cons, List.length_cons, h.places]
  · rw [hplaces, List.zip_cons_cons]
    refine .cons ⟨hnested, fun place found hfound => ?_⟩ h.sites
    obtain rfl := Option.some.inj hfound
    exact ⟨hplace, kind, hend⟩
  · rw [List.reduceOption_cons_of_some, definitionsFrom_cons_of_none hrecord, hwaiting,
      List.append_assoc, List.cons_append, List.cons_append]
    refine (h.all.cons entry).trans ?_
    rw [List.append_assoc]
    exact List.perm_middle.symm
  · rw [hplaces, List.zip_cons_cons]
    intro other hother site hsite hbefore hnone
    rcases List.mem_cons.mp hsite with rfl | hsite
    · rw [hnested] at hnone
      cases hnone
    · exact h.leftOver other hother site hsite hbefore hnone

end Field

end Attaches

/-! Record nodes -/

theorem recordOf?_eq_some {node : Node} {definition : Record} :
    recordOf? node = some definition ↔
      ∃ file name tag complete, node.kind = .record file name tag complete ∧
        (recordOf name tag complete node).value = .ok definition := by
  rw [← ofNode?_eq_record, ← declared?_eq_some, recordOf?]
  split
  next found hfound => rw [hfound]; simp
  next hother => exact ⟨nofun, fun h => absurd h (hother definition)⟩

theorem recordOf?_of_not_record {node : Node}
    (h : ∀ file name tag complete, node.kind ≠ .record file name tag complete) :
    recordOf? node = none := by
  rw [Option.eq_none_iff_forall_ne_some]
  intro definition hdefinition
  obtain ⟨file, name, tag, complete, hkind, _⟩ := recordOf?_eq_some.mp hdefinition
  exact h file name tag complete hkind

theorem definitionEvents_cons_of_some {node : Node} {definition : Record}
    (h : recordOf? node = some definition) (rest : List Node) :
    definitionEvents (node :: rest) = (ofNode? node).events ++ definitionEvents rest := by
  rw [definitionEvents, List.flatMap_cons, h]
  rfl

theorem definitionEvents_cons_of_none {node : Node} (h : recordOf? node = none)
    (rest : List Node) : definitionEvents (node :: rest) = definitionEvents rest := by
  rw [definitionEvents, List.flatMap_cons, h]
  rfl

/-- A field that converts is given what is taken for its type, and the others go on waiting. -/
theorem fieldsOf_field {pending : List Record} {unnamed : Nat} {file : Option Path}
    {name : Option String} {text : String} {inner rest : List Node} {type : CType}
    (htype : parseType text = .ok type) :
    fieldsOf pending unnamed (.mk (.field file name text false) inner :: rest) =
      let fields := fieldsOf (takeNested pending type).2
        (if isUnnamed name then unnamed + 1 else unnamed) rest
      ⟨fields.value.map
        ({ name := fieldName name unnamed, type, nested := (takeNested pending type).1 } :: ·),
        fields.events⟩ := by
  simp only [fieldsOf, Node.kind, htype]
  rfl

/-- A record that converts waits for the fields behind it. -/
theorem fieldsOf_record {pending : List Record} {unnamed : Nat} {file : Option Path}
    {name tag : Option String} {complete : Bool} {inner rest : List Node} {definition : Record}
    (h : (recordOf name tag complete (.mk (.record file name tag complete) inner)).value =
      .ok definition) :
    fieldsOf pending unnamed (.mk (.record file name tag complete) inner :: rest) =
      let fields := fieldsOf (pending ++ [definition]) unnamed rest
      ⟨fields.value, (ofNode? (.mk (.record file name tag complete) inner)).events ++
        fields.events⟩ := by
  simp only [fieldsOf, Node.kind, h]
  rfl

theorem fieldsOf_silent {pending : List Record} {unnamed : Nat} {node : Node} {rest : List Node}
    (hrecord : ∀ file name tag complete, node.kind ≠ .record file name tag complete)
    (hfield : isFieldNode node = false) :
    fieldsOf pending unnamed (node :: rest) = fieldsOf pending unnamed rest := by
  obtain ⟨kind, inner⟩ := node
  cases kind with
  | record file name tag complete => exact absurd rfl (hrecord file name tag complete)
  | field => cases hfield
  | _ => simp only [fieldsOf, Node.kind]

/-- The walk over the children gives the records away. What waits stands before the nodes to come,
so that a field gets no record from behind it. -/
theorem fieldsOf_attaches {waiting : List (Nat × Record)} {start unnamed : Nat} {nodes : List Node}
    {fields : List Field} (hwaiting : ∀ entry ∈ waiting, entry.1 < start)
    (h : (fieldsOf (waiting.map Prod.snd) unnamed nodes).value = .ok fields) :
    ∃ given unused, Attaches waiting start nodes fields given unused ∧
      (fieldsOf (waiting.map Prod.snd) unnamed nodes).events =
        definitionEvents nodes ++ noteUnused (unused.map Prod.snd) := by
  induction nodes generalizing waiting start unnamed fields with
  | nil =>
    obtain rfl : [] = fields := by simpa [fieldsOf] using h
    exact ⟨[], waiting, .nil, by simp [fieldsOf, definitionEvents]⟩
  | cons node rest ih =>
    have hlater {entries : List (Nat × Record)} (hentries : ∀ entry ∈ entries, entry ∈ waiting) :
        ∀ entry ∈ entries, entry.1 < start + 1 :=
      fun entry hentry => Nat.lt_succ_of_lt (hwaiting entry (hentries entry hentry))
    by_cases hsilent : (∀ file name tag complete, node.kind ≠ .record file name tag complete) ∧
        isFieldNode node = false
    · have hrecord := recordOf?_of_not_record hsilent.1
      rw [fieldsOf_silent hsilent.1 hsilent.2] at h ⊢
      obtain ⟨given, unused, hattaches, hevents⟩ := ih (hlater fun _ => id) h
      refine ⟨given, unused, hattaches.silent hrecord hsilent.2, ?_⟩
      rw [definitionEvents_cons_of_none hrecord]
      exact hevents
    obtain ⟨kind, inner⟩ := node
    cases kind with
    | record file name tag complete =>
      cases hdefinition :
          (recordOf name tag complete (.mk (.record file name tag complete) inner)).value with
      | error fault =>
        simp only [fieldsOf, Node.kind, hdefinition] at h
        cases h
      | ok definition =>
        have hrecord : recordOf? (.mk (.record file name tag complete) inner) = some definition :=
          recordOf?_eq_some.mpr ⟨_, _, _, _, rfl, hdefinition⟩
        have hpending : waiting.map Prod.snd ++ [definition] =
            (waiting ++ [(start, definition)]).map Prod.snd := by simp
        have hplaces : ∀ entry ∈ waiting ++ [(start, definition)], entry.1 < start + 1 := by
          intro entry hentry
          rcases List.mem_append.mp hentry with hentry | hentry
          · exact hlater (fun _ => id) entry hentry
          · rw [List.mem_singleton.mp hentry]
            exact Nat.lt_succ_self start
        rw [fieldsOf_record hdefinition, hpending] at h ⊢
        obtain ⟨given, unused, hattaches, hevents⟩ := ih hplaces h
        refine ⟨given, unused, hattaches.definition hrecord rfl, ?_⟩
        rw [definitionEvents_cons_of_some hrecord, List.append_assoc, ← hevents]
    | field file name text isBitField =>
      have hrecord : recordOf? (.mk (.field file name text isBitField) inner) = none :=
        recordOf?_of_not_record nofun
      cases isBitField with
      | true => cases h
      | false =>
        cases htype : parseType text with
        | error fault =>
          simp only [fieldsOf, Node.kind, htype] at h
          cases h
        | ok type =>
          rw [fieldsOf_field htype] at h ⊢
          obtain ⟨others, hothers, rfl⟩ := except_map_eq_ok.mp h
          rcases takeNested_placed waiting type with
            ⟨htaken, hnone⟩ | ⟨before, entry, after, kind, rfl, htaken, hend⟩
          · rw [htaken] at hothers ⊢
            obtain ⟨given, unused, hattaches, hevents⟩ := ih (hlater fun _ => id) hothers
            refine ⟨none :: given, unused, hattaches.unmet hrecord rfl rfl hnone, ?_⟩
            rw [definitionEvents_cons_of_none hrecord]
            exact hevents
          · rw [htaken] at hothers ⊢
            have hleft : ∀ other ∈ before ++ after, other ∈ before ++ entry :: after := by
              simp only [List.mem_append, List.mem_cons]
              tauto
            obtain ⟨given, unused, hattaches, hevents⟩ := ih (hlater hleft) hothers
            have hplace := hwaiting entry (List.mem_append_right _ (List.mem_cons_self ..))
            refine ⟨some entry :: given, unused,
              hattaches.met hrecord rfl rfl hplace rfl hend, ?_⟩
            rw [definitionEvents_cons_of_none hrecord]
            exact hevents
    | _ => exact absurd ⟨nofun, rfl⟩ hsilent

/-! Nesting -/

def isRecordNode (node : Node) : Bool :=
  match node.kind with
  | .record .. => true
  | _ => false

/-- The record node itself, or one that is defined in it, at any depth. -/
inductive RecordNodeIn (root : Node) : Node → Prop where
  | self : RecordNodeIn root root
  | inside {outer node} (h : RecordNodeIn root outer) (hchild : node ∈ outer.inner)
      (hrecord : isRecordNode node = true) : RecordNodeIn root node

theorem isConvertible_of_mem {nodes : List Node} (h : allConvertible nodes = true) {node : Node}
    (hnode : node ∈ nodes) : isConvertible node = true := by
  induction nodes with
  | nil => cases hnode
  | cons first rest ih =>
    rw [allConvertible, Bool.and_eq_true] at h
    obtain ⟨hfirst, hrest⟩ := h
    rcases List.mem_cons.mp hnode with rfl | hnode
    · exact hfirst
    · exact ih hrest hnode

/-- The records that are defined in one that converts are converted too. -/
theorem exists_recordOf?_of_child {outer node : Node} {definition : Record}
    (h : recordOf? outer = some definition) (hchild : node ∈ outer.inner)
    (hrecord : isRecordNode node = true) : ∃ inner, recordOf? node = some inner := by
  obtain ⟨_, name, tag, complete, _, houter⟩ := recordOf?_eq_some.mp h
  have hall : allConvertible outer.inner = true := by
    rw [← recordOf_isOk name tag complete, houter]
    rfl
  have hnode := isConvertible_of_mem hall hchild
  obtain ⟨kind, children⟩ := node
  cases kind with
  | record file name tag complete =>
    rw [isConvertible] at hnode
    obtain ⟨inner, hinner⟩ := except_isOk_iff.mp
      ((recordOf_isOk name tag complete (.mk (.record file name tag complete) children)).trans hnode)
    exact ⟨inner, recordOf?_eq_some.mpr ⟨_, _, _, _, rfl, hinner⟩⟩
  | _ => cases hrecord

theorem RecordNodeIn.exists_recordOf? {root node : Node} {record : Record}
    (hnode : RecordNodeIn root node) (hroot : recordOf? root = some record) :
    ∃ definition, recordOf? node = some definition := by
  induction hnode with
  | self => exact ⟨record, hroot⟩
  | inside _ hchild hrecord ih =>
    obtain ⟨outer, houter⟩ := ih
    exact exists_recordOf?_of_child houter hchild hrecord

/-- How the records that are defined in a record node are given to its fields. -/
structure IsAttached (node : Node) (definition : Record) (given : List (Option (Nat × Record)))
    (unused : List (Nat × Record)) : Prop where
  attaches : Attaches [] 0 node.inner definition.fields given unused
  once : (given.reduceOption.map Prod.fst).Nodup
  /-- What is left over is noted, behind what is noted inside the records. -/
  events : (ofNode? node).events = definitionEvents node.inner ++ noteUnused (unused.map Prod.snd)
  /-- Another tag for the inline record replaces the one at the end of the field's type. -/
  retagged : ∀ field ∈ definition.fields, ∀ nested, field.nested = some nested →
    ∃ kind, field.type = .ofLayers field.type.layers (.record kind nested.name) ∧
      ∀ new, field.type.retag nested.name new =
        .ofLayers field.type.layers (.record kind (some new))

/-- The record of a field is the one at the end of its type. -/
theorem Attaches.spineEnd {waiting unused : List (Nat × Record)} {start : Nat} {nodes : List Node}
    {fields : List Field} {given : List (Option (Nat × Record))}
    (h : Attaches waiting start nodes fields given unused) {field : Field} (hfield : field ∈ fields)
    {nested : Record} (hnested : field.nested = some nested) :
    ∃ kind, field.type.spineEnd = .record kind nested.name := by
  obtain ⟨i, hi, rfl⟩ := List.getElem_of_mem hfield
  have hzip : i < ((fieldPlaces start nodes).zip fields).length := by
    rw [List.length_zip, h.places, Nat.min_self]
    exact hi
  obtain ⟨hgiven, htag⟩ := h.sites.get hzip (h.sites.length_eq ▸ hzip)
  simp only [List.get_eq_getElem, List.getElem_zip] at hgiven htag
  rw [hnested] at hgiven
  obtain ⟨⟨place, found⟩, hentry, rfl⟩ := Option.map_eq_some_iff.mp hgiven.symm
  exact (htag place found hentry).2

theorem exists_isAttached_self {node : Node} {definition : Record}
    (h : recordOf? node = some definition) :
    ∃ given unused, IsAttached node definition given unused := by
  obtain ⟨file, name, tag, complete, hkind, hrecord⟩ := recordOf?_eq_some.mp h
  obtain ⟨kind, inner⟩ := node
  obtain rfl : kind = .record file name tag complete := hkind
  rw [recordOf, except_map_eq_ok] at hrecord
  obtain ⟨fields, hfields, rfl⟩ := hrecord
  have hempty : ∀ entry ∈ ([] : List (Nat × Record)), entry.1 < 0 := List.forall_mem_nil _
  obtain ⟨given, unused, hattaches, hevents⟩ := fieldsOf_attaches hempty hfields
  refine ⟨given, unused, hattaches, ?_, hevents, fun field hfield nested hnested => ?_⟩
  · have hnodup : ((given.reduceOption ++ unused).map Prod.fst).Nodup :=
      (hattaches.all.map Prod.fst).nodup_iff.mpr (nodup_definitionsFrom 0 inner)
    rw [List.map_append] at hnodup
    exact (List.nodup_append.mp hnodup).1
  · obtain ⟨last, hend⟩ := hattaches.spineEnd hfield hnested
    refine ⟨last, ?_, CType.retag_eq_ofLayers hend⟩
    rw [← hend, CType.ofLayers_layers]

/-- In a record node that converts, every record node converts, and each of the records that are
defined in it is given to one field at most, which stands behind it and is of its tag, or noted. -/
theorem recordNodeIn_isAttached {root : Node} {record : Record}
    (hroot : recordOf? root = some record) {node : Node} (hnode : RecordNodeIn root node) :
    ∃ definition given unused, recordOf? node = some definition ∧
      IsAttached node definition given unused := by
  obtain ⟨definition, hdefinition⟩ := hnode.exists_recordOf? hroot
  obtain ⟨given, unused, hattached⟩ := exists_isAttached_self hdefinition
  exact ⟨definition, given, unused, hdefinition, hattached⟩

/-- `struct { int x; }`. -/
def pairNode : Node :=
  .mk (.record none none (some "struct") true) [.mk (.field none (some "x") "int" false) []]

/-- `struct Line { struct { int x; } ends[2]; };`, with an empty union before the field. -/
def lineNode : Node :=
  .mk (.record none (some "Line") (some "struct") true)
    [pairNode, .mk (.record none (some "Spare") (some "union") true) [],
      .mk (.field none (some "ends") "struct (unnamed struct at a.h:1:1) [ 2 ]" false) []]

def pairRecord : Record :=
  ⟨none, .struct, true, [⟨"x", .primitive .int, none⟩]⟩

def lineRecord : Record :=
  ⟨some "Line", .struct, true, [⟨"ends", .array (.record .struct none) (some 2), some pairRecord⟩]⟩

theorem recordOf?_lineNode : recordOf? lineNode = some lineRecord := by
  have hint : parseType "int" = .ok (.primitive .int) :=
    parseType_of_print (by decide +kernel) (by decide +kernel)
  have harray : parseType "struct (unnamed struct at a.h:1:1) [ 2 ]" =
      .ok (.array (.record .struct none) (some 2)) :=
    parseType_of_print (by decide +kernel) (by decide +kernel)
  refine recordOf?_eq_some.mpr ⟨none, some "Line", some "struct", true, rfl, ?_⟩
  simp only [lineNode, pairNode, recordOf, fieldsOf, Node.kind, hint, harray]
  rfl

theorem recordNodeIn_isAttached_line :
    recordOf? lineNode = some lineRecord ∧ RecordNodeIn lineNode pairNode ∧
      (∃ definition given unused, recordOf? lineNode = some definition ∧
        IsAttached lineNode definition given unused) ∧
      ∃ definition given unused, recordOf? pairNode = some definition ∧
        IsAttached pairNode definition given unused := by
  have hpair : RecordNodeIn lineNode pairNode := .inside .self (List.mem_cons_self ..) rfl
  exact ⟨recordOf?_lineNode, hpair, recordNodeIn_isAttached recordOf?_lineNode .self,
    recordNodeIn_isAttached recordOf?_lineNode hpair⟩

end HeaderInterop.Decl
