import HeaderInterop.Proofs.Decl.InlineRecords
import HeaderInterop.Proofs.Emit.Attributes
import HeaderInterop.Proofs.MadeNames

/-!
Names of fields. The fields without a name are counted, and get a name from their number only, so
such a name may be that of another field. The structs inside a struct are named for the fields that
define them, and are different if the fields are.
-/

namespace HeaderInterop

namespace Decl

open Ast (Node NodeKind)

/-! The fields of a record node -/

/-- The name that a field has in the header, if the node is a field; an empty one is none. -/
def label? (node : Node) : Option (Option String) :=
  match node.kind with
  | .field _ name _ _ => some (name.filter (· ≠ ""))
  | _ => none

def labels (nodes : List Node) : List (Option String) :=
  nodes.filterMap label?

/-- The names that the fields of a record node have in the header. -/
def ownFieldNames (node : Node) : List String :=
  (labels node.inner).reduceOption

/-- The number of fields without a name. -/
def unnamedFields (node : Node) : Nat :=
  (labels node.inner).count none

theorem injective_fieldName_none : Function.Injective (fieldName none) := by
  have hnumbered (number : Nat) :
      fieldName none (number + 1) = "Anonymous" ++ toString (number + 2) := rfl
  have hfirst (number : Nat) : fieldName none 0 ≠ fieldName none (number + 1) := by
    intro h
    have hlength := congrArg (fun text => text.toList.length) h
    have hdigits : 0 < (Nat.toDigits 10 (number + 2)).length := Nat.length_toDigits_pos
    have hword : (fieldName none 0).toList.length = "Anonymous".toList.length := rfl
    simp only [hnumbered, hword, String.toList_append, List.length_append,
      Nat.toString_eq_ofList_toDigits, String.toList_ofList] at hlength
    omega
  intro number other h
  cases number with
  | zero =>
    cases other with
    | zero => rfl
    | succ other => exact absurd h (hfirst other)
  | succ number =>
    cases other with
    | zero => exact absurd h.symm (hfirst number)
    | succ other =>
      rw [hnumbered, hnumbered] at h
      have hnumbers := injective_append_toString "Anonymous" h
      omega

theorem fieldName_eq_filled (name : Option String) (unnamed : Nat) :
    fieldName name unnamed =
      GappedNames.filled id (fieldName none) (name.filter (· ≠ ""), unnamed) := by
  cases hname : name.filter (· ≠ "") with
  | none =>
    unfold fieldName
    rw [hname]
    rfl
  | some own =>
    unfold fieldName
    rw [hname]
    rfl

/-- The names of the fields are those of the header, with the others made from their numbers. -/
theorem map_name_fieldsOf {pending : List Record} {unnamed : Nat} {nodes : List Node}
    {fields : List Field} (h : (fieldsOf pending unnamed nodes).value = .ok fields) :
    fields.map Field.name =
      (GappedNames.ofLabels unnamed (labels nodes)).map
        (GappedNames.filled id (fieldName none)) := by
  induction nodes generalizing pending unnamed fields with
  | nil =>
    obtain rfl : [] = fields := by simpa [fieldsOf] using h
    rfl
  | cons node rest ih =>
    obtain ⟨kind, inner⟩ := node
    cases kind with
    | record file name tag complete =>
      simp only [fieldsOf, Node.kind] at h
      split at h
      next => cases h
      next => exact ih h
    | field file name text isBitField =>
      simp only [fieldsOf, Node.kind] at h
      split at h
      next => cases h
      next =>
        split at h
        next => cases h
        next type htype =>
          obtain ⟨others, hothers, rfl⟩ := except_map_eq_ok.mp h
          have hlabels : labels (.mk (.field file name text isBitField) inner :: rest) =
              name.filter (· ≠ "") :: labels rest := rfl
          rw [List.map_cons, ih hothers, hlabels, isUnnamed, fieldName_eq_filled]
          cases name.filter (· ≠ "") <;> rfl
    | _ => exact ih h

theorem map_name_fields {node : Node} {definition : Record}
    (h : recordOf? node = some definition) :
    definition.fields.map Field.name =
      (GappedNames.ofLabels 0 (labels node.inner)).map
        (GappedNames.filled id (fieldName none)) := by
  obtain ⟨file, name, tag, complete, hkind, hrecord⟩ := recordOf?_eq_some.mp h
  obtain ⟨kind, inner⟩ := node
  rw [recordOf, except_map_eq_ok] at hrecord
  obtain ⟨fields, hfields, rfl⟩ := hrecord
  exact map_name_fieldsOf hfields

theorem nodup_fieldNames_iff {node : Node} {definition : Record}
    (h : recordOf? node = some definition) :
    (definition.fields.map Field.name).Nodup ↔
      (ownFieldNames node).Nodup ∧
        ∀ number < unnamedFields node, fieldName none number ∉ ownFieldNames node := by
  have hgaps := GappedNames.gaps_ofLabels 0 (labels node.inner)
  rw [map_name_fields h, GappedNames.nodup_filled_iff (hgaps ▸ List.nodup_range')
    injective_fieldName_none, GappedNames.names_ofLabels, hgaps, List.map_id]
  simp [ownFieldNames, unnamedFields, List.mem_range'_1]

end Decl

namespace Emit

open Code (Step)

variable {config : Config} {mapper : TypeMapper} {parent : String}

/-! The structs in a struct -/

/-- The name of a record's struct, read off its block. -/
def structName? (config : Config) : Step → Option String
  | .block header _ =>
    (Text.after? (config.visibility ++ " partial struct ").toList header.toList).map String.ofList
  | _ => none

/-- The names of the structs of records that stand right in the code. -/
def structNames (config : Config) (code : List Step) : List String :=
  code.filterMap (structName? config)

/-- The names of the fields that define a record and take a place in the struct. -/
def definingFields (fields : List Field) : List String :=
  ((keptFields fields).filter fun field => field.nested.isSome).map Field.name

theorem structName?_eq_some {header name : String} {body : List Step} :
    structName? config (.block header body) = some name ↔
      header = config.visibility ++ " partial struct " ++ name := by
  rw [structName?, Option.map_eq_some_iff]
  constructor
  · rintro ⟨rest, hrest, rfl⟩
    rw [← String.toList_inj, String.toList_append, String.toList_ofList]
    exact Text.after?_eq_some_iff.mp hrest
  · rintro rfl
    exact ⟨name.toList, Text.after?_eq_some_iff.mpr String.toList_append, String.ofList_toList⟩

theorem isSome_structName? (config : Config) (step : Step) :
    (structName? config step).isSome = isStructBlock config step := by
  cases step with
  | block header body =>
    rw [structName?, isStructBlock, Option.isSome_map, Bool.eq_iff_iff, Option.isSome_iff_exists,
      List.isPrefixOf_iff_prefix]
    simp only [Text.after?_eq_some_iff]
    exact exists_congr fun _ => eq_comm
  | _ => rfl

theorem structNames_structBlock (config : Config) (name : String) (kind : RecordKind)
    (body : List Step) : structNames config (structBlock config name kind body) = [name] := by
  have hblock : structNames config [.block (config.visibility ++ " partial struct " ++ name) body] =
      [name] := List.filterMap_cons_some (structName?_eq_some.mpr rfl)
  rw [structNames, structBlock]
  split
  · exact hblock
  · exact hblock

theorem structNames_of_isMember {isUnion : Bool} {field : Field} {member : List Step}
    (h : IsMember config mapper parent isUnion field member) :
    structNames config member =
      field.nested.toList.map fun _ => nestedName parent field.name := by
  obtain ⟨managed, inner, _, _, hinner, rfl⟩ := h
  have hown : structNames config (declaration isUnion field.name (extents field) managed) = [] := by
    refine List.filterMap_eq_nil_iff.mpr fun step hstep => ?_
    rcases mem_declaration config hstep with ⟨text, rfl⟩ | helement
    · rfl
    · rw [← Option.isNone_iff_eq_none, ← Option.isSome_eq_false_iff, isSome_structName?]
      exact helement.not_isStructBlock
  have hnested : structNames config inner =
      field.nested.toList.map fun _ => nestedName parent field.name := by
    cases hrecord : field.nested with
    | none =>
      rw [eq_nil_of_nestedSteps hrecord hinner]
      rfl
    | some nested =>
      obtain ⟨body, _, rfl⟩ := (nestedSteps_eq_ok hrecord).mp hinner
      exact structNames_structBlock config _ _ body
  rw [structNames, List.filterMap_append, ← structNames, ← structNames, hown, hnested,
    List.nil_append]

/-- The structs in a struct are named for the fields that define them, in order. -/
theorem structNames_fieldSteps {isUnion : Bool} {fields : List Field} {body : List Step}
    (h : (fieldSteps config mapper parent isUnion fields).value = .ok body) :
    structNames config body = (definingFields fields).map (nestedName parent) := by
  obtain ⟨members, hmembers, rfl⟩ := fieldSteps_eq_ok.mp h
  rw [definingFields]
  clear h
  generalize keptFields fields = kept at hmembers
  induction hmembers with
  | nil => rfl
  | @cons field member fields members hfirst _ ih =>
    have hmember := structNames_of_isMember hfirst
    rw [structNames] at hmember ih
    rw [structNames, List.flatten_cons, List.filterMap_append, hmember, ih, List.filter_cons]
    cases field.nested <;> rfl

/-- Every struct of a record has a name. -/
theorem map_structName?_structSites (config : Config) (code : List Step) :
    (structSites config code).map (fun site => structName? config site.2) =
      (structNames config code).map some := by
  -- on the code, whatever is in front of it
  have hfrom (previous : Option Step) :
      ((Code.sitesFrom previous code).filter fun site => isStructBlock config site.2).map
          (fun site => structName? config site.2) =
        (code.filterMap (structName? config)).map some := by
    induction code generalizing previous with
    | nil => rfl
    | cons step rest ih =>
      have hnamed := isSome_structName? config step
      cases hname : structName? config step with
      | none =>
        rw [hname] at hnamed
        rw [Code.sitesFrom, List.filter_cons_of_neg (by simp [← hnamed]),
          List.filterMap_cons_none hname, ih]
      | some name =>
        rw [hname] at hnamed
        rw [Code.sitesFrom, List.filter_cons_of_pos (by simp [← hnamed]),
          List.filterMap_cons_some hname, List.map_cons, List.map_cons, ih, hname]
  exact hfrom none

theorem structName?_of_mem_zip {entries : List (String × Record)} {code : List Step}
    (hnames : structNames config code = entries.map Prod.fst) {entry : String × Record}
    {site : Option Step × Step} (h : (entry, site) ∈ entries.zip (structSites config code)) :
    structName? config site.2 = some entry.1 := by
  obtain ⟨place, hplace⟩ := List.mem_iff_getElem?.mp h
  obtain ⟨hentry, hsite⟩ := List.getElem?_zip_eq_some.mp hplace
  have hnamed := congrArg (fun names => names[place]?) (map_structName?_structSites config code)
  simpa [hnames, hentry, hsite] using hnamed

theorem map_fst_inlineRecords (parent : String) (fields : List Field) :
    (inlineRecords parent fields).map Prod.fst =
      (definingFields fields).map (nestedName parent) := by
  rw [inlineRecords, definingFields]
  induction keptFields fields with
  | nil => rfl
  | cons field rest ih =>
    rw [List.flatMap_cons, List.map_append, ih, List.filter_cons]
    cases field.nested <;> rfl

theorem injective_nestedName (parent : String) : Function.Injective (nestedName parent) := by
  intro field other h
  exact (String.append_right_inj _).mp h

theorem nodup_definingFields {fields : List Field} (h : (fields.map Field.name).Nodup) :
    (definingFields fields).Nodup :=
  h.sublist ((List.filter_sublist.trans List.filter_sublist).map Field.name)

open Decl (fieldName ownFieldNames unnamedFields recordOf? RecordNodeIn)

/-- For a record node, or one at any depth in it: the fields of the record have different names
exactly if those in the header are different and none of them is made from the number of a field
without a name. The structs in the record's struct are named for the fields that define them, so
they are different exactly if these fields are, and so if all fields are. -/
theorem fieldNames_nodup_iff {root : Ast.Node} {record : Record}
    (hroot : recordOf? root = some record) {node : Ast.Node} (hnode : RecordNodeIn root node) :
    ∃ definition, recordOf? node = some definition ∧
      ((definition.fields.map Field.name).Nodup ↔
        (ownFieldNames node).Nodup ∧
          ∀ number < unnamedFields node, fieldName none number ∉ ownFieldNames node) ∧
      ∀ config mapper parent steps,
        (structSteps config mapper parent definition).value = .ok steps →
          ∃ body, steps = structBlock config parent definition.kind body ∧
            structNames config body =
              (definingFields definition.fields).map (nestedName parent) ∧
            ((structNames config body).Nodup ↔ (definingFields definition.fields).Nodup) ∧
            ((definition.fields.map Field.name).Nodup → (structNames config body).Nodup) := by
  obtain ⟨definition, hdefinition⟩ := hnode.exists_recordOf? hroot
  refine ⟨definition, hdefinition, Decl.nodup_fieldNames_iff hdefinition, ?_⟩
  intro config mapper parent steps hsteps
  rw [structSteps_value, except_map_eq_ok] at hsteps
  obtain ⟨body, hbody, rfl⟩ := hsteps
  have hnames := structNames_fieldSteps hbody
  have hiff : (structNames config body).Nodup ↔ (definingFields definition.fields).Nodup := by
    rw [hnames, List.nodup_map_iff (injective_nestedName parent)]
  exact ⟨body, rfl, hnames, hiff, fun hfields => hiff.mpr (nodup_definingFields hfields)⟩

/-- `struct { int x; }` and a field of its type. -/
def memberNodes (name : Option String) : List Ast.Node :=
  [Decl.pairNode, .mk (.field none name "struct (unnamed struct at a.h:1:1)" false) []]

def memberField (name : String) : Field :=
  ⟨name, .record .struct none, some Decl.pairRecord⟩

/-- `struct Mixed { struct { int x; } name; struct { int x; }; };`. -/
def mixedNode (name : String) : Ast.Node :=
  .mk (.record none (some "Mixed") (some "struct") true)
    (memberNodes (some name) ++ memberNodes none)

def mixedRecord (name : String) : Record :=
  ⟨some "Mixed", .struct, true, [memberField name, memberField "Anonymous"]⟩

theorem recordOf?_mixedNode {name : String} (h : name ≠ "") :
    recordOf? (mixedNode name) = some (mixedRecord name) := by
  have hint : Decl.parseType "int" = .ok (.primitive .int) :=
    Decl.parseType_of_print (by decide +kernel) (by decide +kernel)
  have hrecord : Decl.parseType "struct (unnamed struct at a.h:1:1)" =
      .ok (.record .struct none) :=
    Decl.parseType_of_print (by decide +kernel) (by decide +kernel)
  have hown : (some name).filter (· ≠ "") = some name := by simp [h]
  have hname : fieldName (some name) 0 = name := by
    rw [Decl.fieldName_eq_filled, hown]
    rfl
  have hunnamed : Decl.isUnnamed (some name) = false := by
    rw [Decl.isUnnamed, hown]
    rfl
  refine Decl.recordOf?_eq_some.mpr ⟨none, some "Mixed", some "struct", true, rfl, ?_⟩
  simp only [mixedNode, memberNodes, Decl.pairNode, Decl.recordOf, Decl.fieldsOf, Ast.Node.kind,
    List.cons_append, List.nil_append, hint, hrecord, hname, hunnamed]
  rfl

def mixedMapper (name : String) : TypeMapper :=
  mapperOf Config.standard (collected [.record (mixedRecord name)])

/-- The names of the structs in the struct of the record. -/
def mixedStructs (name : String) : List String :=
  match (structSteps Config.standard (mixedMapper name) "Mixed" (mixedRecord name)).value with
  | .ok [.block _ body] => structNames Config.standard body
  | _ => []

/-- One field without a name does not get the name that the second one would. -/
theorem fieldNames_nodup_iff_second :
    recordOf? (mixedNode "Anonymous2") = some (mixedRecord "Anonymous2") ∧
      RecordNodeIn (mixedNode "Anonymous2") (mixedNode "Anonymous2") ∧
      ((mixedRecord "Anonymous2").fields.map Field.name).Nodup ∧
      mixedStructs "Anonymous2" = ["Mixed_Anonymous2", "Mixed_Anonymous"] := by
  have hrecord : recordOf? (mixedNode "Anonymous2") = some (mixedRecord "Anonymous2") :=
    recordOf?_mixedNode (by decide)
  obtain ⟨definition, hdefinition, hnodup, _⟩ := fieldNames_nodup_iff hrecord .self
  obtain rfl := Option.some.inj (hdefinition.symm.trans hrecord)
  exact ⟨hrecord, .self, hnodup.mpr (by decide), by decide +kernel⟩

/-- A field without a name gets the name of another one, and so does its struct. -/
theorem not_nodup_fieldNames_mixed :
    recordOf? (mixedNode "Anonymous") = some (mixedRecord "Anonymous") ∧
      (ownFieldNames (mixedNode "Anonymous")).Nodup ∧
      ¬ ((mixedRecord "Anonymous").fields.map Field.name).Nodup ∧
      mixedStructs "Anonymous" = ["Mixed_Anonymous", "Mixed_Anonymous"] :=
  ⟨recordOf?_mixedNode (by decide), by decide, by decide, by decide +kernel⟩

end Emit

end HeaderInterop
