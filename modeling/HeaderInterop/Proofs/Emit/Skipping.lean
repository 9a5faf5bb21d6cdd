import HeaderInterop.Config.Default
import HeaderInterop.Proofs.Collection.Selection
import HeaderInterop.Proofs.Emit.Declared
import HeaderInterop.Proofs.TypeMap.References

/-!
Skipped records. Whether a record is skipped is decided from its own fields, and every other type is
mapped by its tag alone. So the name of a skipped record is in what is emitted exactly when some
record or function that can be declared refers to it: an inline record takes the one around it with
it, but a record that is used by its tag does not.
-/

namespace HeaderInterop.Emit

open TypeMapper (Refers)

def mapperOf (config : Config) (collection : Collection) : TypeMapper :=
  { settings := config.types, registry := collection.registry }

/-- A record of the collection that is left out, since something in it cannot be declared. -/
def Skips (config : Config) (collection : Collection) (name : String) : Prop :=
  ∃ record fault, (name, record) ∈ collection.records.entries ∧
    (structSteps config (mapperOf config collection) name record).value = .error fault

/-- The managed type is in what is emitted: a field of a struct, at any depth, or an element of one,
is declared with it, or a parameter of a function or what it returns. -/
inductive EmitsType (config : Config) (collection : Collection) : String → Prop where
  | field {name record steps extents type managed}
      (hrecord : (name, record) ∈ collection.records.entries)
      (hemitted : (structSteps config (mapperOf config collection) name record).value = .ok steps)
      (hdeclares : Declares name record.fields extents type)
      (hmap : (mapperOf config collection).map type = some managed) :
      EmitsType config collection managed
  | signature {name function lines type managed}
      (hfunction : (name, function) ∈ collection.functions.entries)
      (hemitted : signature? (mapperOf config collection) function = some lines)
      (htype : type ∈ signatureTypes function)
      (hmap : (mapperOf config collection).map type = some managed) :
      EmitsType config collection managed

/-- No managed type in what is emitted has the name of a skipped record in it. -/
def SkippingIsClosed (config : Config) (collection : Collection) : Prop :=
  ∀ name, Skips config collection name →
    ∀ managed, EmitsType config collection managed → ¬ Names name managed

/-- No record that is laid out and no function with managed types refers to the name. -/
structure Unreferenced (mapper : TypeMapper) (collection : Collection) (name : String) : Prop where
  fields {other : String} {record : Record} (hrecord : (other, record) ∈ collection.records.entries)
    (hlaid : IsLaidOut mapper other record.fields) {extents : List Nat} {type : CType}
    (hdeclares : Declares other record.fields extents type) : ¬ Refers mapper name type
  signatures {other : String} {function : Prototype}
    (hfunction : (other, function) ∈ collection.functions.entries)
    (hmapped : ∀ type ∈ signatureTypes function, (mapper.map type).isSome = true) {type : CType}
    (htype : type ∈ signatureTypes function) : ¬ Refers mapper name type

variable {config : Config} {collection : Collection}

theorem skips_iff {name : String} :
    Skips config collection name ↔
      ∃ record, (name, record) ∈ collection.records.entries ∧
        ¬ IsLaidOut (mapperOf config collection) name record.fields := by
  constructor
  · rintro ⟨record, fault, hrecord, hfault⟩
    refine ⟨record, hrecord, fun hlaid => ?_⟩
    have hok := (isOk_structSteps config name record).mpr hlaid
    rw [hfault] at hok
    cases hok
  · rintro ⟨record, hrecord, hnot⟩
    cases hsteps : (structSteps config (mapperOf config collection) name record).value with
    | error fault => exact ⟨record, fault, hrecord, hsteps⟩
    | ok steps =>
      have hok : (structSteps config (mapperOf config collection) name record).value.isOk = true :=
        except_isOk_iff.mpr ⟨steps, hsteps⟩
      exact absurd ((isOk_structSteps config name record).mp hok) hnot

/-- Without cycles of typedefs, nothing that is emitted names a skipped record if, and only if,
nothing that can be declared refers to a record with a part that cannot. -/
theorem skippingIsClosed_iff (config : Config) (collection : Collection)
    (hacyclic : collection.registry.Acyclic) :
    SkippingIsClosed config collection ↔
      ∀ name record, (name, record) ∈ collection.records.entries →
        ¬ IsLaidOut (mapperOf config collection) name record.fields →
        Unreferenced (mapperOf config collection) collection name := by
  have hnames {name managed : String} {type : CType}
      (hmap : (mapperOf config collection).map type = some managed) :
      Names name managed ↔ Refers (mapperOf config collection) name type :=
    TypeMapper.names_map_iff hacyclic hmap
  constructor
  · intro hclosed name record hrecord hnot
    have hunnamed := hclosed name (skips_iff.mpr ⟨record, hrecord, hnot⟩)
    constructor
    · intro other struct hstruct hlaid extents type hdeclares hrefers
      obtain ⟨steps, hsteps⟩ :=
        except_isOk_iff.mp ((isOk_structSteps config other struct).mpr hlaid)
      obtain ⟨managed, hmap⟩ := Option.isSome_iff_exists.mp (hlaid extents type hdeclares).1
      exact hunnamed managed (.field hstruct hsteps hdeclares hmap) ((hnames hmap).mpr hrefers)
    · intro other function hfunction hmapped type htype hrefers
      obtain ⟨lines, hlines⟩ :=
        Option.isSome_iff_exists.mp ((isSome_signature? function).mpr hmapped)
      obtain ⟨managed, hmap⟩ := Option.isSome_iff_exists.mp (hmapped type htype)
      exact hunnamed managed (.signature hfunction hlines htype hmap) ((hnames hmap).mpr hrefers)
  · intro hall name hskips managed hemits hnamed
    obtain ⟨record, hrecord, hnot⟩ := skips_iff.mp hskips
    have hunreferenced := hall name record hrecord hnot
    cases hemits with
    | @field other struct steps extents type _ hstruct hsteps hdeclares hmap =>
      have hlaid := (isOk_structSteps config other struct).mp (except_isOk_iff.mpr ⟨steps, hsteps⟩)
      exact hunreferenced.fields hstruct hlaid hdeclares ((hnames hmap).mp hnamed)
    | @signature other function lines type _ hfunction hlines htype hmap =>
      have hmapped := (isSome_signature? function).mp (Option.isSome_iff_exists.mpr ⟨lines, hlines⟩)
      exact hunreferenced.signatures hfunction hmapped htype ((hnames hmap).mp hnamed)

/-- The collection of one header with these declarations. -/
def collected (decls : List Decl) : Collection :=
  (Collection.ofHeaders Config.standard.collect
    [{ path := "/include/a.h", macros := [], decls, included := [] }]).value

/-- `struct Bad { long double x; };`. -/
def badRecord : Record :=
  ⟨some "Bad", .struct, true, [⟨"x", .primitive .longDouble, none⟩]⟩

/-- `struct Good { struct Bad bad; };`. -/
def goodRecord : Record :=
  ⟨some "Good", .struct, true, [⟨"bad", .record .struct (some "Bad"), none⟩]⟩

/-- A function `f` that takes one argument. -/
def takes (param : CType) : Prototype where
  name := "f"
  ret := .primitive .void
  params := [⟨some "bad", param⟩]
  variadic := false
  isStatic := false
  isInline := false

def danglingCollection : Collection :=
  collected
    [.record badRecord, .record goodRecord, .function (takes (.record .struct (some "Bad")))]

theorem collected_acyclic (decls : List Decl) (h : (collected decls).registry.typedefs = []) :
    (collected decls).registry.Acyclic :=
  Registry.acyclic_of_pairwise (by simp [h]) (by simp [h])

theorem not_isLaidOut_badRecord (mapper : TypeMapper) :
    ¬ IsLaidOut mapper "Bad" badRecord.fields := by
  intro hlaid
  have hdeclares : Declares "Bad" badRecord.fields [] (.primitive .longDouble) :=
    .field (List.mem_singleton_self _) rfl
  cases (hlaid [] _ hdeclares).1

theorem skippingIsClosed_iff_takes :
    SkippingIsClosed Config.standard
      (collected [.record badRecord, .function (takes (.primitive .int))]) := by
  refine (skippingIsClosed_iff Config.standard _ (collected_acyclic _ rfl)).mpr ?_
  intro name record _ _
  constructor
  · intro other struct hstruct hlaid
    obtain ⟨rfl, rfl⟩ := Prod.mk.inj (List.mem_singleton.mp hstruct)
    exact absurd hlaid (not_isLaidOut_badRecord _)
  · intro other function hfunction _ type htype hrefers
    obtain ⟨rfl, rfl⟩ := Prod.mk.inj (List.mem_singleton.mp hfunction)
    rcases List.mem_cons.mp htype with rfl | htype
    · cases hrefers
    · obtain rfl := List.mem_singleton.mp htype
      cases hrefers

/-- A record is skipped, and a struct with a field of it and a function that takes one are not. -/
theorem not_skippingIsClosed_dangling :
    Skips Config.standard danglingCollection "Bad" ∧
      (structSteps Config.standard (mapperOf Config.standard danglingCollection) "Good"
          goodRecord).value = .ok [.block "public partial struct Good" [.line "public Bad bad;"]] ∧
      signature? (mapperOf Config.standard danglingCollection)
          (takes (.record .struct (some "Bad"))) = some ["public static extern void f(Bad bad);"] ∧
      ¬ SkippingIsClosed Config.standard danglingCollection := by
  have hskips : Skips Config.standard danglingCollection "Bad" :=
    ⟨badRecord, ⟨"Bad.x"⟩, List.mem_cons_self .., rfl⟩
  refine ⟨hskips, rfl, rfl, fun hclosed => ?_⟩
  have hgood : ("Good", goodRecord) ∈ danglingCollection.records.entries :=
    List.mem_cons_of_mem _ (List.mem_singleton_self _)
  have hemits : EmitsType Config.standard danglingCollection "Bad" :=
    .field hgood rfl (.field (List.mem_singleton_self _) rfl) rfl
  exact hclosed "Bad" hskips "Bad" hemits (by decide)

end HeaderInterop.Emit
