import HeaderInterop.Proofs.Decl.EnumValues
import HeaderInterop.Proofs.Decl.TakenNames

/-!
Numbers of enum constants. Each constant continues the count from the last one, itself included,
that records a value, or from the start. One constant whose record is no number takes the whole enum
with it, and nothing else.
-/

namespace HeaderInterop

namespace Ast.Node

def isEnumConstant (node : Node) : Bool :=
  match node.kind with
  | .enumConstant .. => true
  | _ => false

theorem isEnumConstant_iff {node : Node} :
    node.isEnumConstant = true ↔ ∃ file name type, node.kind = .enumConstant file name type := by
  unfold isEnumConstant
  cases node.kind <;> simp

end Ast.Node

namespace Decl

open Ast (Node NodeKind)

/-! What a constant records -/

/-- The first literal among the children is one of the record. -/
def FirstLiteral (children : List Node) (recorded : Option String) : Prop :=
  ∃ before literal after, children = before ++ literal :: after ∧
    (literal.kind = .constantExpr recorded ∨ literal.kind = .integerLiteral recorded) ∧
    ∀ child ∈ before, child.isLiteral = false

/-- No child of the constant is a literal. -/
def IsImplicit (children : List Node) : Prop :=
  ∀ child ∈ children, child.isLiteral = false

/-- The first literal has the number, which is a 128-bit one. -/
def Records (children : List Node) (value : Int) : Prop :=
  ∃ text, FirstLiteral children (some text) ∧
    Text.signed? Text.minInt128 Text.maxInt128 text.toList = some value

/-- The first literal has no value, or a text that is no number of 128 bits. -/
def IsUnusable (children : List Node) : Prop :=
  ∃ recorded, FirstLiteral children recorded ∧ ∀ text, recorded = some text →
    Text.signed? Text.minInt128 Text.maxInt128 text.toList = none

theorem recordedValue?_eq_some_iff {children : List Node} {recorded : Option String} :
    recordedValue? children = some recorded ↔ FirstLiteral children recorded := by
  unfold recordedValue? FirstLiteral
  rw [List.findSome?_eq_some_iff]
  refine exists₃_congr fun before literal after => and_congr_right' (and_congr ?_ ?_)
  · obtain ⟨kind, inner⟩ := literal
    cases kind <;> simp [Node.kind]
  · refine forall₂_congr fun child _ => ?_
    obtain ⟨kind, inner⟩ := child
    cases kind <;> simp [Node.kind, Node.isLiteral]

theorem recordedValue?_eq_none_iff {children : List Node} :
    recordedValue? children = none ↔ IsImplicit children := by
  induction children with
  | nil => simp [recordedValue?, IsImplicit]
  | cons node rest ih =>
    rw [recordedValue?_cons, IsImplicit, List.forall_mem_cons]
    by_cases hnode : node.isLiteral = true
    · simp [hnode]
    · rw [if_neg hnode, ih]
      simp [hnode, IsImplicit]

theorem reading_eq_number_iff {children : List Node} {value : Int} :
    reading (recordedValue? children) = some (some value) ↔ Records children value := by
  simp only [reading, Records, Option.map_eq_some_iff, Option.bind_eq_some_iff,
    recordedValue?_eq_some_iff]
  constructor
  · rintro ⟨_, hfirst, text, rfl, hvalue⟩
    exact ⟨text, hfirst, hvalue⟩
  · rintro ⟨text, hfirst, hvalue⟩
    exact ⟨some text, hfirst, text, rfl, hvalue⟩

theorem reading_eq_unusable_iff {children : List Node} :
    reading (recordedValue? children) = some none ↔ IsUnusable children := by
  simp only [reading, IsUnusable, Option.map_eq_some_iff, Option.bind_eq_none_iff,
    recordedValue?_eq_some_iff]

/-! Places among the constants -/

/-- The number of the constant at the place: it is counted from the last constant up to this one
that records a value, and from the first constant when none does. -/
inductive HasNumber (first : Int) (constants : List Node) (place : Nat) (value : Int) : Prop where
  | since {last : Nat} {node : Node} {recorded : Int} (le : last ≤ place)
      (found : constants[last]? = some node) (records : Records node.inner recorded)
      (silent : ∀ between node, constants[between]? = some node →
        last < between → between ≤ place → IsImplicit node.inner)
      (counted : value = recorded + (place - last : Nat))
  | unbroken (silent : ∀ before node, constants[before]? = some node →
        before ≤ place → IsImplicit node.inner)
      (counted : value = first + place)

/-- The constant has the number that it records, or the one that is due. -/
def IsDue (first : Int) (children : List Node) (value : Int) : Prop :=
  (IsImplicit children ∧ value = first) ∨ Records children value

theorem isDue_iff {first value : Int} {children : List Node} :
    IsDue first children value ↔ (recordedValue? children = none ∧ value = first) ∨
      reading (recordedValue? children) = some (some value) := by
  rw [recordedValue?_eq_none_iff, reading_eq_number_iff, IsDue]

theorem IsDue.not_isUnusable {first value : Int} {children : List Node}
    (h : IsDue first children value) : ¬ IsUnusable children := by
  rw [← reading_eq_unusable_iff]
  rcases isDue_iff.mp h with ⟨hnone, -⟩ | hread
  · rw [reading_eq_none.mpr hnone]
    simp
  · rw [hread]
    simp

theorem IsDue.hasNumber {first value : Int} {node : Node} (h : IsDue first node.inner value)
    (rest : List Node) : HasNumber first (node :: rest) 0 value := by
  rcases h with ⟨himplicit, rfl⟩ | hrecords
  · refine .unbroken (forall_getElem?_cons.mpr ⟨fun _ => himplicit, ?_⟩) (by simp)
    omega
  · refine .since (Nat.le_refl 0) rfl hrecords ?_ (by simp)
    omega

/-- The count goes on behind a constant, from the number that it has. -/
theorem HasNumber.cons {first due value : Int} {node : Node} {rest : List Node} {place : Nat}
    (h : HasNumber (due + 1) rest place value) (head : IsDue first node.inner due) :
    HasNumber first (node :: rest) (place + 1) value := by
  cases h with
  | @since last found recorded hle hfound hrecords hsilent hcounted =>
    refine .since (Nat.add_le_add_right hle 1) hfound hrecords ?_ ?_
    · refine forall_getElem?_cons.mpr ⟨by omega, ?_⟩
      intro between other hother hlow hhigh
      exact hsilent between other hother (by omega) (by omega)
    · rwa [Nat.add_sub_add_right]
  | unbroken hsilent hcounted =>
    have hrest : ∀ before other, rest[before]? = some other → before + 1 ≤ place + 1 →
        IsImplicit other.inner := fun before other hother hbefore =>
      hsilent before other hother (Nat.le_of_add_le_add_right hbefore)
    -- Nothing behind the constant records a value, so the count is from it or from the start.
    rcases head with ⟨himplicit, rfl⟩ | hrecords
    · refine .unbroken (forall_getElem?_cons.mpr ⟨fun _ => himplicit, hrest⟩) ?_
      omega
    · refine .since (Nat.zero_le _) rfl hrecords (forall_getElem?_cons.mpr ⟨by omega, ?_⟩) ?_
      · exact fun before other hother _ hbefore => hrest before other hother hbefore
      · omega

/-! The numbers of an enum that converts -/

def enumConstants (nodes : List Node) : List Node :=
  nodes.filter (·.isEnumConstant)

theorem enumConstants_skip {node : Node} {rest : List Node}
    (h : ∀ file name type, node.kind ≠ .enumConstant file name type) :
    enumConstants (node :: rest) = enumConstants rest := by
  refine List.filter_cons_of_neg fun hnode => ?_
  obtain ⟨file, name, type, hkind⟩ := Node.isEnumConstant_iff.mp hnode
  exact h file name type hkind

/-- The constants of the nodes in order, with their names and with numbers that begin at `first`. -/
structure IsNumbered (first : Int) (nodes : List Node) (constants : List EnumConstant) : Prop where
  names : constants.map (some ·.name) = nodes.map (·.kind.name?)
  number : ∀ place constant, constants[place]? = some constant →
    HasNumber first nodes place constant.value

theorem IsNumbered.cons {first : Int} {node : Node} {rest : List Node} {constant : EnumConstant}
    {constants : List EnumConstant} (h : IsNumbered (constant.value + 1) rest constants)
    (hname : node.kind.name? = some constant.name)
    (head : IsDue first node.inner constant.value) :
    IsNumbered first (node :: rest) (constant :: constants) where
  names := by rw [List.map_cons, List.map_cons, h.names, hname]
  number := forall_getElem?_cons.mpr ⟨head.hasNumber rest,
    fun place other hother => (h.number place other hother).cons head⟩

theorem Numbered.isNumbered {next : Int} {nodes : List Node} {constants : List EnumConstant}
    (h : Numbered recordedValue? next nodes constants) :
    IsNumbered next (enumConstants nodes) constants := by
  induction h with
  | nil => exact ⟨rfl, fun place constant hplace => by cases hplace⟩
  | skip head tail ih => rwa [enumConstants_skip head]
  | implicit head tail ih => exact ih.cons rfl (isDue_iff.mpr (Or.inl ⟨head, rfl⟩))
  | explicit head tail ih => exact ih.cons rfl (isDue_iff.mpr (Or.inr head))

theorem Numbered.not_isUnusable {next : Int} {nodes : List Node} {constants : List EnumConstant}
    (h : Numbered recordedValue? next nodes constants) :
    ∀ node ∈ enumConstants nodes, ¬ IsUnusable node.inner := by
  induction h with
  | nil => exact List.forall_mem_nil _
  | skip head tail ih => rwa [enumConstants_skip head]
  | @implicit next file name type children rest constants head tail ih =>
    have hdue : IsDue next children next := isDue_iff.mpr (Or.inl ⟨head, rfl⟩)
    exact List.forall_mem_cons.mpr ⟨hdue.not_isUnusable, ih⟩
  | @explicit next file name type children rest value constants head tail ih =>
    have hdue : IsDue next children value := isDue_iff.mpr (Or.inr head)
    exact List.forall_mem_cons.mpr ⟨hdue.not_isUnusable, ih⟩

theorem Numbered.unique {next : Int} {nodes : List Node} {constants others : List EnumConstant}
    (h : Numbered recordedValue? next nodes constants)
    (hothers : Numbered recordedValue? next nodes others) : constants = others :=
  Except.ok.inj ((constantsOf_eq_ok_iff.mpr h).symm.trans (constantsOf_eq_ok_iff.mpr hothers))

theorem exists_numbered {nodes : List Node}
    (h : ∀ node ∈ enumConstants nodes, ¬ IsUnusable node.inner) (next : Int) :
    ∃ constants, Numbered recordedValue? next nodes constants := by
  induction nodes generalizing next with
  | nil => exact ⟨[], .nil⟩
  | cons node rest ih =>
    obtain ⟨kind, children⟩ := node
    by_cases hnode : ∃ file name type, kind = .enumConstant file name type
    · obtain ⟨file, name, type, rfl⟩ := hnode
      rw [enumConstants, List.filter_cons_of_pos rfl, List.forall_mem_cons] at h
      cases hreading : reading (recordedValue? children) with
      | none =>
        obtain ⟨constants, htail⟩ := ih h.2 (next + 1)
        exact ⟨_, .implicit (reading_eq_none.mp hreading) htail⟩
      | some number =>
        cases number with
        | none => exact absurd (reading_eq_unusable_iff.mp hreading) h.1
        | some value =>
          obtain ⟨constants, htail⟩ := ih h.2 (value + 1)
          exact ⟨_, .explicit hreading htail⟩
    · have hskip (file : Option Path) (name type : String) :
          (Node.mk kind children).kind ≠ .enumConstant file name type :=
        fun hkind => hnode ⟨file, name, type, hkind⟩
      rw [enumConstants_skip hskip] at h
      obtain ⟨constants, htail⟩ := ih h next
      exact ⟨constants, .skip hskip htail⟩

/-! Declarations of enums -/

/-- The type that the header fixes, if it fixes one. -/
def IsFixedType : Option String → Option CType → Prop
  | none, underlying => underlying = none
  | some text, underlying => ∃ type, parseType text = .ok type ∧ underlying = some type

theorem enumOf_eq_ok_iff {name fixedType : Option String} {nodes : List Node}
    {enum : Enumeration} :
    enumOf name fixedType nodes = .ok enum ↔
      ∃ underlying, IsFixedType fixedType underlying ∧
        ∃ constants, Numbered recordedValue? 0 nodes constants ∧
          ⟨name, underlying, constants⟩ = enum := by
  simp only [← constantsOf_eq_ok_iff]
  unfold enumOf
  cases fixedType with
  | none => simp only [except_bind_eq_ok, except_pure_eq_ok, IsFixedType, @eq_comm _ _ none]
  | some text =>
    simp only [except_bind_eq_ok, except_pure_eq_ok, except_map_eq_ok, IsFixedType,
      @eq_comm _ _ (some _)]

theorem declared?_enum_iff {file : Option Path} {name fixedType : Option String}
    {nodes : List Node} {decl : Decl} :
    declared? (.mk (.enum file name fixedType) nodes) = some decl ↔
      ∃ enum, enumOf name fixedType nodes = .ok enum ∧ decl = .enum enum := by
  rw [declared?_eq_some]
  change (enumOf name fixedType nodes).map (fun enum => some (Decl.enum enum)) = .ok (some decl) ↔ _
  simp only [except_map_eq_ok, Option.some.injEq, @eq_comm _ decl]

/-- Nothing is left of the node wherever it stands, and an enum behind it is read, with all that
follows, as if the nodes in front of that enum were not there. -/
structure IsPassedOver (node : Node) : Prop where
  nothing : declared? node = none
  absent : ∀ keep front rest,
    (Header.extract keep (front ++ node :: rest)).value =
      (Header.extract keep (front ++ rest)).value
  later : ∀ keep front between behind rest enum, keep behind = true →
    declared? behind = some (.enum enum) → ∃ given tail,
      (Header.extract keep (behind :: rest)).value =
          .enum { enum with name := enum.name.or given } :: tail ∧
        (Header.extract keep (front ++ node :: between ++ behind :: rest)).value =
          (Header.extract keep (front ++ between)).value ++
            .enum { enum with name := enum.name.or given } :: tail

theorem extract_value (keep : Node → Bool) (nodes : List Node) :
    (Header.extract keep nodes).value = nameTags ((nodes.filter keep).filterMap declared?) := by
  rw [Header.extract, ofNodes_value]

theorem extract_append_cons_none {node : Node} (h : declared? node = none) (keep : Node → Bool)
    (front rest : List Node) :
    (Header.extract keep (front ++ node :: rest)).value =
      (Header.extract keep (front ++ rest)).value := by
  have hnode : ((node :: rest).filter keep).filterMap declared? =
      (rest.filter keep).filterMap declared? := by
    by_cases hkeep : keep node = true
    · rw [List.filter_cons_of_pos hkeep, List.filterMap_cons_none h]
    · rw [List.filter_cons_of_neg hkeep]
  rw [extract_value, extract_value, List.filter_append, List.filter_append, List.filterMap_append,
    List.filterMap_append, hnode]

/-- Naming changes nothing of an enum but an absent name. -/
theorem exists_nameTags_enum (enum : Enumeration) (decls : List Decl) :
    ∃ given tail, nameTags (.enum enum :: decls) =
      .enum { enum with name := enum.name.or given } :: tail := by
  cases decls with
  | nil => exact ⟨none, [], by rw [nameTags_singleton, Option.or_none]⟩
  | cons next rest =>
    by_cases htypedef : ∃ naming, next = .typedef naming
    · obtain ⟨naming, rfl⟩ := htypedef
      rw [nameTags_pair, namePair]
      split
      next hpair =>
        have hnone := Option.isNone_iff_eq_none.mp (Bool.and_eq_true_iff.mp hpair).1
        exact ⟨some naming.name, _, by rw [hnone, Option.none_or]⟩
      next => exact ⟨none, _, by rw [Option.or_none]⟩
    · rw [nameTags_cons rest fun naming hnaming => htypedef ⟨naming, hnaming⟩]
      exact ⟨none, _, by rw [Option.or_none]⟩

theorem isPassedOver_of_declared? {node : Node} (h : declared? node = none) :
    IsPassedOver node where
  nothing := h
  absent := extract_append_cons_none h
  later := by
    intro keep front between behind rest enum hkeep hbehind
    obtain ⟨given, tail, hhead⟩ :=
      exists_nameTags_enum enum ((rest.filter keep).filterMap declared?)
    have htag : (Decl.enum enum).tag? = some (.enum, enum.name) := rfl
    have hrest : ((behind :: rest).filter keep).filterMap declared? =
        .enum enum :: (rest.filter keep).filterMap declared? := by
      rw [List.filter_cons_of_pos hkeep, List.filterMap_cons_some hbehind]
    refine ⟨given, tail, ?_, ?_⟩
    · rw [extract_value, hrest, hhead]
    · rw [List.append_assoc, List.cons_append, extract_append_cons_none h, ← List.append_assoc,
        extract_value, extract_value, List.filter_append, List.filterMap_append, hrest,
        nameTags_append_tag htag, hhead]

/-- An enum none of whose constants is unusable converts, unless its fixed type cannot be parsed,
and its constants have their numbers. One with an unusable constant is passed over. -/
theorem declared?_enum_isNumbered (file : Option Path) (name fixedType : Option String)
    (nodes : List Node) :
    ((∀ node ∈ enumConstants nodes, ¬ IsUnusable node.inner) →
      ∃ constants, IsNumbered 0 (enumConstants nodes) constants ∧
        ((∀ constant ∈ constants, constant.value ≠ Text.maxInt128) → ∀ constant ∈ constants,
          Text.minInt128 ≤ constant.value ∧ constant.value + 1 ≤ Text.maxInt128) ∧
        ∀ decl, declared? (.mk (.enum file name fixedType) nodes) = some decl ↔
          ∃ underlying, IsFixedType fixedType underlying ∧
            decl = .enum ⟨name, underlying, constants⟩) ∧
    ((∃ node ∈ enumConstants nodes, IsUnusable node.inner) →
      IsPassedOver (.mk (.enum file name fixedType) nodes)) := by
  constructor
  · intro husable
    obtain ⟨constants, hnumbered⟩ := exists_numbered husable 0
    refine ⟨constants, hnumbered.isNumbered, hnumbered.succ_le_maxInt128 (by decide), ?_⟩
    intro decl
    rw [declared?_enum_iff]
    constructor
    · rintro ⟨enum, henum, rfl⟩
      obtain ⟨underlying, hfixed, found, hfound, rfl⟩ := enumOf_eq_ok_iff.mp henum
      obtain rfl : found = constants := hfound.unique hnumbered
      exact ⟨underlying, hfixed, rfl⟩
    · rintro ⟨underlying, hfixed, rfl⟩
      exact ⟨_, enumOf_eq_ok_iff.mpr ⟨underlying, hfixed, constants, hnumbered, rfl⟩, rfl⟩
  · rintro ⟨node, hnode, hunusable⟩
    refine isPassedOver_of_declared? (Option.eq_none_iff_forall_ne_some.mpr fun decl hdecl => ?_)
    obtain ⟨enum, henum, -⟩ := declared?_enum_iff.mp hdecl
    exact (enumOf_constants henum).not_isUnusable node hnode hunusable

/-- A documented constant, an explicit one and the one after it, which is wrapped. -/
def flashConstants : List Node :=
  [.mk (.enumConstant none "CANCEL" "int") [.mk (.other (some "FullComment")) []],
    .mk (.other (some "FullComment")) [],
    .mk (.enumConstant none "MINUS" "int") [.mk (.constantExpr (some "-4")) []],
    .mk (.enumConstant none "NEXT" "int")
      [.mk (.other (some "ImplicitCastExpr")) [.mk (.integerLiteral (some "9")) []]]]

/-- The second constant is beyond 128 bits. -/
def tooLargeConstants : List Node :=
  [.mk (.enumConstant none "FIRST" "int") [],
    .mk (.enumConstant none "LARGE" "int")
      [.mk (.constantExpr (some "170141183460469231731687303715884105728")) []]]

theorem declared?_enum_isNumbered_flash :
    IsNumbered 0 (enumConstants flashConstants) [⟨"CANCEL", 0⟩, ⟨"MINUS", -4⟩, ⟨"NEXT", -3⟩] ∧
      declared? (.mk (.enum none (some "Flash") none) flashConstants) =
        some (.enum ⟨some "Flash", none, [⟨"CANCEL", 0⟩, ⟨"MINUS", -4⟩, ⟨"NEXT", -3⟩]⟩) ∧
      IsPassedOver (.mk (.enum none none none) tooLargeConstants) := by
  have husable : ∀ node ∈ enumConstants flashConstants, ¬ IsUnusable node.inner := by
    simp only [← reading_eq_unusable_iff]
    decide
  have hunusable : ∃ node ∈ enumConstants tooLargeConstants, IsUnusable node.inner := by
    simp only [← reading_eq_unusable_iff]
    decide
  have hdeclared : declared? (.mk (.enum none (some "Flash") none) flashConstants) =
      some (.enum ⟨some "Flash", none, [⟨"CANCEL", 0⟩, ⟨"MINUS", -4⟩, ⟨"NEXT", -3⟩]⟩) := rfl
  obtain ⟨constants, hnumbered, -, hdecls⟩ :=
    (declared?_enum_isNumbered none (some "Flash") none flashConstants).1 husable
  obtain ⟨underlying, -, henum⟩ := (hdecls _).mp hdeclared
  cases henum
  exact ⟨hnumbered, hdeclared,
    (declared?_enum_isNumbered none none none tooLargeConstants).2 hunusable⟩

end Decl

end HeaderInterop
