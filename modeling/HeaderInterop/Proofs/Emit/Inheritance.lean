import HeaderInterop.Proofs.Code.Lines
import HeaderInterop.Proofs.Constant.Inherited
import HeaderInterop.Proofs.Emit.Traces
import Mathlib.Logic.Relation

/-!
Constants that take their declaration from others. The table of known constants is what has been
written so far, the latest first. So a constant takes its declaration from one that stands in front
of it in the file, the way back from constant to constant ends, and what is written stays as it is
when the list of macros goes on.
-/

namespace HeaderInterop

namespace Emit

open Code (Step textAt)

/-- A constant in the file, with the macro that it is made of. -/
structure Emitted where
  name : String
  definition : Macro
  constant : Constant
deriving DecidableEq, Repr

namespace Emitted

/-- The name and the macro as they stand in the list that is gone through. -/
def entry (emitted : Emitted) : String × Macro :=
  (emitted.name, emitted.definition)

/-- The constant as the ones behind it know it. -/
def known (emitted : Emitted) : String × Constant :=
  (emitted.name, emitted.constant)

def lines (emitted : Emitted) : List Step :=
  constantLines emitted.name emitted.constant

/-- The lines of the constant in the class. -/
def text (emitted : Emitted) : String :=
  textAt 1 emitted.lines

/-- The first identifier of the macro's tokens. -/
def referred? (emitted : Emitted) : Option String :=
  emitted.definition.tokens.find? Constant.isIdentifierToken

/-- The text of a constant has its declaration in one piece. -/
theorem declaration_infix_text (emitted : Emitted) :
    (emitted.constant.declaration emitted.name).toList <:+: emitted.text.toList := by
  have hline : Code.LineIn (emitted.constant.declaration emitted.name) emitted.lines :=
    .line (List.mem_cons_of_mem _ (List.mem_singleton_self _))
  exact hline.infix_textAt 1

/-- The name stands in front of the sign, whatever the kind of the constant. -/
theorem exists_declaration_eq (emitted : Emitted) :
    ∃ front value, emitted.constant.declaration emitted.name =
      front ++ (" " ++ emitted.name ++ " =") ++ value := by
  have hsign : " = " = " =" ++ " " := rfl
  have harrow : " => " = " =" ++ "> " := rfl
  have hspan : "public static ReadOnlySpan<byte> " = "public static ReadOnlySpan<byte>" ++ " " := rfl
  cases emitted.constant with
  | const type value =>
    refine ⟨"public const " ++ type, " " ++ value ++ ";", ?_⟩
    dsimp only [Constant.declaration]
    rw [hsign]
    simp only [String.append_assoc]
  | readonly type value =>
    refine ⟨"public static readonly " ++ type, " " ++ value ++ ";", ?_⟩
    dsimp only [Constant.declaration]
    rw [hsign]
    simp only [String.append_assoc]
  | utf8 value =>
    refine ⟨"public static ReadOnlySpan<byte>", "> " ++ value ++ ";", ?_⟩
    dsimp only [Constant.declaration]
    rw [harrow, hspan]
    simp only [String.append_assoc]

/-- The text of a constant declares its name. -/
theorem name_infix_text (emitted : Emitted) :
    (" " ++ emitted.name ++ " =").toList <:+: emitted.text.toList := by
  obtain ⟨front, value, hdeclaration⟩ := emitted.exists_declaration_eq
  have hparts : (emitted.constant.declaration emitted.name).toList =
      front.toList ++ (" " ++ emitted.name ++ " =").toList ++ value.toList := by
    rw [hdeclaration, String.toList_append, String.toList_append]
  have hname : (" " ++ emitted.name ++ " =").toList <:+:
      (emitted.constant.declaration emitted.name).toList := by
    rw [hparts]
    exact List.infix_append _ _ _
  exact hname.trans emitted.declaration_infix_text

end Emitted

variable {config : Config} {settings : ConstantSettings} {mapper : TypeMapper}

/-- The constants that are written, in order. -/
def emitted (config : Config) (mapper : TypeMapper) (known : Constant.Known) :
    List (String × Macro) → List Emitted
  | [] => []
  | (name, m) :: rest =>
    match (Constant.ofMacro? config.constants mapper known m).value with
    | some constant =>
      ⟨name, m, constant⟩ :: emitted config mapper ((name, constant) :: known) rest
    | none => emitted config mapper known rest

/-- What is known behind constants. -/
def knownOf (front : List Emitted) : Constant.Known :=
  (front.map Emitted.known).reverse

theorem knownOf_cons_append (first : Emitted) (rest : List Emitted) (known : Constant.Known) :
    knownOf (first :: rest) ++ known = knownOf rest ++ (first.known :: known) := by
  rw [knownOf, List.map_cons, List.reverse_cons, List.append_assoc, List.singleton_append, knownOf]

theorem knownOf_concat (front : List Emitted) (last : Emitted) :
    knownOf (front ++ [last]) = last.known :: knownOf front := by
  rw [knownOf, List.map_append, List.reverse_append]
  rfl

theorem constantSteps_value (known : Constant.Known) (macros : List (String × Macro)) :
    (constantSteps config mapper known macros).value =
      (emitted config mapper known macros).flatMap Emitted.lines := by
  induction macros generalizing known with
  | nil => rfl
  | cons entry rest ih =>
    obtain ⟨name, m⟩ := entry
    rw [constantSteps, emitted, Logged.value_bind]
    cases (Constant.ofMacro? config.constants mapper known m).value with
    | some constant =>
      simp only [Logged.value_bind, Logged.value_pure, ih, List.flatMap_cons]
      rfl
    | none => simp only [Logged.value_bind, ih]

/-- The entries of which constants are written are those that a rule applies to, in their order. -/
theorem map_entry_emitted (known : Constant.Known) (macros : List (String × Macro)) :
    (emitted config mapper known macros).map Emitted.entry =
      macros.filter (isConstantWritten config) := by
  induction macros generalizing known with
  | nil => rfl
  | cons entry rest ih =>
    obtain ⟨name, m⟩ := entry
    have hsome : _ = isConstantWritten config (name, m) :=
      Constant.isSome_ofMacro? mapper config.constants known m
    rw [emitted]
    cases hvalue : (Constant.ofMacro? config.constants mapper known m).value with
    | some constant =>
      rw [hvalue] at hsome
      rw [List.filter_cons_of_pos hsome.symm, List.map_cons, ih]
      rfl
    | none =>
      rw [hvalue] at hsome
      rw [List.filter_cons_of_neg (by simp [← hsome]), ih]

theorem emitted_append (known : Constant.Known) (macros more : List (String × Macro)) :
    emitted config mapper known (macros ++ more) =
      emitted config mapper known macros ++
        emitted config mapper (knownOf (emitted config mapper known macros) ++ known) more := by
  induction macros generalizing known with
  | nil => rfl
  | cons entry rest ih =>
    obtain ⟨name, m⟩ := entry
    rw [List.cons_append, emitted, emitted]
    cases (Constant.ofMacro? config.constants mapper known m).value with
    | some constant =>
      simp only [ih, knownOf_cons_append, List.cons_append]
      rfl
    | none => exact ih known

/-- A constant is decided on with what is known behind the constants in front of it. -/
theorem value_of_emitted_eq_append {known : Constant.Known} {macros : List (String × Macro)}
    {front back : List Emitted} {later : Emitted}
    (h : emitted config mapper known macros = front ++ later :: back) :
    (Constant.ofMacro? config.constants mapper (knownOf front ++ known) later.definition).value =
      some later.constant := by
  -- on the run: what it has written is in `front`, and has joined the table on the way
  induction macros generalizing known front with
  | nil =>
    rw [emitted] at h
    cases front <;> cases h
  | cons entry rest ih =>
    obtain ⟨name, m⟩ := entry
    rw [emitted] at h
    cases hvalue : (Constant.ofMacro? config.constants mapper known m).value with
    | none =>
      rw [hvalue] at h
      exact ih h
    | some constant =>
      rw [hvalue] at h
      cases front with
      | nil =>
        obtain ⟨rfl, -⟩ := List.cons.inj h
        exact hvalue
      | cons first front =>
        obtain ⟨rfl, hrest⟩ := List.cons.inj h
        rw [knownOf_cons_append]
        exact ih hrest

/-! References -/

variable {all : List Emitted} {name : String} {place later earlier other : Fin all.length}

/-- Of the constants of the name in front of place `n` the one at `place` is the last. -/
structure IsLatest (all : List Emitted) (name : String) (n : Nat) (place : Fin all.length) :
    Prop where
  before : place < n
  named : all[place].name = name
  last (between : Fin all.length) : place < between → between < n → all[between].name ≠ name

theorem IsLatest.not_lt {n : Nat} (h : IsLatest all name n place)
    (hother : IsLatest all name n other) : ¬ place < other :=
  fun hlt => h.last other hlt hother.before hother.named

theorem IsLatest.unique {n : Nat} (h : IsLatest all name n place)
    (hother : IsLatest all name n other) : place = other :=
  le_antisymm (le_of_not_gt (hother.not_lt h)) (le_of_not_gt (h.not_lt hother))

/-- The constant at `later` takes its declaration from the one at `earlier`: its macro is open, and
the first identifier of the macro names the other one, and nothing between the two. -/
structure TakesFrom (settings : ConstantSettings) (mapper : TypeMapper) (all : List Emitted)
    (later earlier : Fin all.length) : Prop where
  isOpen : Constant.IsOpen settings mapper all[later].definition
  refers : ∃ name ∈ all[later].referred?, IsLatest all name later earlier

/-- No other constant has a part in the one at the place. A rule in front of the one for references
makes it of its macro, or its macro is open, refers to nothing in front of it and becomes a text. -/
inductive IsOwn (settings : ConstantSettings) (mapper : TypeMapper) (all : List Emitted)
    (place : Fin all.length) : Prop where
  | closed (hclosed : ¬ Constant.IsOpen settings mapper all[place].definition)
      (hconstant : ∀ known, (Constant.ofMacro? settings mapper known all[place].definition).value =
        some all[place].constant)
  | text (hopen : Constant.IsOpen settings mapper all[place].definition)
      (hfree : ∀ earlier < place, all[place].referred? ≠ some all[earlier].name)
      (hconstant : all[place].constant =
        Constant.textConstant (Literal.normalize all[place].definition.tokens))

theorem TakesFrom.lt (h : TakesFrom settings mapper all later earlier) : earlier < later := by
  obtain ⟨name, -, hlatest⟩ := h.refers
  exact hlatest.before

theorem TakesFrom.unique (h : TakesFrom settings mapper all later earlier)
    (hother : TakesFrom settings mapper all later other) : earlier = other := by
  obtain ⟨name, hname, hlatest⟩ := h.refers
  obtain ⟨second, hsecond, hotherLatest⟩ := hother.refers
  obtain rfl := Option.mem_unique hname hsecond
  exact hlatest.unique hotherLatest

theorem lt_of_transGen
    (h : Relation.TransGen (TakesFrom settings mapper all) later earlier) : earlier < later := by
  induction h with
  | single hstep => exact hstep.lt
  | tail _ hstep ih => exact hstep.lt.trans ih

theorem IsOwn.not_takesFrom (h : IsOwn settings mapper all later) :
    ¬ TakesFrom settings mapper all later earlier := by
  rintro ⟨hisOpen, name, hname, hlatest⟩
  cases h with
  | closed hclosed => exact hclosed hisOpen
  | text hopen hfree =>
    obtain rfl := hlatest.named
    exact hfree earlier hlatest.before hname

/-! What is known -/

theorem isLatest_self {n : Nat} (hn : n < all.length) (hname : all[n].name = name) :
    IsLatest all name (n + 1) ⟨n, hn⟩ :=
  ⟨Nat.lt_succ_self n, hname, fun _ hlt hle => absurd hlt (Nat.not_lt.mpr (Nat.le_of_lt_succ hle))⟩

theorem IsLatest.succ {n : Nat} (h : IsLatest all name n place) (hn : n < all.length)
    (hname : all[n].name ≠ name) : IsLatest all name (n + 1) place := by
  refine ⟨Nat.lt_succ_of_lt h.before, h.named, fun between hlt hle => ?_⟩
  rcases Nat.lt_succ_iff_lt_or_eq.mp hle with hbetween | rfl
  · exact h.last between hlt hbetween
  · exact hname

/-- The constant that is known under a name behind the first `n` is the latest of the name. -/
theorem exists_isLatest {n : Nat} (hn : n ≤ all.length) {given : Constant}
    (h : (knownOf (all.take n)).lookup name = some given) :
    ∃ place, IsLatest all name n place ∧ all[place].constant = given := by
  -- on the constants in front: the last of them hides older ones of its name only
  induction n with
  | zero => cases h
  | succ n ih =>
    rw [List.take_succ_eq_append_getElem hn, knownOf_concat, List.lookup_cons] at h
    cases hname : name == all[n].name with
    | true =>
      rw [Emitted.known, hname] at h
      exact ⟨⟨n, hn⟩, isLatest_self hn (eq_of_beq hname).symm, Option.some.inj h⟩
    | false =>
      rw [Emitted.known, hname] at h
      obtain ⟨place, hlatest, hconstant⟩ := ih (Nat.le_of_succ_le hn) h
      exact ⟨place, hlatest.succ hn (ne_of_beq_false hname).symm, hconstant⟩

theorem getElem_mem_take (h : earlier < later) : all[earlier] ∈ all.take later :=
  List.mem_take_iff_getElem.mpr ⟨earlier, by omega, rfl⟩

theorem name_ne_of_lookup_knownOf {front : List Emitted}
    (h : (knownOf front).lookup name = none) : ∀ other ∈ front, other.name ≠ name := by
  intro other hother hname
  have hmem : other.known ∈ knownOf front :=
    List.mem_reverse.mpr (List.mem_map_of_mem hother)
  have hne := List.lookup_eq_none_iff.mp h other.known hmem
  simp [Emitted.known, hname] at hne

/-- An open macro that refers to a known constant takes its declaration from the latest one of the
name, and this is the constant that is known. -/
theorem exists_takesFrom_of_referred?
    (hopen : Constant.IsOpen settings mapper all[place].definition) {given : Constant}
    (h : Constant.referred? (knownOf (all.take place)) all[place].definition.tokens =
      some (name, given)) :
    ∃ earlier, TakesFrom settings mapper all place earlier ∧ all[earlier].constant = given := by
  obtain ⟨hname, hlookup⟩ := Constant.referred?_eq_some_iff.mp h
  obtain ⟨earlier, hlatest, hconstant⟩ := exists_isLatest (Nat.le_of_lt place.isLt) hlookup
  exact ⟨earlier, ⟨hopen, name, hname, hlatest⟩, hconstant⟩

theorem referred?_ne_of_lt
    (h : Constant.referred? (knownOf (all.take place)) all[place].definition.tokens = none)
    (hlt : earlier < place) : all[place].referred? ≠ some all[earlier].name := by
  intro hname
  have hlookup := Constant.lookup_eq_none_of_referred? h hname
  exact name_ne_of_lookup_knownOf hlookup all[earlier] (getElem_mem_take hlt) rfl

/-- The table has something for an open macro exactly when the macro refers to a constant in front
of it. -/
theorem exists_takesFrom_iff (place : Fin all.length) :
    (∃ earlier, TakesFrom settings mapper all place earlier) ↔
      Constant.IsOpen settings mapper all[place].definition ∧
        (Constant.referred? (knownOf (all.take place))
          all[place].definition.tokens).isSome = true := by
  constructor
  · rintro ⟨earlier, hopen, name, hname, hlatest⟩
    refine ⟨hopen, Option.isSome_iff_ne_none.mpr fun hnone => ?_⟩
    obtain rfl := hlatest.named
    exact referred?_ne_of_lt hnone hlatest.before hname
  · rintro ⟨hopen, hsome⟩
    obtain ⟨⟨name, given⟩, hreferred⟩ := Option.isSome_iff_exists.mp hsome
    obtain ⟨earlier, htakes, -⟩ := exists_takesFrom_of_referred? hopen hreferred
    exact ⟨earlier, htakes⟩

/-! Decisions -/

/-- Each constant is decided on with what is known behind the ones in front of it. -/
def IsDecided (settings : ConstantSettings) (mapper : TypeMapper) (all : List Emitted) : Prop :=
  ∀ place : Fin all.length,
    (Constant.ofMacro? settings mapper (knownOf (all.take place)) all[place].definition).value =
      some all[place].constant

theorem getElem_mem_drop (h : earlier < later) : all[later] ∈ all.drop (earlier + 1) := by
  have hplace : earlier.val + 1 + (later - (earlier + 1)) = later := Nat.add_sub_of_le h
  rw [List.mem_drop_iff_getElem]
  exact ⟨later - (earlier + 1), by omega, by simp only [hplace, Fin.getElem_fin]⟩

theorem take_append_getElem_append_drop (place : Fin all.length) :
    all.take place ++ all[place] :: all.drop (place + 1) = all := by
  rw [Fin.getElem_fin, List.getElem_cons_drop, List.take_append_drop]

theorem isDecided_emitted (config : Config) (mapper : TypeMapper)
    (macros : List (String × Macro)) :
    IsDecided config.constants mapper (emitted config mapper [] macros) := by
  intro place
  have hvalue := value_of_emitted_eq_append (take_append_getElem_append_drop place).symm
  rwa [List.append_nil] at hvalue

theorem IsDecided.isOwn_or_takesFrom (h : IsDecided settings mapper all)
    (place : Fin all.length) :
    IsOwn settings mapper all place ∨
      ∃ earlier, TakesFrom settings mapper all place earlier ∧
        all[place].constant = all[earlier].constant.withValue
          (Literal.normalize all[place].definition.tokens) := by
  have hvalue := h place
  by_cases hopen : Constant.IsOpen settings mapper all[place].definition
  · cases hreferred :
        Constant.referred? (knownOf (all.take place)) all[place].definition.tokens with
    | none =>
      rw [(hopen.isText hreferred).ofMacro?_eq] at hvalue
      exact Or.inl (.text hopen (fun _ => referred?_ne_of_lt hreferred)
        (Option.some.inj hvalue).symm)
    | some reference =>
      rw [hopen.ofMacro?_of_referred? hreferred] at hvalue
      obtain ⟨earlier, htakes, hgiven⟩ := exists_takesFrom_of_referred? hopen hreferred
      rw [← hgiven] at hvalue
      exact Or.inr ⟨earlier, htakes, (Option.some.inj hvalue).symm⟩
  · refine Or.inl (.closed hopen fun known => ?_)
    rw [Constant.ofMacro?_eq_of_not_isOpen hopen known, hvalue]

theorem IsDecided.eq_withValue (h : IsDecided settings mapper all)
    (htakes : TakesFrom settings mapper all later earlier) :
    all[later].constant = all[earlier].constant.withValue
      (Literal.normalize all[later].definition.tokens) := by
  rcases h.isOwn_or_takesFrom later with hown | ⟨other, hother, hconstant⟩
  · exact absurd htakes hown.not_takesFrom
  · obtain rfl := hother.unique htakes
    exact hconstant

theorem IsDecided.isLike (h : IsDecided settings mapper all)
    (htakes : TakesFrom settings mapper all later earlier) :
    all[later].constant.IsLike all[earlier].constant := by
  rw [h.eq_withValue htakes]
  exact Constant.isLike_withValue _ _

/-- The way back from a constant ends at one that comes about by itself. -/
theorem IsDecided.exists_root (h : IsDecided settings mapper all) (place : Fin all.length) :
    ∃ root, IsOwn settings mapper all root ∧
      Relation.ReflTransGen (TakesFrom settings mapper all) place root ∧
      all[place].constant.IsLike all[root].constant := by
  induction place using WellFoundedLT.induction with
  | ind place ih =>
    rcases h.isOwn_or_takesFrom place with hown | ⟨earlier, htakes, -⟩
    · exact ⟨place, hown, .refl, Constant.isLike_refl _⟩
    · obtain ⟨root, hroot, hpath, hlike⟩ := ih earlier htakes.lt
      exact ⟨root, hroot, .head htakes hpath, (h.isLike htakes).trans hlike⟩

/-- Every constant comes about by itself or, if its macro is open and refers to something known, with
the declaration of the latest one in front of it that has the name. The way back over such
references ends at one that comes about by itself. References go from place to place and not from
name to name, since a name may be there more than once. -/
structure IsTraceable (settings : ConstantSettings) (mapper : TypeMapper) (all : List Emitted) :
    Prop where
  takes_iff (place : Fin all.length) :
    (∃ earlier, TakesFrom settings mapper all place earlier) ↔
      Constant.IsOpen settings mapper all[place].definition ∧
        (Constant.referred? (knownOf (all.take place))
          all[place].definition.tokens).isSome = true
  own_iff (place : Fin all.length) :
    IsOwn settings mapper all place ↔ ∀ earlier, ¬ TakesFrom settings mapper all place earlier
  taken (later earlier : Fin all.length) : TakesFrom settings mapper all later earlier →
    all[later].constant.IsLike all[earlier].constant ∧
      all[later].constant = all[earlier].constant.withValue
        (Literal.normalize all[later].definition.tokens)
  unique (later earlier other : Fin all.length) : TakesFrom settings mapper all later earlier →
    TakesFrom settings mapper all later other → earlier = other
  acyclic (place : Fin all.length) : ¬ Relation.TransGen (TakesFrom settings mapper all) place place
  ends (place : Fin all.length) : ∃ root, IsOwn settings mapper all root ∧
    Relation.ReflTransGen (TakesFrom settings mapper all) place root ∧
    all[place].constant.IsLike all[root].constant

theorem IsDecided.isTraceable (h : IsDecided settings mapper all) :
    IsTraceable settings mapper all where
  takes_iff := exists_takesFrom_iff
  own_iff place := by
    refine ⟨fun hown earlier => hown.not_takesFrom, fun hnone => ?_⟩
    rcases h.isOwn_or_takesFrom place with hown | ⟨earlier, htakes, -⟩
    · exact hown
    · exact absurd htakes (hnone earlier)
  taken _ _ htakes := ⟨h.isLike htakes, h.eq_withValue htakes⟩
  unique _ _ _ htakes hother := htakes.unique hother
  acyclic _ hcycle := lt_irrefl _ (lt_of_transGen hcycle)
  ends := h.exists_root

/-! The file -/

/-- What stands in front of the first constant. -/
def constantsOpening (config : Config) : String :=
  textAt 0 (Code.opening config.rootNamespace [] none) ++
    textAt 0 [.line (config.visibility ++ " static partial class " ++ config.className),
      .line "\x7b"]

theorem contents_constants (config : Config) (mapper : TypeMapper)
    (macros : List (String × Macro)) :
    (constants config mapper macros).value.contents =
      constantsOpening config ++
        String.join ((emitted config mapper [] macros).map Emitted.text) ++ "\x7d\n" := by
  have hclosing : textAt 0 [.line "\x7d"] = "\x7d\n" := by decide
  rw [constants, Logged.value_bind, Logged.value_pure, GeneratedFile.contents_ofSteps,
    constantSteps_value, Code.textAt_block, Code.textAt_flatMap, hclosing, constantsOpening]
  simp only [String.append_assoc]
  rfl

/-- In the text the first part stands in front of the second. -/
def StandsBefore (text first second : String) : Prop :=
  ∃ front between back, text = front ++ first ++ between ++ second ++ back

theorem standsBefore_join (h : earlier < later) (opening closing : String) :
    StandsBefore (opening ++ String.join (all.map Emitted.text) ++ closing) all[earlier].text
      all[later].text := by
  obtain ⟨between, back, hdrop⟩ := List.append_of_mem (getElem_mem_drop h)
  have hall := take_append_getElem_append_drop earlier
  rw [hdrop] at hall
  refine ⟨opening ++ String.join ((all.take earlier).map Emitted.text),
    String.join (between.map Emitted.text), String.join (back.map Emitted.text) ++ closing, ?_⟩
  conv_lhs => rw [← hall]
  simp only [List.map_append, List.map_cons, String.join_append, String.join_cons,
    String.append_assoc]

/-- The constants of a file are those of the macros that a rule applies to, each in lines of its
own behind those of the ones in front of it, and a constant has the form and type of the one that
its declaration is taken from. Further macros add lines behind these and change none of them. -/
theorem constants_isTraceable (config : Config) (mapper : TypeMapper)
    (macros : List (String × Macro)) :
    ((emitted config mapper [] macros).map Emitted.entry =
          macros.filter (isConstantWritten config) ∧
        IsDecided config.constants mapper (emitted config mapper [] macros) ∧
        (constants config mapper macros).value.contents = constantsOpening config ++
          String.join ((emitted config mapper [] macros).map Emitted.text) ++ "\x7d\n") ∧
      IsTraceable config.constants mapper (emitted config mapper [] macros) ∧
      (∀ later earlier,
        TakesFrom config.constants mapper (emitted config mapper [] macros) later earlier →
        StandsBefore (constants config mapper macros).value.contents
          (emitted config mapper [] macros)[earlier].text
          (emitted config mapper [] macros)[later].text) ∧
      ∀ more, ∃ added,
        emitted config mapper [] (macros ++ more) = emitted config mapper [] macros ++ added ∧
        (constants config mapper (macros ++ more)).value.contents = constantsOpening config ++
          String.join ((emitted config mapper [] macros).map Emitted.text) ++
          String.join (added.map Emitted.text) ++ "\x7d\n" := by
  have hdecided := isDecided_emitted config mapper macros
  refine ⟨⟨map_entry_emitted [] macros, hdecided, contents_constants config mapper macros⟩,
    hdecided.isTraceable, fun later earlier htakes => ?_, fun more => ?_⟩
  · rw [contents_constants]
    exact standsBefore_join htakes.lt _ _
  · refine ⟨_, emitted_append [] macros more, ?_⟩
    rw [contents_constants, emitted_append, List.map_append, String.join_append]
    simp only [String.append_assoc]

/-- Two names that refer to each other. The first constant has nothing in front of it, so it becomes
a text, and the others take its declaration one from the other. -/
example : (emitted Config.standard Constant.standardMapper [] [
      ("LIMIT", .ofText "LIMIT" "SIZE".toList), ("SIZE", .ofText "SIZE" "(LIMIT)".toList),
      ("LIMIT", .ofText "LIMIT" "SIZE + 1".toList)]).map Emitted.constant =
    [.const "string" "\"SIZE\"", .const "string" "LIMIT", .const "string" "SIZE+1"] := by
  decide +kernel

end Emit

end HeaderInterop
