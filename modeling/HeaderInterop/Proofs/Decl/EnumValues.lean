import HeaderInterop.Decl.OfNode
import HeaderInterop.Proofs.Except

/-!
Values of enum constants. A constant without an initializer gets the number after the constant
before it. An initializer has a subtree of any shape, in which the compiler records the value at a
literal; the value is found when that literal is a child of the constant itself. Behind another
node it is missed, and the constant is numbered as if nothing initialized it.
-/

namespace HeaderInterop

namespace Ast.Node

/-- Whether the node and its subtree document what they stand in. -/
def isComment (node : Node) : Bool :=
  match node.kind with
  | .other (some kind) => "Comment".toList.isSuffixOf kind.toList
  | _ => false

/-- Whether the compiler may record a value at the node. -/
def isLiteral (node : Node) : Bool :=
  match node.kind with
  | .constantExpr _ | .integerLiteral _ => true
  | _ => false

mutual

/-- The value recorded at the first literal of the subtree. -/
def firstLiteral? : Node → Option (Option String)
  | .mk (.constantExpr value) _ | .mk (.integerLiteral value) _ => some value
  | .mk _ inner => firstLiteralAmong? inner

def firstLiteralAmong? : List Node → Option (Option String)
  | [] => none
  | node :: rest => (firstLiteral? node).or (firstLiteralAmong? rest)

end

end Ast.Node

namespace Decl

open Ast (Node NodeKind)

/-- The value that the initializer of an enum constant records, at any depth: `none` without an
initializer, and `some none` for one that records no value. -/
def initializedValue? (children : List Node) : Option (Option String) :=
  match children.filter (!·.isComment) with
  | [] => none
  | initializer => some (Node.firstLiteralAmong? initializer).join

/-- What is recorded, as a number. -/
def reading (recorded : Option (Option String)) : Option (Option Int) :=
  recorded.map fun value =>
    value.bind fun text => Text.signed? Text.minInt128 Text.maxInt128 text.toList

/-- The constants among the nodes have the recorded values, and those without one the number after
the constant before; `next` is the number of the first. -/
inductive Numbered (recorded? : List Node → Option (Option String)) :
    Int → List Node → List EnumConstant → Prop where
  | nil {next} : Numbered recorded? next [] []
  | skip {next node rest constants}
      (head : ∀ file name type, node.kind ≠ .enumConstant file name type)
      (tail : Numbered recorded? next rest constants) :
      Numbered recorded? next (node :: rest) constants
  | implicit {next file name type children rest constants} (head : recorded? children = none)
      (tail : Numbered recorded? (next + 1) rest constants) :
      Numbered recorded? next (.mk (.enumConstant file name type) children :: rest)
        ({ name, value := next } :: constants)
  | explicit {next file name type children rest value constants}
      (head : reading (recorded? children) = some (some value))
      (tail : Numbered recorded? (value + 1) rest constants) :
      Numbered recorded? next (.mk (.enumConstant file name type) children :: rest)
        ({ name, value } :: constants)

/-- The children of the enum constants among the nodes. -/
def constantChildren (nodes : List Node) : List (List Node) :=
  nodes.filterMap fun node =>
    match node.kind with
    | .enumConstant .. => some node.inner
    | _ => none

/-- The number after the constants, which begin at `next`. -/
def implicitNumber (next : Int) (constants : List EnumConstant) : Int :=
  (constants.getLast?.map (·.value + 1)).getD next

@[simp] theorem implicitNumber_nil (next : Int) : implicitNumber next [] = next :=
  rfl

@[simp] theorem implicitNumber_cons (next : Int) (constant : EnumConstant)
    (constants : List EnumConstant) :
    implicitNumber next (constant :: constants) =
      implicitNumber (constant.value + 1) constants := by
  cases h : constants.getLast? <;> simp [implicitNumber, List.getLast?_cons, h]

theorem reading_eq_none {recorded : Option (Option String)} :
    reading recorded = none ↔ recorded = none := by
  simp [reading]

/-! The conversion reads direct children -/

theorem constantValue_eq_ok_iff {name : String} {children : List Node} {next value : Int} :
    constantValue name children next = .ok value ↔
      (recordedValue? children = none ∧ value = next) ∨
        reading (recordedValue? children) = some (some value) := by
  unfold constantValue
  cases recordedValue? children with
  | none => simp [reading, eq_comm]
  | some recorded =>
    cases recorded with
    | none => simp [reading]
    | some text =>
      cases h : Text.signed? Text.minInt128 Text.maxInt128 text.toList <;> simp [reading, h]

theorem constantsOf_eq_ok_iff {next : Int} {nodes : List Node} {constants : List EnumConstant} :
    constantsOf next nodes = .ok constants ↔ Numbered recordedValue? next nodes constants := by
  constructor
  · intro h
    induction nodes generalizing next constants with
    | nil =>
      obtain rfl : [] = constants := by simpa [constantsOf] using h
      exact .nil
    | cons node rest ih =>
      obtain ⟨kind, children⟩ := node
      unfold constantsOf at h
      split at h
      next hkind =>
        obtain rfl : kind = _ := hkind
        simp only [except_bind_eq_ok, except_pure_eq_ok] at h
        obtain ⟨value, hvalue, others, hothers, rfl⟩ := h
        rcases constantValue_eq_ok_iff.mp hvalue with ⟨hnone, rfl⟩ | hread
        · exact .implicit hnone (ih hothers)
        · exact .explicit hread (ih hothers)
      next hkind => exact .skip hkind (ih h)
  · intro h
    induction h with
    | nil => rfl
    | @skip next node rest constants head tail ih =>
      rw [constantsOf]
      split
      next file name type hkind => exact absurd hkind (head file name type)
      next => exact ih
    | @implicit next file name type children rest constants head tail ih =>
      have hvalue : constantValue name children next = .ok next :=
        constantValue_eq_ok_iff.mpr (Or.inl ⟨head, rfl⟩)
      simp only [constantsOf, Node.kind, Node.inner, hvalue, ih, bind, Except.bind]
      rfl
    | @explicit next file name type children rest value constants head tail ih =>
      have hvalue : constantValue name children next = .ok value :=
        constantValue_eq_ok_iff.mpr (Or.inr head)
      simp only [constantsOf, Node.kind, Node.inner, hvalue, ih, bind, Except.bind]
      rfl

theorem enumOf_constants {name fixedType : Option String} {nodes : List Node} {enum : Enumeration}
    (h : enumOf name fixedType nodes = .ok enum) :
    Numbered recordedValue? 0 nodes enum.constants := by
  suffices hconstants : constantsOf 0 nodes = .ok enum.constants from
    constantsOf_eq_ok_iff.mp hconstants
  unfold enumOf at h
  cases fixedType <;> simp only [except_bind_eq_ok, except_pure_eq_ok] at h <;>
    obtain ⟨underlying, _, constants, hconstants, rfl⟩ := h <;> exact hconstants

/-! The numbers that the count reaches -/

theorem mem_of_reading {recorded : Option (Option String)} {value : Int}
    (h : reading recorded = some (some value)) :
    Text.minInt128 ≤ value ∧ value ≤ Text.maxInt128 := by
  obtain ⟨text?, -, htext⟩ := Option.map_eq_some_iff.mp h
  obtain ⟨text, -, hvalue⟩ := Option.bind_eq_some_iff.mp htext
  exact Text.signed?_mem hvalue

/-- As long as no constant has the largest number of 128 bits, each has a number after it. -/
theorem Numbered.succ_le_maxInt128 {next : Int} {nodes : List Node} {constants : List EnumConstant}
    (h : Numbered recordedValue? next nodes constants)
    (hnext : Text.minInt128 ≤ next ∧ next ≤ Text.maxInt128)
    (hlargest : ∀ constant ∈ constants, constant.value ≠ Text.maxInt128) :
    ∀ constant ∈ constants,
      Text.minInt128 ≤ constant.value ∧ constant.value + 1 ≤ Text.maxInt128 := by
  have hsucc {value : Int} (hmem : Text.minInt128 ≤ value ∧ value ≤ Text.maxInt128)
      (hne : value ≠ Text.maxInt128) :
      Text.minInt128 ≤ value ∧ value + 1 ≤ Text.maxInt128 := by
    omega
  have hnextMem {value : Int} (hmem : Text.minInt128 ≤ value ∧ value + 1 ≤ Text.maxInt128) :
      Text.minInt128 ≤ value + 1 ∧ value + 1 ≤ Text.maxInt128 := by
    omega
  induction h with
  | nil => exact List.forall_mem_nil _
  | skip head tail ih => exact ih hnext hlargest
  | implicit head tail ih =>
    obtain ⟨hhead, htail⟩ := List.forall_mem_cons.mp hlargest
    have hmem := hsucc hnext hhead
    exact List.forall_mem_cons.mpr ⟨hmem, ih (hnextMem hmem) htail⟩
  | explicit head tail ih =>
    obtain ⟨hhead, htail⟩ := List.forall_mem_cons.mp hlargest
    have hmem := hsucc (mem_of_reading head) hhead
    exact List.forall_mem_cons.mpr ⟨hmem, ih (hnextMem hmem) htail⟩

/-! Values of initializers -/

theorem recordedValue?_cons (node : Node) (rest : List Node) :
    recordedValue? (node :: rest) =
      if node.isLiteral then some node.firstLiteral?.join else recordedValue? rest := by
  obtain ⟨kind, inner⟩ := node
  cases kind <;>
    simp [recordedValue?, Node.isLiteral, Node.kind, Node.firstLiteral?]

theorem not_isLiteral_of_isComment {node : Node} (h : node.isComment = true) :
    node.isLiteral = false := by
  unfold Node.isComment at h
  unfold Node.isLiteral
  split at h <;> simp_all

/-- A constant that is documented only has no value recorded. -/
theorem recordedValue?_of_initializedValue?_eq_none {children : List Node}
    (h : initializedValue? children = none) : recordedValue? children = none := by
  have hcomments : children.filter (!·.isComment) = [] := by
    unfold initializedValue? at h
    split at h
    next hnil => exact hnil
    next => simp at h
  induction children with
  | nil => rfl
  | cons node rest ih =>
    rw [List.filter_eq_nil_iff] at hcomments
    have hnode : node.isComment = true := by simpa using hcomments node (by simp)
    have hrest : rest.filter (!·.isComment) = [] :=
      List.filter_eq_nil_iff.mpr fun other hother => hcomments other (by simp [hother])
    rw [recordedValue?_cons, not_isLiteral_of_isComment hnode]
    exact ih (by simp [initializedValue?, hrest]) hrest

/-! When constants have the values of their initializers -/

theorem forall_getElem?_cons {α : Type} {p : Nat → α → Prop} {x : α} {xs : List α} :
    (∀ i y, (x :: xs)[i]? = some y → p i y) ↔ p 0 x ∧ ∀ i y, xs[i]? = some y → p (i + 1) y := by
  constructor
  · intro h
    exact ⟨h 0 x rfl, fun i y hy => h (i + 1) y hy⟩
  · rintro ⟨hzero, hsucc⟩ i y hy
    cases i with
    | zero =>
      obtain rfl : x = y := by simpa using hy
      exact hzero
    | succ i => exact hsucc i y hy

theorem numbered_constant_iff {recorded? : List Node → Option (Option String)} {next : Int}
    {file : Option Path} {name type : String} {children rest : List Node} {value : Int}
    {constants : List EnumConstant} :
    Numbered recorded? next (.mk (.enumConstant file name type) children :: rest)
        ({ name, value } :: constants) ↔
      ((recorded? children = none ∧ value = next) ∨
          reading (recorded? children) = some (some value)) ∧
        Numbered recorded? (value + 1) rest constants := by
  constructor
  · intro h
    cases h with
    | skip head => exact absurd rfl (head file name type)
    | implicit head tail => exact ⟨Or.inl ⟨head, rfl⟩, tail⟩
    | explicit head tail => exact ⟨Or.inr head, tail⟩
  · rintro ⟨⟨head, rfl⟩ | head, tail⟩
    · exact .implicit head tail
    · exact .explicit head tail

theorem numbered_skip_iff {recorded? : List Node → Option (Option String)} {next : Int}
    {node : Node} {rest : List Node} {constants : List EnumConstant}
    (h : ∀ file name type, node.kind ≠ .enumConstant file name type) :
    Numbered recorded? next (node :: rest) constants ↔ Numbered recorded? next rest constants := by
  constructor
  · intro hnode
    cases hnode with
    | skip head tail => exact tail
    | implicit => exact absurd rfl (h _ _ _)
    | explicit => exact absurd rfl (h _ _ _)
  · exact .skip h

/-- The constant with these children has the value of its initializer: that value is also what its
direct children record, or they record nothing and it is the number that is due anyway. -/
def HasInitializedValue (children : List Node) (number : Int) : Prop :=
  reading (initializedValue? children) = reading (recordedValue? children) ∨
    recordedValue? children = none ∧ reading (initializedValue? children) = some (some number)

theorem hasInitializedValue_iff {children : List Node} {next value : Int}
    (h : (recordedValue? children = none ∧ value = next) ∨
      reading (recordedValue? children) = some (some value)) :
    (initializedValue? children = none ∧ value = next) ∨
        reading (initializedValue? children) = some (some value) ↔
      HasInitializedValue children next := by
  unfold HasInitializedValue
  rcases h with ⟨hnone, rfl⟩ | hread
  · have hreading : reading (recordedValue? children) = none := reading_eq_none.mpr hnone
    rw [hreading, reading_eq_none]
    simp [hnone]
  · have hsome : recordedValue? children ≠ none := by
      intro hnone
      rw [hnone] at hread
      simp [reading] at hread
    have hinitialized : initializedValue? children ≠ none :=
      fun h => hsome (recordedValue?_of_initializedValue?_eq_none h)
    rw [hread]
    simp [hsome, hinitialized]

theorem Numbered.initialized_iff {next : Int} {nodes : List Node} {constants : List EnumConstant}
    (h : Numbered recordedValue? next nodes constants) :
    Numbered initializedValue? next nodes constants ↔
      ∀ i children, (constantChildren nodes)[i]? = some children →
        HasInitializedValue children (implicitNumber next (constants.take i)) := by
  -- A constant with the value of its initializer leaves the same number to the constants after it.
  induction h with
  | nil => simp [Numbered.nil, constantChildren]
  | @skip next node rest constants head tail ih =>
    have hchildren : constantChildren (node :: rest) = constantChildren rest := by
      rw [constantChildren, List.filterMap_cons_none]
      · rfl
      · split
        next file name type hkind => exact absurd hkind (head file name type)
        next => rfl
    rw [numbered_skip_iff head, hchildren, ih]
  | @implicit next file name type children rest constants head tail ih =>
    have hhead := hasInitializedValue_iff (Or.inl ⟨head, (rfl : next = next)⟩)
    have hchildren : constantChildren (.mk (.enumConstant file name type) children :: rest) =
        children :: constantChildren rest := rfl
    rw [numbered_constant_iff, hchildren, forall_getElem?_cons, hhead, ih]
    simp
  | @explicit next file name type children rest value constants head tail ih =>
    have hhead : _ ↔ HasInitializedValue children next := hasInitializedValue_iff (Or.inr head)
    have hchildren : constantChildren (.mk (.enumConstant file name type) children :: rest) =
        children :: constantChildren rest := rfl
    rw [numbered_constant_iff, hchildren, forall_getElem?_cons, hhead, ih]
    simp

/-- The constants of an enum that converts have the values of their initializers exactly when each
of these is recorded in a direct child, or is by chance the number after the constant before. The
numbers are those of 128 bits, unless a constant has the largest of them, which no number comes
after. -/
theorem enumOf_initialized_iff {name fixedType : Option String} {nodes : List Node}
    {enum : Enumeration} (h : enumOf name fixedType nodes = .ok enum) :
    (Numbered initializedValue? 0 nodes enum.constants ↔
        ∀ i children, (constantChildren nodes)[i]? = some children →
          HasInitializedValue children (implicitNumber 0 (enum.constants.take i))) ∧
      ((∀ constant ∈ enum.constants, constant.value ≠ Text.maxInt128) →
        ∀ constant ∈ enum.constants,
          Text.minInt128 ≤ constant.value ∧ constant.value + 1 ≤ Text.maxInt128) :=
  ⟨(enumOf_constants h).initialized_iff, (enumOf_constants h).succ_le_maxInt128 (by decide)⟩

/-- The initializer of the first constant is behind a conversion. -/
def convertedConstants : List Node :=
  [.mk (.enumConstant none "A" "unsigned int")
      [.mk (.other (some "ImplicitCastExpr")) [.mk (.constantExpr (some "1")) []]],
    .mk (.enumConstant none "B" "unsigned int") [.mk (.constantExpr (some "4294967295")) []]]

theorem enumOf_convertedConstants : enumOf none none convertedConstants =
    .ok ⟨none, none, [⟨"A", 0⟩, ⟨"B", 4294967295⟩]⟩ := by
  rfl

theorem enumOf_initialized_iff_converted :
    enumOf none none convertedConstants = .ok ⟨none, none, [⟨"A", 0⟩, ⟨"B", 4294967295⟩]⟩ ∧
      (Numbered initializedValue? 0 convertedConstants [⟨"A", 0⟩, ⟨"B", 4294967295⟩] ↔
        ∀ i children, (constantChildren convertedConstants)[i]? = some children →
          HasInitializedValue children
            (implicitNumber 0 (([⟨"A", 0⟩, ⟨"B", 4294967295⟩] : List EnumConstant).take i))) ∧
      ∀ constant ∈ [(⟨"A", 0⟩ : EnumConstant), ⟨"B", 4294967295⟩],
        Text.minInt128 ≤ constant.value ∧ constant.value + 1 ≤ Text.maxInt128 := by
  obtain ⟨hvalues, hnumbers⟩ := enumOf_initialized_iff enumOf_convertedConstants
  exact ⟨enumOf_convertedConstants, hvalues, hnumbers (by decide)⟩

/-- A converts to 0 although its initializer records 1. -/
theorem not_numbered_convertedConstants :
    enumOf none none convertedConstants = .ok ⟨none, none, [⟨"A", 0⟩, ⟨"B", 4294967295⟩]⟩ ∧
      ¬ Numbered initializedValue? 0 convertedConstants [⟨"A", 0⟩, ⟨"B", 4294967295⟩] := by
  refine ⟨enumOf_convertedConstants, ?_⟩
  intro h
  have hvalue : initializedValue?
      [.mk (.other (some "ImplicitCastExpr")) [.mk (.constantExpr (some "1")) []]] =
        some (some "1") := by decide
  rw [convertedConstants, numbered_constant_iff, hvalue] at h
  rcases h.1 with ⟨hnone, _⟩ | hzero
  · cases hnone
  · exact absurd hzero (by decide)

end Decl

end HeaderInterop
