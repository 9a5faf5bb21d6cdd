import HeaderInterop.Proofs.Macro.LineForms
import Mathlib.Order.Basic

/-!
A dump line by line. A line defines a macro, undefines a name or does neither, and it stands in the
file of the last marker before it. So the macros of some lines and one more are those of the lines,
with what the last one does in a file under the scope.
-/

namespace HeaderInterop.Macro

/-- The line with this number stands in the file: the last marker before it names the file. -/
def StandsIn (lines : List (List Char)) (n : Nat) (file : Path) : Prop :=
  ∃ k < n, (∃ line ∈ lines[k]?, Marks line file) ∧
    ∀ j, k < j → j < n → ∀ line ∈ lines[j]?, ∀ other, ¬ Marks line other

/-- The line with this number stands in a file under the scope. Without a scope each line does. -/
def InScopeAt (scope : Option Path) (lines : List (List Char)) (n : Nat) : Prop :=
  ∀ dir ∈ scope, ∃ file, StandsIn lines n file ∧ dir.components <+: file.components

/-- The line with this number stands in a file under the scope and has the property. -/
def LineAt (scope : Option Path) (lines : List (List Char)) (n : Nat) (p : List Char → Prop) :
    Prop :=
  (∃ line ∈ lines[n]?, p line) ∧ InScopeAt scope lines n

def DefinesAt (scope : Option Path) (lines : List (List Char)) (n : Nat) (m : Macro) : Prop :=
  LineAt scope lines n fun line => Defines line m

def UndefinesAt (scope : Option Path) (lines : List (List Char)) (n : Nat) (name : String) : Prop :=
  LineAt scope lines n fun line => Undefines line name

/-! One line. -/

theorem markerFile?_define (rest : List Char) : markerFile? ("#define ".toList ++ rest) = none :=
  rfl

theorem markerFile?_undef (rest : List Char) : markerFile? ("#undef ".toList ++ rest) = none :=
  rfl

theorem defines_iff {line : List Char} {m : Macro} :
    Defines line m ↔ Directive.ofLine? line = some (.define m) := by
  constructor
  · rintro ⟨rest, rfl, hm⟩
    unfold Directive.ofLine?
    rw [markerFile?_define, Text.after?_eq_some_iff.mpr rfl]
    simp [definition?_eq_some_iff.mpr hm]
  · intro h
    unfold Directive.ofLine? at h
    split at h
    next => simp at h
    next =>
      split at h
      next rest hafter =>
        obtain ⟨found, hfound, heq⟩ := Option.map_eq_some_iff.mp h
        obtain rfl : found = m := Directive.define.inj heq
        exact ⟨rest, Text.after?_eq_some_iff.mp hafter, definition?_eq_some_iff.mp hfound⟩
      next => simp at h

theorem undefines_iff {line : List Char} {name : String} :
    Undefines line name ↔ Directive.ofLine? line = some (.undefine name) := by
  constructor
  · rintro ⟨rest, rfl, hname⟩
    obtain rfl := trim_eq_toList_iff.mpr hname
    have hdefine : Text.after? "#define ".toList ("#undef ".toList ++ rest) = none := rfl
    unfold Directive.ofLine?
    rw [markerFile?_undef, hdefine, Text.after?_eq_some_iff.mpr rfl]
    rfl
  · intro h
    unfold Directive.ofLine? at h
    split at h
    next => simp at h
    next =>
      split at h
      next => simp at h
      next =>
        obtain ⟨rest, hafter, heq⟩ := Option.map_eq_some_iff.mp h
        exact ⟨rest, Text.after?_eq_some_iff.mp hafter,
          trim_eq_toList_iff.mp (Directive.undefine.inj heq)⟩

theorem Defines.unique {line : List Char} {m other : Macro} (h : Defines line m)
    (hother : Defines line other) : other = m :=
  Directive.define.inj (Option.some.inj ((defines_iff.mp hother).symm.trans (defines_iff.mp h)))

theorem Undefines.unique {line : List Char} {name other : String} (h : Undefines line name)
    (hother : Undefines line other) : other = name :=
  Directive.undefine.inj
    (Option.some.inj ((undefines_iff.mp hother).symm.trans (undefines_iff.mp h)))

theorem Defines.not_undefines {line : List Char} {m : Macro} (h : Defines line m) (name : String) :
    ¬ Undefines line name := by
  intro hundefines
  have heq := (defines_iff.mp h).symm.trans (undefines_iff.mp hundefines)
  cases heq

/-! The file that a line stands in. -/

/-- The file of the last marker before the line. -/
def fileAt? (lines : List (List Char)) (n : Nat) : Option Path :=
  ((lines.take n).filterMap markerFile?).getLast?

theorem fileAt?_succ (lines : List (List Char)) (n : Nat) :
    fileAt? lines (n + 1) = (lines[n]?.bind markerFile?).or (fileAt? lines n) := by
  have hline : (lines[n]?.toList.filterMap markerFile?).getLast? = lines[n]?.bind markerFile? := by
    cases lines[n]? with
    | none => rfl
    | some line =>
      rw [Option.toList_some, List.filterMap_cons, List.filterMap_nil, Option.bind_some]
      cases markerFile? line <;> rfl
  rw [fileAt?, fileAt?, List.take_add_one, List.filterMap_append, List.getLast?_append, hline]

theorem bind_markerFile?_eq_some_iff {line? : Option (List Char)} {file : Path} :
    line?.bind markerFile? = some file ↔ ∃ line ∈ line?, Marks line file := by
  simp only [Option.bind_eq_some_iff, markerFile?_eq_some_iff, Option.mem_def]

theorem bind_markerFile?_eq_none_iff {line? : Option (List Char)} :
    line?.bind markerFile? = none ↔ ∀ line ∈ line?, ∀ other, ¬ Marks line other := by
  simp only [Option.eq_none_iff_forall_ne_some, ne_eq, bind_markerFile?_eq_some_iff, not_exists,
    not_and]
  exact ⟨fun h line hline other => h other line hline,
    fun h other line hline => h line hline other⟩

theorem standsIn_succ {lines : List (List Char)} {n : Nat} {file : Path} :
    StandsIn lines (n + 1) file ↔
      (∃ line ∈ lines[n]?, Marks line file) ∨
        (∀ line ∈ lines[n]?, ∀ other, ¬ Marks line other) ∧ StandsIn lines n file := by
  constructor
  · rintro ⟨k, hk, hmark, hlast⟩
    rcases Nat.lt_succ_iff_lt_or_eq.mp hk with hlt | rfl
    · refine Or.inr ⟨hlast n hlt n.lt_succ_self, k, hlt, hmark, fun j hkj hjn => ?_⟩
      exact hlast j hkj (Nat.lt_succ_of_lt hjn)
    · exact Or.inl hmark
  · rintro (hmark | ⟨hnone, k, hk, hmark, hlast⟩)
    · exact ⟨n, n.lt_succ_self, hmark, fun j hnj hjn => absurd hjn (Nat.not_lt.mpr hnj)⟩
    · refine ⟨k, Nat.lt_succ_of_lt hk, hmark, fun j hkj hjn => ?_⟩
      rcases Nat.lt_succ_iff_lt_or_eq.mp hjn with hlt | rfl
      · exact hlast j hkj hlt
      · exact hnone

theorem fileAt?_eq_some_iff {lines : List (List Char)} {n : Nat} {file : Path} :
    fileAt? lines n = some file ↔ StandsIn lines n file := by
  induction n with
  | zero =>
    refine iff_of_false (fun h => ?_) fun ⟨k, hk, _⟩ => Nat.not_lt_zero k hk
    have hnone : none = some file := h
    cases hnone
  | succ n ih =>
    rw [fileAt?_succ, standsIn_succ, Option.or_eq_some_iff, ih, bind_markerFile?_eq_some_iff,
      bind_markerFile?_eq_none_iff]

theorem inScopeAt_iff {scope : Option Path} {lines : List (List Char)} {n : Nat} :
    InScopeAt scope lines n ↔ inScope scope (fileAt? lines n) = true := by
  unfold InScopeAt
  simp only [← fileAt?_eq_some_iff]
  cases scope with
  | none => simp [inScope]
  | some dir =>
    cases fileAt? lines n with
    | none => simp [inScope]
    | some file => simp [inScope, Path.startsWith, List.isPrefixOf_iff_prefix]

/-! Lines by their numbers. -/

section Lines

variable {scope : Option Path} {lines : List (List Char)} {line : List Char} {n : Nat}

theorem lineAt_iff {directive : Directive} :
    LineAt scope lines n (fun line => Directive.ofLine? line = some directive) ↔
      lines[n]?.bind Directive.ofLine? = some directive ∧
        inScope scope (fileAt? lines n) = true :=
  and_congr Option.bind_eq_some_iff.symm inScopeAt_iff

theorem definesAt_iff {m : Macro} :
    DefinesAt scope lines n m ↔
      lines[n]?.bind Directive.ofLine? = some (.define m) ∧
        inScope scope (fileAt? lines n) = true := by
  unfold DefinesAt
  simp only [defines_iff]
  exact lineAt_iff

theorem undefinesAt_iff {name : String} :
    UndefinesAt scope lines n name ↔
      lines[n]?.bind Directive.ofLine? = some (.undefine name) ∧
        inScope scope (fileAt? lines n) = true := by
  unfold UndefinesAt
  simp only [undefines_iff]
  exact lineAt_iff

instance (scope : Option Path) (lines : List (List Char)) (n : Nat) (m : Macro) :
    Decidable (DefinesAt scope lines n m) :=
  decidable_of_iff _ definesAt_iff.symm

instance (scope : Option Path) (lines : List (List Char)) (n : Nat) (name : String) :
    Decidable (UndefinesAt scope lines n name) :=
  decidable_of_iff _ undefinesAt_iff.symm

theorem DefinesAt.not_undefinesAt {m : Macro} (h : DefinesAt scope lines n m)
    {wider : Option Path} (name : String) : ¬ UndefinesAt wider lines n name := by
  intro hundefined
  have heq := (definesAt_iff.mp h).1.symm.trans (undefinesAt_iff.mp hundefined).1
  cases heq

theorem LineAt.lt_length {p : List Char → Prop} (h : LineAt scope lines n p) :
    n < lines.length := by
  obtain ⟨⟨line, hline, -⟩, -⟩ := h
  exact (List.getElem?_eq_some_iff.mp hline).1

theorem inScopeAt_concat (h : n ≤ lines.length) :
    InScopeAt scope (lines ++ [line]) n ↔ InScopeAt scope lines n := by
  have hfile : fileAt? (lines ++ [line]) n = fileAt? lines n := by
    rw [fileAt?, fileAt?, List.take_append_of_le_length h]
  rw [inScopeAt_iff, inScopeAt_iff, hfile]

theorem lineAt_concat {p : List Char → Prop} :
    LineAt scope (lines ++ [line]) n p ↔
      LineAt scope lines n p ∨
        n = lines.length ∧ p line ∧ InScopeAt scope lines lines.length := by
  rcases Nat.lt_trichotomy n lines.length with hlt | rfl | hgt
  · rw [LineAt, LineAt, inScopeAt_concat (Nat.le_of_lt hlt), List.getElem?_append_left hlt]
    simp [Nat.ne_of_lt hlt]
  · have hnot : ¬ LineAt scope lines lines.length p := fun h => Nat.lt_irrefl _ h.lt_length
    rw [LineAt, inScopeAt_concat (Nat.le_refl _), List.getElem?_concat_length]
    simp [hnot]
  · have hnot : ¬ LineAt scope lines n p := fun h => Nat.lt_asymm hgt h.lt_length
    have hboth : ¬ LineAt scope (lines ++ [line]) n p := by
      intro h
      have hlength := h.lt_length
      rw [List.length_append, List.length_singleton] at hlength
      omega
    simp [hnot, hboth, Nat.ne_of_gt hgt]

end Lines

/-! A run, line by line. -/

/-- The file that a marker names. -/
def Directive.file? : Directive → Option Path
  | .marker file => some file
  | _ => none

theorem file?_ofLine? (line : List Char) :
    (Directive.ofLine? line).bind Directive.file? = markerFile? line := by
  unfold Directive.ofLine?
  cases markerFile? line with
  | some file => rfl
  | none =>
    cases Text.after? "#define ".toList line with
    | some rest => cases hdefinition : definition? rest <;> simp [hdefinition, Directive.file?]
    | none => cases Text.after? "#undef ".toList line <;> rfl

variable {scope : Option Path}

theorem collectFrom_append (file : Option Path) (macros : List Macro)
    (front back : List Directive) :
    collectFrom scope file macros (front ++ back) =
      collectFrom scope ((front.filterMap Directive.file?).getLast?.or file)
        (collectFrom scope file macros front) back := by
  induction front generalizing file macros with
  | nil => rfl
  | cons directive front ih =>
    cases directive with
    | marker next =>
      have hlast : ((Directive.marker next :: front).filterMap Directive.file?).getLast?.or file =
          (front.filterMap Directive.file?).getLast?.or (some next) := by
        show (next :: front.filterMap Directive.file?).getLast?.or file = _
        rw [List.getLast?_cons]
        cases (front.filterMap Directive.file?).getLast? <;> rfl
      rw [hlast, List.cons_append]
      exact ih (some next) macros
    | define m => exact ih file _
    | undefine name => exact ih file _

/-- The macros of a text's lines. -/
def macrosOf (scope : Option Path) (lines : List (List Char)) : List Macro :=
  collectFrom scope none [] (lines.filterMap Directive.ofLine?)

theorem macrosOf_concat (lines : List (List Char)) (line : List Char) :
    macrosOf scope (lines ++ [line]) =
      collectFrom scope (fileAt? lines lines.length) (macrosOf scope lines)
        (Directive.ofLine? line).toList := by
  have hfile : ((lines.filterMap Directive.ofLine?).filterMap Directive.file?).getLast?.or none =
      fileAt? lines lines.length := by
    rw [Option.or_none, List.filterMap_filterMap, fileAt?, List.take_length]
    simp only [file?_ofLine?]
  have hline : [line].filterMap Directive.ofLine? = (Directive.ofLine? line).toList := by
    rw [List.filterMap_cons, List.filterMap_nil]
    cases Directive.ofLine? line <;> rfl
  rw [macrosOf, List.filterMap_append, collectFrom_append, hfile, hline]
  rfl

/-! What one more line changes: it defines a macro or undefines a name in a file under the scope,
or it does neither. -/

/-- The last line does nothing in a file under the scope. -/
def IsSilent (scope : Option Path) (lines : List (List Char)) (line : List Char) : Prop :=
  InScopeAt scope lines lines.length →
    (∀ m, ¬ Defines line m) ∧ ∀ name, ¬ Undefines line name

section Steps

variable {lines : List (List Char)} {line : List Char}

theorem macrosOf_concat_define {m : Macro} (hline : Defines line m)
    (hscope : InScopeAt scope lines lines.length) :
    macrosOf scope (lines ++ [line]) = define (macrosOf scope lines) m := by
  rw [macrosOf_concat, defines_iff.mp hline]
  exact if_pos (inScopeAt_iff.mp hscope)

theorem definesAt_concat_define {m : Macro} (hline : Defines line m)
    (hscope : InScopeAt scope lines lines.length) (n : Nat) (other : Macro) :
    DefinesAt scope (lines ++ [line]) n other ↔
      DefinesAt scope lines n other ∨ n = lines.length ∧ other = m := by
  rw [DefinesAt, lineAt_concat]
  refine or_congr_right (and_congr_right fun _ => ⟨fun h => hline.unique h.1, ?_⟩)
  rintro rfl
  exact ⟨hline, hscope⟩

theorem undefinesAt_concat_define {m : Macro} (hline : Defines line m) (n : Nat) (name : String) :
    UndefinesAt scope (lines ++ [line]) n name ↔ UndefinesAt scope lines n name := by
  rw [UndefinesAt, lineAt_concat]
  exact or_iff_left fun h => hline.not_undefines name h.2.1

theorem macrosOf_concat_undefine {name : String} (hline : Undefines line name)
    (hscope : InScopeAt scope lines lines.length) :
    macrosOf scope (lines ++ [line]) = undefine (macrosOf scope lines) name := by
  rw [macrosOf_concat, undefines_iff.mp hline]
  exact if_pos (inScopeAt_iff.mp hscope)

theorem definesAt_concat_undefine {name : String} (hline : Undefines line name) (n : Nat)
    (m : Macro) : DefinesAt scope (lines ++ [line]) n m ↔ DefinesAt scope lines n m := by
  rw [DefinesAt, lineAt_concat]
  exact or_iff_left fun h => h.2.1.not_undefines name hline

theorem undefinesAt_concat_undefine {name : String} (hline : Undefines line name)
    (hscope : InScopeAt scope lines lines.length) (n : Nat) (other : String) :
    UndefinesAt scope (lines ++ [line]) n other ↔
      UndefinesAt scope lines n other ∨ n = lines.length ∧ other = name := by
  rw [UndefinesAt, lineAt_concat]
  refine or_congr_right (and_congr_right fun _ => ⟨fun h => hline.unique h.1, ?_⟩)
  rintro rfl
  exact ⟨hline, hscope⟩

theorem macrosOf_concat_silent (hsilent : IsSilent scope lines line) :
    macrosOf scope (lines ++ [line]) = macrosOf scope lines := by
  rw [macrosOf_concat]
  cases hdirective : Directive.ofLine? line with
  | none => rfl
  | some directive =>
    cases directive with
    | marker file => rfl
    | define m =>
      exact if_neg fun hscope =>
        (hsilent (inScopeAt_iff.mpr hscope)).1 m (defines_iff.mpr hdirective)
    | undefine name =>
      exact if_neg fun hscope =>
        (hsilent (inScopeAt_iff.mpr hscope)).2 name (undefines_iff.mpr hdirective)

theorem definesAt_concat_silent (hsilent : IsSilent scope lines line) (n : Nat) (m : Macro) :
    DefinesAt scope (lines ++ [line]) n m ↔ DefinesAt scope lines n m := by
  rw [DefinesAt, lineAt_concat]
  exact or_iff_left fun h => (hsilent h.2.2).1 m h.2.1

theorem undefinesAt_concat_silent (hsilent : IsSilent scope lines line) (n : Nat) (name : String) :
    UndefinesAt scope (lines ++ [line]) n name ↔ UndefinesAt scope lines n name := by
  rw [UndefinesAt, lineAt_concat]
  exact or_iff_left fun h => (hsilent h.2.2).2 name h.2.1

end Steps

end HeaderInterop.Macro
