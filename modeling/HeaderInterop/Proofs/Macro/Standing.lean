import HeaderInterop.Proofs.Macro.Directives
import Mathlib.Data.List.Induction

/-!
The definitions that stand at the end of a dump. Of the definitions of a name in the files under
the scope it is the first one behind the last line there that undefines the name, and the macros of
a dump are those definitions in the order of their lines.
-/

namespace HeaderInterop.Macro

variable {scope : Option Path} {lines : List (List Char)} {line : List Char}

/-- The first definition of a name behind the last line that undefines it, of the lines in scope. -/
structure Stands (scope : Option Path) (lines : List (List Char)) (n : Nat) (m : Macro) : Prop where
  defined : DefinesAt scope lines n m
  kept (k : Nat) : n < k → ¬ UndefinesAt scope lines k m.name
  first (k : Nat) (other : Macro) : k < n → DefinesAt scope lines k other → other.name = m.name →
    ∃ j, k < j ∧ j < n ∧ UndefinesAt scope lines j m.name

/-- A definition that is not undefined later stands itself, or an earlier one of its name does. -/
theorem exists_stands {n : Nat} {m : Macro} (h : DefinesAt scope lines n m)
    (hkept : ∀ k, n < k → ¬ UndefinesAt scope lines k m.name) :
    ∃ k other, Stands scope lines k other ∧ other.name = m.name := by
  induction n using Nat.strongRecOn generalizing m with
  | ind n ih =>
    by_cases hearlier : ∃ k other, k < n ∧ DefinesAt scope lines k other ∧ other.name = m.name ∧
        ∀ j, k < j → ¬ UndefinesAt scope lines j other.name
    · obtain ⟨k, other, hlt, hother, hname, hrest⟩ := hearlier
      obtain ⟨place, first, hfirst, heq⟩ := ih k hlt hother hrest
      exact ⟨place, first, hfirst, heq.trans hname⟩
    · refine ⟨n, m, ⟨h, hkept, fun k other hlt hother hname => ?_⟩, rfl⟩
      by_contra hnone
      apply hearlier
      refine ⟨k, other, hlt, hother, hname, fun j hj hundefined => ?_⟩
      rw [hname] at hundefined
      rcases Nat.lt_trichotomy j n with hbefore | rfl | hbehind
      · exact hnone ⟨j, hj, hbefore, hundefined⟩
      · exact h.not_undefinesAt m.name hundefined
      · exact hkept j hbehind hundefined

/-- What defines a name of no standing definition is undefined again. -/
theorem exists_undefinesAt_of_free {name : String}
    (hfree : ∀ n m, Stands scope lines n m → m.name ≠ name) {n : Nat} {m : Macro}
    (h : DefinesAt scope lines n m) (hname : m.name = name) :
    ∃ k, n < k ∧ UndefinesAt scope lines k name := by
  by_contra hnone
  have hkept : ∀ k, n < k → ¬ UndefinesAt scope lines k m.name := by
    intro k hlt hundefined
    rw [hname] at hundefined
    exact hnone ⟨k, hlt, hundefined⟩
  obtain ⟨k, first, hfirst, heq⟩ := exists_stands h hkept
  exact hfree k first hfirst (heq.trans hname)

theorem Stands.not_lt {n k : Nat} {m other : Macro} (h : Stands scope lines n m)
    (hother : Stands scope lines k other) (hname : m.name = other.name) : ¬ n < k := by
  intro hlt
  obtain ⟨j, hj, -, hundefined⟩ := hother.first n m hlt h.defined hname
  rw [← hname] at hundefined
  exact h.kept j hj hundefined

/-! What stands when there is one more line. -/

theorem stands_concat_define {m : Macro} (hline : Defines line m)
    (hscope : InScopeAt scope lines lines.length) (n : Nat) (other : Macro) :
    Stands scope (lines ++ [line]) n other ↔
      Stands scope lines n other ∨ n = lines.length ∧ other = m ∧
        ∀ k earlier, Stands scope lines k earlier → earlier.name ≠ m.name := by
  have hdefines := definesAt_concat_define hline hscope
  have hundefines (k : Nat) (name : String) : UndefinesAt scope (lines ++ [line]) k name ↔
      UndefinesAt scope lines k name := undefinesAt_concat_define hline k name
  constructor
  · rintro ⟨hdefined, hkept, hfirst⟩
    simp only [hundefines] at hkept hfirst
    rcases (hdefines n other).mp hdefined with hold | ⟨rfl, rfl⟩
    · refine Or.inl ⟨hold, hkept, fun k x hlt hx hname => ?_⟩
      exact hfirst k x hlt ((hdefines k x).mpr (Or.inl hx)) hname
    · refine Or.inr ⟨rfl, rfl, fun k earlier hstands hname => ?_⟩
      obtain ⟨j, hj, -, hundefined⟩ := hfirst k earlier hstands.defined.lt_length
        ((hdefines k earlier).mpr (Or.inl hstands.defined)) hname
      rw [← hname] at hundefined
      exact hstands.kept j hj hundefined
  · rintro (hstands | ⟨rfl, rfl, hfree⟩)
    · have hn := hstands.defined.lt_length
      refine ⟨(hdefines n other).mpr (Or.inl hstands.defined), ?_, fun k x hlt hx hname => ?_⟩
      · simp only [hundefines]
        exact hstands.kept
      · simp only [hundefines]
        rcases (hdefines k x).mp hx with hold | ⟨rfl, -⟩
        · exact hstands.first k x hlt hold hname
        · omega
    · refine ⟨(hdefines _ other).mpr (Or.inr ⟨rfl, rfl⟩), ?_, fun k x hlt hx hname => ?_⟩
      · simp only [hundefines]
        intro k hlt hundefined
        have hk := hundefined.lt_length
        omega
      · simp only [hundefines]
        have hold : DefinesAt scope lines k x :=
          ((hdefines k x).mp hx).resolve_right fun h => Nat.ne_of_lt hlt h.1
        obtain ⟨j, hj, hundefined⟩ := exists_undefinesAt_of_free hfree hold hname
        exact ⟨j, hj, hundefined.lt_length, hundefined⟩

theorem stands_concat_undefine {name : String} (hline : Undefines line name)
    (hscope : InScopeAt scope lines lines.length) (n : Nat) (m : Macro) :
    Stands scope (lines ++ [line]) n m ↔ Stands scope lines n m ∧ m.name ≠ name := by
  have hdefines (k : Nat) (x : Macro) : DefinesAt scope (lines ++ [line]) k x ↔
      DefinesAt scope lines k x := definesAt_concat_undefine hline k x
  have hundefines := undefinesAt_concat_undefine hline hscope
  constructor
  · rintro ⟨hdefined, hkept, hfirst⟩
    have hold := (hdefines n m).mp hdefined
    have hn := hold.lt_length
    refine ⟨⟨hold, fun k hlt h => ?_, fun k x hlt hx hname => ?_⟩, fun heq => ?_⟩
    · exact hkept k hlt ((hundefines k m.name).mpr (Or.inl h))
    · obtain ⟨j, hkj, hjn, hundefined⟩ := hfirst k x hlt ((hdefines k x).mpr hx) hname
      rcases (hundefines j m.name).mp hundefined with h | ⟨rfl, -⟩
      · exact ⟨j, hkj, hjn, h⟩
      · omega
    · exact hkept lines.length hn ((hundefines _ m.name).mpr (Or.inr ⟨rfl, heq⟩))
  · rintro ⟨hstands, hname⟩
    refine ⟨(hdefines n m).mpr hstands.defined, fun k hlt h => ?_, fun k x hlt hx heq => ?_⟩
    · rcases (hundefines k m.name).mp h with hold | ⟨-, heq⟩
      · exact hstands.kept k hlt hold
      · exact hname heq
    · obtain ⟨j, hkj, hjn, hundefined⟩ := hstands.first k x hlt ((hdefines k x).mp hx) heq
      exact ⟨j, hkj, hjn, (hundefines j m.name).mpr (Or.inl hundefined)⟩

theorem stands_concat_silent (hsilent : IsSilent scope lines line) (n : Nat) (m : Macro) :
    Stands scope (lines ++ [line]) n m ↔ Stands scope lines n m := by
  have hdefines := definesAt_concat_silent hsilent
  have hundefines := undefinesAt_concat_silent hsilent
  constructor
  · rintro ⟨hdefined, hkept, hfirst⟩
    simp only [hdefines, hundefines] at hdefined hkept hfirst
    exact ⟨hdefined, hkept, hfirst⟩
  · rintro ⟨hdefined, hkept, hfirst⟩
    refine ⟨(hdefines n m).mpr hdefined, ?_, ?_⟩
    · simp only [hundefines]
      exact hkept
    · simp only [hdefines, hundefines]
      exact hfirst

/-- The definitions that stand, with their lines and in the order of these. -/
structure ListsStanding (scope : Option Path) (lines : List (List Char))
    (entries : List (Nat × Macro)) : Prop where
  ordered : entries.Pairwise fun entry later => entry.1 < later.1
  mem_iff (n : Nat) (m : Macro) : (n, m) ∈ entries ↔ Stands scope lines n m

theorem ListsStanding.define {m : Macro} {entries : List (Nat × Macro)}
    (h : ListsStanding scope lines entries)
    (hline : Defines line m) (hscope : InScopeAt scope lines lines.length) :
    ∃ more, ListsStanding scope (lines ++ [line]) more ∧
      more.map Prod.snd = Macro.define (entries.map Prod.snd) m := by
  have htaken : ((entries.map Prod.snd).any fun other => other.name = m.name) = true ↔
      ∃ k earlier, Stands scope lines k earlier ∧ earlier.name = m.name := by
    simp [h.mem_iff]
  rw [Macro.define]
  split
  next hany =>
    refine ⟨entries, ⟨h.ordered, fun n other => ?_⟩, rfl⟩
    obtain ⟨k, earlier, hstands, hname⟩ := htaken.mp hany
    rw [h.mem_iff, stands_concat_define hline hscope]
    exact (or_iff_left fun hnew => hnew.2.2 k earlier hstands hname).symm
  next hnone =>
    have hfree : ∀ k earlier, Stands scope lines k earlier → earlier.name ≠ m.name :=
      fun k earlier hstands hname => hnone (htaken.mpr ⟨k, earlier, hstands, hname⟩)
    refine ⟨entries ++ [(lines.length, m)], ⟨?_, fun n other => ?_⟩, by simp⟩
    · refine List.pairwise_append.mpr ⟨h.ordered, List.pairwise_singleton _ _, ?_⟩
      rintro ⟨n, other⟩ hentry last hlast
      rw [List.mem_singleton.mp hlast]
      exact ((h.mem_iff n other).mp hentry).defined.lt_length
    · rw [List.mem_append, h.mem_iff, stands_concat_define hline hscope]
      simp [and_iff_left hfree]

theorem ListsStanding.undefine {name : String} {entries : List (Nat × Macro)}
    (h : ListsStanding scope lines entries)
    (hline : Undefines line name) (hscope : InScopeAt scope lines lines.length) :
    ∃ more, ListsStanding scope (lines ++ [line]) more ∧
      more.map Prod.snd = Macro.undefine (entries.map Prod.snd) name := by
  refine ⟨entries.filter fun entry => entry.2.name ≠ name, ⟨h.ordered.filter _, fun n m => ?_⟩, ?_⟩
  · rw [List.mem_filter, h.mem_iff, stands_concat_undefine hline hscope]
    simp
  · rw [Macro.undefine, List.filter_map]
    rfl

/-- The macros of a dump are the definitions that stand at its end. -/
theorem exists_listsStanding (scope : Option Path) (lines : List (List Char)) :
    ∃ entries, ListsStanding scope lines entries ∧
      entries.map Prod.snd = macrosOf scope lines := by
  induction lines using List.reverseRecOn with
  | nil =>
    refine ⟨[], ⟨List.Pairwise.nil, fun n m => iff_of_false List.not_mem_nil fun h => ?_⟩, rfl⟩
    exact Nat.not_lt_zero n h.defined.lt_length
  | append_singleton lines line ih =>
    obtain ⟨entries, hentries, hmacros⟩ := ih
    by_cases hdefine : ∃ m, Defines line m ∧ InScopeAt scope lines lines.length
    · obtain ⟨m, hline, hscope⟩ := hdefine
      rw [macrosOf_concat_define hline hscope, ← hmacros]
      exact hentries.define hline hscope
    · by_cases hundefine :
          ∃ name, Undefines line name ∧ InScopeAt scope lines lines.length
      · obtain ⟨name, hline, hscope⟩ := hundefine
        rw [macrosOf_concat_undefine hline hscope, ← hmacros]
        exact hentries.undefine hline hscope
      · have hsilent : IsSilent scope lines line := by
          intro hscope
          exact ⟨fun m hline => hdefine ⟨m, hline, hscope⟩,
            fun name hline => hundefine ⟨name, hline, hscope⟩⟩
        refine ⟨entries, ⟨hentries.ordered, fun n m => ?_⟩, ?_⟩
        · rw [hentries.mem_iff, stands_concat_silent hsilent]
        · rw [hmacros, macrosOf_concat_silent hsilent]

/-- The lines of a dump. -/
def linesOf (dump : String) : List (List Char) :=
  Text.lines dump.toList

/-- Some line in scope defines the name, and no line in scope behind it undefines it. -/
def EndsDefined (scope : Option Path) (lines : List (List Char)) (name : String) : Prop :=
  ∃ n m, DefinesAt scope lines n m ∧ m.name = name ∧
    ∀ k, n < k → ¬ UndefinesAt scope lines k name

theorem exists_mem_macrosOf_iff {name : String} :
    (∃ m ∈ macrosOf scope lines, m.name = name) ↔ EndsDefined scope lines name := by
  obtain ⟨entries, hentries, hmacros⟩ := exists_listsStanding scope lines
  rw [← hmacros]
  constructor
  · rintro ⟨m, hm, rfl⟩
    obtain ⟨⟨n, m⟩, hentry, rfl⟩ := List.mem_map.mp hm
    have hstands := (hentries.mem_iff n m).mp hentry
    exact ⟨n, m, hstands.defined, rfl, hstands.kept⟩
  · rintro ⟨n, m, hdefined, rfl, hkept⟩
    obtain ⟨k, first, hfirst, hname⟩ := exists_stands hdefined hkept
    exact ⟨first, List.mem_map.mpr ⟨(k, first), (hentries.mem_iff k first).mpr hfirst, rfl⟩, hname⟩

theorem nodup_names_macrosOf (lines : List (List Char)) :
    ((macrosOf scope lines).map Macro.name).Nodup := by
  obtain ⟨entries, hentries, hmacros⟩ := exists_listsStanding scope lines
  rw [← hmacros, List.map_map, List.Nodup, List.pairwise_map]
  refine hentries.ordered.imp_of_mem fun {entry later} hentry hlater hlt hname => ?_
  have hstands := (hentries.mem_iff entry.1 entry.2).mp hentry
  exact hstands.not_lt ((hentries.mem_iff later.1 later.2).mp hlater) hname hlt

/-- A name has a macro exactly when some line in scope defines it and none behind that line
undefines it. It has one then, the first definition behind the last line that undefines the name,
and the macros are in the order of their definitions. -/
theorem ofDump_listsStanding (dump : String) (scope : Option Path) :
    (∀ name, (∃ m ∈ ofDump dump scope, m.name = name) ↔ EndsDefined scope (linesOf dump) name) ∧
      ((ofDump dump scope).map Macro.name).Nodup ∧
      ∃ entries, ListsStanding scope (linesOf dump) entries ∧
        entries.map Prod.snd = ofDump dump scope :=
  ⟨fun _ => exists_mem_macrosOf_iff, nodup_names_macrosOf (linesOf dump),
    exists_listsStanding scope (linesOf dump)⟩

/-- Two headers, with a macro that is defined again, one with parameters, and lines of the second
header that do not count. -/
def rereadDump : String :=
  "# 1 \"/inc/a.h\"\n#define A 1\n#define NEXT(x) ((x) + 1)\n#define A 2\n# 1 \"/usr/b.h\" 1\n" ++
    "#define B 7\n#undef NEXT\n# 5 \"/inc/a.h\" 2\n#undef  A \n#define A  (3) \n"

def nextMacro : Macro :=
  { name := "NEXT", value := "((x) + 1)", functionLike := true }

/-- The first definition of `A` is undone, the second one does not count, and the third one stands,
behind the macro with parameters. -/
theorem ofDump_listsStanding_reread :
    Defines "#define NEXT(x) ((x) + 1)".toList nextMacro ∧
      Defines "#define A  (3) ".toList { name := "A", value := "(3)" } ∧
      ofDump rereadDump (some "/inc") = [nextMacro, { name := "A", value := "(3)" }] ∧
      EndsDefined (some "/inc") (linesOf rereadDump) "A" ∧
      ¬ EndsDefined (some "/inc") (linesOf rereadDump) "B" ∧
      ListsStanding (some "/inc") (linesOf rereadDump)
        [(2, nextMacro), (9, { name := "A", value := "(3)" })] := by
  have hdump : ofDump rereadDump (some "/inc") = [nextMacro, { name := "A", value := "(3)" }] := by
    decide +kernel
  have hfirst : ∀ n < 10, DefinesAt (some "/inc") (linesOf rereadDump) n nextMacro → n = 2 := by
    decide +kernel
  have hsecond : ∀ n < 10, DefinesAt (some "/inc") (linesOf rereadDump) n
      { name := "A", value := "(3)" } → n = 9 := by
    decide +kernel
  have hlength : (linesOf rereadDump).length = 10 := by decide +kernel
  obtain ⟨hnames, -, entries, hentries, hmacros⟩ := ofDump_listsStanding rereadDump (some "/inc")
  rw [hdump] at hnames hmacros
  refine ⟨defines_iff.mpr (by decide +kernel), defines_iff.mpr (by decide +kernel), hdump,
    (hnames "A").mp ⟨{ name := "A", value := "(3)" }, by simp, rfl⟩, fun hb => ?_, ?_⟩
  · obtain ⟨m, hm, hname⟩ := (hnames "B").mpr hb
    revert m
    decide +kernel
  · obtain ⟨⟨n, m⟩, others, rfl, rfl, hothers⟩ := List.map_eq_cons_iff.mp hmacros
    obtain ⟨⟨k, last⟩, none, rfl, rfl, hnone⟩ := List.map_eq_cons_iff.mp hothers
    obtain rfl := List.map_eq_nil_iff.mp hnone
    have hn := (hentries.mem_iff n _).mp List.mem_cons_self
    have hk := (hentries.mem_iff k _).mp (List.mem_cons_of_mem _ List.mem_cons_self)
    obtain rfl := hfirst n (hlength ▸ hn.defined.lt_length) hn.defined
    obtain rfl := hsecond k (hlength ▸ hk.defined.lt_length) hk.defined
    exact hentries

/-- Some line in scope undefines the name, and no line in scope behind it defines it. -/
def EndsUndefined (scope : Option Path) (lines : List (List Char)) (name : String) : Prop :=
  ∃ k, UndefinesAt scope lines k name ∧
    ∀ n m, DefinesAt scope lines n m → m.name = name → n < k

/-- The lines in files under the scope decide, whatever stands in other files: a name is free when
the last of them about it undefines it, and has a macro when that one defines it. -/
theorem ofDump_endsUndefined (dump : String) (scope : Option Path) (name : String) :
    (EndsUndefined scope (linesOf dump) name → ∀ m ∈ ofDump dump scope, m.name ≠ name) ∧
      (EndsDefined scope (linesOf dump) name → ∃ m ∈ ofDump dump scope, m.name = name) := by
  refine ⟨?_, exists_mem_macrosOf_iff.mpr⟩
  rintro ⟨k, hundefined, hlast⟩ m hm hname
  obtain ⟨n, other, hdefined, hother, hkept⟩ := exists_mem_macrosOf_iff.mp ⟨m, hm, hname⟩
  exact hkept k (hlast n other hdefined hother) hundefined

/-- A header with two macros, one undefined by itself and one by the header behind it. -/
def borrowedDump : String :=
  "# 1 \"/inc/a.h\"\n#define LIMIT 1\n#define TEMP 2\n#undef TEMP\n# 1 \"/inc/b.h\"\n#undef LIMIT\n"

def borrowedLines : List (List Char) :=
  ["# 1 \"/inc/a.h\"", "#define LIMIT 1", "#define TEMP 2", "#undef TEMP", "# 1 \"/inc/b.h\"",
    "#undef LIMIT"].map String.toList

theorem linesOf_borrowedDump : linesOf borrowedDump = borrowedLines := by
  decide +kernel

theorem lt_of_definesAt_borrowedLines {n : Nat} {m : Macro}
    (h : DefinesAt scope borrowedLines n m) : n < 3 := by
  have hlength : n < 6 := h.lt_length
  have hundefined (k : Nat) (name : String) (hk : UndefinesAt none borrowedLines k name) :
      n ≠ k := by
    rintro rfl
    exact h.not_undefinesAt name hk
  have hmarker : n ≠ 4 := by
    rintro rfl
    have hline : borrowedLines[4]?.bind Directive.ofLine? = some (.marker "/inc/b.h") := by
      decide +kernel
    have hdefine := hline.symm.trans (definesAt_iff.mp h).1
    cases hdefine
  have hthird := hundefined 3 "TEMP" (by decide +kernel)
  have hlast := hundefined 5 "LIMIT" (by decide +kernel)
  omega

theorem endsUndefined_borrowedLines : EndsUndefined (some "/inc/a.h") borrowedLines "TEMP" :=
  ⟨3, by decide +kernel, fun _ _ h _ => lt_of_definesAt_borrowedLines h⟩

theorem endsDefined_borrowedLines : EndsDefined (some "/inc/a.h") borrowedLines "LIMIT" := by
  have hnone : ∀ k < 6, ¬ UndefinesAt (some "/inc/a.h") borrowedLines k "LIMIT" := by
    decide +kernel
  refine ⟨1, ofText "LIMIT" [' ', '1'], by decide +kernel, rfl, fun k _ h => ?_⟩
  exact hnone k h.lt_length h

theorem ofDump_endsUndefined_borrowed :
    EndsUndefined (some "/inc/a.h") (linesOf borrowedDump) "TEMP" ∧
      EndsDefined (some "/inc/a.h") (linesOf borrowedDump) "LIMIT" ∧
      (∀ m ∈ ofDump borrowedDump (some "/inc/a.h"), m.name ≠ "TEMP") ∧
      ∃ m ∈ ofDump borrowedDump (some "/inc/a.h"), m.name = "LIMIT" := by
  have htemp := endsUndefined_borrowedLines
  have hlimit := endsDefined_borrowedLines
  rw [← linesOf_borrowedDump] at htemp hlimit
  exact ⟨htemp, hlimit, (ofDump_endsUndefined borrowedDump (some "/inc/a.h") "TEMP").1 htemp,
    (ofDump_endsUndefined borrowedDump (some "/inc/a.h") "LIMIT").2 hlimit⟩

/-- A macro is left although the last line about it undefines it, in a file outside the scope. -/
theorem exists_mem_ofDump_endsUndefined :
    ∃ m ∈ ofDump borrowedDump (some "/inc/a.h"),
      EndsUndefined none (linesOf borrowedDump) m.name := by
  have hmacros : ofDump borrowedDump (some "/inc/a.h") =
      macrosOf (some "/inc/a.h") (linesOf borrowedDump) := rfl
  rw [hmacros, linesOf_borrowedDump]
  refine ⟨ofText "LIMIT" [' ', '1'], by decide +kernel, 5, by decide +kernel, fun n m h _ => ?_⟩
  exact Nat.lt_trans (lt_of_definesAt_borrowedLines h) (by decide)

end HeaderInterop.Macro
