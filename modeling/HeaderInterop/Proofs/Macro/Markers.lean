import HeaderInterop.Proofs.CType.Lexemes
import HeaderInterop.Proofs.Constant.QuotedText
import HeaderInterop.Proofs.Macro.Standing

/-!
Line markers. A marker holds the name of a file in quotes, with a backslash in front of each quote
and each backslash of the name, and is read back to that name whatever stands behind it. The lines
from there to the next marker stand in that file.
-/

namespace HeaderInterop

namespace Text

theorem linesFrom_newline (current rest : List Char) :
    linesFrom current ('\n' :: rest) = dropReturn current.reverse :: lines rest :=
  rfl

theorem linesFrom_cons {c : Char} (hc : c ≠ '\n') (current rest : List Char) :
    linesFrom current (c :: rest) = linesFrom (c :: current) rest := by
  rw [linesFrom]
  exact hc

theorem linesFrom_append (front current back : List Char) :
    linesFrom current (front ++ '\n' :: back) =
      linesFrom current (front ++ ['\n']) ++ lines back := by
  induction front generalizing current with
  | nil => rfl
  | cons c front ih =>
    rw [List.cons_append, List.cons_append]
    by_cases hc : c = '\n'
    · subst hc
      rw [linesFrom_newline, linesFrom_newline, lines, lines, ih, List.cons_append]
    · rw [linesFrom_cons hc, linesFrom_cons hc, ih]

/-- A text behind complete lines begins a line of its own. -/
theorem lines_append {front : List Char} (h : ∀ c ∈ front.getLast?, c = '\n') (back : List Char) :
    lines (front ++ back) = lines front ++ lines back := by
  cases hlast : front.getLast? with
  | none =>
    obtain rfl := List.getLast?_eq_none_iff.mp hlast
    rfl
  | some c =>
    obtain rfl := h c hlast
    obtain ⟨body, rfl⟩ := List.getLast?_eq_some_iff.mp hlast
    rw [List.append_assoc]
    exact linesFrom_append body [] back

theorem linesFrom_line {line : List Char} (h : '\n' ∉ line) (current back : List Char) :
    linesFrom current (line ++ '\n' :: back) =
      dropReturn (current.reverse ++ line) :: lines back := by
  induction line generalizing current with
  | nil => rw [List.append_nil, List.nil_append, linesFrom_newline]
  | cons c line ih =>
    have hc : c ≠ '\n' := fun heq => h (heq ▸ List.mem_cons_self)
    have hline : '\n' ∉ line := fun hmem => h (List.mem_cons_of_mem _ hmem)
    rw [List.cons_append, linesFrom_cons hc, ih hline, List.reverse_cons, List.append_assoc,
      List.singleton_append]

theorem lines_line {line : List Char} (h : '\n' ∉ line) (back : List Char) :
    lines (line ++ '\n' :: back) = dropReturn line :: lines back :=
  linesFrom_line h [] back

theorem mem_of_mem_escaped {c : Char} {text : List Char} (h : c ∈ escaped text) :
    c ∈ text ∨ c = '\\' := by
  obtain ⟨d, hd, hc⟩ := List.mem_flatMap.mp h
  split at hc
  · rcases List.mem_cons.mp hc with rfl | hc
    · exact Or.inr rfl
    · exact Or.inl (List.mem_singleton.mp hc ▸ hd)
  · exact Or.inl (List.mem_singleton.mp hc ▸ hd)

end Text

namespace Macro

/-- The line that says that the text behind it stands in the file. -/
def marker (number : Nat) (path : Path) (flags : String) : String :=
  "# " ++ toString number ++ " \"" ++ String.ofList (Text.escaped path.toList) ++ "\"" ++ flags

theorem toList_marker (number : Nat) (path : Path) (flags : String) :
    (marker number path flags).toList =
      "# ".toList ++ (Nat.toDigits 10 number ++
        ' ' :: '"' :: (Text.escaped path.toList ++ '"' :: flags.toList)) := by
  have hdigits : (toString number).toList = Nat.toDigits 10 number := Nat.toList_repr
  have hopen : " \"".toList = [' ', '"'] := by decide
  have hclose : "\"".toList = ['"'] := by decide
  simp only [marker, String.toList_append, String.toList_ofList, hdigits, hopen, hclose,
    List.append_assoc, List.cons_append, List.nil_append]

theorem unquoted?_escaped (text rest : List Char) :
    unquoted? (Text.escaped text ++ '"' :: rest) = some text := by
  induction text with
  | nil => rfl
  | cons c text ih =>
    rw [Text.escaped] at ih ⊢
    rw [List.flatMap_cons, List.append_assoc]
    by_cases hc : c = '\\' ∨ c = '"'
    · rw [if_pos hc, List.cons_append, List.singleton_append, unquoted?, ih]
      rfl
    · obtain ⟨hescape, hquote⟩ := not_or.mp hc
      rw [if_neg hc, List.singleton_append, unquoted?, ih]
      · rfl
      · exact hquote
      · intro d others hescaped
        exact absurd hescaped hescape
      · exact fun hlast => absurd hlast hescape

/-- A marker is read back to the name of the file, whatever is in the name and behind the marker. -/
theorem markerFile?_marker (number : Nat) (path : Path) (flags : String) :
    markerFile? (marker number path flags).toList = some path := by
  have hdigits : ∀ c ∈ Nat.toDigits 10 number, c.isDigit = true :=
    List.all_eq_true.mp (Text.all_isDigit_toDigits number)
  rw [toList_marker, markerFile?, Text.after?_eq_some_iff.mpr rfl]
  have hquoted (rest : List Char) :
      Text.trimStart ((Nat.toDigits 10 number ++ ' ' :: '"' :: rest).dropWhile Char.isDigit) =
        '"' :: rest := by
    rw [List.dropWhile_append_of_pos hdigits]
    rfl
  simp only [Option.some_or, Option.bind_eq_bind, Option.bind_some, hquoted, unquoted?_escaped,
    Option.map_some, String.ofList_toList]

theorem ofLine?_marker (number : Nat) (path : Path) (flags : String) :
    Directive.ofLine? (marker number path flags).toList = some (.marker path) := by
  rw [Directive.ofLine?, markerFile?_marker]

/-- What is cut off at the end of a line leaves a marker the same marker. -/
theorem exists_dropReturn_marker (number : Nat) (path : Path) (flags : String) :
    ∃ others, Text.dropReturn (marker number path flags).toList =
      (marker number path others).toList := by
  have hflags (others : String) : (marker number path others).toList =
      (marker number path "").toList ++ others.toList := by simp [toList_marker]
  have hquote : (marker number path "").toList.getLast? = some '"' := by
    rw [marker, String.append_empty, String.toList_append]
    exact List.getLast?_concat
  rw [Text.dropReturn]
  split
  next hreturn =>
    have hne : flags.toList ≠ [] := by
      intro hnil
      rw [hflags flags, hnil, List.append_nil, hquote] at hreturn
      cases hreturn
    refine ⟨String.ofList flags.toList.dropLast, ?_⟩
    rw [hflags flags, List.dropLast_append_of_ne_nil hne,
      hflags (String.ofList flags.toList.dropLast), String.toList_ofList]
  next => exact ⟨flags, rfl⟩

theorem newline_notMem_marker {path : Path} {flags : String} (hpath : '\n' ∉ path.toList)
    (hflags : '\n' ∉ flags.toList) (number : Nat) : '\n' ∉ (marker number path flags).toList := by
  have hdigits : '\n' ∉ Nat.toDigits 10 number := by
    intro hmem
    have hdigit := List.all_eq_true.mp (Text.all_isDigit_toDigits number) _ hmem
    simp at hdigit
  have hescaped : '\n' ∉ Text.escaped path.toList := by
    intro hmem
    rcases Text.mem_of_mem_escaped hmem with hmem | hescape
    · exact hpath hmem
    · simp at hescape
  simp [toList_marker, hdigits, hescaped, hflags]

/-- A marker is read back to the name of its file, with any quotes and backslashes in it and any
text behind it. In a dump, the lines behind the marker stand in that file, up to the next marker,
and what the dump defines is what it defines up to the marker, with the directives behind the marker
counting as those of that file. -/
theorem marker_isAttributed (number : Nat) (path : Path) (flags : String) :
    markerFile? (marker number path flags).toList = some path ∧
      ('\n' ∉ path.toList → '\n' ∉ flags.toList → ∀ front back : String,
        (∀ c ∈ front.toList.getLast?, c = '\n') →
        (∀ n, (∀ line ∈ (linesOf back).take n, markerFile? line = none) →
          fileAt? (linesOf (front ++ marker number path flags ++ "\n" ++ back))
            ((linesOf front).length + 1 + n) = some path) ∧
        ∀ scope, ofDump (front ++ marker number path flags ++ "\n" ++ back) scope =
          collectFrom scope (some path) (ofDump front scope) (directives back)) := by
  refine ⟨markerFile?_marker number path flags, fun hpath hflags front back hfront => ?_⟩
  obtain ⟨others, hothers⟩ := exists_dropReturn_marker number path flags
  have hlines : linesOf (front ++ marker number path flags ++ "\n" ++ back) =
      linesOf front ++ (marker number path others).toList :: linesOf back := by
    have hnewline : "\n".toList = ['\n'] := by decide
    rw [linesOf, String.toList_append, String.toList_append, String.toList_append, hnewline,
      List.append_assoc, List.append_assoc, Text.lines_append hfront, List.singleton_append,
      Text.lines_line (newline_notMem_marker hpath hflags number), hothers]
    rfl
  refine ⟨fun n hback => ?_, fun scope => ?_⟩
  · have hbehind : ((linesOf back).take n).filterMap markerFile? = [] :=
      List.filterMap_eq_nil_iff.mpr hback
    rw [fileAt?, hlines, Nat.add_assoc, List.take_length_add_append, Nat.add_comm 1,
      List.take_succ_cons, List.filterMap_append, List.filterMap_cons, markerFile?_marker, hbehind,
      List.getLast?_concat]
  · have hdirectives : directives (front ++ marker number path flags ++ "\n" ++ back) =
        directives front ++ .marker path :: directives back := by
      have hwhole := congrArg (List.filterMap Directive.ofLine?) hlines
      rwa [List.filterMap_append, List.filterMap_cons, ofLine?_marker] at hwhole
    rw [ofDump, hdirectives, collectFrom_append]
    rfl

/-- A path with a quote in it and a backslash in front of the closing quote. -/
def quotedPath : Path := "C:\\new\"\\"

theorem marker_isAttributed_quoted :
    '\n' ∉ quotedPath.toList ∧ '\n' ∉ " 2 3".toList ∧
      (∀ c ∈ "# 1 \"/inc/a.h\"\n#define A 1\n".toList.getLast?, c = '\n') ∧
      (∀ line ∈ (linesOf "#define B 2\n#define C 3\n").take 1, markerFile? line = none) ∧
      marker 12 quotedPath " 2 3" = "# 12 \"C:\\\\new\\\"\\\\\" 2 3" ∧
      markerFile? (marker 12 quotedPath " 2 3").toList = some quotedPath ∧
      fileAt? (linesOf ("# 1 \"/inc/a.h\"\n#define A 1\n" ++ marker 12 quotedPath " 2 3" ++ "\n" ++
        "#define B 2\n#define C 3\n")) 4 = some quotedPath ∧
      ofDump ("# 1 \"/inc/a.h\"\n#define A 1\n" ++ marker 12 quotedPath " 2 3" ++ "\n" ++
          "#define B 2\n#define C 3\n") (some quotedPath) =
        [ofText "B" [' ', '2'], ofText "C" [' ', '3']] := by
  have hpath : '\n' ∉ quotedPath.toList := by decide +kernel
  have hflags : '\n' ∉ " 2 3".toList := by decide +kernel
  have hfront : ∀ c ∈ "# 1 \"/inc/a.h\"\n#define A 1\n".toList.getLast?, c = '\n' := by
    have hlast : "# 1 \"/inc/a.h\"\n#define A 1\n".toList.getLast? = some '\n' := by decide +kernel
    rw [hlast]
    rintro c ⟨⟩
    rfl
  have hback : ∀ line ∈ (linesOf "#define B 2\n#define C 3\n").take 1, markerFile? line = none := by
    decide +kernel
  obtain ⟨hmarker, hdump⟩ := marker_isAttributed 12 quotedPath " 2 3"
  obtain ⟨hlines, hmacros⟩ := hdump hpath hflags _ "#define B 2\n#define C 3\n" hfront
  have hlength : (linesOf "# 1 \"/inc/a.h\"\n#define A 1\n").length = 2 := by decide +kernel
  have hfile := hlines 1 hback
  rw [hlength] at hfile
  refine ⟨hpath, hflags, hfront, hback, by decide +kernel, hmarker, hfile, ?_⟩
  rw [hmacros]
  decide +kernel

end Macro

end HeaderInterop
