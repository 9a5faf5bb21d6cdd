import HeaderInterop.Macro.Dump
import HeaderInterop.Proofs.Macro.Numbers
import Mathlib.Data.List.TakeWhile

/-!
What a line of a dump says, apart from how it is read: which macro it defines, which name it
undefines and which file the text behind it stands in. Each form determines what it says, and the
readers find exactly the lines of their form.
-/

namespace HeaderInterop

namespace Text

variable {p : Char → Bool} {mark : Char} {text inner before rest : List Char}

theorem dropWhile_eq_iff :
    text.dropWhile p = rest ↔
      ∃ front, text = front ++ rest ∧ (∀ c ∈ front, p c = true) ∧
        ∀ c, rest.head? = some c → p c = false := by
  constructor
  · rintro rfl
    refine ⟨text.takeWhile p, List.takeWhile_append_dropWhile.symm, ?_, fun c hc => ?_⟩
    · exact List.all_eq_true.mp List.all_takeWhile
    · have hhead := List.head?_dropWhile_not p text
      rw [hc] at hhead
      simpa using hhead
  · rintro ⟨front, rfl, hfront, hrest⟩
    rw [List.dropWhile_append_of_pos hfront]
    cases rest with
    | nil => rfl
    | cons c rest => exact List.dropWhile_cons_of_neg (by simp [hrest c rfl])

/-- The text is `inner` with blanks around it, and `inner` has none at its ends. -/
structure TrimsTo (text inner : List Char) : Prop where
  parts : ∃ front back, text = front ++ (inner ++ back) ∧ (∀ c ∈ front, isBlank c = true) ∧
    ∀ c ∈ back, isBlank c = true
  starts (c : Char) : inner.head? = some c → isBlank c = false
  ends (c : Char) : inner.getLast? = some c → isBlank c = false

theorem trim_eq_iff : trim text = inner ↔ TrimsTo text inner := by
  have hback : trim text = inner ↔ ∃ back, trimStart text = inner ++ back ∧
      (∀ c ∈ back, isBlank c = true) ∧ ∀ c, inner.getLast? = some c → isBlank c = false := by
    rw [trim, List.reverse_eq_iff, dropWhile_eq_iff, List.head?_reverse]
    constructor
    · rintro ⟨back, htext, hblank, hend⟩
      refine ⟨back.reverse, ?_, fun c hc => hblank c (List.mem_reverse.mp hc), hend⟩
      rw [← List.reverse_reverse (trimStart text), htext, List.reverse_append,
        List.reverse_reverse]
    · rintro ⟨back, htext, hblank, hend⟩
      refine ⟨back.reverse, ?_, fun c hc => hblank c (List.mem_reverse.mp hc), hend⟩
      rw [htext, List.reverse_append]
  rw [hback]
  constructor
  · rintro ⟨back, htext, hblank, hend⟩
    obtain ⟨front, heq, hfront, hstart⟩ := dropWhile_eq_iff.mp htext
    refine ⟨⟨front, back, heq, hfront, hblank⟩, fun c hc => hstart c ?_, hend⟩
    rw [List.head?_append, hc, Option.some_or]
  · rintro ⟨⟨front, back, rfl, hfront, hblank⟩, hstart, hend⟩
    cases inner with
    | nil =>
      -- A text of blanks is blank at its start, so nothing of it is left.
      refine ⟨[], List.dropWhile_eq_nil_iff.mpr fun c hc => ?_, List.forall_mem_nil _, hend⟩
      exact (List.mem_append.mp hc).elim (hfront c) (hblank c)
    | cons first inner =>
      exact ⟨back, dropWhile_eq_iff.mpr ⟨front, rfl, hfront, hstart⟩, hblank, hend⟩

theorem splitAtFirst_append (h : mark ∉ before) :
    splitAtFirst mark (before ++ mark :: rest) = some (before, rest) := by
  induction before with
  | nil => exact if_pos rfl
  | cons c before ih =>
    obtain ⟨hc, hbefore⟩ := not_or.mp (mt List.mem_cons.mpr h)
    rw [List.cons_append, splitAtFirst, if_neg (Ne.symm hc), ih hbefore]
    rfl

theorem splitAtFirst_eq_none (h : mark ∉ text) : splitAtFirst mark text = none := by
  induction text with
  | nil => rfl
  | cons c text ih =>
    obtain ⟨hc, htext⟩ := not_or.mp (mt List.mem_cons.mpr h)
    rw [splitAtFirst, if_neg (Ne.symm hc), ih htext]
    rfl

/-- A text without the character, or one taken apart where the character stands first. -/
theorem notMem_or_exists_first (mark : Char) (text : List Char) :
    mark ∉ text ∨ ∃ before rest, text = before ++ mark :: rest ∧ mark ∉ before := by
  by_cases h : mark ∈ text
  · obtain ⟨before, rest, heq, hbefore⟩ := List.eq_append_cons_of_mem h
    exact Or.inr ⟨before, rest, heq, hbefore⟩
  · exact Or.inl h

end Text

namespace Macro

/-! Definitions. -/

/-- The characters make a name of a macro. -/
def IsName (name : List Char) : Prop :=
  name ≠ [] ∧ ∀ c ∈ name, Text.isNamePart c = true

/-- What the text behind `#define` defines: the longest name at its start, with what is behind the
name. A parenthesis right behind the name opens a list of parameters, and the contents begin behind
the parenthesis that closes the list; there are none when nothing closes it. -/
inductive IsDefinition : List Char → Macro → Prop
  | object {name after : List Char} {value : String} (hname : IsName name)
      (hlongest : ∀ c, after.head? = some c → Text.isNamePart c = false)
      (hopen : after.head? ≠ some '(') (hvalue : Text.TrimsTo after value.toList) :
      IsDefinition (name ++ after) { name := String.ofList name, value }
  | function {name parameters after : List Char} {value : String} (hname : IsName name)
      (hclose : ')' ∉ parameters) (hvalue : Text.TrimsTo after value.toList) :
      IsDefinition (name ++ '(' :: (parameters ++ ')' :: after))
        { name := String.ofList name, value, functionLike := true }
  | unclosed {name after : List Char} (hname : IsName name) (hclose : ')' ∉ after) :
      IsDefinition (name ++ '(' :: after)
        { name := String.ofList name, value := "", functionLike := true }

section Definitions

variable {name after parameters : List Char} {value : String}

theorem trim_eq_toList_iff :
    String.ofList (Text.trim after) = value ↔ Text.TrimsTo after value.toList := by
  rw [← Text.trim_eq_iff]
  constructor
  · rintro rfl
    rw [String.toList_ofList]
  · intro h
    rw [h, String.ofList_toList]

/-- The name that the reader finds is the one at the start of the text. -/
theorem takeWhile_dropWhile_name (hname : IsName name)
    (hlongest : ∀ c, after.head? = some c → Text.isNamePart c = false) :
    (name ++ after).takeWhile Text.isNamePart = name ∧
      (name ++ after).dropWhile Text.isNamePart = after := by
  have hdrop : (name ++ after).dropWhile Text.isNamePart = after :=
    Text.dropWhile_eq_iff.mpr ⟨name, rfl, hname.2, hlongest⟩
  have hsplit := List.takeWhile_append_dropWhile (p := Text.isNamePart) (l := name ++ after)
  rw [hdrop] at hsplit
  exact ⟨List.append_cancel_right hsplit, hdrop⟩

theorem definition?_object (hname : IsName name)
    (hlongest : ∀ c, after.head? = some c → Text.isNamePart c = false)
    (hopen : after.head? ≠ some '(') :
    definition? (name ++ after) = some (ofText (String.ofList name) after) := by
  obtain ⟨htake, hdrop⟩ := takeWhile_dropWhile_name hname hlongest
  rw [definition?, htake, hdrop, if_neg (mt List.isEmpty_iff.mp hname.1)]
  split
  next => exact absurd rfl hopen
  next => rfl

theorem definition?_open (hname : IsName name) (after : List Char) :
    definition? (name ++ '(' :: after) =
      some { ofText (String.ofList name)
          (((Text.splitAtFirst ')' ('(' :: after)).map Prod.snd).getD []) with
        functionLike := true } := by
  have hparen : ∀ c, ('(' :: after).head? = some c → Text.isNamePart c = false := by
    rintro c ⟨⟩
    decide
  obtain ⟨htake, hdrop⟩ := takeWhile_dropWhile_name hname hparen
  rw [definition?, htake, hdrop, if_neg (mt List.isEmpty_iff.mp hname.1)]
  cases Text.splitAtFirst ')' ('(' :: after) <;> rfl

theorem definition?_function (hname : IsName name) (hclose : ')' ∉ parameters) :
    definition? (name ++ '(' :: (parameters ++ ')' :: after)) =
      some { ofText (String.ofList name) after with functionLike := true } := by
  have hopen : ')' ∉ '(' :: parameters := by simp [hclose]
  have hsplit : Text.splitAtFirst ')' ('(' :: (parameters ++ ')' :: after)) =
      some ('(' :: parameters, after) := Text.splitAtFirst_append hopen
  rw [definition?_open hname, hsplit]
  rfl

theorem definition?_unclosed (hname : IsName name) (hclose : ')' ∉ after) :
    definition? (name ++ '(' :: after) =
      some { name := String.ofList name, value := "", functionLike := true } := by
  have hopen : ')' ∉ '(' :: after := by simp [hclose]
  rw [definition?_open hname, Text.splitAtFirst_eq_none hopen]
  rfl

theorem isDefinition_of_eq_some {text : List Char} {m : Macro}
    (h : definition? text = some m) : IsDefinition text m := by
  let name := text.takeWhile Text.isNamePart
  let after := text.dropWhile Text.isNamePart
  have hsplit : name ++ after = text := List.takeWhile_append_dropWhile
  have hname : IsName name := by
    refine ⟨fun hnil => ?_, List.all_eq_true.mp List.all_takeWhile⟩
    have hempty : (text.takeWhile Text.isNamePart).isEmpty = true :=
      List.isEmpty_iff.mpr hnil
    rw [definition?, if_pos hempty] at h
    cases h
  obtain ⟨-, -, -, hlongest⟩ :=
    Text.dropWhile_eq_iff.mp (show text.dropWhile Text.isNamePart = after from rfl)
  rw [← hsplit] at h ⊢
  by_cases hopen : after.head? = some '('
  · obtain ⟨rest, hrest⟩ := List.head?_eq_some_iff.mp hopen
    rw [hrest] at h ⊢
    rcases Text.notMem_or_exists_first ')' rest with hclose | ⟨parameters, body, rfl, hclose⟩
    · rw [definition?_unclosed hname hclose] at h
      rw [← Option.some.inj h]
      exact .unclosed hname hclose
    · rw [definition?_function hname hclose] at h
      rw [← Option.some.inj h]
      exact .function hname hclose (trim_eq_toList_iff.mp rfl)
  · rw [definition?_object hname hlongest hopen] at h
    rw [← Option.some.inj h]
    exact .object hname hlongest hopen (trim_eq_toList_iff.mp rfl)

theorem definition?_eq_some_iff {text : List Char} {m : Macro} :
    definition? text = some m ↔ IsDefinition text m := by
  refine ⟨isDefinition_of_eq_some, fun h => ?_⟩
  cases h with
  | object hname hlongest hopen hvalue =>
    rw [definition?_object hname hlongest hopen, ofText, trim_eq_toList_iff.mpr hvalue]
  | function hname hclose hvalue =>
    rw [definition?_function hname hclose, ofText, trim_eq_toList_iff.mpr hvalue]
  | unclosed hname hclose => exact definition?_unclosed hname hclose

end Definitions

/-- The line defines the macro. -/
def Defines (line : List Char) (m : Macro) : Prop :=
  ∃ text, line = "#define ".toList ++ text ∧ IsDefinition text m

/-- The line undefines the name, which has no blanks at its ends. -/
def Undefines (line : List Char) (name : String) : Prop :=
  ∃ text, line = "#undef ".toList ++ text ∧ Text.TrimsTo text name.toList

/-! Markers. -/

/-- The text from behind an opening quote is `inner` with its closing quote, where a backslash
stands for the character behind it, and more text. -/
inductive Quotes : List Char → List Char → Prop
  | close (rest : List Char) : Quotes ('"' :: rest) []
  | escape {c : Char} {text inner : List Char} (h : Quotes text inner) :
      Quotes ('\\' :: c :: text) (c :: inner)
  | plain {c : Char} {text inner : List Char} (hquote : c ≠ '"') (hescape : c ≠ '\\')
      (h : Quotes text inner) : Quotes (c :: text) (c :: inner)

theorem unquoted?_eq_some_iff {text inner : List Char} :
    unquoted? text = some inner ↔ Quotes text inner := by
  constructor
  · intro h
    induction text using unquoted?.induct generalizing inner with
    | case1 => cases h
    | case2 rest =>
      obtain rfl : [] = inner := Option.some.inj h
      exact .close rest
    | case3 c rest ih =>
      rw [unquoted?] at h
      obtain ⟨tail, htail, rfl⟩ := Option.map_eq_some_iff.mp h
      exact .escape (ih htail)
    | case4 => cases h
    | case5 c rest hquote hescaped hescape ih =>
      rw [unquoted?] at h
      · obtain ⟨tail, htail, rfl⟩ := Option.map_eq_some_iff.mp h
        refine .plain hquote (fun heq => ?_) (ih htail)
        cases rest with
        | nil => exact hescape heq rfl
        | cons d rest => exact hescaped d rest heq rfl
      · exact hquote
      · exact hescaped
      · exact hescape
  · intro h
    induction h with
    | close rest => rfl
    | escape h ih =>
      rw [unquoted?, ih]
      rfl
    | plain hquote hescape h ih =>
      rw [unquoted?, ih]
      · rfl
      · exact hquote
      · exact fun d rest heq => absurd heq hescape
      · exact fun heq => absurd heq hescape

/-- The line says that the text behind it stands in the file: it begins with a number and the
quoted name of the file. -/
def Marks (line : List Char) (file : Path) : Prop :=
  ∃ start digits blanks quoted,
    line = start ++ (digits ++ (blanks ++ '"' :: quoted)) ∧
      (start = "# ".toList ∨ start = "#line ".toList) ∧ (∀ c ∈ digits, c.isDigit = true) ∧
      (∀ c ∈ blanks, Text.isBlank c = true) ∧ Quotes quoted file.toList

/-- What is read of a marker behind its first word. -/
def quotedFile? (text : List Char) : Option Path :=
  match Text.trimStart (text.dropWhile Char.isDigit) with
  | '"' :: quoted => (unquoted? quoted).map String.ofList
  | _ => none

theorem quotedFile?_eq_some_iff {text : List Char} {file : Path} :
    quotedFile? text = some file ↔
      ∃ digits blanks quoted, text = digits ++ (blanks ++ '"' :: quoted) ∧
        (∀ c ∈ digits, c.isDigit = true) ∧ (∀ c ∈ blanks, Text.isBlank c = true) ∧
        Quotes quoted file.toList := by
  constructor
  · intro h
    unfold quotedFile? at h
    split at h
    next quoted hquoted =>
      obtain ⟨digits, htext, hdigits, -⟩ := Text.dropWhile_eq_iff.mp
        (show text.dropWhile Char.isDigit = text.dropWhile Char.isDigit from rfl)
      obtain ⟨blanks, hrest, hblanks, -⟩ := Text.dropWhile_eq_iff.mp hquoted
      obtain ⟨inner, hinner, rfl⟩ := Option.map_eq_some_iff.mp h
      rw [String.toList_ofList]
      exact ⟨digits, blanks, quoted, hrest ▸ htext, hdigits, hblanks,
        unquoted?_eq_some_iff.mp hinner⟩
    next => cases h
  · rintro ⟨digits, blanks, quoted, rfl, hdigits, hblanks, hquotes⟩
    have hdigitsEnd : ∀ c, (blanks ++ '"' :: quoted).head? = some c → c.isDigit = false := by
      intro c hc
      cases blanks with
      | nil =>
        obtain rfl : '"' = c := Option.some.inj hc
        rfl
      | cons blank blanks =>
        obtain rfl : blank = c := Option.some.inj hc
        refine Bool.eq_false_iff.mpr fun hdigit => ?_
        have hblank := hblanks blank List.mem_cons_self
        rw [Text.isBlank_eq_false_of_isDigit hdigit] at hblank
        cases hblank
    have hrest := Text.dropWhile_eq_iff.mpr ⟨digits, rfl, hdigits, hdigitsEnd⟩
    have hquoted : Text.trimStart (blanks ++ '"' :: quoted) = '"' :: quoted :=
      Text.dropWhile_eq_iff.mpr ⟨blanks, rfl, hblanks, by rintro c ⟨⟩; decide⟩
    have hinner := unquoted?_eq_some_iff.mpr hquotes
    simp only [quotedFile?, hrest, hquoted, hinner, Option.map_some, String.ofList_toList]

theorem markerFile?_eq (line : List Char) :
    markerFile? line =
      ((Text.after? "# ".toList line).or (Text.after? "#line ".toList line)).bind quotedFile? :=
  rfl

theorem markerFile?_eq_some_iff {line : List Char} {file : Path} :
    markerFile? line = some file ↔ Marks line file := by
  rw [markerFile?_eq, Option.bind_eq_some_iff]
  constructor
  · rintro ⟨text, htext, hfile⟩
    obtain ⟨digits, blanks, quoted, rfl, hparts⟩ := quotedFile?_eq_some_iff.mp hfile
    rcases Option.or_eq_some_iff.mp htext with hshort | ⟨-, hlong⟩
    · exact ⟨_, digits, blanks, quoted, Text.after?_eq_some_iff.mp hshort, Or.inl rfl, hparts⟩
    · exact ⟨_, digits, blanks, quoted, Text.after?_eq_some_iff.mp hlong, Or.inr rfl, hparts⟩
  · rintro ⟨start, digits, blanks, quoted, rfl, hstart, hparts⟩
    have hfile := quotedFile?_eq_some_iff.mpr ⟨digits, blanks, quoted, rfl, hparts⟩
    refine ⟨_, ?_, hfile⟩
    rcases hstart with rfl | rfl
    · rw [Text.after?_eq_some_iff.mpr rfl, Option.some_or]
    · -- The longer word does not begin with the shorter one.
      have hshort : Text.after? "# ".toList
          ("#line ".toList ++ (digits ++ (blanks ++ '"' :: quoted))) = none := rfl
      rw [hshort, Text.after?_eq_some_iff.mpr rfl, Option.none_or]

end Macro

end HeaderInterop
