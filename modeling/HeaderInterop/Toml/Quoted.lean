import HeaderInterop.Text.Class
import HeaderInterop.Text.Numeral

/-!
Quoted text of TOML: between double quotes with escapes, between single quotes without; either on
one line, or between three quotes and over several lines.
-/

namespace HeaderInterop.Toml

/-- Not a control character; the tab is none here. -/
def isPlain (c : Char) : Bool :=
  c == '\t' || (c.toNat ≥ 0x20 && c.toNat ≠ 0x7f)

/-- What follows the end of the line, if it is next. -/
def newline? : List Char → Option (List Char)
  | '\n' :: rest => some rest
  | '\r' :: '\n' :: rest => some rest
  | _ => none

theorem length_newline?_lt {cs rest : List Char} (h : newline? cs = some rest) :
    rest.length < cs.length := by
  unfold newline? at h
  split at h
  · cases h
    exact Nat.lt_succ_self _
  · cases h
    exact Nat.lt_succ_of_lt (Nat.lt_succ_self _)
  · cases h

def skipGap (cs : List Char) : List Char :=
  cs.dropWhile Text.isGap

theorem length_skipGap_le (cs : List Char) : (skipGap cs).length ≤ cs.length :=
  (List.dropWhile_sublist _).length_le

def skipComment : List Char → List Char
  | '#' :: rest => rest.dropWhile isPlain
  | cs => cs

theorem length_skipComment_le (cs : List Char) : (skipComment cs).length ≤ cs.length := by
  unfold skipComment
  split
  · exact Nat.le_succ_of_le (List.dropWhile_sublist _).length_le
  · exact Nat.le_refl _

/-- What follows gaps and ends of lines, and comments if the flag is set. -/
def skipLines (comments : Bool) (cs : List Char) : List Char :=
  let rest := if comments then skipComment (skipGap cs) else skipGap cs
  match _h : newline? rest with
  | some next => skipLines comments next
  | none => rest
  termination_by cs.length
  decreasing_by
    have := length_newline?_lt _h
    have := length_skipComment_le (skipGap cs)
    have := length_skipGap_le cs
    grind

theorem length_skipLines_le (comments : Bool) (cs : List Char) :
    (skipLines comments cs).length ≤ cs.length := by
  fun_induction skipLines comments cs with
  | case1 cs rest next h ih =>
    have := length_newline?_lt h
    have := length_skipComment_le (skipGap cs)
    have := length_skipGap_le cs
    grind
  | case2 cs rest h =>
    have := length_skipComment_le (skipGap cs)
    have := length_skipGap_le cs
    grind

/-- The character of as many hexadecimal digits; surrogates are none. -/
def codePoint? (count : Nat) (cs : List Char) : Option (Char × List Char) :=
  if cs.length < count then none
  else
    match Text.inBase? 16 (cs.take count) with
    | some code =>
      if code.isValidChar then some (Char.ofNat code, cs.drop count) else none
    | none => none

def simpleEscape? : Char → Option Char
  | '"' => some '"'
  | '\\' => some '\\'
  | 'b' => some '\x08'
  | 'e' => some '\x1b'
  | 'f' => some '\x0c'
  | 'n' => some '\n'
  | 'r' => some '\r'
  | 't' => some '\t'
  | _ => none

/-- The character of an escape after its backslash. -/
def escape? : List Char → Option (Char × List Char)
  | [] => none
  | c :: rest =>
    if c = 'x' then codePoint? 2 rest
    else if c = 'u' then codePoint? 4 rest
    else if c = 'U' then codePoint? 8 rest
    else (simpleEscape? c).map fun char => (char, rest)

theorem length_codePoint?_le {count : Nat} {cs rest : List Char} {c : Char}
    (h : codePoint? count cs = some (c, rest)) : rest.length ≤ cs.length := by
  unfold codePoint? at h
  grind

theorem length_escape?_le {cs rest : List Char} {c : Char}
    (h : escape? cs = some (c, rest)) : rest.length ≤ cs.length := by
  unfold escape? at h
  split at h
  · simp at h
  · rename_i first tail
    have hle (count : Nat) (ht : codePoint? count tail = some (c, rest)) :
        rest.length ≤ (first :: tail).length :=
      Nat.le_succ_of_le (length_codePoint?_le ht)
    split at h
    · exact hle 2 h
    · split at h
      · exact hle 4 h
      · split at h
        · exact hle 8 h
        · obtain ⟨_, _, he⟩ := Option.map_eq_some_iff.1 h
          simp only [Prod.mk.injEq] at he
          simp [← he.2]

structure Quoting where
  quote : Char
  multiline : Bool
deriving DecidableEq, Repr

namespace Quoting

def basic : Quoting := ⟨'"', false⟩

def literal : Quoting := ⟨'\'', false⟩

def basicLines : Quoting := ⟨'"', true⟩

def literalLines : Quoting := ⟨'\'', true⟩

def escapes (quoting : Quoting) : Bool :=
  quoting.quote == '"'

/-- If the closing quotes are next: what precedes them and what follows. A text of several lines
may end in one or two quotes of its own. -/
def close? (quoting : Quoting) (cs : List Char) : Option (List Char × List Char) :=
  let run := (cs.takeWhile (· = quoting.quote)).length
  if quoting.multiline then
    if run < 3 then none
    else some (List.replicate (min (run - 3) 2) quoting.quote, cs.drop (min run 5))
  else if run = 0 then none
  else some ([], cs.drop 1)

/-- Whether the character may stand for itself before `rest`. -/
def admits (quoting : Quoting) (c : Char) (rest : List Char) : Bool :=
  isPlain c || (quoting.multiline && (newline? (c :: rest)).isSome)

/-- After a backslash: what follows the end of the line and the blank start of the next. -/
def continued? (quoting : Quoting) (cs : List Char) : Option (List Char) :=
  if quoting.multiline then (newline? (skipGap cs)).map (skipLines false) else none

theorem length_continued?_le {quoting : Quoting} {cs rest : List Char}
    (h : quoting.continued? cs = some rest) : rest.length ≤ cs.length := by
  unfold continued? at h
  split at h
  · obtain ⟨next, hn, rfl⟩ := Option.map_eq_some_iff.1 h
    have := length_newline?_lt hn
    have := length_skipGap_le cs
    have := length_skipLines_le false next
    omega
  · simp at h

/-- The rest of a quoted text after its opening quotes, and what follows it. -/
def body? (quoting : Quoting) (cs : List Char) : Option (List Char × List Char) :=
  match quoting.close? cs with
  | some closed => some closed
  | none =>
    match cs with
    | [] => none
    | c :: rest =>
      if c = '\\' ∧ quoting.escapes then
        match hc : quoting.continued? rest with
        | some next =>
          have := length_continued?_le hc
          body? quoting next
        | none =>
          match he : escape? rest with
          | some (char, next) =>
            have := length_escape?_le he
            (body? quoting next).map fun (text, after) => (char :: text, after)
          | none => none
      else if quoting.admits c rest then
        (body? quoting rest).map fun (text, after) => (c :: text, after)
      else none
  termination_by cs.length

/-- A quoted text and what follows it. -/
def text? (quoting : Quoting) (cs : List Char) : Option (String × List Char) :=
  (quoting.body? cs).map fun (text, after) => (String.ofList text, after)

end Quoting

/-- The quoting that opens here, and what follows its opening quotes. The end of a line right after
three quotes is no part of the text. -/
def opening? : List Char → Option (Quoting × List Char)
  | '"' :: '"' :: '"' :: rest => some (.basicLines, (newline? rest).getD rest)
  | '\'' :: '\'' :: '\'' :: rest => some (.literalLines, (newline? rest).getD rest)
  | '"' :: rest => some (.basic, rest)
  | '\'' :: rest => some (.literal, rest)
  | _ => none

end HeaderInterop.Toml
