import HeaderInterop.Text.Class

/-!
Positions. A scan that goes by positions may read outside of what it reads, cut a text inside of a
character, count below zero, or stand still. Here each of these steps is checked, and one that may
not be taken is a breach. The positions of a text are those of its bytes in UTF-8, of which only the
ones between characters cut it.
-/

namespace HeaderInterop

/-- What a scan by positions must not do. -/
inductive Breach where
  /-- Takes away more than there is. -/
  | underflow
  /-- Reads or cuts outside of the items, or cuts inside of a character. -/
  | outside
  /-- Goes on where it was, or before. -/
  | standstill
deriving DecidableEq, Repr

namespace Scan

def minus (n taken : Nat) : Except Breach Nat :=
  if taken ≤ n then .ok (n - taken) else .error .underflow

theorem minus_add (n taken : Nat) : minus (n + taken) taken = .ok n := by
  rw [minus, if_pos (Nat.le_add_left taken n), Nat.add_sub_cancel]

section Items

variable {α : Type}

def item (items : List α) (i : Nat) : Except Breach α :=
  match items[i]? with
  | some a => .ok a
  | none => .error .outside

/-- The items between two positions. -/
def slice (items : List α) (start stop : Nat) : Except Breach (List α) :=
  if start ≤ stop ∧ stop ≤ items.length then .ok ((items.drop start).take (stop - start))
  else .error .outside

/-- The first position from `i` on where the items do not go on with the class. -/
def runStop (p : α → Bool) (items : List α) (i : Nat) : Nat :=
  if h : i < items.length then
    if p items[i] then runStop p items (i + 1) else i
  else i
  termination_by items.length - i

theorem item_eq {items : List α} {i : Nat} {a : α} (h : items[i]? = some a) :
    item items i = .ok a := by
  rw [item, h]

theorem slice_append (front inside back : List α) :
    slice (front ++ inside ++ back) front.length (front ++ inside).length = .ok inside := by
  rw [slice, if_pos (by simp)]
  simp

theorem runStop_eq (p : α → Bool) (items : List α) (i : Nat) :
    runStop p items i = i + ((items.drop i).takeWhile p).length := by
  fun_induction runStop p items i with
  | case1 i h hp ih =>
    rw [List.drop_eq_getElem_cons h, List.takeWhile_cons_of_pos hp, List.length_cons, ih]
    omega
  | case2 i h hp => rw [List.drop_eq_getElem_cons h, List.takeWhile_cons_of_neg hp]; rfl
  | case3 i h => rw [List.drop_eq_nil_of_le (Nat.not_lt.mp h)]; rfl

end Items

/-! Bytes. -/

def bytes (text : List Char) : List UInt8 :=
  text.flatMap String.utf8EncodeChar

def byteLength (text : List Char) : Nat :=
  (bytes text).length

/-- The two parts of a text at a position in its bytes, unless it is inside of a character or behind
the text. -/
def cut? : Nat → List Char → Option (List Char × List Char)
  | 0, text => some ([], text)
  | _ + 1, [] => none
  | n + 1, c :: rest =>
    if c.utf8Size ≤ n + 1 then
      (cut? (n + 1 - c.utf8Size) rest).map fun parts => (c :: parts.1, parts.2)
    else none

/-- The text from a position in its bytes on. -/
def sliceFrom (text : List Char) (start : Nat) : Except Breach (List Char) :=
  match cut? start text with
  | some parts => .ok parts.2
  | none => .error .outside

/-- The text between two positions in its bytes. -/
def sliceText (text : List Char) (start stop : Nat) : Except Breach (List Char) :=
  if start ≤ stop then do
    let rest ← sliceFrom text start
    match cut? (stop - start) rest with
    | some parts => .ok parts.1
    | none => .error .outside
  else .error .outside

theorem bytes_append (front back : List Char) : bytes (front ++ back) = bytes front ++ bytes back :=
  List.flatMap_append

theorem bytes_cons (c : Char) (rest : List Char) :
    bytes (c :: rest) = String.utf8EncodeChar c ++ bytes rest :=
  List.flatMap_cons

theorem byteLength_nil : byteLength [] = 0 := rfl

theorem byteLength_cons (c : Char) (rest : List Char) :
    byteLength (c :: rest) = c.utf8Size + byteLength rest := by
  rw [byteLength, bytes_cons, List.length_append, String.length_utf8EncodeChar, byteLength]

theorem byteLength_append (front back : List Char) :
    byteLength (front ++ back) = byteLength front + byteLength back := by
  rw [byteLength, bytes_append, List.length_append, byteLength, byteLength]

theorem byteLength_concat {c : Char} (hc : c.utf8Size = 1) (front : List Char) :
    byteLength (front ++ [c]) = byteLength front + 1 := by
  rw [byteLength_append, byteLength_cons, hc, byteLength_nil]

theorem byteLength_lt_append {front back : List Char} (h : back ≠ []) :
    byteLength front < byteLength (front ++ back) := by
  cases back with
  | nil => exact absurd rfl h
  | cons c back =>
    have := c.utf8Size_pos
    rw [byteLength_append, byteLength_cons]
    omega

theorem drop_bytes (front back : List Char) :
    (bytes (front ++ back)).drop (byteLength front) = bytes back := by
  rw [bytes_append, byteLength, List.drop_left]

/-- A text is cut at the positions between its characters, and nowhere else. -/
theorem cut?_eq_some_iff {n : Nat} {text front back : List Char} :
    cut? n text = some (front, back) ↔ text = front ++ back ∧ byteLength front = n := by
  fun_induction cut? n text generalizing front with
  | case1 text =>
    constructor
    · rintro ⟨⟩
      exact ⟨rfl, rfl⟩
    · rintro ⟨rfl, hlength⟩
      cases front with
      | nil => rfl
      | cons c front =>
        have := c.utf8Size_pos
        rw [byteLength_cons] at hlength
        omega
  | case2 n =>
    refine iff_of_false (by simp) ?_
    rintro ⟨htext, hlength⟩
    obtain ⟨rfl, -⟩ := List.append_eq_nil_iff.mp htext.symm
    cases hlength
  | case3 n c rest hle ih =>
    simp only [Option.map_eq_some_iff, Prod.mk.injEq, Prod.exists]
    constructor
    · rintro ⟨inner, others, hcut, rfl, rfl⟩
      obtain ⟨rfl, hlength⟩ := ih.mp hcut
      exact ⟨rfl, by rw [byteLength_cons, hlength]; omega⟩
    · rintro ⟨htext, hlength⟩
      cases front with
      | nil => cases hlength
      | cons d front =>
        obtain ⟨rfl, rfl⟩ := List.cons.inj htext
        rw [byteLength_cons] at hlength
        exact ⟨front, back, ih.mpr ⟨rfl, by omega⟩, rfl, rfl⟩
  | case4 n c rest hlt =>
    refine iff_of_false (by simp) ?_
    rintro ⟨htext, hlength⟩
    cases front with
    | nil => cases hlength
    | cons d front =>
      obtain ⟨rfl, rfl⟩ := List.cons.inj htext
      rw [byteLength_cons] at hlength
      omega

theorem sliceFrom_append (front back : List Char) :
    sliceFrom (front ++ back) (byteLength front) = .ok back := by
  rw [sliceFrom, cut?_eq_some_iff.mpr ⟨rfl, rfl⟩]

example : sliceFrom ['é', ')'] 1 = .error .outside := rfl

theorem sliceText_append (front inside back : List Char) :
    sliceText (front ++ inside ++ back) (byteLength front) (byteLength (front ++ inside)) =
      .ok inside := by
  have hcut : cut? (byteLength (front ++ inside) - byteLength front) (inside ++ back) =
      some (inside, back) := by
    rw [byteLength_append, Nat.add_sub_cancel_left]
    exact cut?_eq_some_iff.mpr ⟨rfl, rfl⟩
  have hle : byteLength front ≤ byteLength (front ++ inside) := by
    rw [byteLength_append]
    exact Nat.le_add_right _ _
  rw [sliceText, if_pos hle, List.append_assoc, sliceFrom_append]
  change (match cut? _ (inside ++ back) with
    | some parts => Except.ok parts.1
    | none => Except.error Breach.outside) = _
  rw [hcut]

/-! Bytes as characters. -/

/-- A class of ASCII characters. -/
def OnlyAscii (p : Char → Bool) : Prop :=
  ∀ c, p c = true → c.toNat ≤ 127

theorem OnlyAscii.eq_false {p : Char → Bool} (hp : OnlyAscii p) {c : Char} (h : 127 < c.toNat) :
    p c = false :=
  Bool.eq_false_iff.mpr fun hc => Nat.not_le.mpr h (hp c hc)

theorem onlyAscii_isNamePart : OnlyAscii Text.isNamePart := by
  intro c hc
  have hmost : c.val ≤ 'z'.val := by
    rcases Bool.or_eq_true_iff.mp hc with halphanum | hunderscore
    · rcases Bool.or_eq_true_iff.mp halphanum with halpha | hdigit
      · rcases Bool.or_eq_true_iff.mp halpha with hupper | hlower
        · exact UInt32.le_trans (of_decide_eq_true hupper).2 (by decide)
        · exact of_decide_eq_true (Bool.and_eq_true_iff.mp hlower).2
      · exact UInt32.le_trans (of_decide_eq_true (Bool.and_eq_true_iff.mp hdigit).2) (by decide)
    · rw [eq_of_beq hunderscore]
      decide
  exact Nat.le_trans (UInt32.le_iff_toNat_le.mp hmost) (by decide)

theorem onlyAscii_isDigit : OnlyAscii Char.isDigit := by
  intro c hc
  refine onlyAscii_isNamePart c ?_
  simp [Text.isNamePart, Char.isAlphanum, hc]

theorem utf8EncodeChar_of_le {c : Char} (h : c.toNat ≤ 127) :
    ∃ byte, String.utf8EncodeChar c = [byte] ∧ Char.ofUInt8 byte = c := by
  have hval : c.val.toNat ≤ 127 := h
  refine ⟨UInt8.ofNat c.val.toNat, by rw [String.utf8EncodeChar, if_pos hval], ?_⟩
  apply Char.ext
  apply UInt32.toNat_inj.mp
  change (UInt8.ofNat c.val.toNat).toUInt32.toNat = c.val.toNat
  rw [UInt8.toNat_toUInt32, UInt8.toNat_ofNat_of_lt' (Nat.lt_of_le_of_lt hval (by decide))]

theorem toNat_ofUInt8_gt {c : Char} (h : 127 < c.toNat) :
    ∀ byte ∈ String.utf8EncodeChar c, 127 < (Char.ofUInt8 byte).toNat := by
  have hval : ¬ c.val.toNat ≤ 127 := Nat.not_le.mpr h
  have hbyte : ∀ n, 127 < n → n < 256 → 127 < (Char.ofUInt8 (UInt8.ofNat n)).toNat := by
    intro n hn hlt
    change 127 < (UInt8.ofNat n).toUInt32.toNat
    rwa [UInt8.toNat_toUInt32, UInt8.toNat_ofNat_of_lt' hlt]
  unfold String.utf8EncodeChar
  simp only [if_neg hval]
  -- A character of two, three or four bytes.
  split
  · simp only [List.mem_cons, List.not_mem_nil, or_false]
    rintro byte (rfl | rfl) <;> exact hbyte _ (by omega) (by omega)
  · split
    · simp only [List.mem_cons, List.not_mem_nil, or_false]
      rintro byte (rfl | rfl | rfl) <;> exact hbyte _ (by omega) (by omega)
    · simp only [List.mem_cons, List.not_mem_nil, or_false]
      rintro byte (rfl | rfl | rfl | rfl) <;> exact hbyte _ (by omega) (by omega)

/-- A character is one byte in a class of ASCII characters, or no byte of it is. -/
theorem OnlyAscii.utf8EncodeChar {p : Char → Bool} (hp : OnlyAscii p) (c : Char) :
    (∃ byte, String.utf8EncodeChar c = [byte] ∧ Char.ofUInt8 byte = c) ∨
      p c = false ∧ ∀ byte ∈ String.utf8EncodeChar c, p (Char.ofUInt8 byte) = false := by
  rcases Nat.lt_or_ge 127 c.toNat with hlt | hle
  · exact Or.inr ⟨hp.eq_false hlt, fun byte hbyte => hp.eq_false (toNat_ofUInt8_gt hlt byte hbyte)⟩
  · exact Or.inl (utf8EncodeChar_of_le hle)

theorem length_takeWhile_bytes {p : Char → Bool} (hp : OnlyAscii p) (text : List Char) :
    ((bytes text).takeWhile fun byte => p (Char.ofUInt8 byte)).length =
      byteLength (text.takeWhile p) := by
  induction text with
  | nil => rfl
  | cons c rest ih =>
    rw [bytes_cons]
    rcases hp.utf8EncodeChar c with ⟨byte, hbytes, hbyte⟩ | ⟨hc, hnone⟩
    · rw [hbytes, List.singleton_append, List.takeWhile_cons, List.takeWhile_cons, hbyte]
      split
      · rw [List.length_cons, ih, byteLength_cons, ← String.length_utf8EncodeChar, hbytes]
        exact Nat.add_comm _ _
      · rfl
    · obtain ⟨byte, others, hbytes⟩ := List.exists_cons_of_ne_nil (@String.utf8EncodeChar_ne_nil c)
      have hbyte : p (Char.ofUInt8 byte) = false := hnone byte (hbytes ▸ List.mem_cons_self)
      rw [hbytes, List.cons_append, List.takeWhile_cons_of_neg (by simp [hbyte]),
        List.takeWhile_cons_of_neg (by simp [hc])]
      rfl

/-- A run of ASCII characters ends at the same place in the bytes as in the text. -/
theorem runStop_bytes {p : Char → Bool} (hp : OnlyAscii p) (front rest : List Char) :
    runStop (fun byte => p (Char.ofUInt8 byte)) (bytes (front ++ rest)) (byteLength front) =
      byteLength (front ++ rest.takeWhile p) := by
  rw [runStop_eq, drop_bytes, length_takeWhile_bytes hp, byteLength_append]

theorem sliceText_takeWhile (p : Char → Bool) (front rest : List Char) :
    sliceText (front ++ rest) (byteLength front) (byteLength (front ++ rest.takeWhile p)) =
      .ok (rest.takeWhile p) := by
  have hcut := sliceText_append front (rest.takeWhile p) (rest.dropWhile p)
  rwa [List.append_assoc, List.takeWhile_append_dropWhile] at hcut

/-- The byte at a position between characters, of a character or of the first part of one. -/
theorem getElem?_bytes (front rest : List Char) :
    (bytes (front ++ rest))[byteLength front]? = (bytes rest).head? := by
  rw [← List.head?_drop, drop_bytes]

/-- A byte is an ASCII character only where that character stands in the text. -/
theorem head?_bytes_eq_some_iff {rest : List Char} {c : Char} (hc : c.toNat ≤ 127) :
    (bytes rest).head?.map Char.ofUInt8 = some c ↔ rest.head? = some c := by
  cases rest with
  | nil => rfl
  | cons d rest =>
    have hascii : OnlyAscii (· == c) := by
      intro e he
      rwa [beq_iff_eq.mp he]
    rw [bytes_cons]
    rcases hascii.utf8EncodeChar d with ⟨byte, hbytes, hbyte⟩ | ⟨hd, hnone⟩
    · simp [hbytes, hbyte]
    · obtain ⟨byte, others, hbytes⟩ := List.exists_cons_of_ne_nil (@String.utf8EncodeChar_ne_nil d)
      have hbyte : (Char.ofUInt8 byte == c) = false := hnone byte (by simp [hbytes])
      simp [hbytes, beq_eq_false_iff_ne.mp hbyte, beq_eq_false_iff_ne.mp hd]

end Scan

end HeaderInterop
