import HeaderInterop.Code.Writer

/-!
How written code ends. A line ends in its own text, and a block in the end of its body and a brace
of its own, so the last lines of a file can be told from the last steps.
-/

namespace HeaderInterop.Code

theorem runAll_append (steps more : List Step) (writer : Writer) :
    runAll (steps ++ more) writer = runAll more (runAll steps writer) := by
  induction steps generalizing writer with
  | nil => simp [runAll]
  | cons step rest ih => simp [runAll, ih]

namespace Writer

/-- The text ends in these characters. -/
def EndsIn (writer : Writer) (chars : List Char) : Prop :=
  chars <:+ writer.text.toList

variable {writer : Writer} {chars : List Char}

theorem endsIn_line {text : String} (h : chars <:+ text.toList) (hchars : chars ≠ []) :
    (writer.line text).EndsIn (chars ++ ['\n']) := by
  obtain ⟨start, hstart⟩ := h
  have hsome : text ≠ "" := by
    rintro rfl
    exact hchars (List.append_eq_nil_iff.mp hstart).2
  refine ⟨writer.text.toList ++ (tabs writer.indent).toList ++ start, ?_⟩
  simp [line, hsome, ← hstart]

theorem EndsIn.blank (h : writer.EndsIn chars) : writer.blank.EndsIn (chars ++ ['\n']) := by
  obtain ⟨start, hstart⟩ := h
  exact ⟨start, by simp [Writer.blank, ← hstart]⟩

theorem EndsIn.brace (h : writer.EndsIn chars) (hindent : writer.indent = 1) :
    (writer.shallower.line "\x7d").EndsIn (chars ++ ['}', '\n']) := by
  obtain ⟨start, hstart⟩ := h
  exact ⟨start, by simp [shallower, line, hindent, tabs, ← hstart]⟩

/-- At the margin, a block ends in the end of its body and a brace. -/
theorem endsIn_block {header : String} {body : List Step} (hmargin : writer.indent = 0)
    (h : (runAll body ((writer.line header).line "\x7b").deeper).EndsIn chars) :
    (writer.block header (runAll body)).EndsIn (chars ++ ['}', '\n']) := by
  refine h.brace ?_
  rw [runAll_indent]
  simp [deeper, hmargin]

theorem endsIn_block_brace (header : String) (body : List Step) :
    (writer.block header (runAll body)).EndsIn ['}', '\n'] :=
  endsIn_line List.suffix_rfl (by decide)

/-- Of two ends of one text, the shorter is the end of the longer. -/
theorem EndsIn.suffix {others : List Char} (h : writer.EndsIn chars) (h' : writer.EndsIn others)
    (hlength : chars.length ≤ others.length) : chars <:+ others :=
  List.suffix_of_suffix_length_le h h' hlength

end Writer

end HeaderInterop.Code
