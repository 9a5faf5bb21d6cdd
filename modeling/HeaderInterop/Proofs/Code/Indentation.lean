import HeaderInterop.Proofs.Code.Texts

/-!
Indentation of written code. Fragments leave no trace of their own: code is written as if the kept
ones were gone from around their steps and the others were gone altogether. Every step writes
complete lines, so one level deeper each line that is not empty gets one tab more, as long as no
line of the steps is itself broken into lines.
-/

namespace HeaderInterop.Code

/-- The lines of a text, each without its line feed. -/
def textLines (text : String) : List String :=
  (text.toList.splitOn '\n').map String.ofList

/-- A line with a tab in front, unless it is empty. -/
def tabbedLine (line : String) : String :=
  if line = "" then "" else "\t" ++ line

/-- The text with a tab in front of each line that is not empty. -/
def tabbed (text : String) : String :=
  "\n".intercalate ((textLines text).map tabbedLine)

theorem textLines_newline (before after : String) :
    textLines (before ++ "\n" ++ after) = textLines before ++ textLines after := by
  have hlist : (before ++ "\n" ++ after).toList = before.toList ++ '\n' :: after.toList := by
    simp
  rw [textLines, hlist, List.splitOn_append_cons_self, List.map_append]
  rfl

theorem textLines_ne_nil (text : String) : textLines text ≠ [] := by
  simp [textLines]

theorem tabbed_newline (before after : String) :
    tabbed (before ++ "\n" ++ after) = tabbed before ++ "\n" ++ tabbed after := by
  have hbefore : (textLines before).map tabbedLine ≠ [] := by simp [textLines_ne_nil]
  have hafter : (textLines after).map tabbedLine ≠ [] := by simp [textLines_ne_nil]
  rw [tabbed, textLines_newline, List.map_append,
    String.intercalate_append_of_ne_nil hbefore hafter]
  rfl

theorem tabbed_empty : tabbed "" = "" := by
  decide

theorem tabbed_concat (text : String) : tabbed (text ++ "\n") = tabbed text ++ "\n" := by
  simpa [tabbed_empty] using tabbed_newline text ""

/-- A text without a line feed is one line. -/
theorem tabbed_of_notMem {line : String} (h : '\n' ∉ line.toList) :
    tabbed line = tabbedLine line := by
  have hlines : textLines line = [line] := by
    simp [textLines, List.splitOn_eq_singleton h]
  simp [tabbed, hlines]

/-! What steps write is made of complete lines. -/

/-- The text is empty or ends in a line feed. -/
def EndsLine (text : String) : Prop :=
  text = "" ∨ ∃ front, text = front ++ "\n"

theorem EndsLine.append {text more : String} (htext : EndsLine text) (hmore : EndsLine more) :
    EndsLine (text ++ more) := by
  rcases hmore with rfl | ⟨front, rfl⟩
  · simpa using htext
  · exact Or.inr ⟨text ++ front, by rw [String.append_assoc]⟩

theorem EndsLine.tabbed_append {text : String} (h : EndsLine text) (more : String) :
    tabbed (text ++ more) = tabbed text ++ tabbed more := by
  rcases h with rfl | ⟨front, rfl⟩
  · simp [tabbed_empty]
  · rw [tabbed_newline, tabbed_concat]

variable {indent : Nat}

theorem textAt_cons (step : Step) (rest : List Step) :
    textAt indent (step :: rest) = textAt indent [step] ++ textAt indent rest :=
  textAt_append [step] rest

theorem textAt_line (text : String) :
    textAt indent [.line text] =
      (if text = "" then "" else Writer.tabs indent ++ text) ++ "\n" := by
  by_cases htext : text = "" <;> simp [textAt, runAll, Step.run, Writer.line, htext]

mutual

theorem Step.endsLine_textAt (step : Step) (indent : Nat) : EndsLine (textAt indent [step]) := by
  match step with
  | .line text =>
    rw [textAt_line]
    exact Or.inr ⟨_, rfl⟩
  | .blank => exact Or.inr ⟨"", rfl⟩
  | .block header body =>
    have hbrace : EndsLine (textAt indent [.line "\x7d"]) := by
      rw [textAt_line]
      exact Or.inr ⟨_, rfl⟩
    have hopening : EndsLine (textAt indent [.line header, .line "\x7b"]) := by
      rw [textAt_cons, textAt_line "\x7b", ← String.append_assoc]
      exact Or.inr ⟨_, rfl⟩
    rw [textAt_block]
    exact (hopening.append (endsLine_textAt body (indent + 1))).append hbrace
  | .fragment body keep =>
    rw [textAt_fragment]
    cases keep with
    | false => exact Or.inl rfl
    | true => exact endsLine_textAt body indent

theorem endsLine_textAt (steps : List Step) (indent : Nat) : EndsLine (textAt indent steps) := by
  match steps with
  | [] => exact Or.inl rfl
  | step :: rest =>
    rw [textAt_cons]
    exact (step.endsLine_textAt indent).append (endsLine_textAt rest indent)

end

theorem tabbed_textAt_cons (step : Step) (rest : List Step) :
    tabbed (textAt indent (step :: rest)) =
      tabbed (textAt indent [step]) ++ tabbed (textAt indent rest) := by
  rw [textAt_cons, (step.endsLine_textAt indent).tabbed_append]

/-! One level deeper. -/

/-- A line of the steps that is broken by a line feed. -/
def isBroken (line : String) : Bool :=
  line.toList.contains '\n'

mutual

/-- None of the lines that the step writes, headers included, is broken by a line feed. -/
def Step.isUnbroken : Step → Bool
  | .line text => !isBroken text
  | .blank => true
  | .block header body => !isBroken header && areUnbroken body
  | .fragment body keep => !keep || areUnbroken body

def areUnbroken : List Step → Bool
  | [] => true
  | step :: rest => step.isUnbroken && areUnbroken rest

end

theorem tabs_succ (n : Nat) : Writer.tabs (n + 1) = "\t" ++ Writer.tabs n := by
  rw [← String.toList_inj]
  simp [Writer.tabs, List.replicate_succ]

theorem textAt_succ_line {text : String} (h : isBroken text = false) :
    textAt (indent + 1) [.line text] = tabbed (textAt indent [.line text]) := by
  have htext : '\n' ∉ text.toList := by simpa [isBroken] using h
  rw [textAt_line, textAt_line, tabbed_concat]
  split
  · simp [tabbed_empty]
  · next hsome =>
    have hline : '\n' ∉ (Writer.tabs indent ++ text).toList := by simp [Writer.tabs, htext]
    rw [tabbed_of_notMem hline, tabbedLine, if_neg (by simp [hsome]), tabs_succ]
    simp only [String.append_assoc]

mutual

theorem Step.textAt_succ (step : Step) (h : step.isUnbroken = true) (indent : Nat) :
    textAt (indent + 1) [step] = tabbed (textAt indent [step]) := by
  match step with
  | .line text => exact textAt_succ_line (by simpa [Step.isUnbroken] using h)
  | .blank => exact (tabbed_concat "").symm
  | .block header body =>
    simp only [Step.isUnbroken, Bool.and_eq_true, Bool.not_eq_true'] at h
    have hopening : textAt (indent + 1) [.line header, .line "\x7b"] =
        tabbed (textAt indent [.line header, .line "\x7b"]) := by
      rw [textAt_cons, tabbed_textAt_cons, textAt_succ_line h.1, textAt_succ_line rfl]
    have hfront := endsLine_textAt [.line header, .line "\x7b"] indent
    have hbody := endsLine_textAt body (indent + 1)
    rw [textAt_block, textAt_block, hopening, areUnbroken_textAt_succ body h.2,
      textAt_succ_line rfl, (hfront.append hbody).tabbed_append, hfront.tabbed_append]
  | .fragment body keep =>
    rw [textAt_fragment, textAt_fragment]
    cases keep with
    | false => exact tabbed_empty.symm
    | true => exact areUnbroken_textAt_succ body (by simpa [Step.isUnbroken] using h) indent

/-- A level deeper, every line that is not empty has a tab more. -/
theorem areUnbroken_textAt_succ (steps : List Step) (h : areUnbroken steps = true) (indent : Nat) :
    textAt (indent + 1) steps = tabbed (textAt indent steps) := by
  match steps with
  | [] => exact tabbed_empty.symm
  | step :: rest =>
    simp only [areUnbroken, Bool.and_eq_true] at h
    rw [textAt_cons, tabbed_textAt_cons, step.textAt_succ h.1, areUnbroken_textAt_succ rest h.2]

end

/-! Fragments. -/

mutual

/-- The step without fragments, at any depth: the steps of a kept one stand in its place. -/
def Step.inlined : Step → List Step
  | .line text => [.line text]
  | .blank => [.blank]
  | .block header body => [.block header (allInlined body)]
  | .fragment body keep => if keep then allInlined body else []

def allInlined : List Step → List Step
  | [] => []
  | step :: rest => step.inlined ++ allInlined rest

end

mutual

theorem Step.runAll_inlined (step : Step) (writer : Writer) :
    runAll step.inlined writer = step.run writer := by
  match step with
  | .line _ | .blank => rfl
  | .block header body =>
    have hbody := runAll_allInlined body ((writer.line header).line "\x7b").deeper
    simp only [Step.inlined, runAll, Step.run, Writer.block, hbody]
  | .fragment body keep =>
    cases keep with
    | false => rfl
    | true =>
      have hbody := runAll_allInlined body writer
      rw [runAll_eq_append body writer] at hbody
      exact hbody

/-- Fragments come to nothing but the steps of those that are kept. -/
theorem runAll_allInlined (steps : List Step) (writer : Writer) :
    runAll (allInlined steps) writer = runAll steps writer := by
  match steps with
  | [] => rfl
  | step :: rest =>
    rw [allInlined, runAll_append, step.runAll_inlined, runAll_allInlined rest, runAll]

end

/-- Steps written into a fragment that is kept are written as they are, and those of one that is
thrown away are not written, here and at any depth. The indentation is then what it was, and one
level deeper the steps add their text with a tab in front of each line that is not empty. -/
theorem runAll_isIndented (steps : List Step) (writer : Writer) :
    writer.append (runAll steps writer.fragment) = runAll steps writer ∧
      (Step.fragment steps false).run writer = writer ∧
      runAll (allInlined steps) writer = runAll steps writer ∧
      (runAll steps writer).indent = writer.indent ∧
      ∃ added, (runAll steps writer).text = writer.text ++ added ∧
        (areUnbroken steps = true →
          (runAll steps writer.deeper).text = writer.text ++ tabbed added) := by
  refine ⟨(runAll_eq_append steps writer).symm, rfl, runAll_allInlined steps writer,
    runAll_indent steps writer, textAt writer.indent steps, text_runAll steps writer, ?_⟩
  intro hunbroken
  rw [← areUnbroken_textAt_succ steps hunbroken]
  exact text_runAll steps writer.deeper

/-- A block with fragments, of which one is thrown away, and with an empty line. -/
def nestedSteps : List Step :=
  [.block "struct A" [.fragment [.line "int x;", .fragment [.line "int y;"] false] true, .line "",
    .block "" [.blank, .line "int z;"]]]

theorem runAll_isIndented_nested :
    areUnbroken nestedSteps = true ∧
      ∃ added, (runAll nestedSteps { text := "namespace N;\n", indent := 1 }).text =
          "namespace N;\n" ++ added ∧
        (runAll nestedSteps { text := "namespace N;\n", indent := 2 }).text =
          "namespace N;\n" ++ tabbed added := by
  have hunbroken : areUnbroken nestedSteps = true := by decide
  obtain ⟨_, _, _, _, added, hadded, hdeeper⟩ :=
    runAll_isIndented nestedSteps { text := "namespace N;\n", indent := 1 }
  exact ⟨hunbroken, added, hadded, hdeeper hunbroken⟩

end HeaderInterop.Code
