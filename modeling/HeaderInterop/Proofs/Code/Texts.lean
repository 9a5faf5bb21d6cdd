import HeaderInterop.Code.File
import HeaderInterop.Proofs.Code.Endings

/-!
What steps write. The text that a writer has got so far is not looked at: steps add to it what they
write into a fragment, and this depends on the indentation alone. So a kept fragment is as good as
its steps, and code is the texts of its parts one behind the other.
-/

namespace HeaderInterop.Code

namespace Writer

variable {writer fragment : Writer}

@[simp] theorem append_fragment (writer : Writer) : writer.append writer.fragment = writer := by
  simp [append, Writer.fragment]

theorem append_append (writer first second : Writer) :
    (writer.append first).append second = writer.append (first.append second) := by
  simp [append, String.append_assoc]

theorem fragment_eq (hindent : fragment.indent = writer.indent) :
    (writer.append fragment).fragment = fragment.fragment := by
  simp [Writer.fragment, hindent]

theorem line_append (hindent : fragment.indent = writer.indent) (text : String) :
    (writer.append fragment).line text = writer.append (fragment.line text) := by
  unfold line
  split <;> simp [append, hindent, String.append_assoc]

theorem blank_append : (writer.append fragment).blank = writer.append fragment.blank := by
  simp [blank, append, String.append_assoc]

theorem deeper_append : (writer.append fragment).deeper = writer.deeper.append fragment.deeper :=
  rfl

theorem shallower_append :
    (writer.deeper.append fragment).shallower = writer.append fragment.shallower :=
  rfl

end Writer

mutual

/-- A step behind a fragment may as well be written into it. -/
theorem Step.run_append (step : Step) {writer fragment : Writer}
    (hindent : fragment.indent = writer.indent) :
    step.run (writer.append fragment) = writer.append (step.run fragment) := by
  match step with
  | .line text => exact Writer.line_append hindent text
  | .blank => exact Writer.blank_append
  | .block header body =>
    have hheader : (fragment.line header).indent = writer.indent := by simp [hindent]
    have hinside : ((fragment.line header).line "\x7b").deeper.indent = writer.deeper.indent := by
      simp [Writer.deeper, hindent]
    have houtside : (runAll body ((fragment.line header).line "\x7b").deeper).shallower.indent =
        writer.indent := by
      simp [Writer.shallower, Writer.deeper, runAll_indent, hindent]
    rw [Step.run, Step.run, Writer.block, Writer.block, Writer.line_append hindent,
      Writer.line_append hheader, Writer.deeper_append, runAll_append_fragment body hinside,
      Writer.shallower_append, Writer.line_append houtside]
  | .fragment body keep =>
    cases keep with
    | false => rfl
    | true =>
      rw [Step.run, Step.run, if_pos rfl, if_pos rfl, Writer.fragment_eq hindent,
        Writer.append_append]

theorem runAll_append_fragment (steps : List Step) {writer fragment : Writer}
    (hindent : fragment.indent = writer.indent) :
    runAll steps (writer.append fragment) = writer.append (runAll steps fragment) := by
  match steps with
  | [] => rfl
  | step :: rest =>
    have hstep : (step.run fragment).indent = writer.indent :=
      (step.run_indent fragment).trans hindent
    rw [runAll, runAll, step.run_append hindent, runAll_append_fragment rest hstep]

end

/-- Steps add to the text what they write into a fragment. -/
theorem runAll_eq_append (steps : List Step) (writer : Writer) :
    runAll steps writer = writer.append (runAll steps writer.fragment) := by
  rw [← runAll_append_fragment steps writer.indent_fragment, writer.append_fragment]

/-- The text of steps at an indentation. -/
def textAt (indent : Nat) (steps : List Step) : String :=
  (runAll steps { indent }).text

theorem text_runAll (steps : List Step) (writer : Writer) :
    (runAll steps writer).text = writer.text ++ textAt writer.indent steps := by
  rw [runAll_eq_append]
  rfl

variable {indent : Nat}

@[simp] theorem textAt_nil : textAt indent [] = "" :=
  rfl

theorem textAt_append (steps more : List Step) :
    textAt indent (steps ++ more) = textAt indent steps ++ textAt indent more := by
  rw [textAt, runAll_append, text_runAll, runAll_indent]
  rfl

theorem textAt_flatMap {α : Type} (items : List α) (code : α → List Step) :
    textAt indent (items.flatMap code) =
      String.join (items.map fun item => textAt indent (code item)) := by
  induction items with
  | nil => rfl
  | cons item rest ih => rw [List.flatMap_cons, textAt_append, ih, List.map_cons, String.join_cons]

theorem textAt_block (header : String) (body : List Step) :
    textAt indent [.block header body] =
      textAt indent [.line header, .line "\x7b"] ++ textAt (indent + 1) body ++
        textAt indent [.line "\x7d"] := by
  let opened : Writer := runAll [.line header, .line "\x7b"] { indent }
  let closing : Writer := (runAll body opened.deeper).shallower
  have hopened : opened.indent = indent := runAll_indent _ _
  have hinside : opened.deeper.indent = indent + 1 := congrArg (· + 1) hopened
  have hclosing : closing.indent = indent := by
    simp [closing, Writer.shallower, runAll_indent, hinside]
  have hbody : closing.text = opened.text ++ textAt (indent + 1) body := by
    have htext := text_runAll body opened.deeper
    rwa [hinside] at htext
  have hend : textAt indent [.block header body] = (runAll [.line "\x7d"] closing).text := rfl
  rw [hend, text_runAll, hclosing, hbody]
  rfl

/-- A fragment that is kept adds the text of its steps, and one that is thrown away none. -/
theorem textAt_fragment (body : List Step) (keep : Bool) :
    textAt indent [.fragment body keep] = if keep then textAt indent body else "" := by
  cases keep with
  | false => rfl
  | true => exact String.empty_append

end HeaderInterop.Code

namespace HeaderInterop

/-- A generated file is its opening and the text of its code. -/
theorem GeneratedFile.contents_ofSteps (name rootNamespace : String) (usings : List String)
    (preamble : Option String) (code : List Code.Step) :
    (ofSteps name rootNamespace usings preamble code).contents =
      Code.textAt 0 (Code.opening rootNamespace usings preamble) ++ Code.textAt 0 code :=
  Code.textAt_append _ _

end HeaderInterop
