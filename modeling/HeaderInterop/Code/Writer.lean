/-!
Indented code. What is to be written is a tree of steps, and a writer is the text written so far
with the indentation of the next line. A block writes its body one level deeper. A fragment is
written apart, at the same indentation, and its text is kept or thrown away. `run_indent` says that
no step changes the indentation.
-/

namespace HeaderInterop.Code

inductive Step where
  | line (text : String)
  | blank
  | block (header : String) (body : List Step)
  | fragment (body : List Step) (keep : Bool)
deriving Repr

instance : Inhabited Step := ⟨.blank⟩

structure Writer where
  text : String := ""
  indent : Nat := 0
deriving DecidableEq, Repr

namespace Writer

def tabs (n : Nat) : String :=
  String.ofList (List.replicate n '\t')

/-- Writes a line; an empty one is not indented. -/
def line (writer : Writer) (text : String) : Writer :=
  if text = "" then { writer with text := writer.text ++ "\n" }
  else { writer with text := writer.text ++ tabs writer.indent ++ text ++ "\n" }

def blank (writer : Writer) : Writer :=
  { writer with text := writer.text ++ "\n" }

/-- An empty writer at the same indentation. -/
def fragment (writer : Writer) : Writer :=
  { indent := writer.indent }

/-- Adds the text of a fragment. -/
def append (writer fragment : Writer) : Writer :=
  { writer with text := writer.text ++ fragment.text }

def deeper (writer : Writer) : Writer :=
  { writer with indent := writer.indent + 1 }

def shallower (writer : Writer) : Writer :=
  { writer with indent := writer.indent - 1 }

/-- Writes a header and a body in braces, one level deeper. -/
def block (writer : Writer) (header : String) (body : Writer → Writer) : Writer :=
  (body ((writer.line header).line "\x7b").deeper).shallower.line "\x7d"

@[simp] theorem indent_line (writer : Writer) (text : String) :
    (writer.line text).indent = writer.indent := by
  unfold line
  split <;> rfl

@[simp] theorem indent_blank (writer : Writer) : writer.blank.indent = writer.indent := rfl

@[simp] theorem indent_fragment (writer : Writer) : writer.fragment.indent = writer.indent := rfl

@[simp] theorem indent_append (writer other : Writer) :
    (writer.append other).indent = writer.indent := rfl

end Writer

mutual

def Step.run : Step → Writer → Writer
  | .line text, writer => writer.line text
  | .blank, writer => writer.blank
  | .block header body, writer => writer.block header (runAll body)
  | .fragment body keep, writer =>
    if keep then writer.append (runAll body writer.fragment) else writer

def runAll : List Step → Writer → Writer
  | [], writer => writer
  | step :: rest, writer => runAll rest (step.run writer)

end

mutual

theorem Step.run_indent (step : Step) (writer : Writer) :
    (step.run writer).indent = writer.indent := by
  cases step with
  | line text => simp [Step.run]
  | blank => simp [Step.run]
  | block header body =>
    simp [Step.run, Writer.block, Writer.shallower, Writer.deeper, runAll_indent body]
  | fragment body keep => cases keep <;> simp [Step.run]

theorem runAll_indent (steps : List Step) (writer : Writer) :
    (runAll steps writer).indent = writer.indent := by
  cases steps with
  | nil => simp [runAll]
  | cons step rest => simp [runAll, runAll_indent rest, Step.run_indent step]

end

end HeaderInterop.Code
