import HeaderInterop.Proofs.Code.Indentation

/-!
Lines of code in the text of a file. A line and the header of a block stand in the text in one
piece, at whatever depth they are, so what is found in the steps is in the file.
-/

namespace HeaderInterop

/-- The text stands in one of the files, in one piece. -/
def StandsInOne (files : List GeneratedFile) (text : String) : Prop :=
  ∃ file ∈ files, text.toList <:+: file.contents.toList

theorem StandsInOne.part {files : List GeneratedFile} {text part : String}
    (h : StandsInOne files text) (hpart : part.toList <:+: text.toList) :
    StandsInOne files part := by
  obtain ⟨file, hfile, htext⟩ := h
  exact ⟨file, hfile, hpart.trans htext⟩

namespace Code

/-- The text is a line of the steps or the header of a block, at any depth. -/
inductive LineIn (text : String) : List Step → Prop where
  | line {steps} (h : Step.line text ∈ steps) : LineIn text steps
  | header {steps body} (h : Step.block text body ∈ steps) : LineIn text steps
  | inside {steps header body} (h : Step.block header body ∈ steps) (hinside : LineIn text body) :
      LineIn text steps

variable {text : String} {steps more : List Step}

theorem LineIn.mono (h : LineIn text steps) (hmore : steps ⊆ more) : LineIn text more := by
  cases h with
  | line h => exact .line (hmore h)
  | header h => exact .header (hmore h)
  | inside h hinside => exact .inside (hmore h) hinside

theorem LineIn.flatMap {α : Type} {items : List α} {code : α → List Step} {item : α}
    (hitem : item ∈ items) (h : LineIn text (code item)) : LineIn text (items.flatMap code) :=
  h.mono fun _ hstep => List.mem_flatMap.mpr ⟨item, hitem, hstep⟩

theorem infix_textAt_of_mem {indent : Nat} {step : Step} (h : step ∈ steps) :
    (textAt indent [step]).toList <:+: (textAt indent steps).toList := by
  obtain ⟨before, after, rfl⟩ := List.append_of_mem h
  rw [textAt_append, textAt_cons step after, String.toList_append, String.toList_append]
  exact List.infix_append' ..

theorem infix_textAt_line (indent : Nat) (text : String) :
    text.toList <:+: (textAt indent [.line text]).toList := by
  rw [textAt_line]
  split
  next hempty =>
    subst hempty
    exact List.nil_infix
  next =>
    rw [String.toList_append, String.toList_append]
    exact List.infix_append ..

theorem LineIn.infix_textAt (h : LineIn text steps) (indent : Nat) :
    text.toList <:+: (textAt indent steps).toList := by
  -- on the depth, for the indentation that the block has given the body
  induction h generalizing indent with
  | line h => exact (infix_textAt_line indent text).trans (infix_textAt_of_mem h)
  | header h =>
    refine List.IsInfix.trans ?_ (infix_textAt_of_mem h)
    rw [textAt_block, textAt_cons]
    simp only [String.toList_append, List.append_assoc]
    exact (infix_textAt_line indent text).trans (List.prefix_append ..).isInfix
  | inside h _ ih =>
    refine List.IsInfix.trans ?_ (infix_textAt_of_mem h)
    rw [textAt_block, String.toList_append, String.toList_append]
    exact (ih (indent + 1)).trans (List.infix_append ..)

theorem LineIn.infix_contents (h : LineIn text steps) (name rootNamespace : String)
    (usings : List String) (preamble : Option String) :
    text.toList <:+:
      (GeneratedFile.ofSteps name rootNamespace usings preamble steps).contents.toList := by
  rw [GeneratedFile.contents_ofSteps, String.toList_append]
  exact (h.infix_textAt 0).trans (List.suffix_append ..).isInfix

end Code

theorem infix_intercalate {separator part : String} {parts : List String} (h : part ∈ parts) :
    part.toList <:+: (separator.intercalate parts).toList := by
  induction parts with
  | nil => cases h
  | cons first rest ih =>
    by_cases hrest : rest = []
    · subst hrest
      have hpart : part = first := List.mem_singleton.mp h
      rw [String.intercalate_singleton]
      exact hpart ▸ List.infix_rfl
    · rw [String.intercalate_cons_of_ne_nil hrest, String.toList_append]
      rcases List.mem_cons.mp h with rfl | h
      · rw [String.toList_append, List.append_assoc]
        exact (List.prefix_append ..).isInfix
      · exact (ih h).trans (List.suffix_append ..).isInfix

end HeaderInterop
