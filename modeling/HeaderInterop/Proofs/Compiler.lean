import HeaderInterop.Compiler

/-!
Faults of the compiler. When it is run on a header and finds something wrong, it blames that header
and says so in at least one message, whichever of the two runs fails and in whatever way.
-/

namespace HeaderInterop.Compiler

variable {compiler : Compiler} {header path : Path} {messages : List String}

theorem run_diagnostics {mode : Mode}
    (h : compiler.run mode header = .error (.diagnostics path messages)) :
    path = header ∧ messages ≠ [] := by
  unfold run at h
  split at h
  next => cases h
  next answer _ =>
    split at h
    next =>
      cases hfailure : answer.failure? with
      | none =>
        rw [hfailure] at h
        cases h
      | some ending =>
        rw [hfailure] at h
        cases h
        exact ⟨rfl, List.cons_ne_nil _ _⟩
    next hlines =>
      cases h
      exact ⟨rfl, hlines⟩

theorem syntaxTree_diagnostics
    (h : compiler.syntaxTree header = .error (.diagnostics path messages)) :
    path = header ∧ messages ≠ [] := by
  unfold syntaxTree at h
  cases hrun : compiler.run .syntaxTree header with
  | error fault =>
    rw [hrun] at h
    cases h
    exact run_diagnostics hrun
  | ok dump =>
    simp only [hrun, bind, Except.bind] at h
    cases htree : (Json.parse? dump).bind Ast.Node.ofJson? with
    | none =>
      rw [htree] at h
      cases h
    | some tree =>
      rw [htree] at h
      cases h

/-- Diagnostics are of the header that was read, and there are some. -/
theorem parse_diagnostics
    (h : (compiler.parse header).value = .error (.diagnostics path messages)) :
    path = header ∧ messages ≠ [] := by
  unfold parse at h
  cases htree : compiler.syntaxTree header with
  | error fault =>
    rw [htree] at h
    cases h
    exact syntaxTree_diagnostics htree
  | ok tree =>
    rw [htree] at h
    simp only [Logged.value_bind] at h
    cases hrun : compiler.run .macroDump header with
    | error fault =>
      rw [hrun] at h
      cases h
      exact run_diagnostics hrun
    | ok dump =>
      rw [hrun] at h
      cases h

end HeaderInterop.Compiler
