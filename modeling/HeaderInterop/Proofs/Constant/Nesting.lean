import HeaderInterop.Proofs.Constant.Parentheses

/-!
Nested pairs. The scan behind an opening parenthesis says yes exactly when the last token closes
that parenthesis. So stripping takes off the pairs that enclose all tokens, the outermost first, and
stops where there is none; tokens need not be balanced for that.
-/

namespace HeaderInterop.Literal

/-- The parenthesis at `first` is closed by the one at `last`: what stands between them is
balanced. -/
def IsMatched (tokens : List String) (first last : Nat) : Prop :=
  ∃ front inner back, tokens = front ++ "(" :: (inner ++ ")" :: back) ∧ front.length = first ∧
    first + inner.length + 1 = last ∧ IsBalanced inner

/-- A balanced text in front of a closing parenthesis is no longer than another one there. -/
theorem IsBalanced.length_le {inner other back others : List String} (h : IsBalanced inner)
    (hother : IsBalanced other) (heq : inner ++ ")" :: back = other ++ ")" :: others) :
    inner.length ≤ other.length := by
  refine Nat.not_lt.mp fun hlt => ?_
  have hprefix : other ++ [")"] <+: inner := by
    have hlong : other ++ [")"] <+: inner ++ ")" :: back := ⟨others, by simp [heq]⟩
    refine List.prefix_of_prefix_length_le hlong (List.prefix_append _ _) ?_
    rw [List.length_append, List.length_singleton]
    omega
  have hcount := h.count_le _ hprefix
  rw [List.count_append, List.count_append, hother.count_eq] at hcount
  exact absurd (Nat.le_of_add_le_add_left hcount) (by decide)

/-- A parenthesis is closed by one other at most. -/
theorem IsMatched.unique {tokens : List String} {first last other : Nat}
    (h : IsMatched tokens first last) (hother : IsMatched tokens first other) : last = other := by
  obtain ⟨front, inner, back, rfl, hfront, rfl, hinner⟩ := h
  obtain ⟨start, between, rest, heq, hstart, rfl, hbetween⟩ := hother
  obtain ⟨-, hrest⟩ := List.append_inj heq (hfront.trans hstart.symm)
  have hsame := (List.cons.inj hrest).2
  have hle := hinner.length_le hbetween hsame
  have hge := hbetween.length_le hinner hsame.symm
  omega

theorem forall_prefix_cons_iff {p : List String → Prop} {token : String} {tokens : List String} :
    (∀ front, front <+: token :: tokens → p front) ↔
      p [] ∧ ∀ front, front <+: tokens → p (token :: front) := by
  constructor
  · intro h
    exact ⟨h [] List.nil_prefix, fun front hfront =>
      h (token :: front) ((List.prefix_cons_inj token).mpr hfront)⟩
  · rintro ⟨hnil, hcons⟩ front hfront
    rcases List.prefix_cons_iff.mp hfront with rfl | ⟨rest, rfl, hrest⟩
    · exact hnil
    · exact hcons rest hrest

/-- The scan says yes when the last token closes as many groups as are open, and no token in front
of it does. -/
theorem closesAtEnd_eq_true_iff {depth : Nat} {rest : List String} :
    closesAtEnd depth rest = true ↔ ∃ inner, rest = inner ++ [")"] ∧
      (∀ front, front <+: inner → front.count ")" ≤ depth + front.count "(") ∧
      inner.count ")" = depth + inner.count "(" := by
  refine ⟨fun h => ?_, fun ⟨_, htokens, hle, heq⟩ => htokens ▸ closesAtEnd_append hle heq⟩
  induction rest generalizing depth with
  | nil => cases h
  | cons token rest ih =>
    by_cases hopen : token = "("
    · subst hopen
      rw [closesAtEnd_open] at h
      obtain ⟨inner, rfl, hle, heq⟩ := ih h
      refine ⟨"(" :: inner, rfl, forall_prefix_cons_iff.mpr ⟨Nat.zero_le _, ?_⟩, by simp; omega⟩
      intro front hfront
      have := hle front hfront
      simp
      omega
    · by_cases hclose : token = ")"
      · subst hclose
        cases depth with
        | zero =>
          obtain rfl : rest = [] := List.isEmpty_iff.mp h
          exact ⟨[], rfl, by simp, rfl⟩
        | succ outer =>
          rw [closesAtEnd_close] at h
          obtain ⟨inner, rfl, hle, heq⟩ := ih h
          refine ⟨")" :: inner, rfl, forall_prefix_cons_iff.mpr ⟨Nat.zero_le _, ?_⟩, by simp; omega⟩
          intro front hfront
          have := hle front hfront
          simp
          omega
      · rw [closesAtEnd_other hopen hclose] at h
        obtain ⟨inner, rfl, hle, heq⟩ := ih h
        refine ⟨token :: inner, rfl, forall_prefix_cons_iff.mpr ⟨Nat.zero_le _, ?_⟩,
          by simpa [hopen, hclose] using heq⟩
        intro front hfront
        simpa [hopen, hclose] using hle front hfront

/-- A pair encloses all tokens exactly when what it leaves is balanced. -/
theorem inside?_eq_some_iff {tokens inner : List String} :
    inside? tokens = some inner ↔ tokens = "(" :: (inner ++ [")"]) ∧ IsBalanced inner := by
  refine ⟨fun h => ?_, fun ⟨htokens, hinner⟩ => htokens ▸ hinner.inside?_enclosed⟩
  cases tokens with
  | nil => cases h
  | cons token rest =>
    rw [inside?] at h
    split at h
    next henclosed =>
      obtain ⟨hopen, hend⟩ := Bool.and_eq_true_iff.mp henclosed
      obtain ⟨between, rfl, hle, heq⟩ := closesAtEnd_eq_true_iff.mp hend
      rw [List.dropLast_concat, Option.some.injEq] at h
      subst h
      exact ⟨congrArg (· :: _) (of_decide_eq_true hopen), by simpa using hle, by simpa using heq⟩
    next => cases h

theorem inside?_eq_none_iff {tokens : List String} :
    inside? tokens = none ↔ ¬ IsMatched tokens 0 (tokens.length - 1) := by
  rw [Option.eq_none_iff_forall_ne_some, IsMatched, ← not_exists]
  refine not_congr ⟨?_, ?_⟩
  · rintro ⟨inner, hinner⟩
    obtain ⟨rfl, hbalanced⟩ := inside?_eq_some_iff.mp hinner
    exact ⟨[], inner, [], rfl, rfl, by simp, hbalanced⟩
  · rintro ⟨front, inner, back, rfl, hfront, hlength, hbalanced⟩
    obtain rfl := List.length_eq_zero_iff.mp hfront
    obtain rfl : back = [] := by simpa using hlength
    exact ⟨inner, inside?_eq_some_iff.mpr ⟨rfl, hbalanced⟩⟩

theorem inside?_stripParens (tokens : List String) : inside? (stripParens tokens) = none := by
  induction tokens using stripParens.induct with
  | case1 tokens inner h _ ih => rwa [stripParens_of_inside? h]
  | case2 tokens h => rwa [stripParens_of_inside?_eq_none h]

theorem stripParens_stripParens (tokens : List String) :
    stripParens (stripParens tokens) = stripParens tokens :=
  stripParens_of_inside?_eq_none (inside?_stripParens tokens)

/-- What is taken off is a number of pairs, around balanced tokens. -/
theorem exists_enclosed_stripParens (tokens : List String) :
    ∃ pairs, tokens = enclosed pairs (stripParens tokens) ∧
      (pairs = 0 ∨ IsBalanced (stripParens tokens)) := by
  induction tokens using stripParens.induct with
  | case1 tokens inner h _ ih =>
    obtain ⟨pairs, hpairs, hbalanced⟩ := ih
    obtain ⟨rfl, hinner⟩ := inside?_eq_some_iff.mp h
    rw [stripParens_of_inside? h]
    refine ⟨pairs + 1, by rw [enclosed, ← hpairs], Or.inr ?_⟩
    rcases hbalanced with rfl | hstripped
    · rw [enclosed] at hpairs
      rwa [← hpairs]
    · exact hstripped
  | case2 tokens h => exact ⟨0, (stripParens_of_inside?_eq_none h).symm, Or.inl rfl⟩

/-! Places in nested pairs. -/

theorem enclosed_eq_replicate (pairs : Nat) (tokens : List String) :
    enclosed pairs tokens = List.replicate pairs "(" ++ tokens ++ List.replicate pairs ")" := by
  induction pairs with
  | zero => simp [enclosed]
  | succ pairs ih =>
    rw [enclosed, ih, List.replicate_succ, List.replicate_succ']
    simp

theorem enclosed_add (outer inner : Nat) (tokens : List String) :
    enclosed (outer + inner) tokens = enclosed outer (enclosed inner tokens) := by
  induction outer with
  | zero => rw [Nat.zero_add, enclosed]
  | succ outer ih => rw [Nat.succ_add, enclosed, enclosed, ih]

/-- Each parenthesis of a number of pairs around balanced tokens is closed by the one in the same
place from the end. -/
theorem isMatched_enclosed {tokens : List String} (h : IsBalanced tokens)
    {pairs i : Nat} (hi : i < pairs) :
    IsMatched (enclosed pairs tokens) i ((enclosed pairs tokens).length - 1 - i) := by
  obtain ⟨inner, rfl⟩ : ∃ inner, pairs = i + (inner + 1) := ⟨pairs - i - 1, by omega⟩
  refine ⟨List.replicate i "(", enclosed inner tokens, List.replicate i ")", ?_, by simp, ?_,
    h.enclosed inner⟩
  · rw [enclosed_add, enclosed_eq_replicate i, enclosed]
    simp
  · simp [enclosed_eq_replicate]
    omega

/-- If a number of pairs stands around tokens and the next pair from outside is one too, then it
encloses the tokens. -/
theorem IsMatched.of_enclosed {tokens : List String} {pairs : Nat}
    (h : IsMatched (enclosed pairs tokens) pairs ((enclosed pairs tokens).length - 1 - pairs)) :
    IsMatched tokens 0 (tokens.length - 1) := by
  obtain ⟨front, inner, back, heq, hfront, hlength, hbalanced⟩ := h
  rw [enclosed_eq_replicate, List.append_assoc] at heq
  obtain ⟨-, hrest⟩ := List.append_inj heq (by rw [List.length_replicate, hfront])
  have hwhole := congrArg List.length hrest
  simp [enclosed_eq_replicate] at hlength hwhole
  have hsplit : tokens ++ List.replicate pairs ")" = ("(" :: (inner ++ [")"])) ++ back := by
    simp [hrest]
  obtain ⟨rfl, -⟩ := List.append_inj hsplit (by simp; omega)
  exact ⟨[], inner, [], rfl, rfl, by simp, hbalanced⟩

/-- Stripping takes off the largest number of pairs in which each parenthesis of the front is closed
by the one in its place from the end. No pair encloses what is left, so nothing more comes off. -/
theorem stripParens_isMaximal (tokens : List String) :
    (∃ pairs, tokens = List.replicate pairs "(" ++ stripParens tokens ++ List.replicate pairs ")" ∧
        ∀ n, (∀ i < n, IsMatched tokens i (tokens.length - 1 - i)) ↔ n ≤ pairs) ∧
      ¬ IsMatched (stripParens tokens) 0 ((stripParens tokens).length - 1) ∧
      stripParens (stripParens tokens) = stripParens tokens := by
  have hleft : ¬ IsMatched (stripParens tokens) 0 ((stripParens tokens).length - 1) :=
    inside?_eq_none_iff.mp (inside?_stripParens tokens)
  refine ⟨?_, hleft, stripParens_stripParens tokens⟩
  obtain ⟨pairs, htokens, hbalanced⟩ := exists_enclosed_stripParens tokens
  refine ⟨pairs, by rw [← enclosed_eq_replicate, ← htokens], fun n => ⟨fun hmatched => ?_, ?_⟩⟩
  · refine Nat.not_lt.mp fun hlt => ?_
    have hnext := hmatched pairs hlt
    rw [htokens] at hnext
    exact hleft hnext.of_enclosed
  · intro hle i hi
    rw [htokens]
    exact isMatched_enclosed (hbalanced.resolve_left (by omega)) (by omega)

example : stripParens ["(", "(", "a", ")", "|", "(", "b", ")", ")", ")"] =
    ["(", "(", "a", ")", "|", "(", "b", ")", ")", ")"] := by cbv

end HeaderInterop.Literal
