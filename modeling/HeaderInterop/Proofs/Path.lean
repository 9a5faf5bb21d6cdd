import HeaderInterop.Path

/-!
Components of joined paths. A relative path adds its components to those of the path that it is
joined to, whether or not that one ends in a slash, and a plain name is one component.
-/

namespace HeaderInterop.Path

/-- A text that is the name of something in a directory, not a way to another one. -/
def IsPlainName (text : String) : Prop :=
  '/' ∉ text.toList ∧ text.toList ≠ [] ∧ text.toList ≠ ['.'] ∧ text.toList ≠ ['.', '.']

instance (text : String) : Decidable (IsPlainName text) :=
  inferInstanceAs (Decidable (_ ∧ _ ∧ _ ∧ _))

theorem piecesFrom_append (current before after : List Char) :
    piecesFrom current (before ++ '/' :: after) =
      piecesFrom current before ++ piecesFrom [] after := by
  induction before generalizing current with
  | nil => simp [piecesFrom]
  | cons c rest ih =>
    by_cases hc : c = '/'
    · subst hc
      simp [piecesFrom, ih]
    · simp [piecesFrom, ih]

theorem piecesFrom_of_notMem (current : List Char) {text : List Char} (h : '/' ∉ text) :
    piecesFrom current text = [current.reverse ++ text] := by
  induction text generalizing current with
  | nil => simp [piecesFrom]
  | cons c rest ih =>
    rw [List.mem_cons, not_or] at h
    have hc : c ≠ '/' := fun heq => h.1 heq.symm
    simp [piecesFrom, ih _ h.2]

theorem piecesFrom_ne_nil (current text : List Char) : piecesFrom current text ≠ [] := by
  induction text generalizing current with
  | nil => simp [piecesFrom]
  | cons c rest ih =>
    by_cases hc : c = '/'
    · simp [piecesFrom, hc]
    · simpa [piecesFrom] using ih (c :: current)

theorem head?_piecesFrom_append (before after : List Char) :
    (piecesFrom [] (before ++ '/' :: after)).head? = (piecesFrom [] before).head? := by
  obtain ⟨piece, rest, hpieces⟩ := List.exists_cons_of_ne_nil (piecesFrom_ne_nil [] before)
  rw [piecesFrom_append, hpieces]
  rfl

/-- What a path has in front of its names: the root, or a dot. -/
def beginning (text : List Char) : List Component :=
  if text.head? = some '/' then [.root]
  else if (piecesFrom [] text).head? = some ['.'] then [.here] else []

theorem components_eq (path : Path) :
    path.components =
      beginning path.toList ++ (piecesFrom [] path.toList).filterMap component? := by
  unfold components beginning isAbsolute
  by_cases hroot : path.toList.head? = some '/'
  · simp [hroot]
  · by_cases hdot : (piecesFrom [] path.toList).head? = some ['.'] <;> simp [hroot, hdot]

/-- The beginning of a path does not depend on what comes behind a slash. -/
theorem beginning_append (before after other : List Char) :
    beginning (before ++ '/' :: after) = beginning (before ++ '/' :: other) := by
  have hhead (text : List Char) :
      (before ++ '/' :: text).head? = before.head?.or (some '/') := by simp
  simp only [beginning, hhead, head?_piecesFrom_append]

theorem beginning_append_of_ne_nil {before : List Char} (h : before ≠ []) (after : List Char) :
    beginning (before ++ '/' :: after) = beginning before := by
  have hhead : (before ++ '/' :: after).head? = before.head? := by
    obtain ⟨c, rest, rfl⟩ := List.exists_cons_of_ne_nil h
    rfl
  simp only [beginning, hhead, head?_piecesFrom_append]

theorem component?_of_isPlainName {name : String} (h : IsPlainName name) :
    component? name.toList = some (.name name) := by
  obtain ⟨_, hempty, hdot, hdots⟩ := h
  simp [component?, hempty, hdot, hdots]

/-- What stands behind a slash puts its components behind those of what is in front of it. -/
theorem components_of_toList {path dir : Path} {start rest : List Char}
    (hpath : path.toList = start ++ '/' :: rest)
    (hdir : dir.toList = start ++ ['/'] ∨ dir.toList = start ∧ start ≠ []) :
    path.components = dir.components ++ (piecesFrom [] rest).filterMap component? := by
  rw [components_eq path, components_eq dir, hpath, piecesFrom_append, List.filterMap_append,
    ← List.append_assoc]
  congr 1
  rcases hdir with hslash | ⟨hplain, hne⟩
  · rw [hslash, piecesFrom_append, List.filterMap_append, beginning_append start rest []]
    simp [piecesFrom, component?]
  · rw [hplain, beginning_append_of_ne_nil hne]

/-! Joining -/

theorem join_of_isAbsolute (dir : Path) {path : Path} (h : path.isAbsolute = true) :
    dir.join path = path := by
  rw [join, h, Bool.true_or, if_pos rfl]

/-- A relative path stands behind the slash at the end of the other path, or behind one that is put
there. -/
theorem exists_toList_join {dir path : Path} (hdir : dir.toList ≠ [])
    (hpath : path.isAbsolute = false) :
    ∃ start, (dir.join path).toList = start ++ '/' :: path.toList ∧
      (dir.toList = start ++ ['/'] ∨ dir.toList = start ∧ start ≠ []) := by
  have hsome : dir.isEmpty = false := by
    rw [Bool.eq_false_iff]
    exact fun hempty => hdir (by rw [String.isEmpty_iff.mp hempty]; rfl)
  rw [join, hpath, hsome, Bool.or_false, if_neg Bool.false_ne_true]
  split
  next hlast =>
    obtain ⟨start, hstart⟩ := List.getLast?_eq_some_iff.mp hlast
    exact ⟨start, by simp [hstart], Or.inl hstart⟩
  next => exact ⟨dir.toList, by simp, Or.inr ⟨rfl, hdir⟩⟩

theorem isAbsolute_join (dir path : Path) :
    (dir.join path).isAbsolute = (dir.isAbsolute || path.isAbsolute) := by
  by_cases hpath : path.isAbsolute = true
  · rw [join_of_isAbsolute dir hpath, hpath, Bool.or_true]
  rw [Bool.not_eq_true] at hpath
  rw [hpath, Bool.or_false]
  by_cases hdir : dir.toList = []
  · obtain rfl : dir = "" := String.toList_injective hdir
    have hjoin : join "" path = path := by
      rw [join, hpath]
      rfl
    rw [hjoin, hpath]
    rfl
  · obtain ⟨start, hjoin, hstart⟩ := exists_toList_join hdir hpath
    rw [isAbsolute, isAbsolute, hjoin]
    rcases hstart with hslash | ⟨hplain, _⟩
    · rw [hslash]
      cases start <;> rfl
    · rw [hplain]
      cases start with
      | nil => exact absurd hplain hdir
      | cons c rest => rfl

/-- The names of a path, and the steps up in it; a relative path may have a dot in front of them. -/
theorem filter_components (path : Path) (h : path.isAbsolute = false) :
    path.components.filter (· ≠ .here) = (piecesFrom [] path.toList).filterMap component? := by
  have hhead : path.toList.head? ≠ some '/' := by simpa [isAbsolute] using h
  have hpieces : ((piecesFrom [] path.toList).filterMap component?).filter (· ≠ .here) =
      (piecesFrom [] path.toList).filterMap component? := by
    refine List.filter_eq_self.mpr fun step hstep => ?_
    obtain ⟨piece, _, hpiece⟩ := List.mem_filterMap.mp hstep
    rw [decide_eq_true_eq]
    rintro rfl
    unfold component? at hpiece
    split at hpiece
    · cases hpiece
    · split at hpiece <;> cases hpiece
  rw [components_eq, List.filter_append, hpieces, beginning, if_neg hhead]
  split <;> simp

/-- A relative path adds its components, but for a dot at its start. -/
theorem components_join_of_relative {dir path : Path} (hdir : dir.toList ≠ [])
    (hpath : path.isAbsolute = false) :
    (dir.join path).components = dir.components ++ path.components.filter (· ≠ .here) := by
  obtain ⟨start, hjoin, hstart⟩ := exists_toList_join hdir hpath
  rw [components_of_toList hjoin hstart, filter_components path hpath]

theorem components_of_isPlainName {name : String} (h : IsPlainName name) :
    components name = [.name name] := by
  have hpieces := piecesFrom_of_notMem [] h.1
  have hhead : name.toList.head? ≠ some '/' := fun hhead => h.1 (List.mem_of_mem_head? hhead)
  rw [components_eq, hpieces]
  simp [beginning, hpieces, hhead, h.2.2.1, component?_of_isPlainName h]

theorem isAbsolute_of_isPlainName {name : String} (h : IsPlainName name) :
    isAbsolute name = false := by
  rw [isAbsolute, beq_eq_false_iff_ne]
  exact fun hhead => h.1 (List.mem_of_mem_head? hhead)

/-- A plain name joined to a path is one more component of it. -/
theorem components_join (dir : Path) {name : String} (h : IsPlainName name) :
    (dir.join name).components = dir.components ++ [.name name] := by
  have hrelative := isAbsolute_of_isPlainName h
  have hname := components_of_isPlainName h
  by_cases hdir : dir.toList = []
  · obtain rfl : dir = "" := String.toList_injective hdir
    have hjoin : join "" name = name := by
      rw [join, hrelative]
      rfl
    have hnone : components "" = [] := rfl
    rw [hjoin, hname, hnone, List.nil_append]
  · rw [components_join_of_relative hdir hrelative, hname]
    rfl

theorem fileName?_eq_some_iff {path : Path} {name : String} :
    path.fileName? = some name ↔ path.components.getLast? = some (.name name) := by
  unfold fileName?
  split
  next text hlast => rw [hlast]; simp
  next hlast => exact iff_of_false nofun (hlast name)

/-- A path ends in a plain name exactly if that is its last component. -/
theorem endsWith_iff_fileName? {path : Path} {name : String} (h : IsPlainName name) :
    path.endsWith name = true ↔ path.fileName? = some name := by
  rw [endsWith, components_of_isPlainName h, List.isSuffixOf_iff_suffix,
    List.singleton_suffix_iff_getLast?_eq_some, fileName?_eq_some_iff]

end HeaderInterop.Path
