import HeaderInterop.FileSystem
import HeaderInterop.Proofs.Path

/-!
What writing leaves in a file system. To make the directories of a path adds directories and changes
nothing else. A file is written where no directory stands, so no path leads elsewhere afterwards,
and a run of writes is told by the locations that the paths have before the first of them: the last
text for a location stays.
-/

namespace HeaderInterop.FileSystem

variable {files after other : FileSystem} {place : Location}

theorem entryAt?_set_self (h : place ≠ []) (entry : Entry) :
    (files.set place entry).entryAt? place = some entry := by
  simp [entryAt?, set, h]

/-! Directories -/

/-- Nothing differs but that directories stand where nothing was. -/
def AddsDirectories (files after : FileSystem) : Prop :=
  ∀ place, after.entryAt? place = files.entryAt? place ∨
    files.entryAt? place = none ∧ after.entryAt? place = some .directory

theorem AddsDirectories.refl (files : FileSystem) : files.AddsDirectories files :=
  fun _ => Or.inl rfl

theorem AddsDirectories.trans (h : files.AddsDirectories other)
    (hmore : other.AddsDirectories after) :
    files.AddsDirectories after := by
  intro place
  rcases hmore place with hsame | ⟨hnone, hmade⟩
  · rw [hsame]
    exact h place
  · rcases h place with hfirst | ⟨_, hfirst⟩
    · exact Or.inr ⟨hfirst ▸ hnone, hmade⟩
    · rw [hfirst] at hnone
      cases hnone

theorem addsDirectories_set (hnew : files.entryAt? place = none) :
    files.AddsDirectories (files.set place .directory) := by
  have hplace : place ≠ [] := by
    rintro rfl
    cases hnew
  intro other
  by_cases hother : other = place
  · subst hother
    exact Or.inr ⟨hnew, entryAt?_set_self hplace .directory⟩
  · exact Or.inl (entryAt?_set_of_ne .directory hother)

theorem addsDirectories_makeStep {step : Path.Component} {next : Location}
    (h : files.makeStep place step = some (after, next)) : files.AddsDirectories after := by
  have henter (h : ((files.enter? place step).map fun next => (files, next)) =
      some (after, next)) : files.AddsDirectories after := by
    obtain ⟨_, _, hpair⟩ := Option.map_eq_some_iff.mp h
    cases hpair
    exact .refl files
  cases step with
  | root | here | up => exact henter h
  | name text =>
    simp only [makeStep] at h
    cases hentry : files.entryAt? (place ++ [text]) with
    | some entry =>
      rw [hentry] at h
      cases entry <;> cases h
      exact .refl files
    | none =>
      simp only [hentry] at h
      split at h <;> cases h
      exact addsDirectories_set hentry

theorem addsDirectories_makeSteps (files : FileSystem) (place : Location)
    (steps : List Path.Component) :
    files.AddsDirectories (files.makeSteps place steps).1 := by
  induction steps generalizing files place with
  | nil => exact .refl files
  | cons step rest ih =>
    rw [makeSteps]
    cases hstep : files.makeStep place step with
    | none => exact .refl files
    | some made => exact (addsDirectories_makeStep hstep).trans (ih made.1 made.2)

theorem addsDirectories_makeDirectories (files : FileSystem) (path : Path) :
    files.AddsDirectories (files.makeDirectories path).1 := by
  unfold makeDirectories
  split
  · exact .refl files
  · split
    · exact addsDirectories_makeSteps files [] path.components.dropLast
    · exact addsDirectories_makeSteps files [] path.components

/-! Locations -/

theorem isUsable_eq (path : Path) :
    isUsable path = (decide (path.utf8ByteSize ≤ 4095) && decide ('\x00' ∉ path.toList)) := by
  simp [isUsable]

/-- The same locations are directories, so every path leads to the same location. -/
def SameDirectories (files other : FileSystem) : Prop :=
  ∀ place, files.isDirectory place = other.isDirectory place

theorem sameDirectories_set (h : files.isDirectory place = false) (text : String) :
    (files.set place (.file text)).SameDirectories files := by
  have hplace : place ≠ [] := by
    rintro rfl
    cases h
  intro other
  by_cases hother : other = place
  · subst hother
    rw [h]
    simp [isDirectory, entryAt?_set_self hplace]
  · simp only [isDirectory, entryAt?_set_of_ne _ hother]

theorem walk?_congr (h : files.SameDirectories other) (place : Location)
    (steps : List Path.Component) : files.walk? place steps = other.walk? place steps := by
  induction steps generalizing place with
  | nil => rfl
  | cons step rest ih =>
    have hstep : files.enter? place step = other.enter? place step := by
      cases step with
      | name text => simp only [enter?, h (place ++ [text])]
      | root | here | up => rfl
    simp only [walk?, hstep, ih]

theorem fileLocation?_congr (h : files.SameDirectories other) (path : Path) :
    files.fileLocation? path = other.fileLocation? path := by
  simp only [fileLocation?, walk?_congr h]

theorem fileLocation?_join (files : FileSystem) (dir : Path) {name : String}
    (hname : Path.IsPlainName name) :
    files.fileLocation? (dir.join name) =
      if namesDirectory (dir.join name) || !isUsable (dir.join name) || !isFileName name then none
      else (files.directory? dir).map fun parent => parent ++ [name] := by
  rw [fileLocation?, Path.components_join dir hname, List.getLast?_concat, List.dropLast_concat]
  rfl

/-- The location of a name in a directory is the directory's with the name behind it. -/
theorem exists_of_fileLocation?_join {dir : Path} {name : String} (hname : Path.IsPlainName name)
    (h : files.fileLocation? (dir.join name) = some place) :
    ∃ parent, files.directory? dir = some parent ∧ place = parent ++ [name] := by
  rw [fileLocation?_join files dir hname] at h
  simp only [Option.ite_none_left_eq_some, Option.map_eq_some_iff] at h
  obtain ⟨_, parent, hparent, rfl⟩ := h
  exact ⟨parent, hparent, rfl⟩

/-! Files -/

/-- Where a file of the path can be written: at its location, unless that is a directory. -/
def target? (files : FileSystem) (path : Path) : Option Location :=
  (files.fileLocation? path).filter fun place => !files.isDirectory place

/-- The text of the file of a path. -/
def textAt? (files : FileSystem) (path : Path) : Option String :=
  (files.fileLocation? path).bind fun place =>
    match files.entryAt? place with
    | some (.file text) => some text
    | _ => none

theorem target?_eq_some {path : Path} :
    files.target? path = some place ↔
      files.fileLocation? path = some place ∧ files.isDirectory place = false := by
  simp [target?, Option.filter_eq_some_iff]

theorem write?_eq (files : FileSystem) (path : Path) (text : String) :
    files.write? path text =
      (files.target? path).map fun place => files.set place (.file text) := by
  unfold write? target?
  cases files.fileLocation? path with
  | none => rfl
  | some place =>
    rw [Option.filter_some]
    change (Option.bind (guard ((!files.isDirectory place) = true)) fun _ =>
      some (files.set place (.file text))) = _
    cases files.isDirectory place <;> rfl

theorem target?_congr (h : files.SameDirectories other) (path : Path) :
    files.target? path = other.target? path := by
  have hdirectory : files.isDirectory = other.isDirectory := funext h
  rw [target?, target?, fileLocation?_congr h, hdirectory]

/-- The file system with a text at each of the locations. -/
def setFiles (files : FileSystem) (texts : List (Location × String)) : FileSystem :=
  texts.foldl (fun files entry => files.set entry.1 (.file entry.2)) files

/-- The last text for a location stays. -/
theorem entryAt?_setFiles {texts : List (Location × String)} (h : ∀ entry ∈ texts, entry.1 ≠ [])
    (place : Location) :
    (files.setFiles texts).entryAt? place =
      ((texts.reverse.lookup place).map Entry.file).or (files.entryAt? place) := by
  induction texts generalizing files with
  | nil => rfl
  | cons entry rest ih =>
    obtain ⟨first, text⟩ := entry
    have hfirst : first ≠ [] := h (first, text) (List.mem_cons_self ..)
    have hrest : ∀ entry ∈ rest, entry.1 ≠ [] := fun entry hentry =>
      h entry (List.mem_cons_of_mem _ hentry)
    have hstep : (files.set first (.file text)).entryAt? place =
        ((List.lookup place [(first, text)]).map Entry.file).or (files.entryAt? place) := by
      by_cases hplace : place = first
      · subst hplace
        simp [entryAt?_set_self hfirst]
      · simp [entryAt?_set_of_ne _ hplace, List.lookup_cons, beq_eq_false_iff_ne.mpr hplace]
    have hset : files.setFiles ((first, text) :: rest) =
        (files.set first (.file text)).setFiles rest := rfl
    rw [hset, ih hrest, hstep, List.reverse_cons, List.lookup_append, Option.map_or,
      Option.or_assoc]

end HeaderInterop.FileSystem
