import Mathlib.Data.List.Nodup
import Mathlib.Data.List.TakeWhile
import HeaderInterop.Run
import HeaderInterop.Proofs.FileSystem

/-!
What writing the output leaves behind. The directories of the path are made first, and then the
files are written up to the first that cannot be. Nothing is taken back: a failure leaves the
directories and the files in front, so the file system is as before only if none of them is new.
-/

namespace HeaderInterop

namespace FileSystem

/-- Whether the file can be written into the directory. -/
def admits (files : FileSystem) (dir : Path) (file : GeneratedFile) : Bool :=
  (files.target? (dir.join file.name)).isSome

/-- The files in front of the first that cannot be written. -/
def admitted (files : FileSystem) (dir : Path) (output : List GeneratedFile) : List GeneratedFile :=
  output.takeWhile (files.admits dir)

/-- The texts of the files with their locations in the directory. -/
def textsOf (files : FileSystem) (dir : Path) (output : List GeneratedFile) :
    List (Location × String) :=
  output.filterMap fun file =>
    (files.target? (dir.join file.name)).map fun place => (place, file.contents)

theorem exists_target?_of_mem_textsOf {files : FileSystem} {dir : Path}
    {output : List GeneratedFile} {place : Location} {text : String}
    (h : (place, text) ∈ files.textsOf dir output) :
    ∃ file ∈ output, files.target? (dir.join file.name) = some place ∧ file.contents = text := by
  obtain ⟨file, hfile, hentry⟩ := List.mem_filterMap.mp h
  obtain ⟨target, htarget, hpair⟩ := Option.map_eq_some_iff.mp hentry
  cases hpair
  exact ⟨file, hfile, htarget, rfl⟩

theorem isDirectory_of_mem_textsOf {files : FileSystem} {dir : Path}
    {output : List GeneratedFile} {place : Location} {text : String}
    (h : (place, text) ∈ files.textsOf dir output) : files.isDirectory place = false := by
  obtain ⟨file, _, htarget, _⟩ := exists_target?_of_mem_textsOf h
  exact (target?_eq_some.mp htarget).2

theorem entryAt?_setFiles_textsOf (files : FileSystem) (dir : Path) (output : List GeneratedFile)
    (place : Location) :
    (files.setFiles (files.textsOf dir output)).entryAt? place =
      (((files.textsOf dir output).reverse.lookup place).map Entry.file).or
        (files.entryAt? place) := by
  refine entryAt?_setFiles ?_ place
  rintro ⟨target, text⟩ hentry rfl
  cases isDirectory_of_mem_textsOf hentry

end FileSystem

open FileSystem

theorem writeAll_nil (files : FileSystem) (dir : Path) :
    (writeAll files dir []).value = (files, .ok []) :=
  rfl

/-- What becomes of the others, given what the write of the file has left. -/
def writeRest (files : FileSystem) (dir : Path) (file : GeneratedFile) (rest : List GeneratedFile) :
    Option FileSystem → Logged (FileSystem × Except RunFault (List Path))
  | none => pure (files, .error (.output (dir.join file.name)))
  | some written => do
    .note .info ("Wrote " ++ file.summary)
    let (files, paths) ← writeAll written dir rest
    return (files, paths.map (dir.join file.name :: ·))

theorem writeAll_cons (files : FileSystem) (dir : Path) (file : GeneratedFile)
    (rest : List GeneratedFile) :
    (writeAll files dir (file :: rest)).value =
      match files.write? (dir.join file.name) file.contents with
      | none => (files, .error (.output (dir.join file.name)))
      | some written =>
        ((writeAll written dir rest).value.1,
          (writeAll written dir rest).value.2.map (dir.join file.name :: ·)) := by
  change (writeRest files dir file rest
    (files.write? (dir.join file.name) file.contents)).value = _
  cases files.write? (dir.join file.name) file.contents <;> rfl

theorem writeAll_value (files : FileSystem) (dir : Path) (output : List GeneratedFile) :
    (writeAll files dir output).value =
      (files.setFiles (files.textsOf dir (files.admitted dir output)),
        match output.find? fun file => !files.admits dir file with
        | none => .ok (output.map fun file => dir.join file.name)
        | some file => .error (.output (dir.join file.name))) := by
  induction output generalizing files with
  | nil => exact writeAll_nil files dir
  | cons file rest ih =>
    rw [writeAll_cons, write?_eq]
    cases htarget : files.target? (dir.join file.name) with
    | none =>
      have hrefused : files.admits dir file = false := by simp [admits, htarget]
      simp [admitted, textsOf, setFiles, hrefused]
    | some place =>
      have hadmitted : files.admits dir file = true := by simp [admits, htarget]
      -- the write leaves every directory, so the others have the locations they had before it
      have hsame := sameDirectories_set (target?_eq_some.mp htarget).2 file.contents
      have htargets := funext (target?_congr hsame)
      have hadmits : (files.set place (.file file.contents)).admits dir = files.admits dir := by
        funext other
        simp only [admits, htargets]
      have htexts : files.textsOf dir (files.admitted dir (file :: rest)) =
          (place, file.contents) :: files.textsOf dir (files.admitted dir rest) := by
        simp [admitted, textsOf, hadmitted, htarget]
      have hrest := ih (files.set place (.file file.contents))
      simp only [admitted, textsOf, hadmits, htargets] at hrest
      simp only [Option.map_some, hrest, htexts, List.find?_cons, hadmitted, Bool.not_true]
      refine Prod.ext rfl ?_
      cases rest.find? fun other => !files.admits dir other <;> rfl

theorem materialize_value (files : FileSystem) (dir : Path) (output : List GeneratedFile) :
    (materialize files dir output).value =
      if (files.makeDirectories dir).2 then
        (writeAll (files.makeDirectories dir).1 dir output).value
      else ((files.makeDirectories dir).1, .error (.output dir)) := by
  unfold materialize
  obtain ⟨made, way⟩ := files.makeDirectories dir
  cases way <;> rfl

/-- The text that is written last at the location. -/
def writtenText? (files : FileSystem) (dir : Path) (output : List GeneratedFile)
    (place : Location) : Option String :=
  let made := (files.makeDirectories dir).1
  if (files.makeDirectories dir).2 then
    (made.textsOf dir (made.admitted dir output)).reverse.lookup place
  else none

theorem mem_textsOf_of_writtenText? {files : FileSystem} {dir : Path}
    {output : List GeneratedFile} {place : Location} {text : String}
    (h : writtenText? files dir output place = some text) :
    (place, text) ∈ (files.makeDirectories dir).1.textsOf dir
      ((files.makeDirectories dir).1.admitted dir output) := by
  rw [writtenText?] at h
  obtain ⟨_, hlookup⟩ := Option.ite_none_right_eq_some.mp h
  obtain ⟨before, rest, hsplit, _⟩ := List.lookup_eq_some_iff.mp hlookup
  rw [← List.mem_reverse, hsplit]
  simp

theorem isDirectory_of_writtenText? {files : FileSystem} {dir : Path}
    {output : List GeneratedFile} {place : Location} {text : String}
    (h : writtenText? files dir output place = some text) :
    (files.makeDirectories dir).1.isDirectory place = false :=
  isDirectory_of_mem_textsOf (mem_textsOf_of_writtenText? h)

/-- Whether or not it fails, the output leaves what was written last, and else the directories. -/
theorem entryAt?_materialize (files : FileSystem) (dir : Path) (output : List GeneratedFile)
    (place : Location) :
    (materialize files dir output).value.1.entryAt? place =
      ((writtenText? files dir output place).map Entry.file).or
        ((files.makeDirectories dir).1.entryAt? place) := by
  rw [materialize_value, writtenText?]
  obtain ⟨made, way⟩ := files.makeDirectories dir
  cases way with
  | false => rfl
  | true =>
    simp only [if_true, writeAll_value]
    exact entryAt?_setFiles_textsOf made dir (made.admitted dir output) place

/-! Output that fails -/

/-- A failure is one of the directory, or of the first file that cannot be written. -/
theorem fault_of_materialize {files after : FileSystem} {dir : Path} {output : List GeneratedFile}
    {fault : RunFault} (h : (materialize files dir output).value = (after, .error fault)) :
    (files.makeDirectories dir).2 = false ∧ fault = .output dir ∨
      (files.makeDirectories dir).2 = true ∧
        ∃ file, (output.find? fun file => !(files.makeDirectories dir).1.admits dir file) =
          some file ∧ fault = .output (dir.join file.name) := by
  rw [materialize_value] at h
  cases hway : (files.makeDirectories dir).2 with
  | false =>
    rw [hway] at h
    cases h
    exact Or.inl ⟨rfl, rfl⟩
  | true =>
    rw [hway, if_pos rfl, writeAll_value, Prod.mk.injEq] at h
    right
    cases hfirst : output.find? fun file => !(files.makeDirectories dir).1.admits dir file with
    | none =>
      rw [hfirst] at h
      cases h.2
    | some file =>
      rw [hfirst] at h
      cases h.2
      exact ⟨rfl, file, rfl, rfl⟩

/-- A failed output is blamed on the directory or on the first file that cannot be written. The file
system is then as before exactly when no directory was missing on the way, and every location that
was written held its text already. -/
theorem materialize_error {files after : FileSystem} {dir : Path} {output : List GeneratedFile}
    {fault : RunFault} (h : (materialize files dir output).value = (after, .error fault)) :
    ((files.makeDirectories dir).2 = false ∧ fault = .output dir ∨
        (files.makeDirectories dir).2 = true ∧
          ∃ file, (output.find? fun file => !(files.makeDirectories dir).1.admits dir file) =
            some file ∧ fault = .output (dir.join file.name)) ∧
      ((∀ place, after.entryAt? place = files.entryAt? place) ↔
        (∀ place, (files.makeDirectories dir).1.entryAt? place = files.entryAt? place) ∧
          ∀ place text, writtenText? files dir output place = some text →
            files.entryAt? place = some (.file text)) := by
  refine ⟨fault_of_materialize h, ?_⟩
  have hafter (place : Location) : after.entryAt? place =
      ((writtenText? files dir output place).map Entry.file).or
        ((files.makeDirectories dir).1.entryAt? place) := by
    rw [← entryAt?_materialize, h]
  constructor
  · intro hsame
    refine ⟨fun place => ?_, fun place text htext => ?_⟩
    · rcases addsDirectories_makeDirectories files dir place with hplace | ⟨hnone, hmade⟩
      · exact hplace
      · -- a new directory is still there at the end, as no file is written where it stands
        have hunwritten : writtenText? files dir output place = none := by
          cases htext : writtenText? files dir output place with
          | none => rfl
          | some text =>
            have hplain := isDirectory_of_writtenText? htext
            simp [isDirectory, hmade] at hplain
        have hplace := hafter place
        rw [hsame place, hunwritten] at hplace
        exact hplace.symm
    · rw [← hsame place, hafter place, htext]
      rfl
  · rintro ⟨hmade, htexts⟩ place
    rw [hafter place]
    cases htext : writtenText? files dir output place with
    | none => exact hmade place
    | some text => exact (htexts place text htext).symm

/-- A directory in which one stands where the second of two files belongs. -/
def occupied : FileSystem where
  entries := [(["out"], .directory), (["out", "B.cs"], .directory)]

def twoFiles : List GeneratedFile :=
  [⟨"A.cs", "a"⟩, ⟨"B.cs", "b"⟩]

/-- What is in the directory when the second file is refused. -/
def leftBehind : FileSystem :=
  occupied.set ["out", "A.cs"] (.file "a")

theorem materialize_occupied :
    (materialize occupied "out" twoFiles).value = (leftBehind, .error (.output "out/B.cs")) := by
  have hway : occupied.makeDirectories "out" = (occupied, true) := by
    simp only [makeDirectories, isUsable_eq]
    decide
  have hfirst : occupied.write? (Path.join "out" "A.cs") "a" = some leftBehind := by
    simp only [write?_eq, target?, fileLocation?, isUsable_eq]
    decide
  have hsecond : leftBehind.write? (Path.join "out" "B.cs") "b" = none := by
    simp only [write?_eq, target?, fileLocation?, isUsable_eq]
    decide
  rw [materialize_value, hway, if_pos rfl, twoFiles, writeAll_cons]
  simp only [hfirst, writeAll_cons, hsecond]
  rfl

theorem materialize_error_occupied :
    (materialize occupied "out" twoFiles).value = (leftBehind, .error (.output "out/B.cs")) ∧
      ((∀ place, leftBehind.entryAt? place = occupied.entryAt? place) ↔
        (∀ place, (occupied.makeDirectories "out").1.entryAt? place = occupied.entryAt? place) ∧
          ∀ place text, writtenText? occupied "out" twoFiles place = some text →
            occupied.entryAt? place = some (.file text)) :=
  ⟨materialize_occupied, (materialize_error materialize_occupied).2⟩

/-- The file in front of the one that cannot be written is left behind. -/
theorem entryAt?_leftBehind :
    (materialize occupied "out" twoFiles).value = (leftBehind, .error (.output "out/B.cs")) ∧
      occupied.entryAt? ["out", "A.cs"] = none ∧
      leftBehind.entryAt? ["out", "A.cs"] = some (.file "a") :=
  ⟨materialize_occupied, rfl, rfl⟩

/-! Output that nothing stands in the way of -/

/-- The directory can be made, and each of the files can then be written into it. -/
def FileSystem.Accepts (files : FileSystem) (dir : Path) (output : List GeneratedFile) : Prop :=
  (files.makeDirectories dir).2 = true ∧
    ∀ file ∈ output,
      ((files.makeDirectories dir).1.write? (dir.join file.name) file.contents).isSome = true

/-- The files of the output are there with their contents, and everything else is as it was, but for
new directories. -/
structure FileSystem.HoldsOutput (files : FileSystem) (dir : Path) (output : List GeneratedFile)
    (after : FileSystem) : Prop where
  textAt (file : GeneratedFile) (hfile : file ∈ output) :
    after.textAt? (dir.join file.name) = some file.contents
  unchanged (place : Location)
    (hplace : ∀ file ∈ output, after.fileLocation? (dir.join file.name) ≠ some place) :
    after.entryAt? place = files.entryAt? place ∨
      files.entryAt? place = none ∧ after.entryAt? place = some .directory

section Accepted

variable {files : FileSystem} {dir : Path} {output : List GeneratedFile}

theorem sameDirectories_materialize (files : FileSystem) (dir : Path)
    (output : List GeneratedFile) :
    (materialize files dir output).value.1.SameDirectories (files.makeDirectories dir).1 := by
  intro place
  rw [isDirectory, entryAt?_materialize]
  cases htext : writtenText? files dir output place with
  | none => rfl
  | some text =>
    rw [isDirectory_of_writtenText? htext]
    simp

/-- Whether output is accepted depends on the names of its files only. -/
theorem accepts_iff :
    files.Accepts dir output ↔
      (files.makeDirectories dir).2 = true ∧
        ∀ name ∈ output.map GeneratedFile.name,
          ((files.makeDirectories dir).1.target? (dir.join name)).isSome = true := by
  simp only [FileSystem.Accepts, write?_eq, Option.isSome_map, List.forall_mem_map]

theorem admits_of_accepts (h : files.Accepts dir output) {file : GeneratedFile}
    (hfile : file ∈ output) : (files.makeDirectories dir).1.admits dir file = true :=
  (accepts_iff.mp h).2 file.name (List.mem_map_of_mem hfile)

theorem materialize_of_accepts (h : files.Accepts dir output) :
    (materialize files dir output).value.2 =
      .ok (output.map fun file => dir.join file.name) := by
  have hnone : (output.find? fun file => !(files.makeDirectories dir).1.admits dir file) = none := by
    rw [List.find?_eq_none]
    intro file hfile
    simp [admits_of_accepts h hfile]
  rw [materialize_value, if_pos h.1, writeAll_value, hnone]

theorem materialize_of_not_accepts (h : ¬ files.Accepts dir output) :
    ∃ path, (materialize files dir output).value.2 = .error (.output path) := by
  rw [materialize_value]
  cases hway : (files.makeDirectories dir).2 with
  | false => exact ⟨dir, rfl⟩
  | true =>
    rw [if_pos rfl, writeAll_value]
    cases hfirst : output.find? fun file => !(files.makeDirectories dir).1.admits dir file with
    | some file => exact ⟨dir.join file.name, rfl⟩
    | none =>
      refine absurd (accepts_iff.mpr ⟨hway, ?_⟩) h
      rw [List.forall_mem_map]
      intro file hfile
      have hadmits : (files.makeDirectories dir).1.admits dir file = true := by
        simpa using List.find?_eq_none.mp hfirst file hfile
      exact hadmits

variable (hnames : (output.map GeneratedFile.name).Nodup)
  (hplain : ∀ file ∈ output, Path.IsPlainName file.name)
include hnames hplain

/-- Files of different names have different locations, so each keeps its own text. -/
theorem writtenText?_of_accepts (h : files.Accepts dir output) {file : GeneratedFile}
    (hfile : file ∈ output) {place : Location}
    (htarget : (files.makeDirectories dir).1.target? (dir.join file.name) = some place) :
    writtenText? files dir output place = some file.contents := by
  cases htext : writtenText? files dir output place with
  | none =>
    have hall : (files.makeDirectories dir).1.admitted dir output = output :=
      List.takeWhile_eq_self_iff.mpr fun file hfile => admits_of_accepts h hfile
    rw [writtenText?, if_pos h.1, hall, List.lookup_eq_none_iff] at htext
    have hmem : (place, file.contents) ∈
        ((files.makeDirectories dir).1.textsOf dir output).reverse := by
      rw [List.mem_reverse]
      exact List.mem_filterMap.mpr ⟨file, hfile, by rw [htarget]; rfl⟩
    have hne := htext _ hmem
    simp at hne
  | some text =>
    obtain ⟨other, hadmitted, hplace, rfl⟩ :=
      exists_target?_of_mem_textsOf (mem_textsOf_of_writtenText? htext)
    have hother : other ∈ output := (List.takeWhile_sublist _).subset hadmitted
    obtain ⟨parent, _, hlocation⟩ :=
      exists_of_fileLocation?_join (hplain file hfile) (target?_eq_some.mp htarget).1
    obtain ⟨otherParent, _, hotherLocation⟩ :=
      exists_of_fileLocation?_join (hplain other hother) (target?_eq_some.mp hplace).1
    have hname : [other.name] = [file.name] :=
      (List.append_inj' (hotherLocation.symm.trans hlocation) rfl).2
    rw [List.inj_on_of_nodup_map hnames hother hfile (List.singleton_inj.mp hname)]

theorem holdsOutput_materialize (h : files.Accepts dir output) :
    files.HoldsOutput dir output (materialize files dir output).value.1 := by
  have hlocations := fileLocation?_congr (sameDirectories_materialize files dir output)
  have htarget {file : GeneratedFile} (hfile : file ∈ output) :
      ∃ place, (files.makeDirectories dir).1.target? (dir.join file.name) = some place :=
    Option.isSome_iff_exists.mp (admits_of_accepts h hfile)
  constructor
  · intro file hfile
    obtain ⟨place, hplace⟩ := htarget hfile
    rw [textAt?, hlocations, (target?_eq_some.mp hplace).1, Option.bind_some, entryAt?_materialize,
      writtenText?_of_accepts hnames hplain h hfile hplace]
    rfl
  · intro place hplace
    rw [entryAt?_materialize]
    cases htext : writtenText? files dir output place with
    | none => exact addsDirectories_makeDirectories files dir place
    | some text =>
      obtain ⟨file, hadmitted, hlocation, _⟩ :=
        exists_target?_of_mem_textsOf (mem_textsOf_of_writtenText? htext)
      have hfile : file ∈ output := (List.takeWhile_sublist _).subset hadmitted
      rw [← target?_congr (sameDirectories_materialize files dir output)] at hlocation
      exact absurd (target?_eq_some.mp hlocation).1 (hplace file hfile)

end Accepted

end HeaderInterop
