import HeaderInterop.Proofs.Path
import HeaderInterop.Run

/-!
The directory of the output. It is decided on by components, so slashes and dots in the given path
do not matter for whether a directory is added, and they stay in the text as they are. The result
names a place by itself and ends in the name of the directory, so that it is decided on only once.
-/

namespace HeaderInterop

/-- What the directory of the output is looked for in: the given path, which starts at the program's
directory if it is relative, or else that directory. -/
def outputBase (given : Option Path) (programDir : Path) : Path :=
  match given with
  | none => programDir
  | some path => if path.isAbsolute then path else programDir.join path

/-- The directory is the base if that has the name already, or else the directory of the name in it.
Wherever a program stands that is given this path, it takes it as it is. -/
structure IsOutputDir (base dir : Path) : Prop where
  absolute : dir.isAbsolute = true
  named : dir.fileName? = some outputDirName
  ofNamed (h : base.fileName? = some outputDirName) : dir = base
  ofOther (h : base.fileName? ≠ some outputDirName) :
    dir = base.join outputDirName ∧ dir.components = base.components ++ [.name outputDirName]
  settled (otherDir : Path) : resolveOutputDir (some dir) otherDir = dir

theorem isPlainName_outputDirName : Path.IsPlainName outputDirName := by
  decide

theorem outputBase_some (path programDir : Path) :
    outputBase (some path) programDir = programDir.join path := by
  rw [outputBase]
  split
  next h => exact (Path.join_of_isAbsolute programDir h).symm
  next => rfl

theorem resolveOutputDir_eq (given : Option Path) (programDir : Path) :
    resolveOutputDir given programDir =
      if (outputBase given programDir).fileName? = some outputDirName then
        outputBase given programDir
      else (outputBase given programDir).join outputDirName := by
  simp only [← Path.endsWith_iff_fileName? isPlainName_outputDirName]
  cases given with
  | none => rfl
  | some path =>
    rw [outputBase_some]
    rfl

/-- A directory that is named so and is the same from everywhere is not changed any more. -/
theorem resolveOutputDir_of_named {dir : Path} (habsolute : dir.isAbsolute = true)
    (hnamed : dir.fileName? = some outputDirName) (otherDir : Path) :
    resolveOutputDir (some dir) otherDir = dir := by
  have hbase : outputBase (some dir) otherDir = dir := if_pos habsolute
  rw [resolveOutputDir_eq, hbase, if_pos hnamed]

/-! The two cases -/

section Base

variable {base : Path} (habsolute : base.isAbsolute = true)
include habsolute

theorem isOutputDir_self (hnamed : base.fileName? = some outputDirName) :
    IsOutputDir base base where
  absolute := habsolute
  named := hnamed
  ofNamed _ := rfl
  ofOther hother := absurd hnamed hother
  settled := resolveOutputDir_of_named habsolute hnamed

theorem isOutputDir_join (hother : base.fileName? ≠ some outputDirName) :
    IsOutputDir base (base.join outputDirName) := by
  have hcomponents := Path.components_join base isPlainName_outputDirName
  have hjoined : (base.join outputDirName).isAbsolute = true := by
    rw [Path.isAbsolute_join, habsolute, Bool.true_or]
  have hnamed : (base.join outputDirName).fileName? = some outputDirName := by
    rw [Path.fileName?_eq_some_iff, hcomponents, List.getLast?_concat]
  exact {
    absolute := hjoined
    named := hnamed
    ofNamed := fun h => absurd h hother
    ofOther := fun _ => ⟨rfl, hcomponents⟩
    settled := resolveOutputDir_of_named hjoined hnamed }

end Base

section ProgramDir

variable {programDir : Path} (hprogram : programDir.isAbsolute = true)
include hprogram

theorem isAbsolute_outputBase (given : Option Path) :
    (outputBase given programDir).isAbsolute = true := by
  cases given with
  | none => exact hprogram
  | some path => rw [outputBase_some, Path.isAbsolute_join, hprogram, Bool.true_or]

theorem components_outputBase {path : Path} (hpath : path.isAbsolute = false) :
    (outputBase (some path) programDir).components =
      programDir.components ++ path.components.filter (· ≠ .here) := by
  have hdir : programDir.toList ≠ [] := by
    intro hnil
    rw [Path.isAbsolute, hnil] at hprogram
    cases hprogram
  rw [outputBase_some]
  exact Path.components_join_of_relative hdir hpath

/-- From an absolute program directory, any path or none gives the directory of the output, and a
relative path is looked for in the program's directory. -/
theorem resolveOutputDir_isOutputDir (given : Option Path) :
    IsOutputDir (outputBase given programDir) (resolveOutputDir given programDir) ∧
      ∀ path, given = some path → path.isAbsolute = false →
        (outputBase given programDir).components =
          programDir.components ++ path.components.filter (· ≠ .here) := by
  have habsolute := isAbsolute_outputBase hprogram given
  refine ⟨?_, fun path hgiven hpath => hgiven ▸ components_outputBase hprogram hpath⟩
  rw [resolveOutputDir_eq]
  split
  next hnamed => exact isOutputDir_self habsolute hnamed
  next hother => exact isOutputDir_join habsolute hother

end ProgramDir

/-- Slashes and a dot behind the name do not hide it. -/
theorem resolveOutputDir_isOutputDir_dotted :
    Path.isAbsolute "/opt/tool/" = true ∧
      resolveOutputDir (some "./out//Generated/.") "/opt/tool/" =
        "/opt/tool/./out//Generated/." ∧
      IsOutputDir "/opt/tool/./out//Generated/." "/opt/tool/./out//Generated/." := by
  have hprogram : Path.isAbsolute "/opt/tool/" = true := by decide
  have hdir : resolveOutputDir (some "./out//Generated/.") "/opt/tool/" =
      "/opt/tool/./out//Generated/." := by decide +kernel
  have hisOutputDir :=
    (resolveOutputDir_isOutputDir hprogram (some "./out//Generated/.")).1
  rw [hdir] at hisOutputDir
  exact ⟨hprogram, hdir, hisOutputDir⟩

/-- A step up behind the name does. -/
example : resolveOutputDir (some "Generated/..") "/opt/tool" =
    "/opt/tool/Generated/../Generated" := by
  decide +kernel

end HeaderInterop
