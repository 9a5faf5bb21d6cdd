import HeaderInterop.Config.Default
import HeaderInterop.Proofs.Compiler
import HeaderInterop.Proofs.Except
import HeaderInterop.Proofs.Output
import HeaderInterop.Proofs.TypeMap.Calls

/-!
How a run ends. The headers are read in order up to the first that cannot be, and such a header ends
the run with the file system as it was. If all are read and nothing stands in the way of the output,
the run ends with the files in their places. The output needs the managed names of types, and for a
typedef that leads back to itself the mapping would look for one without end.
-/

namespace HeaderInterop

variable {parser : HeaderParser} {before rest paths : List Path} {path : Path}

/-- The names of the files of an output. -/
def outputNames : List String :=
  ["Constants.cs", "Enums.cs", "Handles.cs", "Structs.cs", "Commands.cs"]

/-- The output for the headers. -/
def outputOf (config : Config) (headers : List Header) : List GeneratedFile :=
  (Emit.output config (Collection.ofHeaders config.collect headers).value).value

/-- The mapping of types that the output for the headers needs. -/
def mappingOf (config : Config) (headers : List Header) : TypeMapper :=
  { settings := config.types,
    registry := (Collection.ofHeaders config.collect headers).value.registry }

theorem names_outputOf (config : Config) (headers : List Header) :
    (outputOf config headers).map GeneratedFile.name = outputNames :=
  rfl

theorem holdsOutput_outputOf {config : Config} {headers : List Header} {files : FileSystem}
    {dir : Path} (h : files.Accepts dir (outputOf config headers)) :
    files.HoldsOutput dir (outputOf config headers)
      (materialize files dir (outputOf config headers)).value.1 := by
  refine holdsOutput_materialize ?_ ?_ h
  · rw [names_outputOf]
    decide
  · intro file hfile
    have hplain : ∀ name ∈ outputNames, Path.IsPlainName name := by decide
    refine hplain file.name ?_
    rw [← names_outputOf config headers]
    exact List.mem_map_of_mem hfile

/-- How a run ends at a header that cannot be read. -/
def HeaderFault.ending : HeaderFault → Except RunFault Outcome
  | diagnostics header messages => .ok (.aborted header messages)
  | fault => .error (.header fault)

/-! Reading the headers -/

theorem parseAll_nil (parser : HeaderParser) : (parseAll parser []).value = (.ok [], []) :=
  rfl

theorem parseAll_cons (parser : HeaderParser) (path : Path) (rest : List Path) :
    (parseAll parser (path :: rest)).value =
      match (parser.parse path).value with
      | .error fault => (.error fault, [path])
      | .ok header =>
        ((parseAll parser rest).value.1.map (header :: ·),
          path :: (parseAll parser rest).value.2) := by
  rw [parseAll]
  simp only [Logged.value_bind]
  cases (parser.parse path).value <;> rfl

/-- No header behind the first that cannot be read is tried. -/
theorem parseAll_of_fault {fault : HeaderFault}
    (hread : ∀ read ∈ before, ∃ header, (parser.parse read).value = .ok header)
    (hfault : (parser.parse path).value = .error fault) :
    (parseAll parser (before ++ path :: rest)).value = (.error fault, before ++ [path]) := by
  induction before with
  | nil => rw [List.nil_append, parseAll_cons, hfault, List.nil_append]
  | cons first before ih =>
    obtain ⟨header, hfirst⟩ := hread first (List.mem_cons_self ..)
    have hbefore := ih fun read hmem => hread read (List.mem_cons_of_mem _ hmem)
    rw [List.cons_append, parseAll_cons, hfirst, hbefore]
    rfl

theorem parseAll_of_ok {headers : List Header}
    (h : (paths.map fun path => (parser.parse path).value) = headers.map .ok) :
    (parseAll parser paths).value = (.ok headers, paths) := by
  induction paths generalizing headers with
  | nil =>
    rw [List.map_nil, eq_comm, List.map_eq_nil_iff] at h
    rw [h, parseAll_nil]
  | cons path rest ih =>
    cases headers with
    | nil => cases h
    | cons header others =>
      rw [List.map_cons, List.map_cons, List.cons.injEq] at h
      rw [parseAll_cons, h.1, ih h.2]
      rfl

/-- Either all headers can be read, or there is a first one that cannot. -/
theorem readable_or_fault (parser : HeaderParser) (paths : List Path) :
    (∃ headers : List Header,
        (paths.map fun path => (parser.parse path).value) = headers.map .ok) ∨
      ∃ before path rest fault, paths = before ++ path :: rest ∧
        (∀ read ∈ before, ∃ header, (parser.parse read).value = .ok header) ∧
        (parser.parse path).value = .error fault := by
  induction paths with
  | nil => exact Or.inl ⟨[], rfl⟩
  | cons path rest ih =>
    cases hpath : (parser.parse path).value with
    | error fault => exact Or.inr ⟨[], path, rest, fault, rfl, by simp, hpath⟩
    | ok header =>
      rcases ih with ⟨headers, hrest⟩ | ⟨before, bad, others, fault, rfl, hread, hbad⟩
      · exact Or.inl ⟨header :: headers, by rw [List.map_cons, List.map_cons, hpath, hrest]⟩
      · refine Or.inr ⟨path :: before, bad, others, fault, rfl, ?_, hbad⟩
        intro read hmem
        rcases List.mem_cons.mp hmem with rfl | hmem
        · exact ⟨header, hpath⟩
        · exact hread read hmem

/-! The run -/

section Run

variable {config : Config} {includes : Path}

theorem run_of_fault {fault : HeaderFault} {tried : List Path}
    (h : (parseAll parser (config.headerPaths includes)).value = (.error fault, tried))
    (outputDir : Path) (files : FileSystem) :
    (run config parser includes outputDir files).value = ⟨files, fault.ending, tried⟩ := by
  unfold run
  rw [Logged.value_bind, h]
  cases fault <;> rfl

theorem run_of_headers {headers : List Header} {tried : List Path}
    (h : (parseAll parser (config.headerPaths includes)).value = (.ok headers, tried))
    (outputDir : Path) (files : FileSystem) :
    (run config parser includes outputDir files).value =
      ⟨(materialize files outputDir (outputOf config headers)).value.1,
        (materialize files outputDir (outputOf config headers)).value.2.map .generated, tried⟩ := by
  unfold run
  rw [Logged.value_bind, h]
  rfl

end Run

/-- The headers are tried in order up to the first that cannot be read. Diagnostics of it abort the
run, any other fault is the run's own, and the file system is as it was. If all are read and no
typedef leads back to itself, the mapping returns on each type, and the run fails only on what stands
in the way of the output. If nothing does, it lists the files, which then hold the output for the
headers, and every other file is as it was. What the compiler aborts a run with are messages about
the header tried last. -/
theorem run_ends (config : Config) (parser : HeaderParser) (includes outputDir : Path)
    (files : FileSystem) :
    let paths := config.headerPaths includes
    let result := (run config parser includes outputDir files).value
    (∀ before path rest fault, paths = before ++ path :: rest →
        (∀ read ∈ before, ∃ header, (parser.parse read).value = .ok header) →
        (parser.parse path).value = .error fault →
        result.parsed = before ++ [path] ∧ result.outcome = fault.ending ∧ result.files = files) ∧
      (∀ headers : List Header,
        (paths.map fun path => (parser.parse path).value) = headers.map .ok →
        result.parsed = paths ∧
          ((mappingOf config headers).registry.Acyclic →
            (∀ type, (mappingOf config headers).Returns (.map false type)
              (.name ((mappingOf config headers).map type))) ∧
            (files.Accepts outputDir (outputOf config headers) →
              result.outcome =
                  .ok (.generated (outputNames.map fun name => outputDir.join name)) ∧
                files.HoldsOutput outputDir (outputOf config headers) result.files) ∧
            (¬ files.Accepts outputDir (outputOf config headers) →
              ∃ path, result.outcome = .error (.output path)))) ∧
      ∀ compiler header messages, parser = Compiler.parser compiler →
        result.outcome = .ok (.aborted header messages) →
        messages ≠ [] ∧ result.parsed.getLast? = some header := by
  intro paths result
  refine ⟨?_, ?_, ?_⟩
  · intro before path rest fault hpaths hread hfault
    have hresult : result = ⟨files, fault.ending, before ++ [path]⟩ := by
      refine run_of_fault ?_ outputDir files
      change (parseAll parser paths).value = _
      rw [hpaths, parseAll_of_fault hread hfault]
    rw [hresult]
    exact ⟨rfl, rfl, rfl⟩
  · intro headers hheaders
    have hresult := run_of_headers (parseAll_of_ok hheaders) outputDir files
    refine ⟨congrArg RunResult.parsed hresult, fun hacyclic =>
      ⟨fun type => TypeMapper.returns_map hacyclic type false, fun haccepts => ⟨?_, ?_⟩,
        fun hrefuses => ?_⟩⟩
    · rw [congrArg RunResult.outcome hresult, materialize_of_accepts haccepts, ← names_outputOf,
        List.map_map]
      rfl
    · rw [congrArg RunResult.files hresult]
      exact holdsOutput_outputOf haccepts
    · obtain ⟨path, hpath⟩ := materialize_of_not_accepts hrefuses
      rw [congrArg RunResult.outcome hresult, hpath]
      exact ⟨path, rfl⟩
  · rintro compiler header messages rfl haborted
    rcases readable_or_fault compiler.parser paths with
      ⟨headers, hheaders⟩ | ⟨before, path, rest, fault, hpaths, hread, hfault⟩
    · have hresult := run_of_headers (parseAll_of_ok hheaders) outputDir files
      rw [congrArg RunResult.outcome hresult] at haborted
      obtain ⟨_, _, hgenerated⟩ := except_map_eq_ok.mp haborted
      cases hgenerated
    · have hparsed : (parseAll compiler.parser paths).value = (.error fault, before ++ [path]) := by
        rw [hpaths, parseAll_of_fault hread hfault]
      have hresult := run_of_fault hparsed outputDir files
      rw [congrArg RunResult.outcome hresult] at haborted
      rw [congrArg RunResult.parsed hresult]
      cases fault with
      | diagnostics blamed lines =>
        cases haborted
        obtain ⟨rfl, hlines⟩ := Compiler.parse_diagnostics hfault
        exact ⟨hlines, List.getLast?_concat ..⟩
      | spawn | tree => cases haborted

/-- `typedef unsigned int Count;`. -/
def countTypedef : Typedef := ⟨"Count", .primitive .unsignedInt⟩

/-- A header with a declaration of each kind. -/
def sampleHeader (path : Path) : Header where
  path := path
  macros := [{ name := "POINT_LIMIT", value := "16" }]
  decls :=
    [.typedef countTypedef,
      .record ⟨some "Device", .struct, false, []⟩,
      .enum ⟨some "Axis", none, [⟨"AXIS_X", 0⟩, ⟨"AXIS_Y", 1⟩]⟩,
      .record ⟨some "Point", .struct, true, [⟨"x", .primitive .int, none⟩,
        ⟨"owner", .pointer (.record .struct (some "Device")), none⟩]⟩,
      .function ⟨"MovePoint", .primitive .void, [⟨some "steps", .typedef countTypedef.name⟩], false,
        false, false⟩]
  included := []

/-- The file of its structs. -/
def sampleStructs : GeneratedFile :=
  .ofSteps "Structs.cs" "SDL" Emit.structUsings (some "#pragma warning disable CS0649")
    [.block "public partial struct Point"
      [.line "public int x;", .line "public unsafe Device* owner;"],
      .blank]

/-- Finds fault with one header and the sample in any other. -/
def sampleParser : HeaderParser where
  name := "sample"
  parse path := pure <|
    if path = "/inc/SDL3/b.h" then .error (.diagnostics path ["b.h:1:1: error: unknown type name"])
    else .ok (sampleHeader path)

/-- A compiler that fails without a word. -/
def failingCompiler : Compiler where
  program := "clang"
  includes := "/inc"
  answer _ := .ok { status := 1 }

def sampleConfig (headers : List String) : Config :=
  { Config.standard with headers }

def sampleRun (parser : HeaderParser) (headers : List String) : RunResult :=
  (run (sampleConfig headers) parser "/inc" "out" {}).value

theorem accepts_sample (headers : List Header) :
    FileSystem.Accepts {} "out" (outputOf (sampleConfig ["a.h"]) headers) := by
  rw [accepts_iff, names_outputOf]
  simp only [FileSystem.target?, FileSystem.fileLocation?, FileSystem.makeDirectories,
    FileSystem.isUsable_eq]
  decide

theorem sampleStructs_mem :
    sampleStructs ∈ outputOf (sampleConfig ["a.h"]) [sampleHeader "/inc/SDL3/a.h"] := by
  have hplace : (outputOf (sampleConfig ["a.h"]) [sampleHeader "/inc/SDL3/a.h"])[3]? =
      some sampleStructs := by decide +kernel
  exact List.mem_of_getElem? hplace

theorem mappingOf_sample_acyclic :
    (mappingOf (sampleConfig ["a.h"]) [sampleHeader "/inc/SDL3/a.h"]).registry.Acyclic := by
  have htypedefs : (mappingOf (sampleConfig ["a.h"])
      [sampleHeader "/inc/SDL3/a.h"]).registry.typedefs = [("Count", .primitive .unsignedInt)] :=
    rfl
  refine Registry.acyclic_of_pairwise ?_ ?_
  · rw [htypedefs]
    decide
  · rw [htypedefs]
    decide

theorem run_ends_sample :
    ((sampleRun sampleParser ["a.h", "b.h", "c.h"]).parsed = ["/inc/SDL3/a.h", "/inc/SDL3/b.h"] ∧
        (sampleRun sampleParser ["a.h", "b.h", "c.h"]).outcome =
          .ok (.aborted "/inc/SDL3/b.h" ["b.h:1:1: error: unknown type name"]) ∧
        (sampleRun sampleParser ["a.h", "b.h", "c.h"]).files = {}) ∧
      ((sampleRun sampleParser ["a.h"]).parsed = ["/inc/SDL3/a.h"] ∧
        (sampleRun sampleParser ["a.h"]).outcome = .ok (.generated ["out/Constants.cs",
          "out/Enums.cs", "out/Handles.cs", "out/Structs.cs", "out/Commands.cs"]) ∧
        FileSystem.HoldsOutput {} "out"
          (outputOf (sampleConfig ["a.h"]) [sampleHeader "/inc/SDL3/a.h"])
          (sampleRun sampleParser ["a.h"]).files ∧
        (sampleRun sampleParser ["a.h"]).files.textAt? "out/Structs.cs" =
          some sampleStructs.contents ∧
        (mappingOf (sampleConfig ["a.h"]) [sampleHeader "/inc/SDL3/a.h"]).Returns
          (.map false (.pointer (.typedef countTypedef.name))) (.name (some "uint*"))) ∧
      ∃ header messages,
        (sampleRun failingCompiler.parser ["a.h"]).outcome = .ok (.aborted header messages) ∧
          messages ≠ [] ∧
          (sampleRun failingCompiler.parser ["a.h"]).parsed.getLast? = some header := by
  refine ⟨?_, ?_, ?_⟩
  · have hends := (run_ends (sampleConfig ["a.h", "b.h", "c.h"]) sampleParser "/inc" "out" {}).1
    exact hends ["/inc/SDL3/a.h"] "/inc/SDL3/b.h" ["/inc/SDL3/c.h"] _ rfl
      (fun read hread => ⟨sampleHeader read, by rw [List.mem_singleton.mp hread]; rfl⟩) rfl
  · obtain ⟨hparsed, hmapped⟩ :=
      (run_ends (sampleConfig ["a.h"]) sampleParser "/inc" "out" {}).2.1
        [sampleHeader "/inc/SDL3/a.h"] rfl
    obtain ⟨hreturns, haccepted, -⟩ := hmapped mappingOf_sample_acyclic
    obtain ⟨houtcome, hfiles⟩ := haccepted (accepts_sample _)
    have hcount : (mappingOf (sampleConfig ["a.h"]) [sampleHeader "/inc/SDL3/a.h"]).map
        (.pointer (.typedef countTypedef.name)) = some "uint*" := by decide +kernel
    exact ⟨hparsed, houtcome, hfiles, hfiles.textAt sampleStructs sampleStructs_mem,
      hcount ▸ hreturns _⟩
  · have hends := (run_ends (sampleConfig ["a.h"]) failingCompiler.parser "/inc" "out" {}).2.2
    have hparse : (failingCompiler.parser.parse "/inc/SDL3/a.h").value =
        .error (.diagnostics "/inc/SDL3/a.h" ["clang exited with exit status: 1"]) := by
      cbv
    have hparsed : (parseAll failingCompiler.parser
        ((sampleConfig ["a.h"]).headerPaths "/inc")).value = _ :=
      parseAll_cons failingCompiler.parser "/inc/SDL3/a.h" []
    rw [hparse] at hparsed
    have haborted := congrArg RunResult.outcome (run_of_fault hparsed "out" {})
    exact ⟨_, _, haborted, hends failingCompiler _ _ rfl haborted⟩

end HeaderInterop
