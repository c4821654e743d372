import AnalyzerConfig.Proofs.Layout.Merging
import AnalyzerConfig.Proofs.Project.Denylist
import AnalyzerConfig.Proofs.Run.Outputs

namespace AnalyzerConfig

variable {root name : String} {l : Layout} {fs fs' files : Filesystem} {w : World}
variable {project : Project}

def Arguments.excluding (a : Arguments) (name : String) : Arguments :=
  { a with excludeTests := some (a.excludeTests.getD [] ++ [name]) }

def Layout.excluding (l : Layout) (name : String) : Layout :=
  { l with excludedTests := l.excludedTests ++ [name] }

theorem Layout.resolved_excluding (o : Layout.Overrides) (a : Arguments) (name : String) :
    resolved o (a.excluding name).excludeTests =
      if name ∈ (resolved o a.excludeTests).excludedTests then resolved o a.excludeTests
      else (resolved o a.excludeTests).excluding name := by
  have hmerge := mergeNames_concat (o.apply {}).normalized.excludedTests
    (a.excludeTests.getD []) name
  have hresolved : resolved o (a.excluding name).excludeTests =
      { (o.apply {}).normalized with
        excludedTests := mergeNames (o.apply {}).normalized.excludedTests
          (a.excludeTests.getD [] ++ [name]) } := rfl
  rw [hresolved, hmerge]
  split
  · next h => exact (if_pos h).symm
  · next h => exact (if_neg h).symm

theorem Layout.normalized_resolved (o : Layout.Overrides) (excludeTests : Option (List String)) :
    (resolved o excludeTests).normalized = resolved o excludeTests := by
  have hall (paths : List String) :
      (paths.map Path.normalize).map Path.normalize = paths.map Path.normalize := by
    rw [List.map_map]
    exact List.map_congr_left fun p _ => Path.normalize_normalize p
  simp only [resolved, normalized, Path.normalize_normalize, hall]

theorem Project.fileTest_injective (commonPath : String) :
    Function.Injective (fileTest commonPath) := by
  intro file file' h
  have hinput := congrArg TestEntry.input h
  exact (List.cons.inj (TestInput.files.inj hinput)).1

theorem Project.eq_fileTest {commonPath fuzzPath path : String} {files inputs : List String}
    {t : TestEntry}
    (ht : t ∈ files.map (fileTest commonPath) ++ inputs.map (fuzzTest l commonPath fuzzPath))
    (hpath : t.input = .files [path]) : path ∈ files ∧ t = fileTest commonPath path := by
  rcases List.mem_append.1 ht with ht | ht
  · obtain ⟨file, hfile, rfl⟩ := List.mem_map.1 ht
    obtain rfl := (List.cons.inj (TestInput.files.inj hpath)).1
    exact ⟨hfile, rfl⟩
  · obtain ⟨input, -, rfl⟩ := List.mem_map.1 ht
    cases hpath

theorem Project.testFiles_excluding {files : List String}
    (h : (project.testFiles l).result = .ok files) (name : String) :
    (project.testFiles (l.excluding name)).result =
      exclude l.normalized.testDir [name] files := by
  obtain ⟨found, hfound, hfiles⟩ := testFiles_eq_ok.1 h
  have hfound : (project.findFiles (Path.normalize (l.excluding name).testDir) "*.c").result =
      .ok found := hfound
  have hfiles : exclude (Path.normalize l.testDir) l.excludedTests found = .ok files := hfiles
  have happend := exclude_append (Path.normalize l.testDir) l.excludedTests [name] found
  rw [hfiles] at happend
  rw [testFiles_result hfound]
  exact happend

section

variable {commonPath fuzzPath : String} {ts : List TestEntry}
  (h : (project.testEntries l commonPath fuzzPath).result = .ok ts)
include h

theorem Project.testEntries_excluding {t : TestEntry} (ht : t ∈ ts)
    (hpath : t.input = .files [Path.join l.normalized.testDir name]) :
    (project.testEntries (l.excluding name) commonPath fuzzPath).result = .ok (ts.erase t) := by
  obtain ⟨files, inputs, hfiles, hinputs, rfl⟩ := testEntries_eq_ok.1 h
  obtain ⟨hfile, rfl⟩ := eq_fileTest ht hpath
  have hfiles' := testFiles_excluding hfiles name
  rw [exclude_singleton, if_pos hfile] at hfiles'
  refine testEntries_eq_ok.2 ⟨_, inputs, hfiles', hinputs, ?_⟩
  rw [List.erase_append_left _ (List.mem_map_of_mem hfile),
    List.map_erase (fileTest_injective commonPath)]
  rfl

theorem Project.testEntries_excluding_stale
    (hnone : ∀ t ∈ ts, t.input ≠ .files [Path.join l.normalized.testDir name]) :
    (project.testEntries (l.excluding name) commonPath fuzzPath).result =
      .error (.staleExclusion name l.normalized.testDir) := by
  obtain ⟨files, inputs, hfiles, hinputs, rfl⟩ := testEntries_eq_ok.1 h
  have hfile : Path.join l.normalized.testDir name ∉ files := by
    intro hfile
    exact hnone _ (List.mem_append_left _ (List.mem_map_of_mem hfile)) rfl
  have hfiles' := testFiles_excluding hfiles name
  rw [exclude_singleton, if_neg hfile] at hfiles'
  unfold testEntries
  exact Logged.bind_eq_error.2 (.inl hfiles')

end

/-- The arguments of a run name its excluded tests, and have no other part in its layout. -/
theorem resolveConfig_excluding (a : Arguments) (workingDir name : String) (w : World) :
    (resolveConfig World.host (a.excluding name) workingDir w).1 =
      (resolveConfig World.host a workingDir w).1.map fun config =>
        if name ∈ config.layout.excludedTests then config
        else { config with layout := config.layout.excluding name } := by
  have hoverrides : (a.excluding name).overrides workingDir w = a.overrides workingDir w := rfl
  rw [resolveConfig_fst, resolveConfig_fst, hoverrides]
  cases a.overrides workingDir w with
  | error e => rfl
  | ok o =>
    simp only [Except.map, Layout.resolved_excluding]
    split <;> rfl

theorem runConfigured_of_resolved {a : Arguments} {workingDir : String} {config : RunConfig}
    (h : (resolveConfig World.host a workingDir w).1 = .ok config) :
    runConfigured World.host a workingDir w =
      regenerate World.host config.root config.layout (w.resolved config) := by
  rw [runConfigured_eq, h]

theorem exists_config_of_ok {a : Arguments} {workingDir : String}
    (hok : (runConfigured World.host a workingDir w).1 = .ok ()) :
    ∃ config, (resolveConfig World.host a workingDir w).1 = .ok config ∧
      config.layout.normalized = config.layout := by
  have hconfig := resolveConfig_fst a workingDir w
  cases ho : a.overrides workingDir w with
  | error e =>
    rw [ho] at hconfig
    rw [runConfigured_eq, hconfig] at hok
    cases hok
  | ok o =>
    rw [ho] at hconfig
    exact ⟨_, hconfig, Layout.normalized_resolved o a.excludeTests⟩

theorem Filesystem.writeText_any {path text : String} (h : fs.writeText path text = .ok fs')
    (text' : String) : ∃ fs'', fs.writeText path text' = .ok fs'' := by
  obtain ⟨p, hp, hopen, -⟩ := write_eq_ok.1 h
  exact ⟨_, write_eq_ok.2 ⟨p, hp, hopen, rfl⟩⟩

theorem Layout.CompleteRun.excluding (run : l.CompleteRun root fs) {t : TestEntry}
    (ht : t ∈ run.tests) (hpath : t.input = .files [Path.join l.normalized.testDir name]) :
    ∃ run' : (l.excluding name).CompleteRun root fs,
      run'.common = run.common ∧ run'.afterCommon = run.afterCommon ∧
      run'.fuzz = run.fuzz ∧ run'.afterFuzz = run.afterFuzz ∧ run'.tests = run.tests.erase t := by
  have hbuilt := Project.testEntries_excluding run.tests_built ht hpath
  obtain ⟨files, hfiles⟩ := Filesystem.writeText_any run.tests_written
    (Json.render (TestEntry.listDoc (run.tests.erase t)))
  exact ⟨⟨run.common, run.afterCommon, run.fuzz, run.afterFuzz, run.tests.erase t, files, run.met,
    run.common_built, run.common_written, run.fuzz_built, run.fuzz_written, hbuilt, hfiles⟩,
    rfl, rfl, rfl, rfl, rfl⟩

theorem Layout.CompleteRun.regenerate_stale (run : l.CompleteRun root fs) (hw : w.files = fs)
    (hnone : ∀ t ∈ run.tests, t.input ≠ .files [Path.join l.normalized.testDir name]) :
    ∃ log, regenerate World.host root (l.excluding name) w =
      (.error (.staleExclusion name l.normalized.testDir),
        w.after run.afterFuzz (l.linesUpTo [.common l, .fuzz l]) log) := by
  subst hw
  have hbuilt := Project.testEntries_excluding_stale run.tests_built hnone
  have hstage : ((Stage.tests (l.excluding name)).build (run.afterFuzz.project root)).result =
      .error (.staleExclusion name l.normalized.testDir) := Logged.map_eq_error.2 hbuilt
  obtain ⟨log, hrun⟩ := regenerate_append (l := l.excluding name) run.met rfl
    (run.writtenCommon.append run.writtenFuzz)
  have hlast := Stage.run_of_unbuilt (w := w.after run.afterFuzz
    (l.linesUpTo [.common l, .fuzz l]) log) hstage
  rw [World.after_after, List.append_nil] at hlast
  exact ⟨_, hrun.trans (World.bind_eq hlast)⟩

/-- One more test to exclude, behind a run that succeeds. If it was excluded already, nothing
changes. If it is a file that has a test, the run goes the same way up to the last stage, which
leaves out just this test. Otherwise the exclusion is stale, and the run stops before its last stage
writes anything. -/
theorem runConfigured_excluding (a : Arguments) (workingDir name : String) (w : World)
    (hok : (runConfigured World.host a workingDir w).1 = .ok ()) :
    ∃ (root : String) (l : Layout) (run : l.CompleteRun root w.files) (log : List LogRecord),
      (resolveConfig World.host a workingDir w).1 = .ok ⟨root, l⟩ ∧
      runConfigured World.host a workingDir w = (.ok (), w.after run.files l.transcript log) ∧
      (name ∈ l.excludedTests → runConfigured World.host (a.excluding name) workingDir w =
        runConfigured World.host a workingDir w) ∧
      (name ∉ l.excludedTests → ∀ t ∈ run.tests, t.input = .files [Path.join l.testDir name] →
        ∃ (run' : (l.excluding name).CompleteRun root w.files) (log' : List LogRecord),
          runConfigured World.host (a.excluding name) workingDir w =
            (.ok (), w.after run'.files l.transcript log') ∧
          run'.common = run.common ∧ run'.afterCommon = run.afterCommon ∧
          run'.fuzz = run.fuzz ∧ run'.afterFuzz = run.afterFuzz ∧
          run'.tests = run.tests.erase t) ∧
      (name ∉ l.excludedTests →
        (∀ t ∈ run.tests, t.input ≠ .files [Path.join l.testDir name]) →
        ∃ log', runConfigured World.host (a.excluding name) workingDir w =
          (.error (.staleExclusion name l.testDir),
            w.after run.afterFuzz (l.linesUpTo [.common l, .fuzz l]) log')) := by
  obtain ⟨⟨root, l⟩, hconfig, hnormal⟩ := exists_config_of_ok hok
  have hdir : l.normalized.testDir = l.testDir := congrArg Layout.testDir hnormal
  have hrun := runConfigured_of_resolved hconfig
  rw [hrun] at hok
  obtain ⟨run, log, hregenerate⟩ := Layout.exists_completeRun hok
  rw [World.resolved_after] at hregenerate
  have hconfig' := resolveConfig_excluding a workingDir name w
  rw [hconfig] at hconfig'
  refine ⟨root, l, run, _, hconfig, hrun.trans hregenerate, ?_, ?_, ?_⟩
  · intro hname
    rw [Except.map, if_pos hname] at hconfig'
    rw [hrun, runConfigured_of_resolved hconfig']
  · intro hname t ht hpath
    rw [Except.map, if_neg hname] at hconfig'
    rw [← hdir] at hpath
    obtain ⟨run', hsame⟩ := run.excluding ht hpath
    obtain ⟨log', hregenerate'⟩ := run'.regenerate_eq (w.resolved_files ⟨root, l.excluding name⟩)
    rw [World.resolved_after] at hregenerate'
    exact ⟨run', _, (runConfigured_of_resolved hconfig').trans hregenerate', hsame⟩
  · intro hname hnone
    rw [Except.map, if_neg hname] at hconfig'
    rw [← hdir] at hnone ⊢
    obtain ⟨log', hstale⟩ :=
      run.regenerate_stale (w.resolved_files ⟨root, l.excluding name⟩) hnone
    rw [World.resolved_after] at hstale
    exact ⟨_, (runConfigured_of_resolved hconfig').trans hstale⟩

theorem runConfigured_project_excluding :
    (runConfigured World.host { root := some "." } "/" .project).1 = .ok () ∧
    ∃ (run : Layout.CompleteRun "." {} World.project.files)
      (run' : (Layout.excluding {} "parse.c").CompleteRun "." World.project.files) (t : TestEntry)
      (log : List LogRecord),
      t ∈ run.tests ∧ t.input = .files ["tests/parse.c"] ∧
      runConfigured World.host ({ root := some "." : Arguments }.excluding "parse.c") "/" .project =
        (.ok (), World.project.after run'.files (Layout.transcript {}) log) ∧
      run'.common = run.common ∧ run'.fuzz = run.fuzz ∧ run'.tests = run.tests.erase t := by
  have hok : (runConfigured World.host { root := some "." } "/" .project).1 = .ok () := by
    decide +kernel
  have hok' : (runConfigured World.host ({ root := some "." : Arguments }.excluding "parse.c") "/"
      .project).1 = .ok () := by decide +kernel
  have hresolve : (resolveConfig World.host { root := some "." } "/" .project).1 =
      .ok ⟨".", {}⟩ := by decide +kernel
  obtain ⟨root, l, run, log, hconfig, -, -, htested, hstale⟩ :=
    runConfigured_excluding { root := some "." } "/" "parse.c" .project hok
  cases hresolve.symm.trans hconfig
  have hname : "parse.c" ∉ ["unity_setup.c"] := by decide
  -- the run with the name excluded succeeds, so the exclusion is not stale
  have htest : ∃ t ∈ run.tests, t.input = .files ["tests/parse.c"] := by
    by_contra hnone
    obtain ⟨log', hrun⟩ := hstale hname fun t ht hpath => hnone ⟨t, ht, hpath⟩
    rw [hrun] at hok'
    cases hok'
  obtain ⟨t, ht, hpath⟩ := htest
  obtain ⟨run', log', hrun, hcommon, -, hfuzz, -, htests⟩ := htested hname t ht hpath
  exact ⟨hok, run, run', t, log', ht, hpath, hrun, hcommon, hfuzz, htests⟩

end AnalyzerConfig
