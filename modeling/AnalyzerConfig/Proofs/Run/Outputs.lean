import AnalyzerConfig.Proofs.Run.Rerun

namespace AnalyzerConfig

variable {root path text name : String} {l : Layout} {fs fs' files : Filesystem} {p q : Place}
variable {w : World}

theorem Written.append {ss ss' : List Stage} (h : Written root ss fs fs')
    (h' : Written root ss' fs' files) : Written root (ss ++ ss') fs files := by
  induction h with
  | nil => exact h'
  | cons hbuilt hwrite _ ih => exact .cons hbuilt hwrite (ih h')

/-- A run of a layout that completes all its stages: what each of them builds, and which files it
leaves. -/
structure Layout.CompleteRun (root : String) (l : Layout) (fs : Filesystem) where
  common : CommonConfig
  afterCommon : Filesystem
  fuzz : FuzzConfig
  afterFuzz : Filesystem
  tests : List TestEntry
  files : Filesystem
  met : ∀ r ∈ l.requirements, r.isMet fs root = true
  common_built : ((fs.project root).commonConfig l).result = .ok common
  common_written :
    fs.writeText (Path.below root l.commonPath) (Json.render common.toDoc) = .ok afterCommon
  fuzz_built : ((afterCommon.project root).fuzzConfig l).result = .ok fuzz
  fuzz_written :
    afterCommon.writeText (Path.below root l.fuzzPath) (Json.render fuzz.toDoc) = .ok afterFuzz
  tests_built :
    ((afterFuzz.project root).testEntries l l.commonPath l.fuzzPath).result = .ok tests
  tests_written :
    afterFuzz.writeText (Path.below root l.testsPath) (Json.render (TestEntry.listDoc tests)) =
      .ok files

namespace Layout.CompleteRun

theorem writtenCommon (run : l.CompleteRun root fs) :
    Written root [.common l] fs run.afterCommon :=
  .cons (Logged.map_eq_ok.2 ⟨_, run.common_built, rfl⟩) run.common_written .nil

theorem writtenFuzz (run : l.CompleteRun root fs) :
    Written root [.fuzz l] run.afterCommon run.afterFuzz :=
  .cons (Logged.map_eq_ok.2 ⟨_, run.fuzz_built, rfl⟩) run.fuzz_written .nil

theorem writtenTests (run : l.CompleteRun root fs) :
    Written root [.tests l] run.afterFuzz run.files :=
  .cons (Logged.map_eq_ok.2 ⟨_, run.tests_built, rfl⟩) run.tests_written .nil

theorem exists_of_written (hmet : ∀ r ∈ l.requirements, r.isMet fs root = true)
    (h : Written root l.stages fs files) : ∃ run : l.CompleteRun root fs, run.files = files := by
  obtain ⟨_, fs₁, hcommon, hwrite₁, hrest⟩ := h.of_cons
  obtain ⟨_, fs₂, hfuzz, hwrite₂, hrest⟩ := hrest.of_cons
  obtain ⟨_, fs₃, htests, hwrite₃, hrest⟩ := hrest.of_cons
  cases hrest
  obtain ⟨c, hc, rfl⟩ := Logged.map_eq_ok.1 hcommon
  obtain ⟨f, hf, rfl⟩ := Logged.map_eq_ok.1 hfuzz
  obtain ⟨ts, hts, rfl⟩ := Logged.map_eq_ok.1 htests
  exact ⟨⟨c, fs₁, f, fs₂, ts, files, hmet, hc, hwrite₁, hf, hwrite₂, hts, hwrite₃⟩, rfl⟩

end Layout.CompleteRun

theorem Layout.exists_completeRun (hok : (regenerate World.host root l w).1 = .ok ()) :
    ∃ (run : l.CompleteRun root w.files) (log : List LogRecord),
      regenerate World.host root l w = (.ok (), w.after run.files l.transcript log) := by
  obtain ⟨result, files, lines, log, heq, hends⟩ := l.regenerate_eq root w
  rw [heq] at hok ⊢
  cases hok
  obtain ⟨hmet, hwritten, rfl⟩ := hends.of_ok
  obtain ⟨run, rfl⟩ := CompleteRun.exists_of_written hmet hwritten
  exact ⟨run, log, rfl⟩

theorem runStages_append {done : List Stage} (h : Written root done fs files)
    (hw : w.files = fs) (left : List Stage) : ∃ log, runStages World.host root (done ++ left) w =
      runStages World.host root left (w.after files (done.map Stage.announcement) log) := by
  induction h generalizing w with
  | nil =>
    refine ⟨[], ?_⟩
    rw [← hw]
    exact congrArg _ World.after_nil.symm
  | @cons s rest fs fs₁ fs₂ doc hbuilt hwrite h ih =>
    subst hw
    have hrun := Stage.run_of_built hbuilt
    rw [hwrite] at hrun
    generalize (s.build (w.files.project root)).log = log at hrun
    generalize log ++ [.wrote (Path.below root s.path) (Json.render doc)] = log at hrun
    obtain ⟨log', hrest⟩ := ih (w := w.after fs₁ [s.announcement] log) rfl
    rw [World.after_after] at hrest
    exact ⟨log ++ log', (World.bind_eq hrun).trans hrest⟩

def Layout.linesUpTo (l : Layout) (done : List Stage) : List String :=
  opening :: Requirement.confirmations l.requirements ++ done.map Stage.announcement

/-- A run whose first stages can be completed goes on with the others. -/
theorem Layout.regenerate_append {done left : List Stage}
    (hmet : ∀ r ∈ l.requirements, r.isMet w.files root = true) (hstages : l.stages = done ++ left)
    (h : Written root done w.files files) : ∃ log, regenerate World.host root l w =
      runStages World.host root left (w.after files (l.linesUpTo done) log) := by
  have hcheck := precheck_of_all_met (w := w.after w.files [opening] []) hmet
  rw [World.after_after] at hcheck
  obtain ⟨log, hrun⟩ := runStages_append h
    (w := w.after w.files ([opening] ++ Requirement.confirmations l.requirements) []) rfl left
  rw [World.after_after, ← hstages] at hrun
  exact ⟨[] ++ log, (World.bind_eq (World.print_eq w opening)).trans
    ((World.bind_eq hcheck).trans hrun)⟩

theorem Layout.CompleteRun.regenerate_eq (run : l.CompleteRun root fs) (hw : w.files = fs) :
    ∃ log, regenerate World.host root l w = (.ok (), w.after run.files l.transcript log) := by
  subst hw
  obtain ⟨log, hrun⟩ := regenerate_append run.met (List.append_nil l.stages).symm
    (run.writtenCommon.append (run.writtenFuzz.append run.writtenTests))
  exact ⟨log, hrun⟩

namespace Filesystem

/-- A path leads to a file with this text, which lies at the place `p`. -/
structure Holds (fs : Filesystem) (path : String) (p : Place) (text : String) : Prop where
  located : fs.locatePath .find (.text path) = .ok p
  contents : fs.node? p = some (.file (.text text))

theorem Holds.put {c : Octets} (h : fs.Holds path p text) (hq : fs.TakesFile q) (hne : p ≠ q) :
    (fs.put q (.file c)).Holds path p text where
  located := hq.locatePath_put h.located
  contents := (hq.node?_put_ne hne).trans h.contents

theorem holds_writeText (hl : fs.NoLinks) (hname : Path.IsName name) (hends : Path.EndsIn name path)
    (h : fs.writeText path text = .ok fs') :
    fs'.NoLinks ∧ ∃ d, fs'.Holds path (.text name :: d) text := by
  obtain ⟨d, hp, htakes, rfl⟩ := writeText_of_noLinks hl hname hends h
  have hself := htakes.node?_put_self (c := .text text)
  have hfind := find_of_create (htakes.locatePath_put hp) (by rw [hself]; exact nofun)
  exact ⟨htakes.noLinks_put hl, d, hfind, hself⟩

end Filesystem

/-- A path with a last name that no stage writes to still holds its text after the stages. -/
theorem Written.holds {ss : List Stage} {n : Octets} {d : Place}
    (hss : ∀ s ∈ ss, ∃ name, Path.IsName name ∧ Path.EndsIn name s.path ∧ .text name ≠ n)
    (h : Written root ss fs files) (hl : fs.NoLinks) (hp : fs.Holds path (n :: d) text) :
    files.Holds path (n :: d) text := by
  induction h with
  | nil => exact hp
  | @cons s rest fs fs₁ fs₂ doc hbuilt hwrite h ih =>
    obtain ⟨name, hname, hends, hne⟩ := hss s List.mem_cons_self
    obtain ⟨e, -, htakes, rfl⟩ := Filesystem.writeText_of_noLinks hl hname (hends.below root) hwrite
    apply ih
    · intro s' hs'
      exact hss s' (List.mem_cons_of_mem s hs')
    · exact htakes.noLinks_put hl
    · apply hp.put htakes
      intro heq
      exact hne (List.cons.inj heq).1.symm

theorem Written.holds_common {d : Place} (h : Written root [.fuzz l, .tests l] fs files)
    (hl : fs.NoLinks) (hp : fs.Holds path (.text "common.config" :: d) text) :
    files.Holds path (.text "common.config" :: d) text := by
  apply h.holds ?_ hl hp
  intro s hs
  simp only [List.mem_cons, List.not_mem_nil, or_false] at hs
  rcases hs with rfl | rfl
  · exact ⟨"fuzz.config", Path.isName_fuzz, Path.endsIn_join, by decide⟩
  · exact ⟨"tis.config", Path.isName_tests, .inl rfl, by decide⟩

theorem Written.holds_fuzz {d : Place} (h : Written root [.tests l] fs files)
    (hl : fs.NoLinks) (hp : fs.Holds path (.text "fuzz.config" :: d) text) :
    files.Holds path (.text "fuzz.config" :: d) text := by
  apply h.holds ?_ hl hp
  intro s hs
  cases List.mem_singleton.1 hs
  exact ⟨"tis.config", Path.isName_tests, .inl rfl, by decide⟩

theorem Project.configs_of_testEntries {project : Project} {commonPath fuzzPath : String}
    {ts : List TestEntry} (h : (project.testEntries l commonPath fuzzPath).result = .ok ts) :
    ∀ t ∈ ts, t.config = commonPath ∧ ∀ path, t.extraConfig = some path → path = fuzzPath := by
  obtain ⟨files, inputs, -, -, rfl⟩ := testEntries_eq_ok.1 h
  intro t ht
  rcases List.mem_append.1 ht with ht | ht
  · obtain ⟨file, -, rfl⟩ := List.mem_map.1 ht
    exact ⟨rfl, nofun⟩
  · obtain ⟨input, -, rfl⟩ := List.mem_map.1 ht
    exact ⟨rfl, fun path h => (Option.some.inj h).symm⟩

/-- After a run without links, each of the three output paths holds what its stage built from the
files that the stages before it had left, and the three are different files. The first include of
every test leads to the first of them, and the second include, where there is one, to the second. -/
theorem regenerate_outputs_hold (root : String) (l : Layout) (w : World) (hl : w.files.NoLinks)
    (hok : (regenerate World.host root l w).1 = .ok ()) :
    ∃ (run : l.CompleteRun root w.files) (p q r : Place),
      (regenerate World.host root l w).2.files = run.files ∧
      p ≠ q ∧ p ≠ r ∧ q ≠ r ∧
      run.files.Holds (Path.below root l.commonPath) p (Json.render run.common.toDoc) ∧
      run.files.Holds (Path.below root l.fuzzPath) q (Json.render run.fuzz.toDoc) ∧
      run.files.Holds (Path.below root l.testsPath) r (Json.render (TestEntry.listDoc run.tests)) ∧
      ∀ t ∈ run.tests,
        run.files.Holds (Path.below root t.config) p (Json.render run.common.toDoc) ∧
        ∀ path, t.extraConfig = some path →
          run.files.Holds (Path.below root path) q (Json.render run.fuzz.toDoc) := by
  obtain ⟨run, log, heq⟩ := Layout.exists_completeRun hok
  obtain ⟨hl₁, d₁, hcommon⟩ := Filesystem.holds_writeText hl Path.isName_common
    (Path.endsIn_join.below root) run.common_written
  obtain ⟨hl₂, d₂, hfuzz⟩ := Filesystem.holds_writeText hl₁ Path.isName_fuzz
    (Path.endsIn_join.below root) run.fuzz_written
  have htestsPath : Path.EndsIn "tis.config" l.testsPath := .inl rfl
  obtain ⟨-, d₃, htests⟩ := Filesystem.holds_writeText hl₂ Path.isName_tests
    (htestsPath.below root) run.tests_written
  have hcommon := (run.writtenFuzz.append run.writtenTests).holds_common hl₁ hcommon
  have hfuzz := run.writtenTests.holds_fuzz hl₂ hfuzz
  refine ⟨run, _, _, _, ?_, ?_, ?_, ?_, hcommon, hfuzz, htests, ?_⟩
  · rw [heq, World.after_files]
  · exact fun h => absurd (List.cons.inj h).1 (by decide)
  · exact fun h => absurd (List.cons.inj h).1 (by decide)
  · exact fun h => absurd (List.cons.inj h).1 (by decide)
  · intro t ht
    obtain ⟨hconfig, hextra⟩ := Project.configs_of_testEntries run.tests_built t ht
    rw [hconfig]
    refine ⟨hcommon, ?_⟩
    intro path hpath
    rw [hextra path hpath]
    exact hfuzz

/-- The layout of the defaults, with a detour on the way to its tool directory. -/
def Layout.detour : Layout where
  toolDir := "tests/..//trustinsoft/./"

theorem regenerate_detour_outputs_hold :
    World.project.files.NoLinks ∧ (regenerate World.host "." .detour .project).1 = .ok () ∧
    ∃ (run : Layout.detour.CompleteRun "." World.project.files) (p q r : Place),
      (regenerate World.host "." .detour .project).2.files = run.files ∧
      p ≠ q ∧ p ≠ r ∧ q ≠ r ∧
      run.files.Holds "./tests/..//trustinsoft/./common.config" p
        (Json.render run.common.toDoc) ∧
      run.files.Holds "./tests/..//trustinsoft/./fuzz.config" q (Json.render run.fuzz.toDoc) ∧
      run.files.Holds "./tis.config" r (Json.render (TestEntry.listDoc run.tests)) ∧
      ∀ t ∈ run.tests,
        run.files.Holds (Path.below "." t.config) p (Json.render run.common.toDoc) ∧
        ∀ path, t.extraConfig = some path →
          run.files.Holds (Path.below "." path) q (Json.render run.fuzz.toDoc) := by
  have hl : World.project.files.NoLinks := by
    apply Filesystem.noLinks_of_nodes
    simp [World.project]
  have hok : (regenerate World.host "." .detour .project).1 = .ok () := by decide +kernel
  exact ⟨hl, hok, regenerate_outputs_hold "." .detour .project hl hok⟩

end AnalyzerConfig
