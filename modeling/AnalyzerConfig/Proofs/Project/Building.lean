import AnalyzerConfig.Proofs.Project.Finding
import AnalyzerConfig.Run

namespace AnalyzerConfig

variable {project project' : Project} {l : Layout} {dir pattern virtualDir : String}

namespace Logged

variable {α β : Type} {x : Logged α} {b : β} {e : Failure}

theorem bind_eq_ok {f : α → Logged β} :
    (x >>= f).result = .ok b ↔ ∃ a, x.result = .ok a ∧ (f a).result = .ok b := by
  rw [result_bind]
  cases x.result <;> simp [Except.bind]

theorem bind_eq_error {f : α → Logged β} :
    (x >>= f).result = .error e ↔
      x.result = .error e ∨ ∃ a, x.result = .ok a ∧ (f a).result = .error e := by
  rw [result_bind]
  cases x.result <;> simp [Except.bind]

theorem map_eq_ok {f : α → β} : (f <$> x).result = .ok b ↔ ∃ a, x.result = .ok a ∧ b = f a := by
  show (x >>= fun a => pure (f a)).result = _ ↔ _
  rw [bind_eq_ok]
  simp [eq_comm]

theorem map_eq_error {f : α → β} : (f <$> x).result = .error e ↔ x.result = .error e := by
  show (x >>= fun a => pure (f a)).result = _ ↔ _
  rw [bind_eq_error]
  simp

theorem ok_bind {a : α} {f : α → Logged β} : (ofExcept (.ok a) >>= f) = f a := rfl

theorem result_record (r : LogRecord) : (record r >>= fun _ => x).result = x.result := by
  rw [result_bind]
  rfl

theorem result_record_if {c : Prop} [Decidable c] (r : LogRecord) :
    (if c then record r >>= fun _ => x else x).result = x.result := by
  split
  · exact result_record r
  · rfl

end Logged

namespace Project

def mount (virtualDir file : String) : Mount :=
  ⟨Path.join virtualDir (Path.baseName file), fromToolDir file⟩

theorem mounts_eq_ok {ms : List Mount} :
    (project.mounts dir pattern virtualDir).result = .ok ms ↔
      ∃ found, (project.findFiles dir pattern).result = .ok found ∧
        ms = found.map (mount virtualDir) := by
  unfold mounts
  simp only [Logged.bind_eq_ok, Logged.result_record_if, Logged.result_pure, Except.ok.injEq]
  simp only [eq_comm]
  rfl

theorem mounts_eq_error {e : Failure} :
    (project.mounts dir pattern virtualDir).result = .error e ↔
      (project.findFiles dir pattern).result = .error e := by
  unfold mounts
  simp only [Logged.bind_eq_error, Logged.result_record_if, Logged.result_pure, reduceCtorEq,
    and_false, exists_false, or_false]

theorem commonConfig_eq_ok {c : CommonConfig} :
    (project.commonConfig l).result = .ok c ↔
      ∃ patches inputs,
        (project.findFiles l.normalized.patchDir "*.json").result = .ok patches ∧
        (project.findFiles l.normalized.inputDir l.normalized.inputPattern).result = .ok inputs ∧
        c = {
          files := l.normalized.commonSources.map fromToolDir
          compilerOptions := l.normalized.compilerOptions
          recursionDepth := l.normalized.recursionDepth
          mounts := patches.map (mount l.normalized.patchFixtureDir) ++
            inputs.map (mount l.normalized.inputFixtureDir) } := by
  unfold commonConfig
  simp only [Logged.bind_eq_ok, mounts_eq_ok, Logged.result_pure, Except.ok.injEq]
  apply Iff.intro
  · intro h
    obtain ⟨_, ⟨patches, hp, rfl⟩, _, ⟨inputs, hi, rfl⟩, rfl⟩ := h
    exact ⟨patches, inputs, hp, hi, rfl⟩
  · intro h
    obtain ⟨patches, inputs, hp, hi, rfl⟩ := h
    exact ⟨_, ⟨patches, hp, rfl⟩, _, ⟨inputs, hi, rfl⟩, rfl⟩

theorem fuzzConfig_eq_ok {f : FuzzConfig} :
    (project.fuzzConfig l).result = .ok f ↔
      ∃ inputs,
        (project.findFiles l.normalized.fuzzInputDir l.normalized.inputPattern).result =
          .ok inputs ∧
        f = {
          files := (l.normalized.fuzzSources ++ [l.normalized.fuzzHarness]).map fromToolDir
          mounts := inputs.map (mount l.normalized.fuzzInputDir) } := by
  unfold fuzzConfig
  simp only [Logged.bind_eq_ok, mounts_eq_ok, Logged.result_pure, Except.ok.injEq]
  apply Iff.intro
  · intro h
    obtain ⟨_, ⟨inputs, hi, rfl⟩, rfl⟩ := h
    exact ⟨inputs, hi, rfl⟩
  · intro h
    obtain ⟨inputs, hi, rfl⟩ := h
    exact ⟨_, ⟨inputs, hi, rfl⟩, rfl⟩

theorem testFiles_eq_ok {files : List String} :
    (project.testFiles l).result = .ok files ↔
      ∃ found, (project.findFiles l.normalized.testDir "*.c").result = .ok found ∧
        exclude l.normalized.testDir l.normalized.excludedTests found = .ok files := by
  unfold testFiles
  simp only [Logged.bind_eq_ok, Logged.result_record, Logged.result_pure, Except.ok.injEq,
    exists_eq_right, Logged.ofExcept]

theorem testEntries_eq_ok {commonPath fuzzPath : String} {ts : List TestEntry} :
    (project.testEntries l commonPath fuzzPath).result = .ok ts ↔
      ∃ files inputs, (project.testFiles l).result = .ok files ∧
        (project.findFiles l.normalized.fuzzInputDir l.normalized.inputPattern).result =
          .ok inputs ∧
        ts = files.map (fileTest commonPath) ++
          inputs.map (fuzzTest l.normalized commonPath fuzzPath) := by
  unfold testEntries
  simp only [Logged.bind_eq_ok, Logged.result_record_if, Logged.result_pure, Except.ok.injEq,
    exists_and_left]
  simp only [eq_comm]

theorem extraConfig_fileTest (commonPath : String) (files : List String) :
    ∀ t ∈ files.map (fileTest commonPath), t.extraConfig = none := by
  rw [List.forall_mem_map]
  exact fun _ _ => rfl

theorem extraConfig_fuzzTest (commonPath fuzzPath : String) (inputs : List String) :
    ∀ t ∈ inputs.map (fuzzTest l commonPath fuzzPath), t.extraConfig = some fuzzPath := by
  rw [List.forall_mem_map]
  exact fun _ _ => rfl

end Project

/-- The scans of a layout, each a directory and a pattern. -/
def Layout.scans (l : Layout) : List (String × String) :=
  [(l.normalized.patchDir, "*.json"), (l.normalized.inputDir, l.normalized.inputPattern),
    (l.normalized.fuzzInputDir, l.normalized.inputPattern), (l.normalized.testDir, "*.c")]

/-- A configuration that was built is built again wherever the scans find the same. -/
theorem Stage.build_congr {s : Stage} {doc : Json.Doc} (hs : s ∈ l.stages)
    (hscan : ∀ scan ∈ l.scans, ∀ ps, (project.findFiles scan.1 scan.2).result = .ok ps →
      (project'.findFiles scan.1 scan.2).result = .ok ps)
    (h : (s.build project).result = .ok doc) : (s.build project').result = .ok doc := by
  have hpatches := hscan (l.normalized.patchDir, "*.json") (by simp [Layout.scans])
  have hinputs := hscan (l.normalized.inputDir, l.normalized.inputPattern) (by simp [Layout.scans])
  have hfuzz := hscan (l.normalized.fuzzInputDir, l.normalized.inputPattern)
    (by simp [Layout.scans])
  have htests := hscan (l.normalized.testDir, "*.c") (by simp [Layout.scans])
  simp only [Layout.stages, List.mem_cons, List.not_mem_nil, or_false] at hs
  rcases hs with rfl | rfl | rfl
  · obtain ⟨c, hc, rfl⟩ := Logged.map_eq_ok.1 h
    obtain ⟨patches, inputs, hp, hi, hc⟩ := Project.commonConfig_eq_ok.1 hc
    have hbuilt := Project.commonConfig_eq_ok.2 ⟨_, _, hpatches _ hp, hinputs _ hi, hc⟩
    exact Logged.map_eq_ok.2 ⟨c, hbuilt, rfl⟩
  · obtain ⟨f, hf, rfl⟩ := Logged.map_eq_ok.1 h
    obtain ⟨inputs, hi, hf⟩ := Project.fuzzConfig_eq_ok.1 hf
    exact Logged.map_eq_ok.2 ⟨f, Project.fuzzConfig_eq_ok.2 ⟨_, hfuzz _ hi, hf⟩, rfl⟩
  · obtain ⟨ts, hts, rfl⟩ := Logged.map_eq_ok.1 h
    obtain ⟨files, inputs, hfiles, hi, hts⟩ := Project.testEntries_eq_ok.1 hts
    obtain ⟨found, hfound, hex⟩ := Project.testFiles_eq_ok.1 hfiles
    have hfiles := Project.testFiles_eq_ok.2 ⟨found, htests _ hfound, hex⟩
    have hbuilt := Project.testEntries_eq_ok.2 ⟨files, inputs, hfiles, hfuzz _ hi, hts⟩
    exact Logged.map_eq_ok.2 ⟨ts, hbuilt, rfl⟩

theorem mapM_eq_error {α β ε : Type} {f : α → Except ε β} {as : List α} {e : ε}
    (h : as.mapM f = .error e) : ∃ a ∈ as, f a = .error e := by
  induction as with
  | nil => cases h
  | cons a as ih =>
    rw [List.mapM_cons] at h
    cases ha : f a with
    | error e' =>
      rw [ha] at h
      cases h
      exact ⟨a, List.mem_cons_self, ha⟩
    | ok b =>
      cases has : as.mapM f with
      | error e' =>
        rw [ha, has] at h
        cases h
        obtain ⟨a', hmem, ha'⟩ := ih has
        exact ⟨a', List.mem_cons_of_mem a hmem, ha'⟩
      | ok bs =>
        rw [ha, has] at h
        cases h

/-- What a scan can fail with. -/
inductive Project.ScanFailure (root dir pattern : String) : Failure → Prop
  | badPattern (fault : Glob.Fault) : ScanFailure root dir pattern (.badPattern pattern fault)
  | deepPattern (message : String) : ScanFailure root dir pattern (.deepPattern message)
  | unlistable (fault : FileFault) :
    ScanFailure root dir pattern (.unlistable (Path.below root dir) fault)
  | notRelative (n : Octets) :
    ScanFailure root dir pattern (.notRelative (Path.below root dir) n root)
  | nameNotText (n : Octets) :
    ScanFailure root dir pattern (.nameNotText (Path.below root dir) n)

variable {e : Failure}

theorem Project.findFiles_error (h : (project.findFiles dir pattern).result = .error e) :
    ScanFailure project.root dir pattern e := by
  unfold findFiles at h
  split at h
  · cases h
    exact .badPattern _
  split at h
  · cases h
    exact .deepPattern _
  split at h
  · rw [Logged.result_record] at h
    cases h
  · cases h
    exact .unlistable _
  · simp only [Logged.bind_eq_error, Logged.result_record, Logged.result_pure, reduceCtorEq,
      and_false, exists_false, or_false] at h
    obtain ⟨n, -, hn⟩ := mapM_eq_error h
    unfold entryPath at hn
    split at hn
    · cases hn
      exact .notRelative n
    · cases hn
      exact .nameNotText n
    · cases hn

theorem Stage.common_error (h : ((Stage.common l).build project).result = .error e) :
    ∃ dir pattern, Project.ScanFailure project.root dir pattern e := by
  have h := Logged.map_eq_error.1 h
  unfold Project.commonConfig at h
  simp only [Logged.bind_eq_error, Project.mounts_eq_error, Logged.result_pure, reduceCtorEq,
    and_false, exists_false, or_false] at h
  rcases h with h | ⟨-, -, h⟩
  · exact ⟨_, _, Project.findFiles_error h⟩
  · exact ⟨_, _, Project.findFiles_error h⟩

theorem Stage.fuzz_error (h : ((Stage.fuzz l).build project).result = .error e) :
    ∃ dir pattern, Project.ScanFailure project.root dir pattern e := by
  have h := Logged.map_eq_error.1 h
  unfold Project.fuzzConfig at h
  simp only [Logged.bind_eq_error, Project.mounts_eq_error, Logged.result_pure, reduceCtorEq,
    and_false, exists_false, or_false] at h
  exact ⟨_, _, Project.findFiles_error h⟩

end AnalyzerConfig
