import AnalyzerConfig.Proofs.Run.Effects
import Mathlib.Data.List.Perm.Subperm

namespace AnalyzerConfig

variable {root dir pattern : String} {l : Layout} {fs fs' files : Filesystem} {p q : Place}
variable {c : Octets} {ps qs : List String}

def TestInput.argument? : TestInput → Option String
  | .files _ => none
  | .arguments line => some line

/-- The argument lines of the tests that have one. -/
def TestEntry.arguments (ts : List TestEntry) : List String := ts.filterMap (·.input.argument?)

theorem TestEntry.arguments_append (ts us : List TestEntry) :
    arguments (ts ++ us) = arguments ts ++ arguments us :=
  List.filterMap_append

theorem Project.arguments_fileTest (commonPath : String) (paths : List String) :
    TestEntry.arguments (paths.map (fileTest commonPath)) = [] := by
  induction paths with
  | nil => rfl
  | cons path paths ih => exact ih

theorem Project.arguments_fuzzTest (l : Layout) (commonPath fuzzPath : String)
    (paths : List String) :
    TestEntry.arguments (paths.map (fuzzTest l commonPath fuzzPath)) =
      (paths.map (mount l.fuzzInputDir)).map (" " ++ ·.name) := by
  induction paths with
  | nil => rfl
  | cons path paths ih => exact congrArg _ ih

theorem Project.exists_lists_of_findFiles {pat : Glob.Pattern}
    (hpat : Glob.parse pattern = .ok pat) (hd : fs.isDirectory (Path.below root dir) = true)
    (h : ((fs.project root).findFiles dir pattern).result = .ok ps) :
    ∃ names, fs.Lists (Path.below root dir) pat names ∧ ps.length = names.length := by
  obtain ⟨pat', hpat', -, hfound⟩ := findFiles_eq_ok.1 h
  cases hpat.symm.trans hpat'
  rcases hfound with ⟨hd', -⟩ | ⟨-, names, paths, hlists, hpaths, rfl⟩
  · cases hd.symm.trans hd'
  · refine ⟨names, hlists, ?_⟩
    rw [(inOrder_perm paths).length_eq]
    exact (mapM_eq_ok.1 hpaths).length_eq.symm

theorem Project.findFiles_put_of_gains {pat : Glob.Pattern} {n : Octets} (hp : fs.TakesFile p)
    (hpat : Glob.parse pattern = .ok pat) (hd : fs.isDirectory (Path.below root dir) = true)
    (hin : isStandardInput (Path.below root dir) = false)
    (hgains : fs.Gains p (Path.below root dir) pat n)
    (hps : ((fs.project root).findFiles dir pattern).result = .ok ps)
    (hqs : (((fs.put p (.file c)).project root).findFiles dir pattern).result = .ok qs) :
    ps.length < qs.length := by
  have hd' := (Filesystem.isDirectory_put (c := c) hp (Path.below root dir)).trans hd
  obtain ⟨names, ⟨hnodup, hmem⟩, hlen⟩ := exists_lists_of_findFiles hpat hd hps
  obtain ⟨names', ⟨hnodup', hmem'⟩, hlen'⟩ := exists_lists_of_findFiles hpat hd' hqs
  have hn : n ∉ names := fun h => hgains.not_finds ((hmem n).1 h).2
  have hsub : n :: names ⊆ names' := by
    intro m hm
    rw [hmem', Filesystem.finds_put hp]
    rcases List.mem_cons.1 hm with rfl | hm
    · exact ⟨hin, .inr hgains⟩
    · exact ⟨hin, .inl ((hmem m).1 hm).2⟩
  have hle := (List.subperm_of_subset (hnodup.cons hn) hsub).length_le
  rw [hlen, hlen']
  exact hle

theorem Project.findFiles_put_of_not_gains (hp : fs.TakesFile p)
    (h : ∀ pat n, Glob.parse pattern = .ok pat → fs.isDirectory (Path.below root dir) = true →
      isStandardInput (Path.below root dir) = false → ¬ fs.Gains p (Path.below root dir) pat n)
    (hps : ((fs.project root).findFiles dir pattern).result = .ok ps) :
    (((fs.put p (.file c)).project root).findFiles dir pattern).result = .ok ps := by
  apply findFiles_congr (Filesystem.isDirectory_put hp _) ?_ hps
  intro pat hpat hd hin n
  rw [Filesystem.finds_put hp]
  exact or_iff_left (h pat n hpat hd hin)

theorem Project.findFiles_put_subset (hp : fs.TakesFile p)
    (hps : ((fs.project root).findFiles dir pattern).result = .ok ps)
    (hqs : (((fs.put p (.file c)).project root).findFiles dir pattern).result = .ok qs) :
    ps ⊆ qs := by
  obtain ⟨pat, hpat, -, hbefore⟩ := findFiles_eq_ok.1 hps
  obtain ⟨pat', hpat', -, hafter⟩ := findFiles_eq_ok.1 hqs
  cases hpat.symm.trans hpat'
  rw [Filesystem.isDirectory_put hp] at hafter
  rcases hbefore with ⟨-, rfl⟩ | ⟨hd, names, paths, hlists, hpaths, rfl⟩
  · exact List.nil_subset qs
  rcases hafter with ⟨hd', -⟩ | ⟨-, names', paths', hlists', hpaths', rfl⟩
  · cases hd.symm.trans hd'
  · intro file hfile
    rw [(inOrder_perm paths).mem_iff, mem_of_mapM_eq_ok hpaths] at hfile
    rw [(inOrder_perm paths').mem_iff, mem_of_mapM_eq_ok hpaths']
    obtain ⟨n, hn, hpath⟩ := hfile
    obtain ⟨hin, hfinds⟩ := (hlists.2 n).1 hn
    exact ⟨n, (hlists'.2 n).2 ⟨hin, (Filesystem.finds_put hp).2 (.inl hfinds)⟩, hpath⟩

/-- Whether a scan of a layout for fuzz inputs finds more once a file is made at `p`. -/
def Layout.GainsInput (root : String) (l : Layout) (fs : Filesystem) (p : Place) : Prop :=
  ∃ pat n, Glob.parse l.normalized.inputPattern = .ok pat ∧
    fs.isDirectory (Path.below root l.normalized.fuzzInputDir) = true ∧
    Project.isStandardInput (Path.below root l.normalized.fuzzInputDir) = false ∧
    fs.Gains p (Path.below root l.normalized.fuzzInputDir) pat n

theorem Layout.gainsInput_put (hp : fs.TakesFile p) :
    l.GainsInput root (fs.put p (.file c)) q ↔ q ≠ p ∧ l.GainsInput root fs q := by
  unfold GainsInput
  simp only [Filesystem.isDirectory_put hp, Filesystem.gains_put hp]
  apply Iff.intro
  · intro h
    obtain ⟨pat, n, hpat, hd, hin, hne, hgains⟩ := h
    exact ⟨hne, pat, n, hpat, hd, hin, hgains⟩
  · intro h
    obtain ⟨hne, pat, n, hpat, hd, hin, hgains⟩ := h
    exact ⟨pat, n, hpat, hd, hin, hne, hgains⟩

theorem Layout.arguments_eq_mounts_iff {f : FuzzConfig} {ts : List TestEntry}
    (hp : fs.TakesFile p) (hf : ((fs.project root).fuzzConfig l).result = .ok f)
    (hts : (((fs.put p (.file c)).project root).testEntries l l.commonPath l.fuzzPath).result =
      .ok ts) :
    TestEntry.arguments ts = f.mounts.map (" " ++ ·.name) ↔ ¬ l.GainsInput root fs p := by
  obtain ⟨mounted, hmounted, rfl⟩ := Project.fuzzConfig_eq_ok.1 hf
  obtain ⟨tests, named, -, hnamed, rfl⟩ := Project.testEntries_eq_ok.1 hts
  rw [TestEntry.arguments_append, Project.arguments_fileTest, Project.arguments_fuzzTest,
    List.nil_append]
  apply Iff.intro
  · intro heq h
    obtain ⟨pat, n, hpat, hd, hin, hgains⟩ := h
    have hlt := Project.findFiles_put_of_gains hp hpat hd hin hgains hmounted hnamed
    have hlen := congrArg List.length heq
    simp only [List.length_map] at hlen
    omega
  · intro hnone
    have hsame := Project.findFiles_put_of_not_gains (c := c) hp
      (fun pat n hpat hd hin hgains => hnone ⟨pat, n, hpat, hd, hin, hgains⟩) hmounted
    cases hsame.symm.trans hnamed
    rfl

theorem Layout.mounts_subset_arguments {f : FuzzConfig} {ts : List TestEntry}
    (hp : fs.TakesFile p) (hf : ((fs.project root).fuzzConfig l).result = .ok f)
    (hts : (((fs.put p (.file c)).project root).testEntries l l.commonPath l.fuzzPath).result =
      .ok ts) :
    f.mounts.map (" " ++ ·.name) ⊆ TestEntry.arguments ts := by
  obtain ⟨mounted, hmounted, rfl⟩ := Project.fuzzConfig_eq_ok.1 hf
  obtain ⟨tests, named, -, hnamed, rfl⟩ := Project.testEntries_eq_ok.1 hts
  rw [TestEntry.arguments_append, Project.arguments_fileTest, Project.arguments_fuzzTest,
    List.nil_append]
  apply List.map_subset
  apply List.map_subset
  exact Project.findFiles_put_subset hp hmounted hnamed

/-- Whether the fuzz configuration of a run is a fuzz input that was not there before. It is missing
from the files, the common configuration is not made in its place, and the scan for fuzz inputs
selects it under some name. -/
def Layout.MakesInput (root : String) (l : Layout) (fs : Filesystem) : Prop :=
  ∃ p, fs.locatePath .create (.text (Path.below root l.fuzzPath)) = .ok p ∧
    fs.locatePath .create (.text (Path.below root l.commonPath)) ≠ .ok p ∧
    l.GainsInput root fs p

/-- The tests of a run name every input that its fuzz configuration mounts. They name just these,
and in the same order, unless the fuzz configuration itself is a new input. -/
theorem regenerate_arguments_eq_mounts_iff (root : String) (l : Layout) (w : World)
    (ht : w.files.IsTree) (hok : (regenerate World.host root l w).1 = .ok ()) :
    ∃ fs₁ fs₂ f ts,
      Written root [.common l] w.files fs₁ ∧
      ((fs₁.project root).fuzzConfig l).result = .ok f ∧
      fs₁.writeText (Path.below root l.fuzzPath) (Json.render f.toDoc) = .ok fs₂ ∧
      ((fs₂.project root).testEntries l l.commonPath l.fuzzPath).result = .ok ts ∧
      fs₂.writeText (Path.below root l.testsPath) (Json.render (TestEntry.listDoc ts)) =
        .ok (regenerate World.host root l w).2.files ∧
      f.mounts.map (" " ++ ·.name) ⊆ TestEntry.arguments ts ∧
      (TestEntry.arguments ts = f.mounts.map (" " ++ ·.name) ↔ ¬ l.MakesInput root w.files) := by
  obtain ⟨result, files, lines, log, heq, hends⟩ := l.regenerate_eq root w
  rw [heq] at hok ⊢
  cases hok
  obtain ⟨-, hwritten, -⟩ := hends.of_ok
  obtain ⟨doc, fs₁, hcommon, hwrite₁, hrest⟩ := hwritten.of_cons
  obtain ⟨_, fs₂, hfuzz, hwrite₂, hrest⟩ := hrest.of_cons
  obtain ⟨_, fs₃, htests, hwrite₃, hrest⟩ := hrest.of_cons
  cases hrest
  obtain ⟨f, hf, rfl⟩ := Logged.map_eq_ok.1 hfuzz
  obtain ⟨ts, hts, rfl⟩ := Logged.map_eq_ok.1 htests
  refine ⟨fs₁, fs₂, f, ts, .cons hcommon hwrite₁ .nil, hf, hwrite₂, hts, hwrite₃, ?_⟩
  obtain ⟨p₁, hp₁, hopen₁, rfl⟩ := Filesystem.write_eq_ok.1 hwrite₁
  have htakes₁ := Filesystem.TakesFile.of_tree ht hp₁ hopen₁
  obtain ⟨p₂, hp₂, hopen₂, rfl⟩ := Filesystem.write_eq_ok.1 hwrite₂
  have htakes₂ := Filesystem.TakesFile.of_tree (htakes₁.isTree_put ht) hp₂ hopen₂
  refine ⟨Layout.mounts_subset_arguments htakes₂ hf hts, ?_⟩
  rw [Layout.arguments_eq_mounts_iff htakes₂ hf hts, Layout.gainsInput_put htakes₁]
  rw [htakes₁.locatePath_create_put] at hp₂
  apply not_congr
  apply Iff.intro
  · intro h
    obtain ⟨hne, hgains⟩ := h
    refine ⟨p₂, hp₂, ?_, hgains⟩
    intro heq
    exact hne (Except.ok.inj (heq.symm.trans hp₁))
  · intro h
    obtain ⟨p, hp, hne, hgains⟩ := h
    cases hp₂.symm.trans hp
    refine ⟨?_, hgains⟩
    intro heq
    subst heq
    exact hne hp₁

def Layout.shared : Layout where
  toolDir := "d"
  testDir := "d"
  fuzzInputDir := "d"
  inputPrefix := "fuzz"
  commonSources := []
  fuzzSources := []
  fuzzHarness := "h.c"
  excludedTests := []

/-- A directory with one fuzz input, and a harness. -/
def World.shared : World where
  files.nodes := [([.text "d"], .directory), ([.text "fuzz1", .text "d"], .file (.text "")),
    ([.text "h.c"], .file (.text ""))]

theorem Layout.makesInput_shared : shared.MakesInput "." World.shared.files := by
  refine ⟨[.text "fuzz.config", .text "d"], by decide +kernel, by decide +kernel, ?_⟩
  refine ⟨_, .text "fuzz.config", rfl, by decide +kernel, by decide +kernel, ?_⟩
  apply Filesystem.Gains.mk <;> decide +kernel

theorem arguments_ne_mounts_of_shared :
    World.shared.files.IsTree ∧ (regenerate World.host "." .shared .shared).1 = .ok () ∧
    ∃ fs₁ fs₂ f ts,
      Written "." [.common .shared] World.shared.files fs₁ ∧
      ((fs₁.project ".").fuzzConfig .shared).result = .ok f ∧
      fs₁.writeText (Path.below "." Layout.shared.fuzzPath) (Json.render f.toDoc) = .ok fs₂ ∧
      ((fs₂.project ".").testEntries .shared Layout.shared.commonPath
        Layout.shared.fuzzPath).result = .ok ts ∧
      fs₂.writeText (Path.below "." Layout.shared.testsPath)
        (Json.render (TestEntry.listDoc ts)) =
          .ok (regenerate World.host "." .shared .shared).2.files ∧
      TestEntry.arguments ts ≠ f.mounts.map (" " ++ ·.name) := by
  have ht : World.shared.files.IsTree := Filesystem.isTree_of_nodes (by decide +kernel)
  have hok : (regenerate World.host "." .shared .shared).1 = .ok () := by decide +kernel
  obtain ⟨fs₁, fs₂, f, ts, hcommon, hf, hfuzz, hts, htests, -, hiff⟩ :=
    regenerate_arguments_eq_mounts_iff "." .shared .shared ht hok
  refine ⟨ht, hok, fs₁, fs₂, f, ts, hcommon, hf, hfuzz, hts, htests, ?_⟩
  intro heq
  exact hiff.1 heq Layout.makesInput_shared

end AnalyzerConfig
