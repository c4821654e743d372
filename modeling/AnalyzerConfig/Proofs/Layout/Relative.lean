import AnalyzerConfig.Proofs.Project.Building
import AnalyzerConfig.Proofs.Filesystem.Naming

namespace AnalyzerConfig.Layout

structure IsRelative (l : Layout) : Prop where
  toolDir : Path.isAbsolute l.toolDir = false
  testDir : Path.isAbsolute l.testDir = false
  fuzzInputDir : Path.isAbsolute l.fuzzInputDir = false
  patchFixtureDir : Path.isAbsolute l.patchFixtureDir = false
  inputFixtureDir : Path.isAbsolute l.inputFixtureDir = false
  commonSources : ∀ src ∈ l.commonSources, Path.isAbsolute src = false
  fuzzSources : ∀ src ∈ l.fuzzSources, Path.isAbsolute src = false
  fuzzHarness : Path.isAbsolute l.fuzzHarness = false

def scannedDirs (l : Layout) : List String := l.scans.map Prod.fst

/-- The paths that a run looks up below the root, entries of directories apart. -/
def lookups (l : Layout) : List String :=
  l.requiredDirs ++ l.requiredFiles ++ l.scannedDirs ++ l.stages.map Stage.path

variable {l : Layout} {path dir : String}

theorem mem_lookups_of_dir (h : dir ∈ l.scannedDirs) : dir ∈ l.lookups := by
  simp [lookups, h]

theorem mem_lookups_of_stage {s : Stage} (h : s ∈ l.stages) : s.path ∈ l.lookups := by
  simp only [lookups, List.mem_append, List.mem_map]
  exact .inr ⟨s, h, rfl⟩

namespace IsRelative

theorem scannedDir (h : l.IsRelative) (hdir : dir ∈ l.scannedDirs) :
    Path.isAbsolute dir = false := by
  have htest := Path.isAbsolute_normalize h.testDir
  simp only [scannedDirs, scans, List.map_cons, List.map_nil, List.mem_cons, List.not_mem_nil,
    or_false] at hdir
  rcases hdir with rfl | rfl | rfl | rfl
  · exact Path.isAbsolute_join htest (Path.isAbsolute_normalize h.patchFixtureDir)
  · exact Path.isAbsolute_join htest (Path.isAbsolute_normalize h.inputFixtureDir)
  · exact Path.isAbsolute_normalize h.fuzzInputDir
  · exact htest

theorem stage (h : l.IsRelative) {s : Stage} (hs : s ∈ l.stages) :
    Path.isAbsolute s.path = false := by
  simp only [stages, List.mem_cons, List.not_mem_nil, or_false] at hs
  rcases hs with rfl | rfl | rfl
  · exact Path.isAbsolute_join h.toolDir (by decide)
  · exact Path.isAbsolute_join h.toolDir (by decide)
  · exact (by decide : Path.isAbsolute "tis.config" = false)

theorem lookup (h : l.IsRelative) (hpath : path ∈ l.lookups) : Path.isAbsolute path = false := by
  simp only [lookups, requiredDirs, requiredFiles, List.mem_append, List.mem_cons,
    List.not_mem_nil, or_false, or_assoc] at hpath
  rcases hpath with rfl | rfl | rfl | hpath | hpath | rfl | hpath | hpath
  · exact h.toolDir
  · exact h.testDir
  · exact h.fuzzInputDir
  · exact h.commonSources _ hpath
  · exact h.fuzzSources _ hpath
  · exact h.fuzzHarness
  · exact h.scannedDir hpath
  · obtain ⟨s, hs, rfl⟩ := List.mem_map.1 hpath
    exact h.stage hs

end IsRelative

end AnalyzerConfig.Layout
