import AnalyzerConfig.Proofs.Filesystem.Moves
import AnalyzerConfig.Proofs.Project.TestMatrix
import AnalyzerConfig.Proofs.Run.Stages

namespace AnalyzerConfig

variable {fs : Filesystem} {root path : String} {p q : Place} {k : Nat} {steps : List Step}

theorem Path.utf8ByteSize_below_normalize (h : IsKept root path) :
    (below root (normalize path)).utf8ByteSize ≤ (below root path).utf8ByteSize := by
  have hle := utf8ByteSize_normalize_le path
  cases habsolute : isAbsolute path with
  | false =>
    rw [utf8ByteSize_below habsolute, utf8ByteSize_below (isAbsolute_normalize habsolute)]
    omega
  | true =>
    have hnormal := h.isAbsolute_normalize.trans habsolute
    rwa [below_of_absolute habsolute, below_of_absolute hnormal]

namespace Filesystem

theorem Leads.of_no_moves (h : Leads fs .find k p steps q) (hmoves : steps.filter Step.moves = []) :
    q = p := by
  have h := h.filter_moves
  rw [hmoves] at h
  cases h
  rfl

theorem locatePath_top (htop : Path.IsTop path)
    (h : fs.locatePath .find (.text (Path.below root path)) = .ok q) : q = [] := by
  rw [Path.below_of_absolute htop.1] at h
  obtain ⟨k, -, hl⟩ := leads_moves_of_locatePath h
  have hmoves : Path.moves path = [] := List.map_eq_nil_iff.2 htop.2
  rw [hmoves, rootStart, htop.1] at hl
  cases hl
  rfl

theorem locatePath_normalize_of_names (hnames : Path.namingSegments path ≠ [])
    (h : fs.locatePath .find (.text (Path.below root path)) = .ok q) :
    fs.locatePath .find (.text (Path.below root (Path.normalize path))) = .ok q := by
  have hkept : Path.IsKept root path := .inl hnames
  have hshort := (isShort_text _).1 (locatePath_eq_ok.1 h).1
  have hle := Path.utf8ByteSize_below_normalize hkept
  -- the last segment of a normal form is a name
  obtain ⟨s, hlast⟩ := Option.ne_none_iff_exists'.1 (mt List.getLast?_eq_none_iff.1 hnames)
  have hs := Path.isNaming_of_mem_namingSegments (List.mem_of_getLast? hlast)
  have hsegments := Path.segments_normalize_of_names hnames
  have hlast : (Path.segments (Path.below root (Path.normalize path))).getLast? = some s := by
    rw [Path.getLast?_segments_below, hsegments, List.getLast?_append_of_ne_nil _ hnames, hlast]
  exact locatePath_congr hkept.isAbsolute_below hkept.namingSegments_below hlast hs
    (Nat.le_trans hle hshort) h

theorem locatePath_of_no_names (hroot : root ≠ "") (habsolute : Path.isAbsolute path = false)
    (hnames : Path.namingSegments path = [])
    (h : fs.locatePath .find (.text (Path.below root path)) = .ok q) :
    fs.locatePath .find (.text (Path.below root "")) = .ok q := by
  obtain ⟨hshort, -, k, hk, hl⟩ := (locatePath_eq_ok.1 h).imp_right locate_eq_ok.1
  rw [Route.ofPath_below hroot habsolute] at hl
  obtain ⟨k₁, k₂, m, rfl, h₁, h₂⟩ := hl.split .find
  have hmoves : (Path.steps path).filter Step.moves = [] := by
    rw [Path.steps_filter_moves, hnames]
    rfl
  have hd : fs.node? m = some .directory := by
    obtain ⟨step, rest, hsteps⟩ := List.exists_cons_of_ne_nil (Path.steps_ne_nil path)
    rw [hsteps] at h₂
    exact h₂.directory_of_cons
  obtain rfl := h₂.of_no_moves hmoves
  have hslash : Leads fs .find 0 q (Path.steps "") q := .stay hd (.inl rfl) .done
  refine locatePath_eq_ok.2 ⟨?_, locate_eq_ok.2 ⟨?_, k₁, by omega, ?_⟩⟩
  · have hle := Path.utf8ByteSize_below_normalize (.inr ⟨habsolute, hroot⟩)
    rw [Path.normalize_of_no_names hnames] at hle
    exact (isShort_text _).2 (Nat.le_trans hle ((isShort_text _).1 hshort))
  · rw [Route.ofPath_below hroot rfl]
    exact List.append_ne_nil_of_right_ne_nil _ (Path.steps_ne_nil "")
  · rw [Route.ofPath_below hroot rfl]
    exact h₁.append .find hslash

theorem locatePath_normalize (hkept : Path.IsKept root path)
    (h : fs.locatePath .find (.text (Path.below root path)) = .ok q) :
    fs.locatePath .find (.text (Path.below root (Path.normalize path))) = .ok q := by
  by_cases hnames : Path.namingSegments path = []
  · obtain ⟨habsolute, hroot⟩ := hkept.resolve_left (not_not_intro hnames)
    rw [Path.normalize_of_no_names hnames]
    exact locatePath_of_no_names hroot habsolute hnames h
  · exact locatePath_normalize_of_names hnames h

/-- Two paths that lead to the same place below a root. -/
def SamePlace (fs : Filesystem) (root path path' : String) : Prop :=
  ∃ q, fs.locatePath .find (.text (Path.below root path)) = .ok q ∧
    fs.locatePath .find (.text (Path.below root path')) = .ok q

theorem isKept_of_isFile (hroot : root ≠ "") (h : fs.isFile (Path.below root path)) :
    Path.IsKept root path := by
  rw [Path.isKept_iff_not_isTop hroot]
  intro htop
  obtain ⟨q, c, hq, hc⟩ := isFile_iff.1 h
  obtain rfl := locatePath_top htop hq
  cases hc

/-- Normalising a path never changes what it refers to, unless nothing is left of the path: then it
refers to the root, as it did before just if it is relative and there is a root. So a run works on
the sources that were checked, and on the directories that were checked, the top directory apart. -/
theorem samePlace_normalize_iff (fs : Filesystem) (root : String) :
    (∀ path q, fs.locatePath .find (.text (Path.below root path)) = .ok q →
      (fs.locatePath .find (.text (Path.below root (Path.normalize path))) = .ok q ↔
        Path.IsKept root path ∨ fs.locatePath .find (.text (Path.below root "")) = .ok q) ∧
      (Path.IsTop path → q = [])) ∧
    ∀ l : Layout, (∀ r ∈ l.requirements, r.isMet fs root = true) →
      List.Forall₂ (fs.SamePlace root) l.requiredFiles l.normalized.requiredFiles ∧
      List.Forall₂ (fun given used => fs.SamePlace root given used ∨ Path.IsTop given)
        l.requiredDirs l.normalized.requiredDirs := by
  refine ⟨fun path q h => ⟨⟨fun hnormal => ?_, ?_⟩, fun htop => locatePath_top htop h⟩,
    fun l hmet => ?_⟩
  · by_cases hnames : Path.namingSegments path = []
    · rw [Path.normalize_of_no_names hnames] at hnormal
      exact .inr hnormal
    · exact .inl (.inl hnames)
  · rintro (hkept | hroot)
    · exact locatePath_normalize hkept h
    · by_cases hnames : Path.namingSegments path = []
      · rwa [Path.normalize_of_no_names hnames]
      · exact locatePath_normalize_of_names hnames h
  obtain ⟨p, hp, -⟩ := isDirectory_iff.1 (hmet .root List.mem_cons_self)
  have hroot := ne_empty_of_locatePath hp
  constructor
  · have hfiles : l.normalized.requiredFiles = l.requiredFiles.map Path.normalize := by
      simp only [Layout.requiredFiles, Layout.normalized, List.map_append, List.map_cons,
        List.map_nil]
    rw [hfiles, List.forall₂_map_right_iff, List.forall₂_same]
    intro src hsrc
    have hfile : fs.isFile (Path.below root src) :=
      hmet (.file src) (List.mem_append_right _ (List.mem_map_of_mem hsrc))
    obtain ⟨q, -, hq, -⟩ := isFile_iff.1 hfile
    exact ⟨q, hq, locatePath_normalize (isKept_of_isFile hroot hfile) hq⟩
  · have hdirs : l.normalized.requiredDirs = l.requiredDirs.map Path.normalize := rfl
    rw [hdirs, List.forall₂_map_right_iff, List.forall₂_same]
    intro dir hdir
    have hmem : Requirement.directory dir ∈ l.requirements :=
      List.mem_append_left _ (List.mem_cons_of_mem _ (List.mem_map_of_mem hdir))
    obtain ⟨q, hq, -⟩ := isDirectory_iff.1 (hmet _ hmem)
    by_cases htop : Path.IsTop dir
    · exact .inr htop
    · exact .inl ⟨q, hq, locatePath_normalize ((Path.isKept_iff_not_isTop hroot).2 htop) hq⟩

end Filesystem

/-- A layout whose tool directory is the top directory, and whose other paths are not in their
normal forms. -/
def Layout.spelled : Layout where
  toolDir := "/."
  testDir := "./"
  fuzzInputDir := ".././t"
  commonSources := [".//a.c"]
  fuzzSources := ["b.c"]
  fuzzHarness := "../t/./a.c"

theorem Filesystem.samePlace_mixed :
    (∀ r ∈ Layout.spelled.requirements, r.isMet mixed "t" = true) ∧
    mixed.locatePath .find (.text (Path.below "t" "/.")) = .ok [] ∧
    mixed.locatePath .find (.text (Path.below "t" (Path.normalize "/."))) ≠ .ok [] ∧
    List.Forall₂ (mixed.SamePlace "t") [".//a.c", "b.c", "../t/./a.c"]
      ["a.c", "b.c", "../t/a.c"] ∧
    List.Forall₂ (fun given used => mixed.SamePlace "t" given used ∨ Path.IsTop given)
      ["/.", "./", ".././t"] ["", "", "../t"] := by
  have hmet : ∀ r ∈ Layout.spelled.requirements, r.isMet mixed "t" = true := by decide +kernel
  have htop : mixed.locatePath .find (.text (Path.below "t" "/.")) = .ok [] := by decide +kernel
  obtain ⟨hplace, hlayout⟩ := samePlace_normalize_iff mixed "t"
  refine ⟨hmet, htop, ?_, hlayout .spelled hmet⟩
  rw [ne_eq, (hplace "/." [] htop).1]
  decide +kernel

end AnalyzerConfig
