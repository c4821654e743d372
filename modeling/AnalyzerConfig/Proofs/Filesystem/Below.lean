import AnalyzerConfig.Proofs.Filesystem.Looking
import AnalyzerConfig.Proofs.Path.Below

namespace AnalyzerConfig

variable {root path : String} {fs : Filesystem} {purpose : Purpose} {p q : Place}

/-- The steps that a path takes, one for each of its segments. -/
def Path.steps (p : String) : List Step := (segments p).map fun s => .ofSegment (.text s)

/-- The steps that a root adds to the paths below it. -/
def Path.rootSteps (root : String) : List Step :=
  if isAbsolute root then (steps (stem root)).tail else steps (stem root)

theorem Path.steps_ne_nil (p : String) : steps p ≠ [] := by
  unfold steps
  simp [segments_ne_nil]

theorem Path.steps_below (hroot : root ≠ "") (hp : isAbsolute path = false) :
    steps (below root path) = steps (stem root) ++ steps path := by
  unfold steps
  rw [segments_below hroot hp, List.map_append]

theorem Step.ofSegment_eq_slash {s : String} : ofSegment (.text s) = .slash ↔ s = "" := by
  unfold ofSegment
  simp only [Octets.text.injEq]
  split
  · simp_all
  · next hs =>
    simp only [hs, iff_false]
    split
    · exact nofun
    · split <;> exact nofun

theorem Route.ofPath_text (hpath : path ≠ "") :
    ofPath (.text path) = ⟨Path.isAbsolute path,
      if Path.isAbsolute path then (Path.steps path).tail else Path.steps path⟩ := by
  have hsegments : (Octets.text path).segments.map Step.ofSegment = Path.steps path := by
    rw [Octets.segments, Path.steps, Path.segments, List.map_map, List.map_map]
    rfl
  unfold ofPath
  rw [hsegments]
  cases habsolute : Path.isAbsolute path with
  | true =>
    obtain ⟨rest, hrest, hpath⟩ := Path.isAbsolute_iff.1 habsolute
    obtain ⟨s, rest, rfl⟩ := List.exists_cons_of_ne_nil hrest
    rw [Path.steps, hpath]
    rfl
  | false =>
    split
    · next heq =>
      obtain ⟨s, hs, hslash⟩ := List.map_eq_singleton_iff.1 heq
      rw [Step.ofSegment_eq_slash] at hslash
      exact absurd (Path.segments_eq_empty_iff.1 (hslash ▸ hs)) hpath
    · next steps hne heq =>
      obtain ⟨s, rest, hs, hslash, hrest⟩ := List.map_eq_cons_iff.1 heq
      rw [Step.ofSegment_eq_slash] at hslash
      subst hslash
      rw [← Bool.not_eq_true, Path.isAbsolute_iff] at habsolute
      refine absurd ⟨rest, ?_, hs⟩ habsolute
      intro hnil
      subst hnil
      exact hpath (Path.segments_eq_empty_iff.1 hs)
    · rfl

theorem Route.steps_ne_nil (hpath : path ≠ "") : (ofPath (.text path)).steps ≠ [] := by
  rw [ofPath_text hpath]
  cases habsolute : Path.isAbsolute path with
  | false => exact Path.steps_ne_nil path
  | true =>
    obtain ⟨rest, hrest, hsegments⟩ := Path.isAbsolute_iff.1 habsolute
    rw [Path.steps, hsegments]
    exact mt List.map_eq_nil_iff.1 hrest

theorem Route.ofPath_below (hroot : root ≠ "") (hp : Path.isAbsolute path = false) :
    ofPath (.text (Path.below root path)) =
      ⟨Path.isAbsolute root, Path.rootSteps root ++ Path.steps path⟩ := by
  have hne : Path.below root path ≠ "" := by
    rw [Path.below_eq hroot hp]
    simp
  rw [ofPath_text hne, Path.isAbsolute_below hp, Path.steps_below hroot hp, Path.rootSteps]
  split
  · rw [List.tail_append_of_ne_nil (Path.steps_ne_nil _)]
  · rfl

theorem Route.ofPath_root (hroot : root ≠ "") :
    ∃ trail, (trail = [] ∨ trail = [.slash]) ∧
      ofPath (.text root) = ⟨Path.isAbsolute root, Path.rootSteps root ++ trail⟩ := by
  obtain ⟨trail, htrail, hsegments⟩ := Path.segments_root root
  refine ⟨trail.map fun s => .ofSegment (.text s), ?_, ?_⟩
  · rcases htrail with rfl | rfl
    · exact .inl rfl
    · exact .inr rfl
  · have hsteps : Path.steps root = Path.steps (Path.stem root) ++
        trail.map fun s => .ofSegment (.text s) := by
      rw [Path.steps, hsegments, List.map_append]
      rfl
    rw [ofPath_text hroot, Path.rootSteps, hsteps]
    split
    · rw [List.tail_append_of_ne_nil (Path.steps_ne_nil _)]
    · rfl

namespace Filesystem

/-- A root leads to a directory. -/
structure RootAt (fs : Filesystem) (root : String) (p : Place) : Prop where
  located : fs.locatePath .find (.text root) = .ok p
  directory : fs.node? p = some .directory

theorem RootAt.ne_empty (h : fs.RootAt root p) : root ≠ "" := by
  rintro rfl
  cases h.located

theorem RootAt.put {c : Octets} (htakes : fs.TakesFile q) (h : fs.RootAt root p) :
    (fs.put q (.file c)).RootAt root p :=
  ⟨htakes.locatePath_put h.located, htakes.node?_put_directory.2 h.directory⟩

def rootStart (fs : Filesystem) (root : String) : Place :=
  if Path.isAbsolute root then [] else fs.workingDir

theorem RootAt.leads (h : fs.RootAt root p) :
    ∃ k ≤ maxLinks, Leads fs .find k (fs.rootStart root) (Path.rootSteps root) p := by
  obtain ⟨-, -, k, hk, hl⟩ := (locatePath_eq_ok.1 h.located).imp_right locate_eq_ok.1
  obtain ⟨trail, htrail, hroute⟩ := Route.ofPath_root h.ne_empty
  rw [hroute] at hl
  obtain ⟨k₁, k₂, m, hk', h₁, h₂⟩ := hl.split .find
  obtain rfl : m = p := by
    rcases htrail with rfl | rfl
    · cases h₂
      rfl
    · cases h₂ with
      | stay _ _ h₂ =>
        cases h₂
        rfl
  exact ⟨k₁, by omega, h₁⟩

/-- From the root on, no spelling of it matters. -/
theorem RootAt.leads_iff (h : fs.RootAt root p) {steps : List Step} (hs : IsNamed purpose steps) :
    (∃ k, Leads fs purpose k (fs.rootStart root) (Path.rootSteps root ++ steps) q) ↔
      ∃ k, Leads fs purpose k p steps q := by
  obtain ⟨k₀, -, hroot⟩ := h.leads
  apply Iff.intro
  · rintro ⟨k, hl⟩
    obtain ⟨k₁, k₂, m, -, h₁, h₂⟩ := hl.split hs
    obtain rfl := h₁.unique hroot
    exact ⟨k₂, h₂⟩
  · rintro ⟨k, hl⟩
    exact ⟨k₀ + k, hroot.append hs hl⟩

theorem RootAt.locate_eq_ok (h : fs.RootAt root p) (hpath : Path.isAbsolute path = false) :
    fs.locate purpose (Route.ofPath (.text (Path.below root path))) = .ok q ↔
      ∃ k ≤ maxLinks,
        Leads fs purpose k (fs.rootStart root) (Path.rootSteps root ++ Path.steps path) q := by
  rw [Filesystem.locate_eq_ok, Route.ofPath_below h.ne_empty hpath]
  exact and_iff_right (List.append_ne_nil_of_right_ne_nil _ (Path.steps_ne_nil path))

theorem RootAt.leads_of_below (h : fs.RootAt root p) (hpath : Path.isAbsolute path = false)
    (hq : fs.locatePath .find (.text (Path.below root path)) = .ok q) :
    ∃ k ≤ maxLinks, Leads fs .find k p (Path.steps path) q := by
  obtain ⟨k, hk, hl⟩ := (h.locate_eq_ok hpath).1 (locatePath_eq_ok.1 hq).2
  obtain ⟨k₁, k₂, m, rfl, h₁, h₂⟩ := hl.split .find
  obtain ⟨k₀, -, hroot⟩ := h.leads
  obtain rfl := h₁.unique hroot
  exact ⟨k₂, by omega, h₂⟩

end Filesystem

end AnalyzerConfig
