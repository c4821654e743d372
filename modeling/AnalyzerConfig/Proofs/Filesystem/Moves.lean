import AnalyzerConfig.Proofs.Filesystem.Limits
import AnalyzerConfig.Proofs.Filesystem.Naming
import AnalyzerConfig.Proofs.Filesystem.Stays
import AnalyzerConfig.Proofs.Path.Normal

namespace AnalyzerConfig

variable {fs : Filesystem} {k : Nat} {p q : Place} {steps : List Step} {last : Step}
variable {root path path' s : String}

def Path.moves (path : String) : List Step :=
  (namingSegments path).map fun s => .ofSegment (.text s)

theorem Step.filter_moves_slash (steps : List Step) :
    (slash :: steps).filter moves = steps.filter moves :=
  List.filter_cons_of_neg (by decide)

theorem Route.filter_moves (hpath : path ≠ "") :
    (ofPath (.text path)).steps.filter Step.moves = Path.moves path := by
  have hmoves : (Path.steps path).filter Step.moves = Path.moves path :=
    Path.steps_filter_moves path
  rw [ofPath_text hpath]
  cases habsolute : Path.isAbsolute path with
  | false => exact hmoves
  | true =>
    obtain ⟨rest, -, hsegments⟩ := Path.isAbsolute_iff.1 habsolute
    rw [← hmoves, Path.steps, hsegments]
    exact (Step.filter_moves_slash _).symm

theorem Route.fromTop_ofPath (hpath : path ≠ "") :
    (ofPath (.text path)).fromTop = Path.isAbsolute path := by
  rw [ofPath_text hpath]

theorem Route.getLast?_of_segments (hlast : (Path.segments path).getLast? = some s)
    (hs : Path.isNaming s = true) :
    (ofPath (.text path)).steps.getLast? = some (.ofSegment (.text s)) := by
  obtain ⟨before, hsegments⟩ := List.getLast?_eq_some_iff.1 hlast
  have hsteps : (Octets.text path).segments.map Step.ofSegment =
      (before.map fun s => Step.ofSegment (.text s)) ++ [.ofSegment (.text s)] := by
    have hpath : (Octets.text path).segments = (Path.segments path).map .text := by
      rw [Octets.segments, Path.segments, List.map_map]
      rfl
    rw [hpath, hsegments, List.map_map, List.map_append]
    rfl
  apply getLast?_steps hsteps
  intro hslash
  rw [Step.ofSegment_eq_slash] at hslash
  subst hslash
  cases hs

namespace Filesystem

theorem Leads.filter_moves (h : Leads fs .find k p steps q) :
    Leads fs .find k p (steps.filter Step.moves) q := by
  induction steps generalizing k p with
  | nil => exact h
  | cons step steps ih =>
    by_cases hmoves : step.moves
    · rw [List.filter_cons_of_pos hmoves, leads_cons]
      obtain ⟨k₁, k₂, m, hk, h₁, h₂⟩ := leads_cons.1 h
      exact ⟨k₁, k₂, m, hk, h₁, ih h₂⟩
    · rw [List.filter_cons_of_neg hmoves]
      cases h with
      | stay _ _ h => exact ih h
      | up | down | link | fresh => exact absurd rfl hmoves

theorem leads_iff_filter_moves (hlast : steps.getLast? = some last) (hmoves : last.moves = true) :
    Leads fs .find k p (steps.filter Step.moves) q ↔ Leads fs .find k p steps q := by
  obtain ⟨before, rfl⟩ := List.getLast?_eq_some_iff.1 hlast
  rw [List.filter_append, List.filter_cons_of_pos hmoves, List.filter_nil]
  exact leads_filter_moves

theorem ne_empty_of_locatePath (h : fs.locatePath .find (.text path) = .ok q) : path ≠ "" := by
  rintro rfl
  cases h

theorem start_ofPath (hpath : path ≠ "") :
    fs.start (Route.ofPath (.text path)) = fs.rootStart path := by
  rw [start, rootStart, Route.fromTop_ofPath hpath]

theorem leads_moves_of_locatePath (h : fs.locatePath .find (.text path) = .ok q) :
    ∃ k ≤ maxLinks, Leads fs .find k (fs.rootStart path) (Path.moves path) q := by
  have hpath := ne_empty_of_locatePath h
  obtain ⟨-, -, k, hk, hl⟩ := (locatePath_eq_ok.1 h).imp_right locate_eq_ok.1
  rw [start_ofPath hpath] at hl
  exact ⟨k, hk, Route.filter_moves hpath ▸ hl.filter_moves⟩

/-- A path that ends in a name leads where its moves lead. -/
theorem locatePath_of_moves (hlast : (Path.segments path).getLast? = some s)
    (hs : Path.isNaming s = true) (hshort : path.utf8ByteSize ≤ maxPathLength) (hk : k ≤ maxLinks)
    (h : Leads fs .find k (fs.rootStart path) (Path.moves path) q) :
    fs.locatePath .find (.text path) = .ok q := by
  have hpath : path ≠ "" := by
    rintro rfl
    cases hlast
    cases hs
  have hsteps := Route.getLast?_of_segments hlast hs
  have hne : (Route.ofPath (.text path)).steps ≠ [] := by
    intro hnil
    rw [hnil] at hsteps
    cases hsteps
  rw [← Route.filter_moves hpath, leads_iff_filter_moves hsteps (by rw [Step.moves_ofSegment, hs]),
    ← start_ofPath hpath] at h
  exact locatePath_eq_ok.2 ⟨(isShort_text path).2 hshort, locate_eq_ok.2 ⟨hne, k, hk, h⟩⟩

theorem locatePath_congr (hstart : Path.isAbsolute path' = Path.isAbsolute path)
    (hnames : Path.namingSegments path' = Path.namingSegments path)
    (hlast : (Path.segments path').getLast? = some s) (hs : Path.isNaming s = true)
    (hshort : path'.utf8ByteSize ≤ maxPathLength)
    (h : fs.locatePath .find (.text path) = .ok q) : fs.locatePath .find (.text path') = .ok q := by
  obtain ⟨k, hk, hl⟩ := leads_moves_of_locatePath h
  apply locatePath_of_moves hlast hs hshort hk
  rwa [rootStart, hstart, Path.moves, hnames]

theorem locate_entry_iff (hpath : path ≠ "") {n : Octets} :
    fs.locate .find ((Route.ofPath (.text path)).entry n) = .ok q ↔
      ∃ k ≤ maxLinks, Leads fs .find k (fs.rootStart path) (Path.moves path ++ [.down n]) q := by
  have hstart : fs.start ((Route.ofPath (.text path)).entry n) = fs.rootStart path :=
    start_ofPath hpath
  rw [locate_eq_ok, hstart, ← Route.filter_moves hpath]
  simp only [leads_filter_moves]
  exact and_iff_right (List.append_ne_nil_of_right_ne_nil _ (List.cons_ne_nil _ _))

theorem locate_entry_congr (hpath : path ≠ "") (hpath' : path' ≠ "")
    (hstart : Path.isAbsolute path' = Path.isAbsolute path)
    (hnames : Path.namingSegments path' = Path.namingSegments path) {n : Octets} :
    fs.locate .find ((Route.ofPath (.text path')).entry n) = .ok q ↔
      fs.locate .find ((Route.ofPath (.text path)).entry n) = .ok q := by
  rw [locate_entry_iff hpath, locate_entry_iff hpath', rootStart, rootStart, hstart, Path.moves,
    Path.moves, hnames]

/-- A path with a name behind the names of a directory leads to the entry with that name. -/
theorem locatePath_of_entry (hpath : path ≠ "") (hs : Path.IsName s)
    (hstart : Path.isAbsolute path' = Path.isAbsolute path)
    (hnames : Path.namingSegments path' = Path.namingSegments path ++ [s])
    (hlast : (Path.segments path').getLast? = some s)
    (hshort : path'.utf8ByteSize ≤ maxPathLength)
    (h : fs.locate .find ((Route.ofPath (.text path)).entry (.text s)) = .ok q) :
    fs.locatePath .find (.text path') = .ok q := by
  obtain ⟨k, hk, hl⟩ := (locate_entry_iff hpath).1 h
  have hmoves : Path.moves path' = Path.moves path ++ [.down (.text s)] := by
    rw [Path.moves, hnames, List.map_append, List.map_singleton, Step.ofSegment_name hs]
    rfl
  apply locatePath_of_moves hlast hs.isNaming hshort hk
  rwa [rootStart, hstart, hmoves]

/-- The place that an absolute path names if there are no links. -/
def placeOf (ss : List String) : Place := (ss.map Octets.text).reverse

theorem placeOf_append (ss ts : List String) : placeOf (ss ++ ts) = placeOf ts ++ placeOf ss := by
  rw [placeOf, List.map_append, List.reverse_append]
  rfl

theorem length_placeOf (ss : List String) : (placeOf ss).length = ss.length := by
  rw [placeOf, List.length_reverse, List.length_map]

theorem IsTree.directory_of_append (ht : fs.IsTree) (h : fs.node? (p ++ q) = some .directory) :
    fs.node? q = some .directory := by
  induction p with
  | nil => exact h
  | cons n p ih => exact ih (ht n (p ++ q) h)

theorem IsTree.leads_up (ht : fs.IsTree) (h : fs.node? (p ++ q) = some .directory) :
    Leads fs .find 0 (p ++ q) (List.replicate p.length .up) q := by
  induction p with
  | nil => exact .done
  | cons n p ih => exact .up h (ih (ht n (p ++ q) h))

end Filesystem

end AnalyzerConfig
