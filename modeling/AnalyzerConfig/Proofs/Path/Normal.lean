import AnalyzerConfig.Proofs.Path.Below

namespace AnalyzerConfig.Path

variable {p dir root s : String} {ss ts : List String}

def IsTop (p : String) : Prop := isAbsolute p = true ∧ namingSegments p = []

/-- A path that keeps its meaning below a root when it is normalised: it has a name, or is the root
in another spelling. -/
def IsKept (root p : String) : Prop := namingSegments p ≠ [] ∨ isAbsolute p = false ∧ root ≠ ""

instance decidableIsKept (root p : String) : Decidable (IsKept root p) :=
  inferInstanceAs (Decidable (_ ∨ _))

theorem isKept_iff_not_isTop (hroot : root ≠ "") : IsKept root p ↔ ¬ IsTop p := by
  unfold IsKept IsTop
  rw [and_iff_left hroot, not_and_or, Bool.not_eq_true, or_comm]

theorem utf8ByteSize_ofSegments_cons (s : String) (ss : List String) :
    (ofSegments (s :: ss)).utf8ByteSize =
      s.utf8ByteSize + if ss = [] then 0 else 1 + (ofSegments ss).utf8ByteSize := by
  cases ss with
  | nil => rw [ofSegments, String.intercalate_singleton, if_pos rfl, Nat.add_zero]
  | cons t ss =>
    have hslash : "/".utf8ByteSize = 1 := by decide
    rw [ofSegments, String.intercalate_cons_cons, String.utf8ByteSize_append,
      String.utf8ByteSize_append, hslash, if_neg (List.cons_ne_nil t ss), Nat.add_assoc]
    rfl

theorem utf8ByteSize_ofSegments_le (h : ss.Sublist ts) :
    (ofSegments ss).utf8ByteSize ≤ (ofSegments ts).utf8ByteSize := by
  induction h with
  | slnil => exact Nat.le_refl _
  | @cons ss ts t h ih =>
    rw [utf8ByteSize_ofSegments_cons]
    split
    · next hts =>
      rw [hts] at ih
      exact Nat.le_trans ih (Nat.zero_le _)
    · omega
  | @cons_cons ss ts t h ih =>
    rw [utf8ByteSize_ofSegments_cons, utf8ByteSize_ofSegments_cons]
    by_cases hts : ts = []
    · have hss : ss = [] := List.sublist_nil.1 (hts ▸ h)
      exact Nat.le_of_eq (by rw [if_pos hts, if_pos hss])
    · rw [if_neg hts]
      split <;> omega

theorem utf8ByteSize_le (h : (segments p).Sublist (segments dir)) :
    p.utf8ByteSize ≤ dir.utf8ByteSize := by
  have hle := utf8ByteSize_ofSegments_le h
  rwa [ofSegments_segments, ofSegments_segments] at hle

theorem utf8ByteSize_normalize_le (p : String) :
    (normalize p).utf8ByteSize ≤ p.utf8ByteSize := by
  by_cases h : namingSegments p = []
  · rw [normalize_of_no_names h]
    exact Nat.zero_le _
  · apply utf8ByteSize_le
    rw [segments_normalize_of_names h]
    cases habsolute : isAbsolute p with
    | false => exact List.filter_sublist
    | true =>
      obtain ⟨rest, -, hsegments⟩ := isAbsolute_iff.1 habsolute
      rw [namingSegments, hsegments, List.filter_cons_of_neg (by decide)]
      exact List.filter_sublist.cons_cons ""

theorem below_of_absolute (h : isAbsolute p = true) (dir : String) : below dir p = p := by
  rw [below, if_pos h]

theorem segments_below_suffix (dir p : String) : segments p <:+ segments (below dir p) := by
  cases h : isAbsolute p with
  | true => exact ⟨[], congrArg segments (below_of_absolute h dir).symm⟩
  | false =>
    by_cases hdir : dir = ""
    · rw [hdir]
      exact ⟨[], congrArg segments (below_empty p).symm⟩
    · rw [segments_below hdir h]
      exact List.suffix_append _ _

theorem getLast?_segments_below (dir p : String) :
    (segments (below dir p)).getLast? = (segments p).getLast? := by
  obtain ⟨before, hbefore⟩ := segments_below_suffix dir p
  rw [← hbefore, List.getLast?_append_of_ne_nil _ (segments_ne_nil p)]

section

variable (h : IsKept root p)
include h

theorem IsKept.names_ne_nil (habsolute : isAbsolute p = true) : namingSegments p ≠ [] := by
  rcases h with hnames | ⟨hrelative, -⟩
  · exact hnames
  · cases hrelative.symm.trans habsolute

theorem IsKept.isAbsolute_normalize : isAbsolute (normalize p) = isAbsolute p := by
  rcases h with hnames | ⟨habsolute, -⟩
  · exact isAbsolute_normalize_of_names hnames
  · rw [habsolute, Path.isAbsolute_normalize habsolute]

theorem IsKept.normalize : IsKept root (normalize p) := by
  unfold IsKept
  rw [h.isAbsolute_normalize, namingSegments_normalize]
  exact h

theorem IsKept.ne_empty : below root p ≠ "" := by
  intro hempty
  rcases h with hnames | ⟨habsolute, hroot⟩
  · obtain ⟨s, hs⟩ := List.exists_mem_of_ne_nil _ hnames
    have hsegments := (segments_below_suffix root p).mem (List.mem_filter.1 hs).1
    rw [hempty] at hsegments
    rw [List.mem_singleton.1 hsegments] at hs
    exact absurd (isNaming_of_mem_namingSegments hs) (by decide)
  · rw [below_eq hroot habsolute] at hempty
    simp at hempty

theorem IsKept.isAbsolute_below :
    isAbsolute (below root (Path.normalize p)) = isAbsolute (below root p) := by
  have hnormal := h.isAbsolute_normalize
  cases habsolute : isAbsolute p with
  | true => rw [below_of_absolute habsolute, below_of_absolute (hnormal.trans habsolute), hnormal]
  | false =>
    rw [Path.isAbsolute_below habsolute, Path.isAbsolute_below (hnormal.trans habsolute)]

theorem IsKept.namingSegments_below :
    namingSegments (below root (Path.normalize p)) = namingSegments (below root p) := by
  have hnormal := h.isAbsolute_normalize
  cases habsolute : isAbsolute p with
  | true =>
    rw [below_of_absolute habsolute, below_of_absolute (hnormal.trans habsolute),
      namingSegments_normalize]
  | false =>
    rw [Path.namingSegments_below habsolute, Path.namingSegments_below (hnormal.trans habsolute),
      namingSegments_normalize]

end

theorem below_normalize_of_names (h : namingSegments dir ≠ []) (hp : isAbsolute p = false) :
    below (normalize dir) p = normalize dir ++ "/" ++ p := by
  rw [below, hp, if_neg Bool.false_ne_true, separator,
    if_neg (not_or_intro (mt normalize_eq_empty.1 h) (getLast?_normalize dir))]

theorem dot_not_mem_segments_normalize (p : String) : "." ∉ segments (normalize p) := by
  by_cases h : namingSegments p = []
  · rw [normalize_of_no_names h]
    decide
  · rw [segments_normalize_of_names h, List.mem_append, not_or]
    refine ⟨?_, fun hmem => absurd (isNaming_of_mem_namingSegments hmem) (by decide)⟩
    cases isAbsolute p <;> decide

theorem eq_zero_of_empty_segment (hne : normalize p ≠ "") {i : Nat}
    (h : (segments (normalize p))[i]? = some "") : i = 0 ∧ isAbsolute p = true := by
  have hnames {i : Nat} : (namingSegments p)[i]? ≠ some "" := fun h =>
    absurd (isNaming_of_mem_namingSegments (List.mem_of_getElem? h)) (by decide)
  rw [segments_normalize_of_names (mt normalize_of_no_names hne)] at h
  cases habsolute : isAbsolute p with
  | false =>
    rw [habsolute] at h
    exact absurd h hnames
  | true =>
    rw [habsolute] at h
    cases i with
    | zero => exact ⟨rfl, rfl⟩
    | succ i => exact absurd h hnames

theorem normalize_eq_iff {q : String} :
    normalize p = normalize q ↔
      namingSegments p = namingSegments q ∧
        (namingSegments p = [] ∨ isAbsolute p = isAbsolute q) := by
  apply Iff.intro
  · intro h
    have hnames : namingSegments p = namingSegments q := by
      rw [← namingSegments_normalize, h, namingSegments_normalize]
    refine ⟨hnames, ?_⟩
    by_cases hp : namingSegments p = []
    · exact .inl hp
    · right
      rw [← isAbsolute_normalize_of_names hp, h, isAbsolute_normalize_of_names (hnames ▸ hp)]
  · rintro ⟨hnames, hp | hstart⟩
    · rw [normalize_of_no_names hp, normalize_of_no_names (hnames ▸ hp)]
    · rw [normalize, normalize, hnames, hstart]

/-- A normal form is its own normal form. It has no single dots, no slash at its end, and no empty
segment but the one in front of an absolute path. Relative paths have the same normal form if and
only if they have the same names, `..` among them. -/
theorem normalize_canonical (p : String) :
    normalize (normalize p) = normalize p ∧ "." ∉ segments (normalize p) ∧
    (normalize p ≠ "" → ∀ i, (segments (normalize p))[i]? = some "" → i = 0 ∧ isAbsolute p = true) ∧
    (normalize p).toList.getLast? ≠ some '/' ∧
    ∀ q, isAbsolute p = false → isAbsolute q = false →
      (normalize p = normalize q ↔ namingSegments p = namingSegments q) := by
  refine ⟨normalize_normalize p, dot_not_mem_segments_normalize p, ?_, getLast?_normalize p, ?_⟩
  · intro hne i h
    exact eq_zero_of_empty_segment hne h
  · intro q hp hq
    rw [normalize_eq_iff, hp, hq]
    exact and_iff_left (.inr rfl)

theorem normalize_canonical_dotted :
    normalize "./a//../b/" = normalize "a/./../b" ∧ normalize "a/../b" ≠ normalize "b" := by
  obtain ⟨-, -, -, -, hsame⟩ := normalize_canonical "./a//../b/"
  obtain ⟨-, -, -, -, hother⟩ := normalize_canonical "a/../b"
  exact ⟨(hsame "a/./../b" (by decide) (by decide)).2 (by decide),
    mt (hother "b" (by decide) (by decide)).1 (by decide)⟩

end AnalyzerConfig.Path
