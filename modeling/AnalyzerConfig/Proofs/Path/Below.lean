import AnalyzerConfig.Path.Relative
import AnalyzerConfig.Proofs.Path.Segments

namespace AnalyzerConfig.Path

variable {p dir root : String}

/-- What a root adds to the paths below it: all of it but one slash at its end. -/
def stem (root : String) : String :=
  if root.toList.getLast? = some '/' then String.ofList root.toList.dropLast else root

theorem stem_cases (root : String) : root = stem root ∨ root = stem root ++ "/" ++ "" := by
  unfold stem
  split
  · next hlast =>
    right
    obtain ⟨before, hroot⟩ := List.getLast?_eq_some_iff.1 hlast
    rw [← String.toList_inj, toList_slash, hroot, List.dropLast_concat,
      String.toList_ofList (l := before)]
    rfl
  · exact .inl rfl

theorem utf8ByteSize_separator (dir : String) : (separator dir).utf8ByteSize ≤ 1 := by
  unfold separator
  split <;> decide

theorem utf8ByteSize_below (hp : isAbsolute p = false) :
    (below dir p).utf8ByteSize =
      dir.utf8ByteSize + (separator dir).utf8ByteSize + p.utf8ByteSize := by
  rw [below, hp, if_neg Bool.false_ne_true, String.utf8ByteSize_append,
    String.utf8ByteSize_append]

theorem below_eq (hroot : root ≠ "") (hp : isAbsolute p = false) :
    below root p = stem root ++ "/" ++ p := by
  rw [below, hp]
  simp only [Bool.false_eq_true, if_false, separator, hroot, false_or, stem]
  split
  · next hlast =>
    obtain ⟨before, hroot⟩ := List.getLast?_eq_some_iff.1 hlast
    rw [← String.toList_inj, toList_slash, hroot, List.dropLast_concat,
      String.toList_ofList (l := before), String.append_empty, String.toList_append, hroot,
      List.append_assoc]
    rfl
  · rfl

theorem segments_below (hroot : root ≠ "") (hp : isAbsolute p = false) :
    segments (below root p) = segments (stem root) ++ segments p := by
  rw [below_eq hroot hp, segments_slash]

theorem segments_root (root : String) :
    ∃ trail, (trail = [] ∨ trail = [""]) ∧ segments root = segments (stem root) ++ trail := by
  rcases stem_cases root with heq | heq
  · exact ⟨[], .inl rfl, by rw [List.append_nil, ← heq]⟩
  · refine ⟨[""], .inr rfl, ?_⟩
    have hsegments := congrArg segments heq
    rw [segments_slash] at hsegments
    exact hsegments

theorem below_empty (p : String) : below "" p = p := by
  unfold below
  split
  · rfl
  · rw [separator, if_pos (.inl rfl), String.append_empty, String.empty_append]

theorem isAbsolute_below (hp : isAbsolute p = false) (root : String) :
    isAbsolute (below root p) = isAbsolute root := by
  by_cases hroot : root = ""
  · rw [hroot, below_empty, hp]
    rfl
  rw [below_eq hroot hp]
  by_cases hstem : stem root = ""
  · rcases stem_cases root with heq | heq
    · exact absurd (heq.trans hstem) hroot
    · rw [hstem] at heq ⊢
      rw [heq]
      simp [isAbsolute]
  · rw [isAbsolute_slash hstem]
    rcases stem_cases root with heq | heq
    · rw [← heq]
    · exact (isAbsolute_slash hstem "").symm.trans (congrArg isAbsolute heq).symm

theorem namingSegments_below (hp : isAbsolute p = false) (root : String) :
    namingSegments (below root p) = namingSegments root ++ namingSegments p := by
  by_cases hroot : root = ""
  · rw [hroot, below_empty]
    rfl
  obtain ⟨trail, htrail, hsegments⟩ := segments_root root
  have hnone : trail.filter isNaming = [] := by rcases htrail with rfl | rfl <;> rfl
  unfold namingSegments
  rw [segments_below hroot hp, hsegments, List.filter_append, List.filter_append, hnone,
    List.append_nil]

theorem head?_segments_below (hroot : root ≠ "") (hp : isAbsolute p = false) :
    (segments (below root p)).head? = (segments root).head? := by
  obtain ⟨trail, -, hsegments⟩ := segments_root root
  rw [segments_below hroot hp, hsegments, List.head?_append_of_ne_nil _ (segments_ne_nil _),
    List.head?_append_of_ne_nil _ (segments_ne_nil _)]

theorem components_below (hroot : root ≠ "") (hp : isAbsolute p = false) :
    components (below root p) =
      components root ++ (namingSegments p).map Component.ofSegment := by
  unfold components start
  rw [isAbsolute_below hp, head?_segments_below hroot hp, namingSegments_below hp,
    List.map_append, List.append_assoc]

theorem dropShared_append (cs rest : List Component) : dropShared (cs ++ rest) cs = (rest, []) := by
  induction cs with
  | nil => cases rest <;> rfl
  | cons c cs ih =>
    rw [List.cons_append, dropShared, if_pos rfl]
    exact ih

theorem Component.text?_ofSegment (s : String) : (ofSegment s).text? = some s := by
  unfold ofSegment
  split
  · next hs => rw [hs]; rfl
  · rfl

theorem mapM_text?_ofSegment (ss : List String) :
    (ss.map Component.ofSegment).mapM Component.text? = some ss := by
  induction ss with
  | nil => rfl
  | cons s ss ih =>
    rw [List.map_cons, List.mapM_cons, Component.text?_ofSegment, ih]
    rfl

/-- Seen from the root, an entry of a directory lies at its name behind the segments that lead
from the root to the directory. -/
theorem entryFrom_of_components {base : String} {ss : List String}
    (habsolute : isAbsolute base = isAbsolute root)
    (h : components base = components root ++ ss.map Component.ofSegment) (name : Octets) :
    entryFrom root base name = some (name.text?.map fun s => ofSegments (ss ++ [s])) := by
  unfold entryFrom
  rw [habsolute, h, List.append_assoc]
  simp only [bne_self_eq_false, Bool.false_eq_true, if_false, relativeComponents,
    dropShared_append, stepsFrom, Option.map_some, List.mapM_append, mapM_text?_ofSegment]
  cases name <;> rfl

theorem entryFrom_below (hroot : root ≠ "") (hdir : isAbsolute dir = false) (name : Octets) :
    entryFrom root (below root dir) name =
      some (name.text?.map fun s => ofSegments (namingSegments dir ++ [s])) :=
  entryFrom_of_components (isAbsolute_below hdir root) (components_below hroot hdir) name

/-- The working directory, as a dot with slashes behind it. -/
def padded (n : Nat) : String := String.ofList ('.' :: List.replicate n '/')

theorem padded_succ (n : Nat) : padded (n + 1) = padded n ++ "/" ++ "" := by
  rw [← String.toList_inj, toList_slash, padded, padded, String.toList_ofList,
    String.toList_ofList, List.replicate_succ']
  rfl

theorem utf8ByteSize_padded (n : Nat) : (padded n).utf8ByteSize = n + 1 := by
  induction n with
  | zero => rfl
  | succ n ih =>
    rw [padded_succ, String.utf8ByteSize_append, String.utf8ByteSize_append, ih]
    rfl

theorem isAbsolute_padded (n : Nat) : isAbsolute (padded n) = false := by
  rw [isAbsolute, padded, String.toList_ofList]
  rfl

theorem segments_padded (n : Nat) : segments (padded n) = "." :: List.replicate n "" := by
  induction n with
  | zero => rfl
  | succ n ih =>
    rw [padded_succ, segments_slash, ih, List.replicate_succ', List.cons_append]
    rfl

end AnalyzerConfig.Path
