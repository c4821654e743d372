import AnalyzerConfig.Proofs.Filesystem.Naming
import AnalyzerConfig.Proofs.Path.Normal

namespace AnalyzerConfig.Path

variable {root base p s t : String} {n : Octets} {c x : Component}
variable {cs dir rest : List Component}

def Component.segment (c : Component) : String := c.text?.getD ""

/-- A component as it can stand in a text: if it is a name, then one that an entry can have. -/
def Component.IsWritten : Component → Prop
  | .name n => ∃ s, n = .text s ∧ IsName s
  | .root | .here | .up => True

theorem Component.segment_ofSegment (s : String) : (ofSegment s).segment = s := by
  rw [segment, text?_ofSegment, Option.getD_some]

theorem Component.IsWritten.text?_eq (h : c.IsWritten) : c.text? = some c.segment := by
  cases c with
  | root | here | up => rfl
  | name n =>
    obtain ⟨s, rfl, -⟩ := h
    rfl

theorem Component.IsWritten.noSlash (h : c.IsWritten) : '/' ∉ c.segment.toList := by
  cases c with
  | root | here | up => decide
  | name n =>
    obtain ⟨s, rfl, hs⟩ := h
    exact hs.noSlash

theorem Component.IsWritten.segment_ne_empty (h : c.IsWritten) (hc : c ≠ .root) :
    c.segment ≠ "" := by
  cases c with
  | root => exact absurd rfl hc
  | here | up => decide
  | name n =>
    obtain ⟨s, rfl, hs⟩ := h
    exact hs.ne_empty

theorem Component.ofSegment_injective : Function.Injective ofSegment :=
  Function.LeftInverse.injective segment_ofSegment

theorem Component.eq_of_ofSegment (h : ofSegment t = .name (.text s)) : t = s := by
  have h := congrArg segment h
  rwa [segment_ofSegment] at h

theorem Component.map_segment_ofSegment (ss : List String) :
    (ss.map ofSegment).map segment = ss := by
  rw [List.map_map]
  exact (List.map_congr_left fun s _ => segment_ofSegment s).trans (List.map_id _)

theorem IsName.segments (hs : IsName s) : segments s = [s] := segments_eq_singleton hs.noSlash

theorem IsName.namingSegments (hs : IsName s) : namingSegments s = [s] := by
  rw [Path.namingSegments, hs.segments, List.filter_cons_of_pos hs.isNaming]
  rfl

theorem IsName.isAbsolute (hs : IsName s) : isAbsolute s = false := by
  unfold Path.isAbsolute
  rw [beq_eq_false_iff_ne]
  exact fun hhead => hs.noSlash (List.mem_of_head? hhead)

theorem isWritten_of_mem_components (h : c ∈ components p) : c.IsWritten := by
  rcases List.mem_append.1 h with h | h
  · unfold start at h
    split at h
    · rw [List.mem_singleton.1 h]
      trivial
    split at h
    · rw [List.mem_singleton.1 h]
      trivial
    · cases h
  · obtain ⟨s, hs, rfl⟩ := List.mem_map.1 h
    have hnaming : s ≠ "" ∧ s ≠ "." := by
      have h := isNaming_of_mem_namingSegments hs
      rwa [isNaming, Bool.and_eq_true, bne_iff_ne, bne_iff_ne] at h
    unfold Component.ofSegment
    split
    · trivial
    · next hdots => exact ⟨s, rfl, noSlash_of_mem_namingSegments hs, hnaming.1, hnaming.2, hdots⟩

theorem mapM_text?_of_isWritten (h : ∀ c ∈ cs, c.IsWritten) :
    cs.mapM Component.text? = some (cs.map Component.segment) := by
  induction cs with
  | nil => rfl
  | cons c cs ih =>
    have htail := ih fun c' hc' => h c' (List.mem_cons_of_mem c hc')
    rw [List.mapM_cons, (h c List.mem_cons_self).text?_eq, htail]
    rfl

theorem namingSegments_eq_filter (p : String) :
    namingSegments p = ((components p).map Component.segment).filter isNaming := by
  have hstart : ((start p).map Component.segment).filter isNaming = [] := by
    unfold start
    split
    · decide
    split <;> decide
  rw [components, List.map_append, List.filter_append, hstart, Component.map_segment_ofSegment,
    filter_namingSegments, List.nil_append]

theorem map_segment_sublist (hp : isAbsolute p = false) :
    ((components p).map Component.segment).Sublist (segments p) := by
  rw [components, List.map_append, Component.map_segment_ofSegment, start, hp,
    if_neg Bool.false_ne_true]
  split
  · next hhead =>
    obtain ⟨rest, hrest⟩ := List.head?_eq_some_iff.1 hhead
    rw [namingSegments, hrest, List.filter_cons_of_neg (by decide)]
    exact List.filter_sublist.cons_cons "."
  · exact List.filter_sublist

theorem components_of_absolute (h : isAbsolute p = true) :
    components p = .root :: (namingSegments p).map Component.ofSegment := by
  rw [components, start, if_pos h]
  rfl

theorem root_not_mem_map_ofSegment (ss : List String) :
    Component.root ∉ ss.map Component.ofSegment := by
  intro h
  obtain ⟨s, -, hs⟩ := List.mem_map.1 h
  unfold Component.ofSegment at hs
  split at hs <;> cases hs

theorem root_not_mem_components (h : isAbsolute p = false) : Component.root ∉ components p := by
  rw [components, List.mem_append, not_or]
  refine ⟨?_, root_not_mem_map_ofSegment _⟩
  rw [start, if_neg (by rw [h]; exact Bool.false_ne_true)]
  split <;> simp

/-- The components that lead from the directory `base` to the directory `dir`. There are none if the
part of `base` that is not shared goes up first, since its text does not say out of what. -/
def wayBetween (dir base : List Component) : Option (List Component) :=
  let (d, b) := dropShared dir base
  if b.head? = some .up then none else some (upFrom b ++ d)

theorem dropShared_spec (dir base : List Component) :
    ∃ shared, dir = shared ++ (dropShared dir base).1 ∧
      base = shared ++ (dropShared dir base).2 := by
  induction dir generalizing base with
  | nil => exact ⟨[], by cases base <;> rfl, by cases base <;> rfl⟩
  | cons c dir ih =>
    cases base with
    | nil => exact ⟨[], rfl, rfl⟩
    | cons b base =>
      rw [dropShared]
      split
      · next hcb =>
        obtain ⟨shared, hdir, hbase⟩ := ih base
        exact ⟨c :: shared, congrArg (c :: ·) hdir, hcb ▸ congrArg (b :: ·) hbase⟩
      · exact ⟨[], rfl, rfl⟩

theorem exists_shared_of_wayBetween {base : List Component} (h : wayBetween dir base = some cs) :
    ∃ shared d b, dir = shared ++ d ∧ base = shared ++ b ∧ cs = upFrom b ++ d := by
  obtain ⟨shared, hdir, hbase⟩ := dropShared_spec dir base
  unfold wayBetween at h
  simp only at h
  split at h
  · cases h
  · exact ⟨shared, _, _, hdir, hbase, (Option.some.inj h).symm⟩

theorem wayBetween_cons (c : Component) (dir base : List Component) :
    wayBetween (c :: dir) (c :: base) = wayBetween dir base := by
  rw [wayBetween, wayBetween, dropShared, if_pos rfl]

/-- An entry that `base` does not lead through lies behind the way to its directory. -/
theorem relativeComponents_concat {base : List Component} (h : ¬ dir ++ [x] <+: base) :
    relativeComponents (dir ++ [x]) base = (wayBetween dir base).map (· ++ [x]) := by
  induction dir generalizing base with
  | nil =>
    cases base with
    | nil => rfl
    | cons b base =>
      have hx : x ≠ b := by
        rintro rfl
        exact h ⟨base, rfl⟩
      rw [List.nil_append, relativeComponents, wayBetween, dropShared, if_neg hx]
      cases b <;> simp [stepsFrom, dropShared]
  | cons c dir ih =>
    cases base with
    | nil => rfl
    | cons b base =>
      by_cases hcb : c = b
      · subst hcb
        have hnot : ¬ dir ++ [x] <+: base := by
          rintro ⟨rest, hrest⟩
          exact h ⟨rest, congrArg (c :: ·) hrest⟩
        have ih := ih hnot
        simp only [relativeComponents, wayBetween] at ih
        simpa only [relativeComponents, wayBetween, List.cons_append, dropShared, if_true] using ih
      · rw [List.cons_append, relativeComponents, wayBetween, dropShared, dropShared, if_neg hcb,
          if_neg hcb]
        cases b <;> simp [stepsFrom]

theorem wayBetween_append {rest : List Component} (h : rest.head? ≠ some .up)
    (dir : List Component) : wayBetween dir (dir ++ rest) = some (upFrom rest) := by
  induction dir with
  | nil =>
    have hshared : dropShared [] rest = ([], rest) := by cases rest <;> rfl
    rw [wayBetween, List.nil_append, hshared]
    simp only [if_neg h, List.append_nil]
  | cons c dir ih =>
    rw [List.cons_append, wayBetween_cons]
    exact ih

theorem wayBetween_of_above (base rest : List Component) :
    wayBetween (base ++ rest) base = some rest := by
  rw [wayBetween, dropShared_append]
  rfl

theorem relativeComponents_append (dir rest : List Component) :
    relativeComponents dir (dir ++ rest) = some (upFrom rest) := by
  induction dir with
  | nil =>
    cases rest <;> rfl
  | cons c dir ih =>
    simpa only [relativeComponents, List.cons_append, dropShared, if_true] using ih

theorem separator_append (dir : String) (hp : p ≠ "") : separator (dir ++ p) = separator p := by
  have hne : dir ++ p ≠ "" := fun h => hp (String.append_eq_empty_iff.1 h).2
  have hlist : p.toList ≠ [] := mt String.toList_eq_nil_iff.1 hp
  unfold separator
  rw [String.toList_append, List.getLast?_append_of_ne_nil _ hlist]
  simp only [hne, hp, false_or]

theorem separator_separator (dir : String) : separator (dir ++ separator dir) = "" := by
  unfold separator
  split
  · next h =>
    rw [String.append_empty]
    exact if_pos h
  · apply if_pos
    right
    rw [String.toList_append]
    exact List.getLast?_concat

theorem below_below (hp : isAbsolute p = false) (hs : isAbsolute s = false) (root : String) :
    below (below root p) s = below root (below p s) := by
  have hps : isAbsolute (below p s) = false := (isAbsolute_below hs p).trans hp
  have below_eq {dir p : String} (hp : isAbsolute p = false) :
      below dir p = dir ++ separator dir ++ p := by
    rw [below, hp, if_neg Bool.false_ne_true]
  rw [below_eq hs, below_eq hps, below_eq hp, below_eq hs]
  by_cases hempty : p = ""
  · rw [hempty, String.append_empty, separator_separator, String.append_empty]
    rfl
  · rw [separator_append _ hempty]
    simp only [String.append_assoc]

theorem components_below_name (p : String) (hs : IsName s) :
    components (below p s) = components p ++ [.ofSegment s] := by
  by_cases hempty : p = ""
  · rw [hempty, below_empty, components, start, hs.isAbsolute, hs.segments, hs.namingSegments]
    simp only [Bool.false_eq_true, if_false, List.head?_cons, Option.some.injEq, hs.ne_dot]
    rfl
  · rw [components_below hempty hs.isAbsolute, hs.namingSegments]
    rfl

theorem utf8ByteSize_below_way (hp : isAbsolute p = false) (hs : IsName s)
    (hcs : components (below root p) = components root ++ cs) :
    (below root (ofSegments (cs.map Component.segment ++ [s]))).utf8ByteSize ≤
      (below (below root p) s).utf8ByteSize := by
  have hps : isAbsolute (below p s) = false := (isAbsolute_below hs.isAbsolute p).trans hp
  have hcomponents := components_below_name p hs
  rw [below_below hp hs.isAbsolute]
  by_cases hroot : root = ""
  · subst hroot
    rw [below_empty] at hcs
    obtain rfl : components p = cs := hcs
    have hle := utf8ByteSize_ofSegments_le (map_segment_sublist hps)
    rw [hcomponents, List.map_append, List.map_singleton, Component.segment_ofSegment,
      ofSegments_segments] at hle
    rwa [below_empty, below_empty]
  · rw [components_below hroot hp, List.append_cancel_left_eq] at hcs
    have hway : cs.map Component.segment ++ [s] = namingSegments (below p s) := by
      rw [← hcs, Component.map_segment_ofSegment, namingSegments_below hs.isAbsolute,
        hs.namingSegments]
    rw [hway, ← normalize_of_relative hps, utf8ByteSize_below hps,
      utf8ByteSize_below (isAbsolute_normalize hps)]
    have hle := utf8ByteSize_normalize_le (below p s)
    omega

theorem components_below_prefix (hp : isAbsolute p = false) (root : String) :
    components root <+: components (below root p) := by
  by_cases hroot : root = ""
  · rw [hroot]
    exact List.nil_prefix
  · rw [components_below hroot hp]
    exact List.prefix_append _ _

theorem head?_segments_normalize (p : String) : (segments (normalize p)).head? ≠ some "." := by
  by_cases h : namingSegments p = []
  · rw [normalize_of_no_names h]
    decide
  · rw [segments_normalize_of_names h]
    split
    · exact (by decide : some "" ≠ some ".")
    · intro hhead
      exact absurd (isNaming_of_mem_namingSegments (List.mem_of_mem_head? hhead)) (by decide)

theorem components_below_of_head (hp : isAbsolute p = false) (hhead : (segments p).head? ≠ some ".")
    (root : String) :
    components (below root p) = components root ++ (namingSegments p).map Component.ofSegment := by
  by_cases hroot : root = ""
  · rw [hroot, below_empty, components, start, hp, if_neg Bool.false_ne_true, if_neg hhead]
    rfl
  · exact components_below hroot hp

theorem components_below_normalize (hp : isAbsolute p = false) (root : String) :
    components (below root (normalize p)) =
      components root ++ (namingSegments p).map Component.ofSegment := by
  rw [← namingSegments_normalize p]
  exact components_below_of_head (isAbsolute_normalize hp) (head?_segments_normalize p) root

/-- How the entry `s` of the directory `base` is seen from `root`. -/
inductive Sees (root base s : String) : String → Prop
  /-- The directory is absolute and the root is not. -/
  | absolute (hbase : isAbsolute base = true) (hroot : isAbsolute root = false) :
      Sees root base s (below base s)
  /-- The text of the root leads through the entry, as if it were a directory. -/
  | through {rest : List Component} (habsolute : isAbsolute base = isAbsolute root)
      (hroot : components root = components base ++ .name (.text s) :: rest) :
      Sees root base s (ofSegments (rest.map fun _ => ".."))
  | way {cs : List Component} (habsolute : isAbsolute base = isAbsolute root)
      (hroot : ¬ components base ++ [.name (.text s)] <+: components root)
      (hway : wayBetween (components base) (components root) = some cs) :
      Sees root base s (ofSegments (cs.map Component.segment ++ [s]))

theorem isWritten_of_wayBetween (h : wayBetween (components base) (components root) = some cs)
    (hc : c ∈ cs) : c.IsWritten := by
  obtain ⟨shared, d, b, hbase, -, rfl⟩ := exists_shared_of_wayBetween h
  rcases List.mem_append.1 hc with hc | hc
  · obtain ⟨-, -, rfl⟩ := List.mem_map.1 hc
    trivial
  · exact isWritten_of_mem_components (p := base) (hbase ▸ List.mem_append_right shared hc)

theorem root_not_mem_of_wayBetween (habsolute : isAbsolute base = isAbsolute root)
    (h : wayBetween (components base) (components root) = some cs) : Component.root ∉ cs := by
  -- what is behind the shared part of two lists without a root has no root
  have hrest {dir above : List Component} (hdir : .root ∉ dir)
      (h : wayBetween dir above = some cs) : Component.root ∉ cs := by
    obtain ⟨shared, d, b, rfl, -, rfl⟩ := exists_shared_of_wayBetween h
    rw [List.mem_append, not_or]
    refine ⟨fun hup => ?_, fun hd => hdir (List.mem_append_right shared hd)⟩
    obtain ⟨-, -, hup⟩ := List.mem_map.1 hup
    cases hup
  cases hbase : isAbsolute base with
  | false => exact hrest (root_not_mem_components hbase) h
  | true =>
    rw [components_of_absolute hbase, components_of_absolute (habsolute ▸ hbase),
      wayBetween_cons] at h
    exact hrest (root_not_mem_map_ofSegment _) h

/-- Of two absolute paths, the way is as many steps up as the one has names that the other does not
share, and then the names that the one does not share. -/
theorem names_of_wayBetween (hbase : isAbsolute base = true) (hroot : isAbsolute root = true)
    (h : wayBetween (components base) (components root) = some cs) :
    ∃ shared down up, namingSegments base = shared ++ down ∧ namingSegments root = shared ++ up ∧
      cs.map Component.segment = (up.map fun _ => "..") ++ down := by
  rw [components_of_absolute hbase, components_of_absolute hroot, wayBetween_cons] at h
  obtain ⟨_, _, _, hdir, habove, rfl⟩ := exists_shared_of_wayBetween h
  obtain ⟨shared, down, hdown, rfl, rfl⟩ := List.map_eq_append_iff.1 hdir
  obtain ⟨shared', up, hup, hshared, rfl⟩ := List.map_eq_append_iff.1 habove
  obtain rfl := List.map_injective_iff.2 Component.ofSegment_injective hshared
  refine ⟨shared', down, up, hdown, hup, ?_⟩
  rw [List.map_append, Component.map_segment_ofSegment, upFrom, List.map_map, List.map_map]
  rfl

theorem segments_of_wayBetween (h : wayBetween (components base) (components root) = some cs)
    (hs : IsName s) :
    segments (ofSegments (cs.map Component.segment ++ [s])) = cs.map Component.segment ++ [s] := by
  rw [segments_ofSegments (by simp)]
  intro t ht
  rcases List.mem_append.1 ht with ht | ht
  · obtain ⟨c, hc, rfl⟩ := List.mem_map.1 ht
    exact (isWritten_of_wayBetween h hc).noSlash
  · exact List.mem_singleton.1 ht ▸ hs.noSlash

theorem isAbsolute_of_wayBetween (habsolute : isAbsolute base = isAbsolute root)
    (h : wayBetween (components base) (components root) = some cs) (hs : IsName s) :
    isAbsolute (ofSegments (cs.map Component.segment ++ [s])) = false := by
  apply isAbsolute_ofSegments
  intro t ht
  rcases List.mem_append.1 ht with ht | ht
  · obtain ⟨c, hc, rfl⟩ := List.mem_map.1 ht
    have hwritten := isWritten_of_wayBetween h hc
    refine ⟨hwritten.segment_ne_empty ?_, hwritten.noSlash⟩
    rintro rfl
    exact root_not_mem_of_wayBetween habsolute h hc
  · obtain rfl := List.mem_singleton.1 ht
    exact ⟨hs.ne_empty, hs.noSlash⟩

theorem namingSegments_of_wayBetween (habsolute : isAbsolute base = isAbsolute root)
    (h : wayBetween (components base) (components root) = some cs) (hs : IsName s) :
    namingSegments (below root (ofSegments (cs.map Component.segment ++ [s]))) =
      namingSegments root ++ ((cs.map Component.segment).filter isNaming ++ [s]) := by
  rw [namingSegments_below (isAbsolute_of_wayBetween habsolute h hs)]
  congr 1
  rw [namingSegments, segments_of_wayBetween h hs, List.filter_append,
    List.filter_cons_of_pos hs.isNaming]
  rfl

theorem sees_of_entryFrom (h : entryFrom root base n = some (some p)) :
    ∃ s, n = .text s ∧ Sees root base s p := by
  unfold entryFrom at h
  split at h
  · next habsolute =>
    split at h
    · next hbase =>
      have hroot : isAbsolute root = false := by
        rw [hbase] at habsolute
        cases hr : isAbsolute root with
        | false => rfl
        | true =>
          rw [hr] at habsolute
          cases habsolute
      cases n with
      | raw bs hbs => cases h
      | text s =>
        cases h
        exact ⟨s, rfl, .absolute hbase hroot⟩
    · cases h
  · next habsolute =>
    have habsolute : isAbsolute base = isAbsolute root := by
      rw [Bool.not_eq_true, bne_eq_false_iff_eq] at habsolute
      exact habsolute
    by_cases hprefix : components base ++ [.name n] <+: components root
    · obtain ⟨rest, hroot⟩ := hprefix
      have hwritten : (Component.name n).IsWritten := by
        apply isWritten_of_mem_components (p := root)
        rw [← hroot]
        simp
      obtain ⟨s, rfl, -⟩ := hwritten
      have hup : ∀ c ∈ upFrom rest, c.IsWritten := by
        intro c hc
        obtain ⟨-, -, rfl⟩ := List.mem_map.1 hc
        trivial
      rw [← hroot, relativeComponents_append, Option.map_some, mapM_text?_of_isWritten hup] at h
      cases h
      refine ⟨s, rfl, ?_⟩
      rw [upFrom, List.map_map]
      exact .through habsolute (by rw [← hroot, List.append_assoc]; rfl)
    · rw [relativeComponents_concat hprefix] at h
      cases hway : wayBetween (components base) (components root) with
      | none =>
        rw [hway] at h
        cases h
      | some cs =>
        rw [hway] at h
        have htexts := mapM_text?_of_isWritten fun c => isWritten_of_wayBetween hway (c := c)
        cases n with
        | raw bs hbs =>
          rw [Option.map_some, Option.map_some, List.mapM_append, htexts] at h
          cases h
        | text s =>
          rw [Option.map_some, Option.map_some, List.mapM_append, htexts] at h
          cases h
          exact ⟨s, rfl, .way habsolute hprefix hway⟩

end AnalyzerConfig.Path
