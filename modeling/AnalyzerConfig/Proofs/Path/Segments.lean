import AnalyzerConfig.Path.Basic
import AnalyzerConfig.Proofs.Text.Splitting

namespace AnalyzerConfig.Path

variable {p dir root s : String} {ss : List String}

theorem toList_slash (dir name : String) :
    (dir ++ "/" ++ name).toList = dir.toList ++ '/' :: name.toList := by
  simp only [String.toList_append, String.reduceToList, List.append_assoc, List.cons_append,
    List.nil_append]

theorem segments_slash (p q : String) : segments (p ++ "/" ++ q) = segments p ++ segments q :=
  Text.parts_append '/' p q

theorem segments_eq_singleton (h : '/' ∉ p.toList) : segments p = [p] :=
  Text.parts_eq_singleton h

theorem ofSegments_segments (p : String) : ofSegments (segments p) = p :=
  Text.intercalate_parts '/' p

theorem segments_ofSegments (hss : ss ≠ []) (h : ∀ s ∈ ss, '/' ∉ s.toList) :
    segments (ofSegments ss) = ss :=
  (Text.parts_intercalate_eq_iff hss).2 h

theorem noSlash_of_mem_segments (h : s ∈ segments p) : '/' ∉ s.toList :=
  Text.not_mem_of_mem_parts h

theorem exists_mem_splitOn {α : Type} [BEq α] [LawfulBEq α] {a b : α} {as : List α}
    (h : b ∈ as) (hne : b ≠ a) : ∃ part ∈ as.splitOn a, b ∈ part := by
  induction as with
  | nil => cases h
  | cons c as ih =>
    rw [List.splitOn_cons_eq_if_modifyHead]
    split
    · next hc =>
      have hb : b ∈ as := by
        rcases List.mem_cons.1 h with rfl | h
        · exact absurd (eq_of_beq hc) hne
        · exact h
      obtain ⟨part, hpart, hb⟩ := ih hb
      exact ⟨part, List.mem_cons_of_mem _ hpart, hb⟩
    · obtain ⟨first, rest, hsplit⟩ := List.exists_cons_of_ne_nil (List.splitOn_ne_nil a as)
      rw [hsplit, List.modifyHead_cons]
      rw [hsplit] at ih
      rcases List.mem_cons.1 h with rfl | h
      · exact ⟨_, List.mem_cons_self, List.mem_cons_self⟩
      · obtain ⟨part, hpart, hb⟩ := ih h
        rcases List.mem_cons.1 hpart with rfl | hpart
        · exact ⟨_, List.mem_cons_self, List.mem_cons_of_mem c hb⟩
        · exact ⟨part, List.mem_cons_of_mem _ hpart, hb⟩

theorem exists_segment_of_mem {c : Char} (h : c ∈ p.toList) (hc : c ≠ '/') :
    ∃ s ∈ segments p, c ∈ s.toList := by
  obtain ⟨part, hpart, hmem⟩ := exists_mem_splitOn h hc
  refine ⟨_, List.mem_map_of_mem hpart, ?_⟩
  rw [String.toList_ofList]
  exact hmem

theorem mem_ofSegments {c : Char} (hs : s ∈ ss) (hc : c ∈ s.toList) :
    c ∈ (ofSegments ss).toList := by
  induction ss with
  | nil => cases hs
  | cons t ss ih =>
    cases ss with
    | nil =>
      obtain rfl := List.mem_singleton.1 hs
      rwa [ofSegments, String.intercalate_singleton]
    | cons u ss =>
      rw [ofSegments, String.intercalate_cons_cons, toList_slash, List.mem_append]
      rcases List.mem_cons.1 hs with rfl | hs
      · exact .inl hc
      · exact .inr (List.mem_cons_of_mem _ (ih hs))

theorem mem_of_mem_segments {c : Char} (hs : s ∈ segments p) (hc : c ∈ s.toList) :
    c ∈ p.toList := by
  rw [← ofSegments_segments p]
  exact mem_ofSegments hs hc

theorem segments_ne_nil (p : String) : segments p ≠ [] := by
  intro h
  exact List.splitOn_ne_nil '/' p.toList (List.map_eq_nil_iff.1 h)

theorem segments_eq_empty_iff : segments p = [""] ↔ p = "" := by
  apply Iff.intro
  · intro h
    rw [← ofSegments_segments p, h]
    rfl
  · rintro rfl
    rfl

theorem isAbsolute_iff : isAbsolute p = true ↔ ∃ rest, rest ≠ [] ∧ segments p = "" :: rest := by
  unfold isAbsolute
  apply Iff.intro
  · intro h
    obtain ⟨cs, hcs⟩ := List.head?_eq_some_iff.1 (eq_of_beq h)
    refine ⟨_, segments_ne_nil (String.ofList cs), ?_⟩
    have hp : p = "" ++ "/" ++ String.ofList cs := by
      rw [← String.toList_inj, toList_slash, hcs, String.toList_ofList (l := cs)]
      rfl
    rw [hp, segments_slash]
    rfl
  · intro h
    obtain ⟨rest, hrest, hp⟩ := h
    obtain ⟨first, rest, rfl⟩ := List.exists_cons_of_ne_nil hrest
    rw [← ofSegments_segments p, hp, ofSegments, String.toList_intercalate]
    rfl

theorem isAbsolute_slash (hdir : dir ≠ "") (name : String) :
    isAbsolute (dir ++ "/" ++ name) = isAbsolute dir := by
  obtain ⟨c, cs, hcs⟩ := List.exists_cons_of_ne_nil (mt String.toList_eq_nil_iff.1 hdir)
  simp [isAbsolute, hcs]

theorem isAbsolute_ofSegments (h : ∀ s ∈ ss, s ≠ "" ∧ '/' ∉ s.toList) :
    isAbsolute (ofSegments ss) = false := by
  by_cases hss : ss = []
  · rw [hss]
    decide
  · rw [← Bool.not_eq_true, isAbsolute_iff, segments_ofSegments hss fun s hs => (h s hs).2]
    rintro ⟨rest, -, rfl⟩
    exact (h "" List.mem_cons_self).1 rfl

theorem noSlash_of_mem_namingSegments (h : s ∈ namingSegments p) : '/' ∉ s.toList :=
  noSlash_of_mem_segments (List.mem_filter.1 h).1

theorem isNaming_of_mem_namingSegments (h : s ∈ namingSegments p) : isNaming s = true :=
  (List.mem_filter.1 h).2

theorem filter_namingSegments (p : String) :
    (namingSegments p).filter isNaming = namingSegments p :=
  List.filter_eq_self.2 fun _ => isNaming_of_mem_namingSegments

theorem normalize_of_relative (h : isAbsolute p = false) :
    normalize p = ofSegments (namingSegments p) := by
  rw [normalize, h]
  rfl

theorem normalize_of_no_names (h : namingSegments p = []) : normalize p = "" := by
  rw [normalize, h]
  cases isAbsolute p <;> decide

theorem segments_normalize_of_names (h : namingSegments p ≠ []) :
    segments (normalize p) = (if isAbsolute p then [""] else []) ++ namingSegments p := by
  rw [normalize, segments_ofSegments (List.append_ne_nil_of_right_ne_nil _ h)]
  intro s hs
  rcases List.mem_append.1 hs with hs | hs
  · split at hs
    · exact List.mem_singleton.1 hs ▸ List.not_mem_nil
    · cases hs
  · exact noSlash_of_mem_namingSegments hs

theorem segments_normalize (h : isAbsolute p = false) (hp : namingSegments p ≠ []) :
    segments (normalize p) = namingSegments p := by
  rw [segments_normalize_of_names hp, h]
  rfl

theorem namingSegments_normalize (p : String) :
    namingSegments (normalize p) = namingSegments p := by
  by_cases h : namingSegments p = []
  · rw [normalize_of_no_names h, h]
    decide
  · have hfirst : (if isAbsolute p then [""] else []).filter isNaming = [] := by
      cases isAbsolute p <;> decide
    rw [namingSegments, segments_normalize_of_names h, List.filter_append, hfirst,
      filter_namingSegments, List.nil_append]

theorem normalize_eq_empty : normalize p = "" ↔ namingSegments p = [] := by
  apply Iff.intro
  · intro h
    rw [← namingSegments_normalize, h]
    decide
  · exact normalize_of_no_names

theorem isAbsolute_normalize_of_names (h : namingSegments p ≠ []) :
    isAbsolute (normalize p) = isAbsolute p := by
  cases habsolute : isAbsolute p with
  | false =>
    rw [normalize_of_relative habsolute]
    apply isAbsolute_ofSegments
    intro s hs
    refine ⟨?_, noSlash_of_mem_namingSegments hs⟩
    rintro rfl
    cases isNaming_of_mem_namingSegments hs
  | true =>
    refine isAbsolute_iff.2 ⟨namingSegments p, h, ?_⟩
    rw [segments_normalize_of_names h, habsolute]
    rfl

theorem isAbsolute_normalize (h : isAbsolute p = false) : isAbsolute (normalize p) = false := by
  by_cases hnil : namingSegments p = []
  · rw [normalize_of_no_names hnil]
    rfl
  · rw [isAbsolute_normalize_of_names hnil, h]

theorem normalize_normalize (p : String) : normalize (normalize p) = normalize p := by
  by_cases h : namingSegments p = []
  · rw [normalize_of_no_names h]
    decide
  · rw [normalize, isAbsolute_normalize_of_names h, namingSegments_normalize]
    rfl

theorem trimSlashes_eq_self (h : p.toList.getLast? ≠ some '/') : trimSlashes p = p := by
  have hkeep : p.toList.reverse.dropWhile (· == '/') = p.toList.reverse := by
    rw [List.getLast?_eq_head?_reverse] at h
    cases hlast : p.toList.reverse with
    | nil => rfl
    | cons c cs =>
      rw [hlast] at h
      exact List.dropWhile_cons_of_neg fun hc => h (congrArg some (eq_of_beq hc))
  rw [trimSlashes, hkeep, List.reverse_reverse, String.ofList_toList]

theorem isAbsolute_join {name : String} (hdir : isAbsolute dir = false)
    (hname : isAbsolute name = false) : isAbsolute (join dir name) = false := by
  unfold join
  split
  · exact hname
  next hne =>
  obtain ⟨c, cs, hcs⟩ := List.exists_cons_of_ne_nil (mt String.toList_eq_nil_iff.1 hne)
  have hc : c ≠ '/' := by simpa [isAbsolute, hcs] using hdir
  have htrim : ∃ cs', (trimSlashes dir).toList = c :: cs' := by
    rw [trimSlashes, String.toList_ofList, hcs, List.reverse_cons, List.dropWhile_append]
    split
    · exact ⟨[], by simp [hc]⟩
    · exact ⟨_, by rw [List.reverse_concat]⟩
  obtain ⟨cs', htrim⟩ := htrim
  simp [isAbsolute, htrim, hc]

theorem getLast?_segments_of_slash (h : p.toList.getLast? = some '/') :
    (segments p).getLast? = some "" := by
  obtain ⟨before, hbefore⟩ := List.getLast?_eq_some_iff.1 h
  have hp : p = String.ofList before ++ "/" ++ "" := by
    rw [← String.toList_inj, toList_slash, hbefore, String.toList_ofList (l := before)]
    rfl
  rw [hp, segments_slash]
  exact List.getLast?_concat

theorem ofSegments_concat (hss : ss ≠ []) (name : String) :
    ofSegments (ss ++ [name]) = ofSegments ss ++ "/" ++ name := by
  induction ss with
  | nil => exact absurd rfl hss
  | cons s ss ih =>
    cases ss with
    | nil => rfl
    | cons t ss =>
      have ih := ih (List.cons_ne_nil t ss)
      unfold ofSegments at ih ⊢
      rw [List.cons_append, List.cons_append, String.intercalate_cons_cons, ← List.cons_append, ih,
        String.intercalate_cons_cons, String.append_assoc, String.append_assoc,
        String.append_assoc, String.append_assoc, String.append_assoc]

theorem getLast?_normalize (p : String) : (normalize p).toList.getLast? ≠ some '/' := by
  by_cases h : namingSegments p = []
  · rw [normalize_of_no_names h]
    decide
  · intro hslash
    have hlast := getLast?_segments_of_slash hslash
    rw [segments_normalize_of_names h, List.getLast?_append_of_ne_nil _ h] at hlast
    exact absurd (isNaming_of_mem_namingSegments (List.mem_of_getLast? hlast)) (by decide)

theorem join_normalize_of_names (h : namingSegments dir ≠ []) (name : String) :
    join (normalize dir) name = normalize dir ++ "/" ++ name := by
  rw [join, if_neg (mt normalize_eq_empty.1 h), trimSlashes_eq_self (getLast?_normalize dir)]

theorem join_normalize (hdir : isAbsolute dir = false) (name : String) :
    join (normalize dir) name = ofSegments (namingSegments dir ++ [name]) := by
  by_cases hnil : namingSegments dir = []
  · rw [normalize_of_no_names hnil, hnil]
    rfl
  · rw [join_normalize_of_names hnil, normalize_of_relative hdir, ofSegments_concat hnil]

theorem segments_join_normalize (hdir : isAbsolute dir = false) {name : String}
    (hname : '/' ∉ name.toList) :
    segments (join (normalize dir) name) = namingSegments dir ++ [name] := by
  rw [join_normalize hdir, segments_ofSegments (by simp)]
  intro s hs
  rcases List.mem_append.1 hs with hs | hs
  · exact noSlash_of_mem_namingSegments hs
  · exact List.mem_singleton.1 hs ▸ hname

theorem join_injective (dir : String) : Function.Injective (join dir) := by
  intro name name' h
  unfold join at h
  split at h
  · exact h
  · rw [← String.toList_inj, toList_slash, toList_slash] at h
    exact String.toList_inj.1 (List.cons.inj (List.append_cancel_left h)).2

end AnalyzerConfig.Path
