import Mathlib.Data.List.Basic

namespace AnalyzerConfig.Text

variable {c : Char} {s t : String} {ts : List String}

/-- The texts between the occurrences of a character, the empty ones included. -/
def parts (c : Char) (s : String) : List String := (s.toList.splitOn c).map String.ofList

theorem not_mem_of_mem_splitOn {α : Type} [BEq α] [LawfulBEq α] {a : α} {as part : List α}
    (h : part ∈ as.splitOn a) : a ∉ part := by
  induction as generalizing part with
  | nil =>
    rw [List.splitOn_nil, List.mem_singleton] at h
    exact h ▸ List.not_mem_nil
  | cons b as ih =>
    rw [List.splitOn_cons_eq_if_modifyHead] at h
    split at h
    · rcases List.mem_cons.1 h with rfl | h
      · exact List.not_mem_nil
      · exact ih h
    · next hb =>
      obtain ⟨first, rest, hsplit⟩ := List.exists_cons_of_ne_nil (List.splitOn_ne_nil a as)
      rw [hsplit, List.modifyHead_cons] at h
      rw [hsplit] at ih
      rcases List.mem_cons.1 h with rfl | h
      · have hfirst := ih List.mem_cons_self
        simp only [List.mem_cons, not_or]
        exact ⟨fun heq => hb (beq_iff_eq.2 heq.symm), hfirst⟩
      · exact ih (List.mem_cons_of_mem _ h)

theorem not_mem_of_mem_parts (h : s ∈ parts c t) : c ∉ s.toList := by
  obtain ⟨part, hpart, rfl⟩ := List.mem_map.1 h
  rw [String.toList_ofList]
  exact not_mem_of_mem_splitOn hpart

theorem parts_eq_singleton (h : c ∉ s.toList) : parts c s = [s] := by
  rw [parts, List.splitOn_eq_singleton h, List.map_singleton, String.ofList_toList]

theorem parts_append (c : Char) (s t : String) :
    parts c (s ++ String.singleton c ++ t) = parts c s ++ parts c t := by
  have hlist : (s ++ String.singleton c ++ t).toList = s.toList ++ c :: t.toList := by
    rw [String.toList_append, String.toList_append, String.toList_singleton, List.append_assoc,
      List.singleton_append]
  rw [parts, hlist, List.splitOn_append_cons_self, List.map_append]
  rfl

theorem intercalate_parts (c : Char) (s : String) :
    (String.singleton c).intercalate (parts c s) = s := by
  have hid : String.toList ∘ String.ofList = id := funext fun _ => String.toList_ofList
  rw [← String.toList_inj, String.toList_intercalate, parts, List.map_map, hid, List.map_id,
    String.toList_singleton]
  exact List.intercalate_splitOn c

theorem parts_intercalate (c : Char) (hts : ts ≠ []) :
    parts c ((String.singleton c).intercalate ts) = ts.flatMap (parts c) := by
  induction ts with
  | nil => exact absurd rfl hts
  | cons t ts ih =>
    cases ts with
    | nil => rw [String.intercalate_singleton, List.flatMap_singleton]
    | cons u us =>
      have hrest := ih (List.cons_ne_nil u us)
      rw [String.intercalate_cons_cons, parts_append, hrest, ← List.flatMap_cons]

/-- Joined texts come back from splitting if none of them is split itself, and not otherwise. -/
theorem parts_intercalate_eq_iff (hts : ts ≠ []) :
    parts c ((String.singleton c).intercalate ts) = ts ↔ ∀ t ∈ ts, c ∉ t.toList := by
  apply Iff.intro
  · intro h t ht
    rw [← h] at ht
    exact not_mem_of_mem_parts ht
  · intro h
    rw [parts_intercalate c hts]
    have hsingle : ts.flatMap (parts c) = ts.flatMap fun t => [t] := by
      apply List.flatMap_congr
      intro t ht
      exact parts_eq_singleton (h t ht)
    rw [hsingle, List.flatMap_singleton']

end AnalyzerConfig.Text
