import AnalyzerConfig.Proofs.Path.Ways
import Mathlib.Data.List.DropRight

namespace AnalyzerConfig.Path

variable {p dir name : String}

theorem toList_trimSlashes (p : String) :
    (trimSlashes p).toList = p.toList.rdropWhile (· == '/') := String.toList_ofList

theorem trimSlashes_eq_empty_iff : trimSlashes p = "" ↔ ∀ c ∈ p.toList, c = '/' := by
  rw [← String.toList_inj, toList_trimSlashes, String.toList_empty, List.rdropWhile_eq_nil_iff]
  simp only [beq_iff_eq]

theorem trimSlashes_append (p q : String) :
    trimSlashes (p ++ q) = if trimSlashes q = "" then trimSlashes p else p ++ trimSlashes q := by
  have hempty : trimSlashes q = "" ↔ (q.toList.reverse.dropWhile (· == '/')).isEmpty = true := by
    rw [← String.toList_inj, toList_trimSlashes, List.rdropWhile, String.toList_empty,
      List.reverse_eq_nil_iff, List.isEmpty_iff]
  rw [if_congr hempty rfl rfl, trimSlashes, String.toList_append, List.reverse_append,
    List.dropWhile_append]
  split
  · rfl
  · rw [List.reverse_append, List.reverse_reverse, String.ofList_append, String.ofList_toList]
    rfl

theorem trimSlashes_slash (p : String) : trimSlashes (p ++ "/") = trimSlashes p := by
  rw [trimSlashes_append, if_pos (by decide)]

theorem trimSlashes_trimSlashes (p : String) : trimSlashes (trimSlashes p) = trimSlashes p := by
  rw [← String.toList_inj, toList_trimSlashes, toList_trimSlashes, List.rdropWhile_idempotent]

theorem trimSlashes_ne_empty (hp : isAbsolute p = false) (hne : p ≠ "") : trimSlashes p ≠ "" := by
  intro h
  obtain ⟨c, cs, hcs⟩ := List.exists_cons_of_ne_nil (mt String.toList_eq_nil_iff.1 hne)
  have hc : c = '/' := trimSlashes_eq_empty_iff.1 h c (by rw [hcs]; exact List.mem_cons_self)
  rw [isAbsolute, hcs, hc] at hp
  cases hp

theorem namingSegments_trimSlashes (p : String) :
    namingSegments (trimSlashes p) = namingSegments p := by
  obtain ⟨cs, rfl⟩ : ∃ cs, p = String.ofList cs := ⟨p.toList, String.ofList_toList.symm⟩
  induction cs using List.reverseRecOn with
  | nil => decide
  | append_singleton cs c ih =>
    by_cases hc : c = '/'
    · have hp : String.ofList (cs ++ [c]) = String.ofList cs ++ "/" := by
        rw [hc, String.ofList_append]
      have hslash := segments_slash (String.ofList cs) ""
      rw [String.append_empty] at hslash
      rw [hp, trimSlashes_slash, ih, namingSegments, namingSegments, hslash, List.filter_append]
      exact (List.append_nil _).symm
    · rw [trimSlashes_eq_self]
      rw [String.toList_ofList, List.getLast?_concat]
      exact fun h => hc (Option.some.inj h)

theorem segments_join_name (dir : String) (hname : IsName name) :
    ∃ before, segments (join dir name) = before ++ [name] ∧
      before.filter isNaming = namingSegments dir := by
  unfold join
  split
  · next hdir =>
    refine ⟨[], hname.segments, ?_⟩
    rw [hdir]
    rfl
  · refine ⟨segments (trimSlashes dir), ?_, namingSegments_trimSlashes dir⟩
    rw [segments_slash, hname.segments]

theorem namingSegments_join (dir : String) (hname : IsName name) :
    namingSegments (join dir name) = namingSegments dir ++ [name] := by
  obtain ⟨before, hsegments, hbefore⟩ := segments_join_name dir hname
  rw [namingSegments, hsegments, List.filter_append, hbefore,
    List.filter_cons_of_pos hname.isNaming]
  rfl

theorem baseName_of_getLast? (h : (segments p).getLast? = some name) (hname : IsName name) :
    baseName p = name := by
  obtain ⟨before, hbefore⟩ := List.getLast?_eq_some_iff.1 h
  have hlast : (namingSegments p).getLast? = some name := by
    rw [namingSegments, hbefore, List.filter_append, List.filter_cons_of_pos hname.isNaming]
    exact List.getLast?_concat
  rw [baseName, hlast]
  exact if_neg hname.ne_dots

theorem baseName_join (dir : String) (hname : IsName name) : baseName (join dir name) = name := by
  obtain ⟨before, hsegments, -⟩ := segments_join_name dir hname
  apply baseName_of_getLast? _ hname
  rw [hsegments]
  exact List.getLast?_concat

theorem normalize_join (hdir : isAbsolute dir = false) (hname : IsName name) :
    normalize (join dir name) = join (normalize dir) name := by
  rw [normalize_of_relative (isAbsolute_join hdir hname.isAbsolute), namingSegments_join dir hname,
    join_normalize hdir]

theorem join_ne_empty (hdir : dir ≠ "") (name : String) : join dir name ≠ "" := by
  rw [join, if_neg hdir]
  simp

theorem join_join (hdir : isAbsolute dir = false) (base name : String) :
    join (join base dir) name = join base (join dir name) := by
  by_cases hbase : base = ""
  · rw [hbase]
    rfl
  have hjoin (q : String) : join base q = trimSlashes base ++ "/" ++ q := if_neg hbase
  rw [join, if_neg (join_ne_empty hbase dir), hjoin, hjoin, trimSlashes_append]
  by_cases hempty : dir = ""
  · rw [hempty, if_pos (by decide), trimSlashes_slash, trimSlashes_trimSlashes]
    rfl
  · rw [if_neg (trimSlashes_ne_empty hdir hempty), join, if_neg hempty]
    simp only [String.append_assoc]

/-- A name behind a directory, however that is spelled: it is the base name of the joined path, the
normal form of which is the name behind the normal form of the directory, and it does not matter
which of two directories is joined first. -/
theorem join_spellings (hdir : isAbsolute dir = false) (hname : IsName name) (base : String) :
    baseName (join dir name) = name ∧ normalize (join dir name) = join (normalize dir) name ∧
      join (join base dir) name = join base (join dir name) :=
  ⟨baseName_join dir hname, normalize_join hdir hname, join_join hdir base name⟩

theorem join_spellings_dotted :
    baseName (join ".././b//" "t.c") = "t.c" ∧ normalize (join ".././b//" "t.c") = "../b/t.c" ∧
      join (join "./a//" ".././b//") "t.c" = join "./a//" ".././b/t.c" := by
  have hdir : isAbsolute ".././b//" = false := by decide
  have hname : IsName "t.c" := by decide
  obtain ⟨hbase, hnormal, hjoin⟩ := join_spellings hdir hname "./a//"
  exact ⟨hbase, hnormal, hjoin⟩

end AnalyzerConfig.Path
