import AnalyzerConfig.Layout.Resolve
import Mathlib.Data.List.Induction
import Mathlib.Data.List.Perm.Basic

namespace AnalyzerConfig

section

variable {α : Type} [BEq α] [LawfulBEq α]

theorem eraseDups_concat (as : List α) (a : α) :
    (as ++ [a]).eraseDups = as.eraseDups ++ if as.contains a then [] else [a] := by
  rw [List.eraseDups_append, List.removeAll, List.filter_cons, List.filter_nil]
  cases h : as.contains a with
  | true =>
    rw [List.elem_eq_contains, h]
    rfl
  | false =>
    rw [List.elem_eq_contains, h]
    rfl

theorem eraseDups_sublist (as : List α) : as.eraseDups.Sublist as := by
  induction as using List.reverseRecOn with
  | nil => exact List.Sublist.refl []
  | append_singleton as a ih =>
    rw [eraseDups_concat]
    apply ih.append
    split
    · exact List.nil_sublist [a]
    · exact List.Sublist.refl [a]

theorem pairwise_eraseDups (as : List α) :
    as.eraseDups.Pairwise fun a b => as.idxOf a < as.idxOf b := by
  induction as using List.reverseRecOn with
  | nil => exact List.Pairwise.nil
  | append_singleton as a ih =>
    -- A new name comes behind all names so far, whose places stay as they are.
    have hplace {b : α} (hb : b ∈ as.eraseDups) : (as ++ [a]).idxOf b = as.idxOf b :=
      List.idxOf_append_of_mem (List.mem_eraseDups.1 hb)
    have hkept : as.eraseDups.Pairwise fun b c => (as ++ [a]).idxOf b < (as ++ [a]).idxOf c := by
      apply ih.imp_of_mem
      intro b c hb hc hlt
      rwa [hplace hb, hplace hc]
    rw [eraseDups_concat]
    split
    · rwa [List.append_nil]
    · next hnew =>
      rw [List.contains_iff_mem] at hnew
      refine List.pairwise_append.2 ⟨hkept, List.pairwise_singleton _ _, ?_⟩
      intro b hb c hc
      rw [List.mem_singleton.1 hc, hplace hb, List.idxOf_append, if_neg hnew]
      exact Nat.lt_add_left _ (List.idxOf_lt_length_of_mem (List.mem_eraseDups.1 hb))

omit [LawfulBEq α] in
theorem nodup_of_pairwise_idxOf {as bs : List α}
    (h : bs.Pairwise fun a b => as.idxOf a < as.idxOf b) : bs.Nodup := by
  apply h.imp
  rintro a _ hlt rfl
  exact Nat.lt_irrefl _ hlt

theorem eq_eraseDups {as bs : List α} (hmem : ∀ a, a ∈ bs ↔ a ∈ as)
    (horder : bs.Pairwise fun a b => as.idxOf a < as.idxOf b) : bs = as.eraseDups := by
  have hkept := pairwise_eraseDups as
  apply List.Perm.eq_of_pairwise _ horder hkept
  · rw [List.perm_ext_iff_of_nodup (nodup_of_pairwise_idxOf horder) (nodup_of_pairwise_idxOf hkept)]
    intro a
    rw [hmem, List.mem_eraseDups]
  · intro a b _ _ hlt hlt'
    exact absurd hlt' (Nat.lt_asymm hlt)

theorem eraseDups_eraseDups (as : List α) : as.eraseDups.eraseDups = as.eraseDups := by
  induction as using List.reverseRecOn with
  | nil => rfl
  | append_singleton as a ih =>
    rw [eraseDups_concat]
    split
    · rw [List.append_nil, ih]
    · next hnew =>
      have hnew : ¬ as.eraseDups.contains a = true := by
        rwa [List.contains_iff_mem, List.mem_eraseDups, ← List.contains_iff_mem]
      rw [eraseDups_concat, if_neg hnew, ih]

theorem eraseDups_eraseDups_append (as bs : List α) :
    (as.eraseDups ++ bs).eraseDups = (as ++ bs).eraseDups := by
  induction bs using List.reverseRecOn with
  | nil => rw [List.append_nil, List.append_nil, eraseDups_eraseDups]
  | append_singleton bs b ih =>
    have hold : (as.eraseDups ++ bs).contains b = (as ++ bs).contains b := by
      rw [Bool.eq_iff_iff, List.contains_iff_mem, List.contains_iff_mem, List.mem_append,
        List.mem_append, List.mem_eraseDups]
    rw [← List.append_assoc, ← List.append_assoc, eraseDups_concat, eraseDups_concat, ih, hold]

end

theorem mergeNames_concat (names more : List String) (name : String) :
    mergeNames names (more ++ [name]) =
      if name ∈ mergeNames names more then mergeNames names more
      else mergeNames names more ++ [name] := by
  have hmem : (names ++ more).contains name ↔ name ∈ mergeNames names more := by
    rw [List.contains_iff_mem, mergeNames, List.mem_eraseDups]
  rw [mergeNames, ← List.append_assoc, eraseDups_concat, if_congr hmem rfl rfl]
  split
  · exact List.append_nil _
  · rfl

/-- Some names and then some more are all of them, each once, in the order in which they first come,
and there is only one such list. To put names together in two steps is to do so in one, and names
that are not given are no names. -/
theorem mergeNames_keeps_first (names more : List String) :
    (mergeNames names more).Nodup ∧ (mergeNames names more).Sublist (names ++ more) ∧
    (∀ merged, merged = mergeNames names more ↔
      (∀ name, name ∈ merged ↔ name ∈ names ∨ name ∈ more) ∧
      merged.Pairwise fun s t => (names ++ more).idxOf s < (names ++ more).idxOf t) ∧
    (∀ rest, mergeNames (mergeNames names more) rest = mergeNames names (more ++ rest)) ∧
    ∀ o : Layout.Overrides, Layout.resolved o none = Layout.resolved o (some []) := by
  refine ⟨nodup_of_pairwise_idxOf (pairwise_eraseDups _), eraseDups_sublist _, ?_, ?_, fun _ => rfl⟩
  · intro merged
    simp only [← List.mem_append]
    apply Iff.intro
    · rintro rfl
      exact ⟨fun _ => List.mem_eraseDups, pairwise_eraseDups _⟩
    · rintro ⟨hmem, horder⟩
      exact eq_eraseDups hmem horder
  · intro rest
    rw [mergeNames, mergeNames, eraseDups_eraseDups_append, List.append_assoc]
    rfl

example : mergeNames ["a.c", "b.c", "a.c"] ["c.c", "b.c"] = ["a.c", "b.c", "c.c"] := by decide

end AnalyzerConfig
