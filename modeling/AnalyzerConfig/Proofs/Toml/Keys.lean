import AnalyzerConfig.Toml.Document
import Mathlib.Data.List.Nodup

namespace AnalyzerConfig.Toml

variable {k : String} {ks : Key} {t t' : DraftTable} {d d' : Document} {table : Table}

/-- No key stands twice in a table. -/
def Distinct {α : Type} (members : List (String × α)) : Prop := (members.map Prod.fst).Nodup

theorem not_mem_keys_of_lookup {α : Type} {members : List (String × α)}
    (h : members.lookup k = none) : k ∉ members.map Prod.fst := by
  intro hk
  obtain ⟨member, hmember, rfl⟩ := List.mem_map.1 hk
  have hne := List.lookup_eq_none_iff.1 h member hmember
  exact absurd rfl (bne_iff_ne.1 hne)

theorem Distinct.lookup_cons {α : Type} {member : String × α} {members : List (String × α)}
    (h : Distinct (member :: members)) : members.lookup member.1 = none := by
  rw [List.lookup_eq_none_iff]
  intro other hother
  rw [bne_iff_ne]
  intro heq
  exact (List.nodup_cons.1 h).1 (heq ▸ List.mem_map_of_mem hother)

namespace DraftTable

/-- What a statement can do to a table: give a value to a new key, or another one to an old key. -/
inductive Grows (t : DraftTable) : DraftTable → Prop
  | add {k : String} {draft : Draft} (hk : t.lookup k = none) : Grows t (add t k draft)
  | replace {k : String} {draft : Draft} : Grows t (replace t k draft)

theorem Grows.distinct (h : Grows t t') (ht : Distinct t) : Distinct t' := by
  cases h with
  | @add k draft hk =>
    unfold Distinct DraftTable.add
    rw [List.map_append, List.map_singleton, ← List.concat_eq_append]
    exact List.Nodup.concat (not_mem_keys_of_lookup hk) ht
  | @replace k draft =>
    have hkeys : (DraftTable.replace t k draft).map Prod.fst = t.map Prod.fst := by
      rw [DraftTable.replace, List.map_map]
      refine List.map_congr_left fun member _ => ?_
      rw [Function.comp_apply]
      split
      · next hmember => exact hmember.symm
      · rfl
    rw [Distinct, hkeys]
    exact ht

theorem grows_of_assign {v : Value} (h : assign v ks t = some t') : Grows t t' := by
  unfold assign at h
  split at h
  · cases h
  · split at h
    · cases h
    · next hk =>
      cases h
      exact .add (Option.not_isSome_iff_eq_none.1 hk)
  · split at h
    · next hk =>
      obtain ⟨inner, -, rfl⟩ := Option.map_eq_some_iff.1 h
      exact .add hk
    · obtain ⟨inner, -, rfl⟩ := Option.map_eq_some_iff.1 h
      exact .replace
    · cases h

theorem grows_of_openTable (h : openTable k t = some t') : Grows t t' := by
  unfold openTable at h
  split at h
  · next hk =>
    cases h
    exact .add hk
  · cases h
    exact .replace
  · cases h

theorem grows_of_openItem (h : openItem k t = some t') : Grows t t' := by
  unfold openItem at h
  split at h
  · next hk =>
    cases h
    exact .add hk
  · cases h
    exact .replace
  · cases h

theorem grows_of_change {f : DraftTable → Option DraftTable}
    (hf : ∀ t t', f t = some t' → Grows t t') (h : change f ks t = some t') : Grows t t' := by
  unfold change at h
  split at h
  · exact hf t t' h
  · split at h
    · next hk =>
      obtain ⟨inner, -, rfl⟩ := Option.map_eq_some_iff.1 h
      exact .add hk
    · obtain ⟨inner, -, rfl⟩ := Option.map_eq_some_iff.1 h
      exact .replace
    · obtain ⟨item, -, rfl⟩ := Option.map_eq_some_iff.1 h
      exact .replace
    · cases h

end DraftTable

theorem Document.grows_of_enter {open? : String → DraftTable → Option DraftTable}
    (hopen : ∀ k t t', open? k t = some t' → DraftTable.Grows t t')
    (h : d.enter ks open? = some d') :
    DraftTable.Grows d.root d'.root := by
  obtain ⟨last, -, h⟩ := Option.bind_eq_some_iff.1 h
  obtain ⟨root, hroot, h⟩ := Option.bind_eq_some_iff.1 h
  cases h
  exact DraftTable.grows_of_change (hopen last) hroot

theorem Document.grows_of_add {s : Statement} (h : d.add s = some d') :
    DraftTable.Grows d.root d'.root := by
  cases s with
  | header k => exact grows_of_enter (fun _ _ _ => DraftTable.grows_of_openTable) h
  | itemHeader k => exact grows_of_enter (fun _ _ _ => DraftTable.grows_of_openItem) h
  | assign k v =>
    obtain ⟨root, hroot, h⟩ := Option.bind_eq_some_iff.1 h
    cases h
    exact DraftTable.grows_of_change (fun _ _ => DraftTable.grows_of_assign) hroot

theorem Document.distinct_of_foldlM {ss : List Statement}
    (h : ss.foldlM Document.add d = some d') (hd : Distinct d.root) : Distinct d'.root := by
  induction ss generalizing d with
  | nil =>
    cases h
    exact hd
  | cons s ss ih =>
    rw [List.foldlM_cons] at h
    obtain ⟨next, hnext, h⟩ := Option.bind_eq_some_iff.1 h
    exact ih h ((grows_of_add hnext).distinct hd)

theorem keys_finishMembers (members : List (String × Draft)) :
    (finishMembers members).map Prod.fst = members.map Prod.fst := by
  induction members with
  | nil => rfl
  | cons member members ih =>
    rw [finishMembers, List.map_cons, List.map_cons, ih]

/-- The root table of a document has no key twice. -/
theorem distinct_of_parse {text : String} (h : parse? text = some table) : Distinct table := by
  obtain ⟨⟨statements, rest⟩, -, h⟩ := Option.bind_eq_some_iff.1 h
  obtain ⟨d, hd, h⟩ := Option.bind_eq_some_iff.1 h
  cases h
  rw [Distinct, keys_finishMembers]
  exact Document.distinct_of_foldlM hd List.nodup_nil

end AnalyzerConfig.Toml
