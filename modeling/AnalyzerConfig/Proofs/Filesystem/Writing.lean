import AnalyzerConfig.Filesystem.Access
import AnalyzerConfig.Proofs.Filesystem.Leads

namespace AnalyzerConfig.Filesystem

variable {fs : Filesystem} {p q d : Place} {k : Nat} {steps : List Step} {c : Octets} {r : Route}

/-- A place that a file may be written to. -/
structure TakesFile (fs : Filesystem) (p : Place) : Prop where
  kind : fs.node? p = none ∨ ∃ c, fs.node? p = some (.file c)
  short : fs.node? p = none → ∃ n d, p = n :: d ∧ n.bytes.length ≤ maxNameLength

theorem not_directory_of_file (h : fs.node? p = some (.file c)) : fs.node? p ≠ some .directory := by
  intro hd
  cases h.symm.trans hd

theorem openFault?_eq_none :
    fs.openFault? p = none ↔ fs.node? p ≠ some .directory ∧ fs.node? p ≠ some .socket := by
  unfold openFault?
  split <;> simp_all

theorem openFault?_of_file (h : fs.node? p = some (.file c)) : fs.openFault? p = none := by
  simp [openFault?, h]

theorem write_eq_ok {path : Octets} {fs' : Filesystem} :
    fs.write path c = .ok fs' ↔
      ∃ p, fs.locatePath .create path = .ok p ∧ fs.openFault? p = none ∧
        fs' = fs.put p (.file c) := by
  unfold write
  cases fs.locatePath .create path with
  | error fault => simp
  | ok p =>
    cases hopen : fs.openFault? p with
    | none => simp [hopen, eq_comm]
    | some fault => simp [hopen]

namespace TakesFile

theorem of_tree (ht : fs.IsTree) {path : Octets} (h : fs.locatePath .create path = .ok p)
    (hopen : fs.openFault? p = none) : fs.TakesFile p := by
  obtain ⟨hd, hsocket⟩ := openFault?_eq_none.1 hopen
  obtain ⟨hs, k, -, hl⟩ := locate_eq_ok.1 (locatePath_eq_ok.1 h).2
  obtain ⟨hlink, hshort⟩ := hl.end_of_tree ht hs
  refine ⟨?_, hshort⟩
  cases hn : fs.node? p with
  | none => exact .inl rfl
  | some node =>
    cases node with
    | directory => exact absurd hn hd
    | file c => exact .inr ⟨c, rfl⟩
    | link target => exact absurd hn (hlink target)
    | socket => exact absurd hn hsocket

theorem of_file (h : fs.node? p = some (.file c)) : fs.TakesFile p where
  kind := .inr ⟨c, h⟩
  short hn := by cases h.symm.trans hn

theorem ne_nil (hp : fs.TakesFile p) : p ≠ [] := by
  intro heq
  subst heq
  rcases hp.kind with h | ⟨c, h⟩ <;> cases h

theorem ne_of_directory (hp : fs.TakesFile p) (hq : fs.node? q = some .directory) : q ≠ p := by
  intro heq
  subst heq
  rcases hp.kind with h | ⟨c, h⟩ <;> cases hq.symm.trans h

theorem node?_put (hp : fs.TakesFile p) (c : Octets) (q : Place) :
    (fs.put p (.file c)).node? q = if q = p then some (.file c) else fs.node? q :=
  Filesystem.node?_put fs hp.ne_nil _ q

theorem node?_put_self (hp : fs.TakesFile p) : (fs.put p (.file c)).node? p = some (.file c) := by
  rw [hp.node?_put, if_pos rfl]

theorem node?_put_ne (hp : fs.TakesFile p) (hq : q ≠ p) :
    (fs.put p (.file c)).node? q = fs.node? q := by
  rw [hp.node?_put, if_neg hq]

theorem node?_put_directory (hp : fs.TakesFile p) :
    (fs.put p (.file c)).node? q = some .directory ↔ fs.node? q = some .directory := by
  apply Iff.intro
  · intro h
    have hq : q ≠ p := by
      intro heq
      subst heq
      cases hp.node?_put_self.symm.trans h
    rw [← h, hp.node?_put_ne hq]
  · intro h
    rw [hp.node?_put_ne (hp.ne_of_directory h), h]

theorem node?_put_link (hp : fs.TakesFile p) {target : Octets} :
    (fs.put p (.file c)).node? q = some (.link target) ↔ fs.node? q = some (.link target) := by
  by_cases hq : q = p
  · subst hq
    rw [hp.node?_put_self]
    apply Iff.intro
    · intro h
      cases h
    · intro h
      rcases hp.kind with hn | ⟨c', hn⟩ <;> cases hn.symm.trans h
  · rw [hp.node?_put_ne hq]

theorem node?_put_file (hp : fs.TakesFile p) (h : ∃ c, fs.node? q = some (.file c)) :
    ∃ c', (fs.put p (.file c)).node? q = some (.file c') := by
  by_cases hq : q = p
  · exact ⟨c, hq ▸ hp.node?_put_self⟩
  · rw [hp.node?_put_ne hq]
    exact h

theorem openFault?_put (hp : fs.TakesFile p) (h : fs.openFault? q = none) :
    (fs.put p (.file c)).openFault? q = none := by
  by_cases hq : q = p
  · subst hq
    exact openFault?_of_file hp.node?_put_self
  · rwa [openFault?, hp.node?_put_ne hq]

theorem isTree_put (hp : fs.TakesFile p) (ht : fs.IsTree) : (fs.put p (.file c)).IsTree :=
  fun n d h => hp.node?_put_directory.2 (ht n d (hp.node?_put_directory.1 h))

theorem noLinks_put (hp : fs.TakesFile p) (hl : fs.NoLinks) : (fs.put p (.file c)).NoLinks :=
  fun q target h => hl q target (hp.node?_put_link.1 h)

theorem leads_put (hp : fs.TakesFile p) {purpose : Purpose} {a : Place}
    (h : Leads fs purpose k a steps q) : Leads (fs.put p (.file c)) purpose k a steps q := by
  induction h with
  | done => exact .done
  | stay hd hs _ ih => exact .stay (hp.node?_put_directory.2 hd) hs ih
  | up hd _ ih => exact .up (hp.node?_put_directory.2 hd) ih
  | @down k a q n rest node hd ht hn hl _ ih =>
    have hd := (hp.node?_put_directory (c := c)).2 hd
    by_cases hq : n :: a = p
    · subst hq
      exact .down hd ht hp.node?_put_self nofun ih
    · exact .down hd ht ((hp.node?_put_ne hq).trans hn) hl ih
  | link hd ht hn _ ih =>
    exact .link (hp.node?_put_directory.2 hd) ht (hp.node?_put_link.2 hn) ih
  | @fresh a n hd hc hn hlen =>
    have hd := (hp.node?_put_directory (c := c)).2 hd
    by_cases hq : n :: a = p
    · subst hq
      exact .down hd (fun h => h.2.1 rfl) hp.node?_put_self nofun .done
    · exact .fresh hd hc ((hp.node?_put_ne hq).trans hn) hlen

theorem leads_new {m : Octets} {a : Place} {purpose : Purpose} (hp : fs.TakesFile (m :: a))
    (hn : fs.node? (m :: a) = none) (hd : fs.node? a = some .directory)
    (h : Leads (fs.put (m :: a) (.file c)) purpose k (m :: a) steps q) :
    q = m :: a ∧ Leads fs .create k a (.down m :: steps) (m :: a) := by
  obtain ⟨rfl, rfl⟩ := h.eq_of_not_directory (not_directory_of_file hp.node?_put_self)
  obtain ⟨n, d, hpn, hlen⟩ := hp.short hn
  cases hpn
  cases h
  exact ⟨rfl, .fresh hd rfl hn hlen⟩

/-- Steps that lead somewhere after the writing led there before, or lead to the new file. -/
theorem leads_of_put (hp : fs.TakesFile p) {a : Place}
    (h : Leads (fs.put p (.file c)) .find k a steps q) :
    Leads fs .find k a steps q ∨
      fs.node? p = none ∧ q = p ∧ Leads fs .create k a steps p := by
  have hend {k : Nat} {a : Place} {steps : List Step} (hn : fs.node? p = none)
      (h : Leads fs .create k a steps p) : steps.getLast? ≠ some .slash := by
    intro hs
    cases hn.symm.trans (h.directory_of_stay (.inl rfl) hs)
  induction h with
  | done => exact .inl .done
  | stay hd hs _ ih =>
    have hd := hp.node?_put_directory.1 hd
    rcases ih with h | ⟨hn, hq, h⟩
    · exact .inl (.stay hd hs h)
    · exact .inr ⟨hn, hq, .stay hd hs h⟩
  | up hd _ ih =>
    have hd := hp.node?_put_directory.1 hd
    rcases ih with h | ⟨hn, hq, h⟩
    · exact .inl (.up hd h)
    · exact .inr ⟨hn, hq, .up hd h⟩
  | @down k a q m rest node hd ht hm hl h ih =>
    have hda := hp.node?_put_directory.1 hd
    by_cases hma : m :: a = p
    · subst hma
      rcases hp.kind with hn | ⟨c', hc'⟩
      · obtain ⟨hq, hnew⟩ := hp.leads_new hn hda h
        exact .inr ⟨hn, hq, hnew⟩
      · rcases ih with h | ⟨hn, -, -⟩
        · exact .inl (.down hda ht hc' nofun h)
        · cases hc'.symm.trans hn
    · have hm := (hp.node?_put_ne hma).symm.trans hm
      rcases ih with h | ⟨hn, hq, h⟩
      · exact .inl (.down hda ht hm hl h)
      · exact .inr ⟨hn, hq, .down hda (fun ht => hend hn h ht.getLast?) hm hl h⟩
  | @link k a q m target rest hd ht hm h ih =>
    have hd := hp.node?_put_directory.1 hd
    have hm := hp.node?_put_link.1 hm
    rcases ih with h | ⟨hn, hq, h⟩
    · exact .inl (.link hd ht hm h)
    · refine .inr ⟨hn, hq, .link hd ?_ hm h⟩
      intro ht
      apply hend hn h
      rw [List.getLast?_append_of_ne_nil _ ht.2.1]
      exact ht.getLast?
  | fresh _ hc _ _ => cases hc

theorem leads_create_of_put (hp : fs.TakesFile p) {a : Place}
    (h : Leads (fs.put p (.file c)) .create k a steps q) : Leads fs .create k a steps q := by
  induction h with
  | done => exact .done
  | stay hd hs _ ih => exact .stay (hp.node?_put_directory.1 hd) hs ih
  | up hd _ ih => exact .up (hp.node?_put_directory.1 hd) ih
  | @down k a q m rest node hd ht hm hl h ih =>
    have hda := hp.node?_put_directory.1 hd
    by_cases hma : m :: a = p
    · subst hma
      rcases hp.kind with hn | ⟨c', hc'⟩
      · obtain ⟨rfl, hnew⟩ := hp.leads_new hn hda h
        exact hnew
      · exact .down hda ht hc' nofun ih
    · exact .down hda ht ((hp.node?_put_ne hma).symm.trans hm) hl ih
  | link hd ht hm _ ih =>
    exact .link (hp.node?_put_directory.1 hd) ht (hp.node?_put_link.1 hm) ih
  | @fresh a n hd hc hn hlen =>
    have hna : n :: a ≠ p := by
      intro heq
      subst heq
      cases hp.node?_put_self.symm.trans hn
    exact .fresh (hp.node?_put_directory.1 hd) hc ((hp.node?_put_ne hna).symm.trans hn) hlen

theorem locate_put (hp : fs.TakesFile p) {purpose : Purpose} (h : fs.locate purpose r = .ok q) :
    (fs.put p (.file c)).locate purpose r = .ok q := by
  obtain ⟨hs, k, hk, hl⟩ := locate_eq_ok.1 h
  exact locate_eq_ok.2 ⟨hs, k, hk, hp.leads_put hl⟩

theorem locatePath_put (hp : fs.TakesFile p) {purpose : Purpose} {path : Octets}
    (h : fs.locatePath purpose path = .ok q) :
    (fs.put p (.file c)).locatePath purpose path = .ok q := by
  obtain ⟨hs, hl⟩ := locatePath_eq_ok.1 h
  exact locatePath_eq_ok.2 ⟨hs, hp.locate_put hl⟩

theorem locate_create_put (hp : fs.TakesFile p) :
    (fs.put p (.file c)).locate .create r = .ok q ↔ fs.locate .create r = .ok q := by
  apply Iff.intro
  · intro h
    obtain ⟨hs, k, hk, hl⟩ := locate_eq_ok.1 h
    exact locate_eq_ok.2 ⟨hs, k, hk, hp.leads_create_of_put hl⟩
  · exact hp.locate_put

theorem locatePath_create_put (hp : fs.TakesFile p) {path : Octets} :
    (fs.put p (.file c)).locatePath .create path = .ok q ↔ fs.locatePath .create path = .ok q := by
  rw [locatePath_eq_ok, locatePath_eq_ok, hp.locate_create_put]

theorem locate_find_put (hp : fs.TakesFile p) :
    (fs.put p (.file c)).locate .find r = .ok q ↔
      fs.locate .find r = .ok q ∨
        fs.node? p = none ∧ q = p ∧ fs.locate .create r = .ok p := by
  apply Iff.intro
  · intro h
    obtain ⟨hs, k, hk, hl⟩ := locate_eq_ok.1 h
    rcases hp.leads_of_put hl with hl | ⟨hn, hq, hl⟩
    · exact .inl (locate_eq_ok.2 ⟨hs, k, hk, hl⟩)
    · exact .inr ⟨hn, hq, locate_eq_ok.2 ⟨hs, k, hk, hl⟩⟩
  · intro h'
    rcases h' with h | ⟨-, rfl, h⟩
    · exact hp.locate_put h
    · obtain ⟨hs, k, hk, hl⟩ := locate_eq_ok.1 h
      have hne : (fs.put q (.file c)).node? q ≠ none := by
        rw [hp.node?_put_self]
        apply Option.some_ne_none
      exact locate_eq_ok.2 ⟨hs, k, hk, (hp.leads_put hl).find_of_create hne⟩

end TakesFile

end AnalyzerConfig.Filesystem
