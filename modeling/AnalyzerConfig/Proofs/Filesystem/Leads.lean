import AnalyzerConfig.Filesystem.Resolve
import Mathlib.Data.List.Basic

namespace AnalyzerConfig.Filesystem

/-- Slashes behind the name of a file that may be yet to be made. -/
abbrev IsTrailing (purpose : Purpose) (rest : List Step) : Prop :=
  purpose = .create ∧ rest ≠ [] ∧ rest.all (· == .slash)

/-- Where the target of a link starts that lies in the directory `p`. -/
def linkStart (target : Octets) (p : Place) : Place :=
  if (Route.ofPath target).fromTop then [] else p

/-- Steps lead from a place to a place, through exactly as many links as the number says. -/
inductive Leads (fs : Filesystem) (purpose : Purpose) : Nat → Place → List Step → Place → Prop
  | done {p : Place} : Leads fs purpose 0 p [] p
  | stay {k : Nat} {p q : Place} {step : Step} {rest : List Step}
      (hd : fs.node? p = some .directory) (hs : step = .slash ∨ step = .here)
      (h : Leads fs purpose k p rest q) : Leads fs purpose k p (step :: rest) q
  | up {k : Nat} {p q : Place} {rest : List Step}
      (hd : fs.node? p = some .directory) (h : Leads fs purpose k p.tail rest q) :
      Leads fs purpose k p (.up :: rest) q
  | down {k : Nat} {p q : Place} {n : Octets} {rest : List Step} {node : Node}
      (hd : fs.node? p = some .directory) (ht : ¬ IsTrailing purpose rest)
      (hn : fs.node? (n :: p) = some node) (hl : ∀ target, node ≠ .link target)
      (h : Leads fs purpose k (n :: p) rest q) : Leads fs purpose k p (.down n :: rest) q
  | link {k : Nat} {p q : Place} {n target : Octets} {rest : List Step}
      (hd : fs.node? p = some .directory) (ht : ¬ IsTrailing purpose rest)
      (hn : fs.node? (n :: p) = some (.link target))
      (h : Leads fs purpose k (linkStart target p) ((Route.ofPath target).steps ++ rest) q) :
      Leads fs purpose (k + 1) p (.down n :: rest) q
  /-- A file yet to be made. -/
  | fresh {p : Place} {n : Octets} (hd : fs.node? p = some .directory) (hp : purpose = .create)
      (hn : fs.node? (n :: p) = none) (hlen : n.bytes.length ≤ maxNameLength) :
      Leads fs purpose 0 p [.down n] (n :: p)

variable {fs : Filesystem} {purpose : Purpose} {k : Nat} {p q : Place} {steps rest : List Step}

theorem leads_of_walk {budget : Nat} {follow : Place → List Step → Except FileFault Place}
    (hf : ∀ p steps q, follow p steps = .ok q → ∃ k < budget, Leads fs purpose k p steps q)
    (h : fs.walk purpose follow steps p = .ok q) : ∃ k ≤ budget, Leads fs purpose k p steps q := by
  induction steps generalizing p with
  | nil =>
    cases h
    exact ⟨0, Nat.zero_le _, .done⟩
  | cons step rest ih =>
    unfold walk at h
    split at h
    · next hd =>
      cases step with
      | slash =>
        obtain ⟨k, hk, hl⟩ := ih h
        exact ⟨k, hk, .stay hd (.inl rfl) hl⟩
      | here =>
        obtain ⟨k, hk, hl⟩ := ih h
        exact ⟨k, hk, .stay hd (.inr rfl) hl⟩
      | up =>
        obtain ⟨k, hk, hl⟩ := ih h
        exact ⟨k, hk, .up hd hl⟩
      | down n =>
        simp only at h
        split at h
        · cases h
        · next ht =>
          split at h
          · next hn =>
            split at h
            · cases h
            · next hlen =>
              split at h
              · next hp =>
                cases h
                rw [hp.2]
                exact ⟨0, Nat.zero_le _, .fresh hd hp.1 hn (Nat.le_of_not_lt hlen)⟩
              · cases h
          · next hn =>
            obtain ⟨k, hk, hl⟩ := hf _ _ _ h
            exact ⟨k + 1, hk, .link hd ht hn hl⟩
          · next node hne hn =>
            obtain ⟨k, hk, hl⟩ := ih h
            exact ⟨k, hk, .down hd ht hn hne hl⟩
    · cases h

theorem Leads.walk {budget : Nat} {follow : Place → List Step → Except FileFault Place}
    (hf : ∀ k p steps q, k < budget → Leads fs purpose k p steps q → follow p steps = .ok q)
    (h : Leads fs purpose k p steps q) (hk : k ≤ budget) :
    fs.walk purpose follow steps p = .ok q := by
  induction h with
  | done => rfl
  | stay hd hs h ih =>
    rcases hs with rfl | rfl
    all_goals
      rw [Filesystem.walk, hd]
      exact ih hk
  | up hd h ih =>
    rw [Filesystem.walk, hd]
    exact ih hk
  | down hd ht hn hl h ih =>
    rw [Filesystem.walk, hd]
    simp only
    rw [if_neg ht, hn]
    split
    · next heq => cases heq
    · next heq => exact absurd (Option.some.inj heq) (hl _)
    · exact ih hk
  | link hd ht hn h ih =>
    rw [Filesystem.walk, hd]
    simp only
    rw [if_neg ht, hn]
    exact hf _ _ _ _ hk h
  | fresh hd hp hn hlen =>
    rw [Filesystem.walk, hd]
    simp only
    rw [if_neg (fun h => h.2.1 rfl), hn]
    simp only
    rw [if_neg (Nat.not_lt_of_le hlen), if_pos ⟨hp, trivial⟩]

/-- A walk that may follow some number of links finds what lies behind no more of them. -/
theorem walkThrough_eq_ok {budget : Nat} :
    fs.walkThrough purpose budget p steps = .ok q ↔
      ∃ k ≤ budget, Leads fs purpose k p steps q := by
  induction budget generalizing p steps q with
  | zero =>
    apply Iff.intro
    · exact leads_of_walk (fun _ _ _ h => nomatch h)
    · intro h'
      obtain ⟨k, hk, h⟩ := h'
      exact h.walk (fun _ _ _ _ hlt => absurd hlt (Nat.not_lt_zero _)) hk
  | succ budget ih =>
    apply Iff.intro
    · apply leads_of_walk
      intro p steps q h
      obtain ⟨k, hk, hl⟩ := ih.1 h
      exact ⟨k, Nat.lt_succ_of_le hk, hl⟩
    · intro h'
      obtain ⟨k, hk, h⟩ := h'
      exact h.walk (fun j _ _ _ hlt hj => ih.2 ⟨j, Nat.le_of_lt_succ hlt, hj⟩) hk

def start (fs : Filesystem) (r : Route) : Place := if r.fromTop then [] else fs.workingDir

theorem locate_eq_ok {r : Route} :
    fs.locate purpose r = .ok p ↔
      r.steps ≠ [] ∧ ∃ k ≤ maxLinks, Leads fs purpose k (fs.start r) r.steps p := by
  unfold locate
  split
  · next h => exact ⟨fun h' => (nomatch h'), fun h' => absurd h h'.1⟩
  · next h => exact ⟨fun h' => ⟨h, walkThrough_eq_ok.1 h'⟩, fun h' => walkThrough_eq_ok.2 h'.2⟩

theorem locatePath_eq_ok {path : Octets} :
    fs.locatePath purpose path = .ok p ↔
      isShort path ∧ fs.locate purpose (Route.ofPath path) = .ok p := by
  unfold locatePath
  split
  · next h => exact ⟨fun h' => ⟨h, h'⟩, fun h' => h'.2⟩
  · next h => exact ⟨fun h' => (nomatch h'), fun h' => absurd h'.1 h⟩

theorem Leads.eq_of_not_directory (h : Leads fs purpose k p steps q)
    (hp : fs.node? p ≠ some .directory) : steps = [] ∧ q = p := by
  cases h with
  | done => exact ⟨rfl, rfl⟩
  | stay hd | up hd | down hd | link hd | fresh hd => exact absurd hd hp

theorem Leads.of_down {n : Octets} (h : Leads fs .find k p (.down n :: rest) q) :
    (∃ node, fs.node? (n :: p) = some node ∧ (∀ target, node ≠ .link target) ∧
      Leads fs .find k (n :: p) rest q) ∨
    ∃ target j, fs.node? (n :: p) = some (.link target) ∧
      Leads fs .find j (linkStart target p) ((Route.ofPath target).steps ++ rest) q := by
  cases h with
  | stay _ hs => rcases hs with hs | hs <;> cases hs
  | down _ _ hn hl h => exact .inl ⟨_, hn, hl, h⟩
  | link _ _ hn h => exact .inr ⟨_, _, hn, h⟩
  | fresh _ hp => cases hp

theorem Leads.directory_of_stay (h : Leads fs purpose k p steps q) {last : Step}
    (hlast : last = .slash ∨ last = .here) (hs : steps.getLast? = some last) :
    fs.node? q = some .directory := by
  induction h with
  | done => cases hs
  | @stay k p q step rest hd _ h ih =>
    cases rest with
    | nil =>
      cases h
      exact hd
    | cons => exact ih hs
  | @up k p q rest hd h ih =>
    cases rest with
    | nil =>
      obtain rfl := Option.some.inj hs
      rcases hlast with hlast | hlast <;> cases hlast
    | cons => exact ih hs
  | @down k p q n rest node hd ht hn hl h ih =>
    cases rest with
    | nil =>
      obtain rfl := Option.some.inj hs
      rcases hlast with hlast | hlast <;> cases hlast
    | cons => exact ih hs
  | @link k p q n target rest hd ht hn h ih =>
    cases rest with
    | nil =>
      obtain rfl := Option.some.inj hs
      rcases hlast with hlast | hlast <;> cases hlast
    | cons step rest =>
      apply ih
      rw [List.getLast?_append_of_ne_nil _ (List.cons_ne_nil _ _)]
      exact hs
  | fresh =>
    obtain rfl := Option.some.inj hs
    rcases hlast with hlast | hlast <;> cases hlast

theorem IsTrailing.getLast? (h : IsTrailing purpose rest) : rest.getLast? = some .slash := by
  have hl := List.getLast_mem h.2.1
  have hs := eq_of_beq (List.all_eq_true.1 h.2.2 _ hl)
  rw [List.getLast?_eq_getLast_of_ne_nil h.2.1, hs]

theorem Leads.find_of_create (h : Leads fs .create k p steps q) (hq : fs.node? q ≠ none) :
    Leads fs .find k p steps q := by
  induction h with
  | done => exact .done
  | stay hd hs _ ih => exact .stay hd hs (ih hq)
  | up hd _ ih => exact .up hd (ih hq)
  | down hd _ hn hl _ ih => exact .down hd (fun ht => (nomatch ht.1)) hn hl (ih hq)
  | link hd _ hn _ ih => exact .link hd (fun ht => (nomatch ht.1)) hn (ih hq)
  | fresh _ _ hn _ => exact absurd hn hq

theorem Leads.create_of_find (h : Leads fs .find k p steps q)
    (hq : fs.node? q ≠ some .directory) : Leads fs .create k p steps q := by
  induction h with
  | done => exact .done
  | stay hd hs _ ih => exact .stay hd hs (ih hq)
  | up hd _ ih => exact .up hd (ih hq)
  | down hd _ hn hl h ih =>
    exact .down hd (fun ht => hq (h.directory_of_stay (.inl rfl) ht.getLast?)) hn hl (ih hq)
  | @link k p q n target rest hd _ hn h ih =>
    refine .link hd (fun ht => hq (h.directory_of_stay (.inl rfl) ?_)) hn (ih hq)
    rw [List.getLast?_append_of_ne_nil _ ht.2.1]
    exact ht.getLast?
  | fresh _ hp _ _ => cases hp

theorem Leads.unique {k' : Nat} {q' : Place} (h : Leads fs purpose k p steps q)
    (h' : Leads fs purpose k' p steps q') : q = q' := by
  have hw := walkThrough_eq_ok.2 ⟨k, Nat.le_max_left k k', h⟩
  have hw' := walkThrough_eq_ok.2 ⟨k', Nat.le_max_right k k', h'⟩
  exact Except.ok.inj (hw.symm.trans hw')

/-- Steps that end in a name can name a file yet to be made. -/
abbrev IsNamed (purpose : Purpose) (steps : List Step) : Prop :=
  purpose = .create → ∃ n, steps.getLast? = some (.down n)

theorem IsNamed.find : IsNamed .find steps := fun h => (nomatch h)

theorem IsNamed.ne_nil (h : IsNamed .create steps) : steps ≠ [] := by
  obtain ⟨n, hn⟩ := h rfl
  intro hs
  subst hs
  cases hn

theorem IsNamed.not_isTrailing {second : List Step} (h : IsNamed purpose second) :
    ¬ IsTrailing purpose (rest ++ second) := by
  intro ht
  obtain ⟨n, hn⟩ := h ht.1
  have hlast := ht.getLast?
  rw [List.getLast?_append_of_ne_nil _ (ht.1 ▸ h).ne_nil, hn] at hlast
  cases hlast

theorem Leads.split {first second : List Step} (hs : IsNamed purpose second)
    (h : Leads fs purpose k p (first ++ second) q) :
    ∃ k₁ k₂ m, k₁ + k₂ = k ∧ Leads fs .find k₁ p first m ∧ Leads fs purpose k₂ m second q := by
  generalize heq : first ++ second = steps at h
  induction h generalizing first with
  | @done p =>
    obtain ⟨rfl, rfl⟩ := List.append_eq_nil_iff.1 heq
    exact ⟨0, 0, p, rfl, .done, .done⟩
  | @stay k p q step rest hd hstep h ih =>
    cases first with
    | nil =>
      rw [List.nil_append] at heq
      exact ⟨0, k, p, Nat.zero_add _, .done, heq ▸ .stay hd hstep h⟩
    | cons step' first =>
      obtain ⟨rfl, rfl⟩ := List.cons.inj heq
      obtain ⟨k₁, k₂, m, hk, h₁, h₂⟩ := ih rfl
      exact ⟨k₁, k₂, m, hk, .stay hd hstep h₁, h₂⟩
  | @up k p q rest hd h ih =>
    cases first with
    | nil =>
      rw [List.nil_append] at heq
      exact ⟨0, k, p, Nat.zero_add _, .done, heq ▸ .up hd h⟩
    | cons step' first =>
      obtain ⟨rfl, rfl⟩ := List.cons.inj heq
      obtain ⟨k₁, k₂, m, hk, h₁, h₂⟩ := ih rfl
      exact ⟨k₁, k₂, m, hk, .up hd h₁, h₂⟩
  | @down k p q n rest node hd ht hn hl h ih =>
    cases first with
    | nil =>
      rw [List.nil_append] at heq
      exact ⟨0, k, p, Nat.zero_add _, .done, heq ▸ .down hd ht hn hl h⟩
    | cons step' first =>
      obtain ⟨rfl, rfl⟩ := List.cons.inj heq
      obtain ⟨k₁, k₂, m, hk, h₁, h₂⟩ := ih rfl
      exact ⟨k₁, k₂, m, hk, .down hd (fun ht => (nomatch ht.1)) hn hl h₁, h₂⟩
  | @link k p q n target rest hd ht hn h ih =>
    cases first with
    | nil =>
      rw [List.nil_append] at heq
      exact ⟨0, k + 1, p, Nat.zero_add _, .done, heq ▸ .link hd ht hn h⟩
    | cons step' first =>
      obtain ⟨rfl, rfl⟩ := List.cons.inj heq
      obtain ⟨k₁, k₂, m, rfl, h₁, h₂⟩ := ih (List.append_assoc _ _ _)
      exact ⟨k₁ + 1, k₂, m, Nat.succ_add _ _, .link hd (fun ht => (nomatch ht.1)) hn h₁, h₂⟩
  | @fresh p n hd hp hn hlen =>
    cases first with
    | nil =>
      rw [List.nil_append] at heq
      exact ⟨0, 0, p, rfl, .done, heq ▸ .fresh hd hp hn hlen⟩
    | cons step' first =>
      -- the name that is missing is the last step of all, so none is left for `second`
      obtain ⟨-, hrest⟩ := List.cons.inj heq
      exact absurd (List.append_eq_nil_iff.1 hrest).2 (hp ▸ hs).ne_nil

theorem Leads.append {k₁ k₂ : Nat} {m : Place} {first second : List Step}
    (hs : IsNamed purpose second) (h₁ : Leads fs .find k₁ p first m)
    (h₂ : Leads fs purpose k₂ m second q) : Leads fs purpose (k₁ + k₂) p (first ++ second) q := by
  induction h₁ with
  | done =>
    rw [Nat.zero_add]
    exact h₂
  | stay hd hstep _ ih => exact .stay hd hstep (ih h₂)
  | up hd _ ih => exact .up hd (ih h₂)
  | down hd _ hn hl _ ih => exact .down hd hs.not_isTrailing hn hl (ih h₂)
  | @link k p m n target rest hd _ hn _ ih =>
    rw [Nat.succ_add]
    have hrest := ih h₂
    rw [List.append_assoc] at hrest
    exact .link hd hs.not_isTrailing hn hrest
  | fresh _ hp _ _ => cases hp

/-- A tree in which every directory lies in a directory. -/
def IsTree (fs : Filesystem) : Prop :=
  ∀ n d, fs.node? (n :: d) = some .directory → fs.node? d = some .directory

theorem isTree_of_nodes (h : ∀ entry ∈ fs.nodes, entry.2 = .directory →
    fs.node? entry.1.tail = some .directory) : fs.IsTree := by
  intro n d hn
  obtain ⟨before, after, hnodes, -⟩ := List.lookup_eq_some_iff.1 hn
  exact h (n :: d, .directory) (by simp [hnodes]) rfl

theorem Leads.end_of_tree (h : Leads fs purpose k p steps q) (ht : fs.IsTree) (hs : steps ≠ []) :
    (∀ target, fs.node? q ≠ some (.link target)) ∧
      (fs.node? q = none → ∃ n d, q = n :: d ∧ n.bytes.length ≤ maxNameLength) := by
  have hdir {q : Place} (h : fs.node? q = some .directory) :
      (∀ target, fs.node? q ≠ some (.link target)) ∧
        (fs.node? q = none → ∃ n d, q = n :: d ∧ n.bytes.length ≤ maxNameLength) :=
    ⟨fun target hl => (nomatch h.symm.trans hl), fun hn => (nomatch h.symm.trans hn)⟩
  induction h with
  | done => exact absurd rfl hs
  | @stay k p q step rest hd _ h ih =>
    cases rest with
    | nil =>
      cases h
      exact hdir hd
    | cons => exact ih (List.cons_ne_nil _ _)
  | @up k p q rest hd h ih =>
    cases rest with
    | nil =>
      cases h
      cases p with
      | nil => exact hdir hd
      | cons n d => exact hdir (ht n d hd)
    | cons => exact ih (List.cons_ne_nil _ _)
  | @down k p q n rest node _ _ hn hl h ih =>
    cases rest with
    | nil =>
      cases h
      exact ⟨fun target hq => hl target (Option.some.inj (hn.symm.trans hq)),
        fun hq => (nomatch hn.symm.trans hq)⟩
    | cons => exact ih (List.cons_ne_nil _ _)
  | @link k p q n target rest hd _ _ h ih =>
    by_cases hne : (Route.ofPath target).steps ++ rest = []
    · rw [hne] at h
      cases h
      unfold linkStart
      split
      · exact hdir rfl
      · exact hdir hd
    · exact ih hne
  | @fresh p n _ _ hn hlen =>
    exact ⟨fun target hq => (nomatch hn.symm.trans hq), fun _ => ⟨n, p, rfl, hlen⟩⟩

theorem Leads.parent_of_tree (h : Leads fs purpose k p steps q) (ht : fs.IsTree) (hs : steps ≠ [])
    (hq : fs.node? q ≠ some .directory) :
    ∃ n d, q = n :: d ∧ fs.node? d = some .directory := by
  induction h with
  | done => exact absurd rfl hs
  | @stay k p q step rest hd _ h ih =>
    cases rest with
    | nil =>
      cases h
      exact absurd hd hq
    | cons => exact ih (List.cons_ne_nil _ _) hq
  | @up k p q rest hd h ih =>
    cases rest with
    | nil =>
      cases h
      cases p with
      | nil => exact absurd hd hq
      | cons n d => exact absurd (ht n d hd) hq
    | cons => exact ih (List.cons_ne_nil _ _) hq
  | @down k p q n rest node hd _ _ _ h ih =>
    cases rest with
    | nil =>
      cases h
      exact ⟨n, p, rfl, hd⟩
    | cons => exact ih (List.cons_ne_nil _ _) hq
  | @link k p q n target rest hd _ _ h ih =>
    by_cases hne : (Route.ofPath target).steps ++ rest = []
    · rw [hne] at h
      cases h
      unfold linkStart at hq
      split at hq
      · exact absurd rfl hq
      · exact absurd hd hq
    · exact ih hne hq
  | @fresh p n hd _ _ _ => exact ⟨n, p, rfl, hd⟩

/-- A tree in which there are no links. -/
def NoLinks (fs : Filesystem) : Prop := ∀ p target, fs.node? p ≠ some (.link target)

theorem noLinks_of_nodes (h : ∀ entry ∈ fs.nodes, entry.2 = .directory ∨ ∃ c, entry.2 = .file c) :
    fs.NoLinks := by
  intro p target hp
  cases p with
  | nil => cases hp
  | cons n d =>
    obtain ⟨before, after, hnodes, -⟩ := List.lookup_eq_some_iff.1 hp
    rcases h (n :: d, .link target) (by simp [hnodes]) with h | ⟨c, h⟩ <;> cases h

/-- Without links, the last name of a path is the name of what it leads to. -/
theorem Leads.end_of_noLinks (hl : fs.NoLinks) {n : Octets} (hs : steps.getLast? = some (.down n))
    (h : Leads fs purpose k p steps q) :
    ∃ d, q = n :: d ∧ (fs.node? q = none → n.bytes.length ≤ maxNameLength) := by
  induction h with
  | done => cases hs
  | @stay k p q step rest _ hstep h ih =>
    cases rest with
    | nil =>
      cases hs
      rcases hstep with h | h <;> cases h
    | cons => exact ih hs
  | @up k p q rest _ h ih =>
    cases rest with
    | nil => cases hs
    | cons => exact ih hs
  | @down k p q m rest node _ _ hn _ h ih =>
    cases rest with
    | nil =>
      cases hs
      cases h
      exact ⟨p, rfl, fun hq => (nomatch hn.symm.trans hq)⟩
    | cons => exact ih hs
  | link _ _ hn _ _ => exact absurd hn (hl _ _)
  | @fresh p m _ _ _ hlen =>
    cases hs
    exact ⟨p, rfl, fun _ => hlen⟩

end AnalyzerConfig.Filesystem
