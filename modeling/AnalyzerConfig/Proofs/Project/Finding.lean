import AnalyzerConfig.Project.Scan
import AnalyzerConfig.Proofs.Filesystem.Looking
import Mathlib.Data.List.Nodup
import Mathlib.Data.List.Perm.Basic

namespace AnalyzerConfig

variable {fs fs' : Filesystem} {n : Octets} {base dir pattern root : String} {pat : Glob.Pattern}
variable {ps : List String}

theorem inOrder_congr {ps qs : List String} (h : ps.Perm qs) : inOrder ps = inOrder qs := by
  refine List.Perm.eq_of_pairwise (fun p q _ _ => String.le_antisymm) (inOrder_pairwise ps)
    (inOrder_pairwise qs) ?_
  exact (inOrder_perm ps).trans (h.trans (inOrder_perm qs).symm)

section

variable {α β ε : Type} {f : α → Except ε β}

theorem mapM_eq_ok {as : List α} {bs : List β} :
    as.mapM f = .ok bs ↔ List.Forall₂ (fun a b => f a = .ok b) as bs := by
  induction as generalizing bs with
  | nil => cases bs <;> simp [pure, Except.pure]
  | cons a as ih =>
    rw [List.mapM_cons]
    cases ha : f a with
    | error e => cases bs <;> simp [bind, Except.bind, ha]
    | ok b =>
      cases has : as.mapM f with
      | error e => cases bs <;> simp [bind, Except.bind, ← ih, ha, has]
      | ok bs' => cases bs <;> simp [bind, Except.bind, pure, Except.pure, ← ih, ha, has]

theorem mem_of_mapM_eq_ok {as : List α} {bs : List β} (h : as.mapM f = .ok bs) {b : β} :
    b ∈ bs ↔ ∃ a ∈ as, f a = .ok b := by
  rw [mapM_eq_ok] at h
  induction h with
  | nil => simp
  | cons hab _ ih => simp [hab, ih, eq_comm]

theorem exists_of_mapM_eq_ok {as : List α} {bs : List β} (h : as.mapM f = .ok bs) {a : α}
    (ha : a ∈ as) : ∃ b ∈ bs, f a = .ok b := by
  rw [mapM_eq_ok] at h
  induction h with
  | nil => cases ha
  | @cons a' b as bs hab _ ih =>
    rcases List.mem_cons.1 ha with rfl | ha
    · exact ⟨b, List.mem_cons_self, hab⟩
    · obtain ⟨b', hb', hab'⟩ := ih ha
      exact ⟨b', List.mem_cons_of_mem b hb', hab'⟩

theorem mapM_perm {as as' : List α} {bs : List β} (h : as.Perm as') (hb : as.mapM f = .ok bs) :
    ∃ bs', as'.mapM f = .ok bs' ∧ bs'.Perm bs := by
  obtain ⟨bs', hbs', hp⟩ := List.perm_comp_forall₂ h.symm (mapM_eq_ok.1 hb)
  exact ⟨bs', mapM_eq_ok.2 hbs', hp⟩

end

/-- A visible regular file directly in the directory `base`, with a name that the pattern
accepts. -/
structure Filesystem.Finds (fs : Filesystem) (base : String) (pat : Glob.Pattern) (n : Octets) :
    Prop where
  short : isShortBelow base n
  file : fs.isFileAt ((Route.ofPath (.text base)).entry n)
  visible : n.startsWithDot = false
  accepted : Glob.accepts pat n.bytes

/-- The same of a file that is yet to be made, at the place `p`. -/
structure Filesystem.Gains (fs : Filesystem) (p : Place) (base : String) (pat : Glob.Pattern)
    (n : Octets) : Prop where
  fresh : fs.node? p = none
  place : fs.locate .create ((Route.ofPath (.text base)).entry n) = .ok p
  short : isShortBelow base n
  visible : n.startsWithDot = false
  accepted : Glob.accepts pat n.bytes

theorem Filesystem.finds_put {p : Place} {c : Octets} (hp : fs.TakesFile p) :
    (fs.put p (.file c)).Finds base pat n ↔ fs.Finds base pat n ∨ fs.Gains p base pat n := by
  apply Iff.intro
  · intro h
    rcases (isFileAt_put hp).1 h.file with hfile | ⟨hnone, hplace⟩
    · exact .inl ⟨h.short, hfile, h.visible, h.accepted⟩
    · exact .inr ⟨hnone, hplace, h.short, h.visible, h.accepted⟩
  · intro h
    rcases h with h | h
    · exact ⟨h.short, (isFileAt_put hp).2 (.inl h.file), h.visible, h.accepted⟩
    · have hfile := (isFileAt_put (c := c) hp).2 (.inr ⟨h.fresh, h.place⟩)
      exact ⟨h.short, hfile, h.visible, h.accepted⟩

theorem Filesystem.gains_put {p q : Place} {c : Octets} (hp : fs.TakesFile p) :
    (fs.put p (.file c)).Gains q base pat n ↔ q ≠ p ∧ fs.Gains q base pat n := by
  apply Iff.intro
  · intro h
    have hne : q ≠ p := by
      intro heq
      subst heq
      cases hp.node?_put_self.symm.trans h.fresh
    have hfresh := (hp.node?_put_ne hne).symm.trans h.fresh
    exact ⟨hne, hfresh, hp.locate_create_put.1 h.place, h.short, h.visible, h.accepted⟩
  · intro h'
    obtain ⟨hne, h⟩ := h'
    have hfresh := (hp.node?_put_ne (c := c) hne).trans h.fresh
    exact ⟨hfresh, hp.locate_put h.place, h.short, h.visible, h.accepted⟩

theorem Filesystem.Gains.not_finds {p : Place} (h : fs.Gains p base pat n) :
    ¬ fs.Finds base pat n := by
  intro hfinds
  obtain ⟨q, c, hq, hn⟩ := isFileAt_iff.1 hfinds.file
  obtain ⟨-, k, -, hl⟩ := locate_eq_ok.1 hq
  obtain ⟨-, k', -, hl'⟩ := locate_eq_ok.1 h.place
  obtain rfl := (hl.create_of_find (not_directory_of_file hn)).unique hl'
  cases hn.symm.trans h.fresh

theorem Filesystem.mem_names_of_file {p : Place} {r : Route} (hp : fs.locate .find r = .ok p)
    (h : fs.isFileAt (r.entry n)) : n ∈ fs.names p := by
  obtain ⟨q, c, hq, -⟩ := isFileAt_iff.1 h
  obtain ⟨-, k, -, hl⟩ := locate_eq_ok.1 hq
  obtain ⟨-, k', -, hl'⟩ := locate_eq_ok.1 hp
  obtain ⟨k₁, k₂, m, -, h₁, h₂⟩ := hl.split .find
  obtain rfl : m = p := h₁.unique hl'
  cases h₂ with
  | stay _ hs => rcases hs with hs | hs <;> cases hs
  | down _ _ hn _ _ => exact mem_names_of_node? hn
  | link _ _ hn _ => exact mem_names_of_node? hn
  | fresh _ hp _ _ => cases hp

theorem Project.mem_selected {es : List Entry} (hes : fs.entries? base = some es) :
    n ∈ selected pat es ↔ fs.Finds base pat n := by
  obtain ⟨p, hp, -, rfl⟩ := Filesystem.entries?_eq_some.1 hes
  rw [selected, List.filter_map, List.map_map]
  simp only [List.mem_map, List.mem_filter, isVisibleFile, Function.comp_apply, Bool.and_eq_true,
    Bool.not_eq_true']
  apply Iff.intro
  · intro h
    obtain ⟨m, ⟨hm, ⟨⟨hs, hf⟩, hv⟩, ha⟩, rfl⟩ := h
    exact ⟨hs, hf, hv, ha⟩
  · intro h
    obtain ⟨hs, hf, hv, ha⟩ := h
    have hm := Filesystem.mem_names_of_file (Filesystem.locatePath_eq_ok.1 hp).2 hf
    exact ⟨n, ⟨hm, ⟨⟨hs, hf⟩, hv⟩, ha⟩, rfl⟩

theorem Project.nodup_selected {es : List Entry} (hes : fs.entries? base = some es) :
    (selected pat es).Nodup := by
  obtain ⟨p, -, -, rfl⟩ := Filesystem.entries?_eq_some.1 hes
  rw [selected, List.filter_map, List.map_map]
  exact List.Nodup.map Function.injective_id ((Filesystem.nodup_eraseDups _).filter _)

def Filesystem.Lists (fs : Filesystem) (base : String) (pat : Glob.Pattern)
    (names : List Octets) : Prop :=
  names.Nodup ∧ ∀ n, n ∈ names ↔ Project.isStandardInput base = false ∧ fs.Finds base pat n

theorem Filesystem.Lists.perm {names names' : List Octets} (h : fs.Lists base pat names)
    (h' : fs.Lists base pat names') : names.Perm names' :=
  (List.perm_ext_iff_of_nodup h.1 h'.1).2 fun n => (h.2 n).trans (h'.2 n).symm

theorem Project.lists_selected {es : List Entry} (hes : fs.entries? base = some es) :
    fs.Lists base pat (if isStandardInput base then [] else selected pat es) := by
  split
  · next h => exact ⟨List.nodup_nil, fun n => by simp [h]⟩
  · next h =>
    refine ⟨nodup_selected hes, fun n => ?_⟩
    rw [mem_selected hes]
    simp [h]

/-- A pattern that can be built: it parses, and does not nest too deep. -/
def Glob.Builds (pattern : String) (pat : Pattern) : Prop :=
  parse pattern = .ok pat ∧ nesting pat ≤ maxNesting

section

variable {project : Project}

theorem Project.findFiles_of_not_builds (h : ¬ ∃ pat, Glob.Builds pattern pat) :
    ∃ e, (project.findFiles dir pattern).result = .error e := by
  cases hpat : Glob.parse pattern with
  | error fault => exact ⟨_, by rw [findFiles, hpat]; rfl⟩
  | ok pat =>
    have hnest : Glob.maxNesting < Glob.nesting pat := by
      rw [← Nat.not_le]
      exact fun hnest => h ⟨pat, hpat, hnest⟩
    exact ⟨_, by simp only [findFiles, hpat, hnest, if_true]; rfl⟩

theorem Project.findFiles_of_none (h : Glob.Builds pattern pat)
    (hes : project.entries? dir = none) : (project.findFiles dir pattern).result = .ok [] := by
  simp only [findFiles, h.1, Nat.not_lt.2 h.2, if_false, hes]
  rfl

theorem Project.findFiles_of_listed (h : Glob.Builds pattern pat) {es : List Entry}
    (hes : project.entries? dir = some (.ok es)) :
    (project.findFiles dir pattern).result =
      ((if isStandardInput (Path.below project.root dir) then []
        else selected pat es).mapM (entryPath project.root (Path.below project.root dir))).bind
        fun paths => .ok (inOrder paths) := by
  simp only [findFiles, h.1, Nat.not_lt.2 h.2, if_false, hes, Logged.result_bind]
  rfl

end

/-- A scan succeeds exactly if its pattern is in order and every name that it selects has a path;
then it gives these paths in order. -/
theorem Project.findFiles_eq_ok :
    ((fs.project root).findFiles dir pattern).result = .ok ps ↔
      ∃ pat, Glob.parse pattern = .ok pat ∧ Glob.nesting pat ≤ Glob.maxNesting ∧
        (fs.isDirectory (Path.below root dir) = false ∧ ps = [] ∨
          fs.isDirectory (Path.below root dir) = true ∧ ∃ names paths,
            fs.Lists (Path.below root dir) pat names ∧
              names.mapM (entryPath root (Path.below root dir)) = .ok paths ∧
              ps = inOrder paths) := by
  rcases Classical.em (∃ pat, Glob.Builds pattern pat) with ⟨pat, hbuilds⟩ | hbuilds
  case inr =>
    have hfails : ∃ e, ((fs.project root).findFiles dir pattern).result = .error e :=
      findFiles_of_not_builds hbuilds
    obtain ⟨e, he⟩ := hfails
    rw [he]
    exact iff_of_false nofun fun ⟨pat, hpat, hnest, _⟩ => hbuilds ⟨pat, hpat, hnest⟩
  simp only [hbuilds.1, Except.ok.injEq, exists_eq_left', hbuilds.2, true_and]
  cases hes : fs.entries? (Path.below root dir) with
  | none =>
    rw [findFiles_of_none hbuilds (by simp [Filesystem.project, hes])]
    simp [Filesystem.entries?_eq_none.1 hes, eq_comm]
  | some es =>
    have hd : fs.isDirectory (Path.below root dir) = true := by
      rw [← Bool.not_eq_false, ← Filesystem.entries?_eq_none, hes]
      exact nofun
    have hlists : fs.Lists (Path.below root dir) pat _ := lists_selected hes
    have hlisted : (fs.project root).entries? dir = some (.ok es) := by
      simp [Filesystem.project, hes]
    rw [findFiles_of_listed hbuilds hlisted]
    show ((if isStandardInput (Path.below root dir) then []
      else selected pat es).mapM (entryPath root (Path.below root dir))).bind _ = _ ↔ _
    generalize (if isStandardInput (Path.below root dir) then []
      else selected pat es) = sel at hlists
    simp only [hd, Bool.true_eq_false, false_and, false_or, true_and]
    apply Iff.intro
    · intro h
      cases hpaths : sel.mapM (entryPath root (Path.below root dir)) with
      | error e =>
        rw [hpaths] at h
        cases h
      | ok paths =>
        rw [hpaths] at h
        cases h
        exact ⟨sel, paths, hlists, hpaths, rfl⟩
    · intro h
      obtain ⟨names, paths, hnames, hpaths, rfl⟩ := h
      obtain ⟨paths', hpaths', hp⟩ := mapM_perm (hnames.perm hlists) hpaths
      rw [hpaths', ← inOrder_congr hp]
      rfl

theorem Project.findFiles_congr
    (hd : fs'.isDirectory (Path.below root dir) = fs.isDirectory (Path.below root dir))
    (hf : ∀ pat, Glob.parse pattern = .ok pat → fs.isDirectory (Path.below root dir) = true →
      isStandardInput (Path.below root dir) = false → ∀ n,
        (fs'.Finds (Path.below root dir) pat n ↔ fs.Finds (Path.below root dir) pat n))
    (h : ((fs.project root).findFiles dir pattern).result = .ok ps) :
    ((fs'.project root).findFiles dir pattern).result = .ok ps := by
  obtain ⟨pat, hpat, hnest, h⟩ := findFiles_eq_ok.1 h
  refine findFiles_eq_ok.2 ⟨pat, hpat, hnest, ?_⟩
  rw [hd]
  rcases h with h | ⟨hd, names, paths, ⟨hnodup, hmem⟩, hpaths, hps⟩
  · exact .inl h
  · refine .inr ⟨hd, names, paths, ⟨hnodup, fun n => (hmem n).trans ?_⟩, hpaths, hps⟩
    exact and_congr_right fun hin => (hf pat hpat hd hin n).symm

end AnalyzerConfig
