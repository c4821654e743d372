import AnalyzerConfig.Proofs.Filesystem.Passing
import AnalyzerConfig.Proofs.Run.InStep

namespace AnalyzerConfig

/-- Failures that are the same up to which entry of a directory they name. -/
inductive Failure.SameButEntry : Failure → Failure → Prop
  | refl (e : Failure) : SameButEntry e e
  | nameNotText (dir : String) (n n' : Octets) :
    SameButEntry (.nameNotText dir n) (.nameNotText dir n')
  | notRelative (dir root : String) (n n' : Octets) :
    SameButEntry (.notRelative dir n root) (.notRelative dir n' root)

namespace Path

theorem relativeComponents_eq_none_iff (cs base : List Component) (n n' : Octets) :
    relativeComponents (cs ++ [.name n]) base = none ↔
      relativeComponents (cs ++ [.name n']) base = none := by
  have hlast (n : Octets) (base : List Component) :
      relativeComponents [.name n] base = none ↔ base.head? = some .up := by
    cases base with
    | nil => simp [relativeComponents, dropShared, stepsFrom]
    | cons b bs =>
      by_cases hb : Component.name n = b
      · subst hb
        cases bs <;> simp [relativeComponents, dropShared, stepsFrom]
      · cases b <;> simp [relativeComponents, dropShared, stepsFrom, hb]
  induction cs generalizing base with
  | nil => rw [List.nil_append, List.nil_append, hlast, hlast]
  | cons c cs ih =>
    cases base with
    | nil => simp [relativeComponents, dropShared, stepsFrom]
    | cons b bs =>
      by_cases hcb : c = b
      · simpa only [relativeComponents, List.cons_append, dropShared, if_pos hcb] using ih bs
      · cases b <;> simp [relativeComponents, dropShared, stepsFrom, hcb]

theorem entryFrom_eq_none_iff (base dir : String) (n n' : Octets) :
    entryFrom base dir n = none ↔ entryFrom base dir n' = none := by
  unfold entryFrom
  split
  · split <;> simp
  · rw [Option.map_eq_none_iff, Option.map_eq_none_iff]
    exact relativeComponents_eq_none_iff _ _ n n'

end Path

/-- Two projects that list the same entries in every directory, in whatever order. -/
structure Project.ListsAlike (project project' : Project) : Prop where
  root : project.root = project'.root
  entries : ∀ dir, project.entries? dir = none ∧ project'.entries? dir = none ∨
    ∃ es es', project.entries? dir = some (.ok es) ∧ project'.entries? dir = some (.ok es') ∧
      es.Perm es'

namespace Project

variable {project project' : Project} {root base dir pattern : String} {n n' : Octets}
variable {e e' : Failure}

theorem entryPath_errors (h : entryPath root base n = .error e)
    (h' : entryPath root base n' = .error e') : e.SameButEntry e' := by
  have hnone := Path.entryFrom_eq_none_iff root base n n'
  unfold entryPath at h h'
  split at h
  · next hn =>
    rw [hnone.1 hn] at h'
    cases h
    cases h'
    exact .notRelative base root n n'
  · next hn =>
    cases h
    split at h'
    · next hn' => cases hn.symm.trans (hnone.2 hn')
    · cases h'
      exact .nameNotText base n n'
    · cases h'
  · cases h

theorem mapM_entryPath_perm {names names' : List Octets} (h : names.Perm names') :
    (∃ ps ps', names.mapM (entryPath root base) = .ok ps ∧
      names'.mapM (entryPath root base) = .ok ps' ∧ ps.Perm ps') ∨
    ∃ e e', names.mapM (entryPath root base) = .error e ∧
      names'.mapM (entryPath root base) = .error e' ∧ e.SameButEntry e' := by
  cases hps : names.mapM (entryPath root base) with
  | ok ps =>
    obtain ⟨ps', hps', hperm⟩ := mapM_perm h hps
    exact .inl ⟨ps, ps', rfl, hps', hperm.symm⟩
  | error e =>
    cases hps' : names'.mapM (entryPath root base) with
    | ok ps' =>
      obtain ⟨ps, hps', -⟩ := mapM_perm h.symm hps'
      cases hps.symm.trans hps'
    | error e' =>
      obtain ⟨n, -, hn⟩ := mapM_eq_error hps
      obtain ⟨n', -, hn'⟩ := mapM_eq_error hps'
      exact .inr ⟨e, e', rfl, rfl, entryPath_errors hn hn'⟩

/-- A scan finds and logs the same whatever the order of the entries. The order tells only which of
the entries without a path a failure names. -/
theorem ListsAlike.findFiles_alike (h : ListsAlike project project') (dir pattern : String) :
    Logged.Alike Failure.SameButEntry (project.findFiles dir pattern)
      (project'.findFiles dir pattern) := by
  have hrefl : ∀ e : Failure, e.SameButEntry e := .refl
  unfold findFiles
  split
  · exact .refl hrefl _
  next pat _ =>
    split
    · exact .refl hrefl _
    rw [← h.root]
    rcases h.entries dir with ⟨hnone, hnone'⟩ | ⟨es, es', hes, hes', hperm⟩
    · rw [hnone, hnone']
      exact .refl hrefl _
    · rw [hes, hes']
      have hnames : (if isStandardInput (Path.below project.root dir) then []
          else selected pat es).Perm (if isStandardInput (Path.below project.root dir) then []
          else selected pat es') := by
        split
        · exact .refl _
        · exact (hperm.filter _).map _
      simp only
      rcases mapM_entryPath_perm hnames with ⟨ps, ps', hps, hps', hpaths⟩ | ⟨e, e', he, he', hee'⟩
      · rw [hps, hps', Logged.ok_bind, Logged.ok_bind, ← inOrder_congr hpaths,
          ← hpaths.length_eq]
        exact .refl hrefl _
      · rw [he, he']
        exact ⟨rfl, .error hee'⟩

end Project

namespace Filesystem

/-- Files that differ in the contents of regular files at most, and in the order in which their
directories list the same names. -/
structure SameShape (fs fs' : Filesystem) : Prop where
  workingDir : fs.workingDir = fs'.workingDir
  node : ∀ p, fs.node? p = fs'.node? p ∨
    ∃ c c', fs.node? p = some (.file c) ∧ fs'.node? p = some (.file c')

variable {fs fs' fs'' : Filesystem} {p q : Place} {purpose : Purpose} {c : Octets} {r : Route}

namespace SameShape

theorem trans (h : SameShape fs fs') (h' : SameShape fs' fs'') : SameShape fs fs'' where
  workingDir := h.workingDir.trans h'.workingDir
  node p := by
    rcases h.node p with heq | ⟨c, c', hc, hc'⟩
    · rw [heq]
      exact h'.node p
    · rcases h'.node p with heq | ⟨d, d', hd, hd'⟩
      · exact .inr ⟨c, c', hc, heq ▸ hc'⟩
      · exact .inr ⟨c, d', hc, hd'⟩

theorem locate_eq (h : SameShape fs fs') (r : Route) :
    fs.locate purpose r = fs'.locate purpose r :=
  locate_of_alike h.workingDir fun p _ => h.node p

theorem locatePath_eq (h : SameShape fs fs') (path : Octets) :
    fs.locatePath purpose path = fs'.locatePath purpose path := by
  unfold locatePath
  rw [h.locate_eq]

theorem node?_eq_directory (h : SameShape fs fs') :
    fs.node? p = some .directory ↔ fs'.node? p = some .directory :=
  AlikeAt.directory_iff (h.node p)

theorem openFault?_eq (h : SameShape fs fs') (p : Place) : fs.openFault? p = fs'.openFault? p := by
  unfold openFault?
  rcases h.node p with heq | ⟨c, c', hc, hc'⟩
  · rw [heq]
  · rw [hc, hc']

theorem isFileAt_eq (h : SameShape fs fs') (r : Route) : fs.isFileAt r = fs'.isFileAt r := by
  unfold isFileAt found?
  rw [h.locate_eq]
  cases fs'.locate .find r with
  | error fault => rfl
  | ok p =>
    rcases h.node p with heq | ⟨c, c', hc, hc'⟩
    · simp only [heq]
    · simp only [hc, hc']

theorem isFile_eq (h : SameShape fs fs') (path : String) : fs.isFile path = fs'.isFile path :=
  isFile_of_alike h.workingDir fun p _ => h.node p

theorem isDirectory_eq (h : SameShape fs fs') (path : String) :
    fs.isDirectory path = fs'.isDirectory path :=
  isDirectory_of_alike h.workingDir fun p _ => h.node p

theorem names_perm (h : SameShape fs fs') (d : Place) : (fs.names d).Perm (fs'.names d) := by
  refine (List.perm_ext_iff_of_nodup (nodup_eraseDups _) (nodup_eraseDups _)).2 fun n => ?_
  rw [← names, ← names, mem_names_iff, mem_names_iff]
  rcases h.node (n :: d) with heq | ⟨c, c', hc, hc'⟩
  · rw [heq]
  · rw [hc, hc']
    exact iff_of_true (Option.some_ne_none _) (Option.some_ne_none _)

theorem listsAlike (h : SameShape fs fs') (root : String) :
    (fs.project root).ListsAlike (fs'.project root) where
  root := rfl
  entries dir := by
    unfold project entries?
    simp only [h.locatePath_eq, h.node?_eq_directory, h.isFileAt_eq]
    cases fs'.locatePath .find (.text (Path.below root dir)) with
    | error fault => exact .inl ⟨rfl, rfl⟩
    | ok p =>
      by_cases hd : fs'.node? p = some .directory
      · simp only [hd, if_true]
        exact .inr ⟨_, _, rfl, rfl, (h.names_perm p).map _⟩
      · simp only [hd, if_false]
        exact .inl ⟨rfl, rfl⟩

theorem project_eq (h : SameShape fs fs') (hnames : ∀ d, fs.names d = fs'.names d)
    (root : String) : fs.project root = fs'.project root := by
  unfold project entries?
  simp only [h.locatePath_eq, h.node?_eq_directory, hnames, h.isFileAt_eq]

theorem put (h : SameShape fs fs') (hp : p ≠ []) :
    SameShape (fs.put p (.file c)) (fs'.put p (.file c)) where
  workingDir := h.workingDir
  node q := by
    rw [node?_put fs hp, node?_put fs' hp]
    split
    · exact .inl rfl
    · exact h.node q

theorem writeText (h : SameShape fs fs') (path text : String) :
    (∃ p, p ≠ [] ∧ fs.writeText path text = .ok (fs.put p (.file (.text text))) ∧
      fs'.writeText path text = .ok (fs'.put p (.file (.text text)))) ∨
    ∃ fault, fs.writeText path text = .error fault ∧ fs'.writeText path text = .error fault := by
  unfold Filesystem.writeText write
  rw [h.locatePath_eq]
  cases fs'.locatePath .create (.text path) with
  | error fault => exact .inr ⟨fault, rfl, rfl⟩
  | ok p =>
    simp only [h.openFault?_eq]
    cases hf : fs'.openFault? p with
    | some fault => exact .inr ⟨fault, rfl, rfl⟩
    | none =>
      refine .inl ⟨p, ?_, rfl, rfl⟩
      rintro rfl
      cases hf

theorem of_nodes (hw : fs.workingDir = fs'.workingDir)
    (h : List.Forall₂ (fun entry entry' => entry.1 = entry'.1 ∧ (entry.2 = entry'.2 ∨
      ∃ c c', entry.2 = .file c ∧ entry'.2 = .file c')) fs.nodes fs'.nodes) :
    SameShape fs fs' where
  workingDir := hw
  node p := by
    cases p with
    | nil => exact .inl rfl
    | cons n d =>
      show fs.nodes.lookup (n :: d) = fs'.nodes.lookup (n :: d) ∨
        ∃ c c', fs.nodes.lookup (n :: d) = some (.file c) ∧
          fs'.nodes.lookup (n :: d) = some (.file c')
      generalize fs.nodes = nodes at h
      generalize fs'.nodes = nodes' at h
      induction h with
      | nil => exact .inl rfl
      | @cons entry entry' _ _ hentry _ ih =>
        obtain ⟨p, node⟩ := entry
        obtain ⟨p', node'⟩ := entry'
        obtain ⟨rfl, hnode⟩ := hentry
        by_cases heq : n :: d = p
        · subst heq
          simpa [List.lookup_cons] using hnode
        · have hbeq : (n :: d == p) = false := by simpa using heq
          simpa only [List.lookup_cons, hbeq] using ih

theorem of_perm (hw : fs.workingDir = fs'.workingDir) (hnodup : (fs.nodes.map Prod.fst).Nodup)
    (h : fs.nodes.Perm fs'.nodes) : SameShape fs fs' where
  workingDir := hw
  node p := by
    left
    cases p with
    | nil => rfl
    | cons n d =>
      apply Option.ext
      intro node
      rw [node?_eq_some_iff_mem hnodup,
        node?_eq_some_iff_mem ((h.map _).nodup_iff.1 hnodup), h.mem_iff]

end SameShape

end Filesystem

theorem Requirement.isMet_eq {fs fs' : Filesystem} (h : fs.SameShape fs') (root : String)
    (r : Requirement) : r.isMet fs root = r.isMet fs' root := by
  cases r with
  | root => exact h.isDirectory_eq _
  | directory path => exact h.isDirectory_eq _
  | file path => exact h.isFile_eq _

/-- Runs stay in step on files of the same shape, by any finer relation that writing keeps and in
which scans find the same. -/
theorem Layout.inStep_of_sameShape {E : Failure → Failure → Prop}
    {R : Filesystem → Filesystem → Prop} (hE : ∀ e, E e e)
    (hshape : ∀ fs fs', R fs fs' → fs.SameShape fs')
    (hput : ∀ fs fs' p c, R fs fs' → p ≠ [] → R (fs.put p (.file c)) (fs'.put p (.file c)))
    (root : String) (l : Layout)
    (hscan : ∀ fs fs', R fs fs' → ∀ dir pattern, Logged.Alike E
      ((fs.project root).findFiles dir pattern) ((fs'.project root).findFiles dir pattern)) :
    InStep E root root l R where
  refl := hE
  met fs fs' h r _ := r.isMet_eq (hshape fs fs' h) root
  unmet r _ := hE _
  scan fs fs' h scan _ := hscan fs fs' h _ _
  write fs fs' h s _ text := by
    rcases (hshape fs fs' h).writeText (Path.below root s.path) text with
      ⟨p, hp, hwrite, hwrite'⟩ | ⟨fault, hwrite, hwrite'⟩
    · exact .inl ⟨_, _, hwrite, hwrite', hput fs fs' p _ h hp⟩
    · exact .inr ⟨fault, fault, hwrite, hwrite', hE _⟩

theorem Layout.inStep_sameShape (root : String) (l : Layout) :
    InStep Failure.SameButEntry root root l Filesystem.SameShape :=
  inStep_of_sameShape .refl (fun _ _ h => h) (fun _ _ _ _ h hp => h.put hp) root l
    fun _ _ h dir pattern => (h.listsAlike root).findFiles_alike dir pattern

theorem Layout.inStep_sameListing (root : String) (l : Layout) :
    InStep Eq root root l fun fs fs' => fs.SameShape fs' ∧ ∀ d, fs.names d = fs'.names d := by
  apply inStep_of_sameShape (fun _ => rfl) (fun _ _ h => h.1)
  · intro fs fs' p c ⟨hshape, hnames⟩ hp
    refine ⟨hshape.put hp, fun d => ?_⟩
    rw [Filesystem.names_put, Filesystem.names_put, hnames]
  · intro fs fs' ⟨hshape, hnames⟩ dir pattern
    rw [hshape.project_eq hnames]
    exact .refl (fun _ => rfl) _

/-- Two runs on files of the same shape both succeed, or fail alike. A failure can differ only in
which entry of a directory it names, and only if directories list their entries in different orders.
Either way the runs print and log the same, and they write the same texts to the same paths. -/
theorem regenerate_alike_of_sameShape (root : String) (l : Layout) (w : World)
    (files : Filesystem) (h : w.files.SameShape files) :
    Agree Failure.SameButEntry (regenerate World.host root l w).1
      (regenerate World.host root l { w with files }).1 ∧
    ((∀ d, w.files.names d = files.names d) →
      (regenerate World.host root l w).1 = (regenerate World.host root l { w with files }).1) ∧
    (regenerate World.host root l w).2.printed =
      (regenerate World.host root l { w with files }).2.printed ∧
    (regenerate World.host root l w).2.log =
      (regenerate World.host root l { w with files }).2.log ∧
    ∃ ws : List (String × String),
      ws.map Prod.fst <+: l.stages.map Stage.path ∧
      ((regenerate World.host root l w).1 = .ok () → ws.map Prod.fst = l.stages.map Stage.path) ∧
      w.files.writeTexts root ws = .ok (regenerate World.host root l w).2.files ∧
      files.writeTexts root ws = .ok (regenerate World.host root l { w with files }).2.files := by
  have h : w.files.SameShape ({ w with files } : World).files := h
  obtain ⟨result, result', files₁, files₁', lines, log, log', hrun, hrun', hagree, -, hlog, ws,
    hws⟩ := (l.inStep_sameShape root).regenerate h
  refine ⟨?_, ?_, ?_, ?_, ws, ?_⟩
  · rw [hrun, hrun']
    exact hagree
  · intro hnames
    have hlisted : w.files.SameShape ({ w with files } : World).files ∧
      ∀ d, w.files.names d = ({ w with files } : World).files.names d := ⟨h, hnames⟩
    obtain ⟨_, _, _, _, _, _, _, heq, heq', hagree, -⟩ :=
      (l.inStep_sameListing root).regenerate hlisted
    rw [heq, heq']
    exact hagree.eq
  · rw [hrun, hrun']
    rfl
  · rw [hrun, hrun', hlog.eq]
    rfl
  · rw [hrun, hrun']
    exact hws

def Layout.flat : Layout where
  toolDir := "d"
  testDir := "d"
  fuzzInputDir := "d"
  commonSources := []
  fuzzSources := []
  fuzzHarness := "h.c"
  excludedTests := []

/-- A directory with a test, a fuzz input and two earlier outputs, all of which hold the same
text. -/
def World.filled (text : String) : World where
  files.nodes := [([.text "d"], .directory), ([.text "a.c", .text "d"], .file (.text text)),
    ([.text "test1", .text "d"], .file (.text text)), ([.text "h.c"], .file (.text text)),
    ([.text "common.config", .text "d"], .file (.text text)),
    ([.text "tis.config"], .file (.text text))]

def Filesystem.relisted (fs : Filesystem) : Filesystem := { fs with nodes := fs.nodes.reverse }

theorem Filesystem.sameShape_relisted {fs : Filesystem} (h : (fs.nodes.map Prod.fst).Nodup) :
    fs.SameShape fs.relisted :=
  .of_perm rfl h fs.nodes.reverse_perm.symm

theorem Filesystem.sameShape_filled (text text' : String) :
    (World.filled text).files.SameShape (World.filled text').files.relisted := by
  have hdir : (World.filled text).files.workingDir = (World.filled text').files.workingDir := rfl
  have hshape : (World.filled text).files.SameShape (World.filled text').files := by
    apply SameShape.of_nodes hdir
    simp [World.filled]
  apply hshape.trans (sameShape_relisted _)
  simp [World.filled]

theorem regenerate_filled :
    (World.filled "old").files.SameShape (World.filled "new").files.relisted ∧
    (regenerate World.host "." .flat (World.filled "old")).1 = .ok () ∧
    (regenerate World.host "." .flat
      { World.filled "old" with files := (World.filled "new").files.relisted }).1 = .ok () := by
  have hshape := Filesystem.sameShape_filled "old" "new"
  have hok : (regenerate World.host "." .flat (World.filled "old")).1 = .ok () := by
    decide +kernel
  obtain ⟨hagree, -⟩ := regenerate_alike_of_sameShape "." .flat (World.filled "old")
    (World.filled "new").files.relisted hshape
  exact ⟨hshape, hok, hagree.eq_ok_iff.1 hok⟩

def World.unnamable : World where
  files.nodes := [([.text "d"], .directory), ([.text "h.c"], .file (.text "")),
    ([.raw [0xFE, 0x2E, 0x63] (by decide +kernel), .text "d"], .file (.text "")),
    ([.raw [0xFF, 0x2E, 0x63] (by decide +kernel), .text "d"], .file (.text ""))]

/-- Which of two names a run objects to depends on the order in which the directory lists them. -/
theorem regenerate_unnamable_relisted :
    World.unnamable.files.SameShape World.unnamable.files.relisted ∧
    (regenerate World.host "." .flat .unnamable).1 ≠
      (regenerate World.host "." .flat
        { World.unnamable with files := World.unnamable.files.relisted }).1 := by
  refine ⟨Filesystem.sameShape_relisted ?_, ?_⟩
  · simp [World.unnamable]
  · decide +kernel

end AnalyzerConfig
