import AnalyzerConfig.Proofs.Filesystem.Stays
import AnalyzerConfig.Proofs.Run.Effects

namespace AnalyzerConfig

variable {fs fs' files : Filesystem} {root src : String} {l : Layout} {p q t : Place}
variable {n : Octets} {before : List Step} {k : Nat}

namespace Filesystem

/-- Files that came of others by writing. What a path led to is still there, and is still of the
same kind. -/
structure Grows (fs fs' : Filesystem) : Prop where
  tree : fs'.IsTree
  place : ∀ purpose path q, fs.locatePath purpose path = .ok q →
    fs'.locatePath purpose path = .ok q
  directory : ∀ q, fs.node? q = some .directory → fs'.node? q = some .directory
  file : ∀ q c, fs.node? q = some (.file c) → ∃ c', fs'.node? q = some (.file c')

theorem Grows.trans {fs₁ : Filesystem} (h : Grows fs fs₁) (h' : Grows fs₁ fs') : Grows fs fs' where
  tree := h'.tree
  place purpose path q hq := h'.place purpose path q (h.place purpose path q hq)
  directory q hq := h'.directory q (h.directory q hq)
  file q c hq := by
    obtain ⟨c₁, hq⟩ := h.file q c hq
    exact h'.file q c₁ hq

theorem Grows.isFile (h : Grows fs fs') {path : String} (hfile : fs.isFile path) :
    fs'.isFile path := by
  obtain ⟨q, c, hq, hc⟩ := isFile_iff.1 hfile
  obtain ⟨c', hc'⟩ := h.file q c hc
  exact isFile_iff.2 ⟨q, c', h.place _ _ _ hq, hc'⟩

theorem TakesFile.grows {c : Octets} (hp : fs.TakesFile p) (ht : fs.IsTree) :
    Grows fs (fs.put p (.file c)) where
  tree := hp.isTree_put ht
  place _ _ _ h := hp.locatePath_put h
  directory _ h := hp.node?_put_directory.2 h
  file _ c h := hp.node?_put_file ⟨c, h⟩

theorem writeText_eq_ok (ht : fs.IsTree) {path text : String}
    (h : fs.writeText path text = .ok fs') :
    Grows fs fs' ∧ ∃ n d, fs'.locatePath .create (.text path) = .ok (n :: d) ∧
      fs'.node? d = some .directory := by
  obtain ⟨p, hp, hopen, rfl⟩ := write_eq_ok.1 h
  have htakes := TakesFile.of_tree ht hp hopen
  have hd := (openFault?_eq_none.1 hopen).1
  obtain ⟨-, hsteps, k, -, hl⟩ := (locatePath_eq_ok.1 hp).imp_right locate_eq_ok.1
  obtain ⟨n, d, rfl, hparent⟩ := hl.parent_of_tree ht hsteps hd
  exact ⟨htakes.grows ht, n, d, htakes.locatePath_put hp, htakes.node?_put_directory.2 hparent⟩

/-- The place that a relative path leads to from the directory `d`, however long it is. -/
def Resolves (fs : Filesystem) (d : Place) (path : String) (q : Place) : Prop :=
  fs.walkThrough .find maxLinks d (Route.ofPath (.text path)).steps = .ok q

/-- Two paths that lead to the same regular file, each from a directory of its own. -/
def SameFile (fs : Filesystem) (d : Place) (path : String) (d' : Place) (path' : String) : Prop :=
  ∃ q c, fs.Resolves d path q ∧ fs.Resolves d' path' q ∧ fs.node? q = some (.file c)

theorem resolves_iff {path : String} (hne : path ≠ "") (hpath : Path.isAbsolute path = false) :
    fs.Resolves p path q ↔ ∃ k ≤ maxLinks, Leads fs .find k p (Path.steps path) q := by
  rw [Resolves, Route.ofPath_text hne, hpath, walkThrough_eq_ok]
  rfl

theorem Leads.ends_in_name {steps : List Step} (ht : fs.IsTree)
    (h : Leads fs .find k p steps q) (hs : steps ≠ []) (hq : fs.node? q ≠ some .directory) :
    ∃ before n, steps = before ++ [.down n] := by
  obtain ⟨before, last, rfl⟩ := (List.eq_nil_or_concat' steps).resolve_left hs
  obtain ⟨k₁, k₂, m, -, h₁, h₂⟩ := h.split .find
  cases h₂ with
  | stay hd _ h =>
    cases h
    exact absurd hd hq
  | up hd h =>
    cases h
    cases m with
    | nil => exact absurd hd hq
    | cons n d => exact absurd (ht n d hd) hq
  | @down _ _ _ n => exact ⟨before, n, rfl⟩
  | @link _ _ _ n => exact ⟨before, n, rfl⟩
  | fresh _ hp => cases hp

end Filesystem

theorem Path.ne_empty_of_steps (hs : Path.steps src = before ++ [.down n]) : src ≠ "" := by
  rintro rfl
  have hlast := congrArg List.getLast? hs
  rw [List.getLast?_concat] at hlast
  cases hlast

theorem fromToolDir_eq (path : String) : fromToolDir path = ".." ++ "/" ++ path := by
  have htrim : Path.trimSlashes ".." = ".." := by decide
  rw [fromToolDir, Path.join, if_neg (by decide), htrim]

theorem Path.steps_fromToolDir (hsrc : isAbsolute src = false)
    (hs : Path.steps src = before ++ [.down n]) :
    Path.steps (fromToolDir (normalize src)) =
      .up :: (before.filter Step.moves ++ [.down n]) := by
  have hmoves := Path.steps_filter_moves src
  rw [hs, List.filter_append] at hmoves
  have hnaming : namingSegments src ≠ [] := by
    intro h
    rw [h] at hmoves
    exact absurd hmoves (List.append_ne_nil_of_right_ne_nil _ nofun)
  rw [Path.steps, fromToolDir_eq, segments_slash, segments_normalize hsrc hnaming,
    List.map_append, ← hmoves]
  rfl

namespace Filesystem

theorem resolves_fromToolDir (hd : fs.node? t = some .directory)
    (hsrc : Path.isAbsolute src = false) (hs : Path.steps src = before ++ [.down n]) :
    fs.Resolves t (fromToolDir (Path.normalize src)) q ↔ fs.Resolves t.tail src q := by
  have hne := Path.ne_empty_of_steps hs
  have hemitted : fromToolDir (Path.normalize src) ≠ "" ∧
      Path.isAbsolute (fromToolDir (Path.normalize src)) = false := by
    rw [fromToolDir_eq, Path.isAbsolute_slash (by decide)]
    exact ⟨by simp, by decide⟩
  rw [resolves_iff hemitted.1 hemitted.2, resolves_iff hne hsrc, Path.steps_fromToolDir hsrc hs, hs]
  have hup {k : Nat} : Leads fs .find k t (.up :: (before.filter Step.moves ++ [.down n])) q ↔
      Leads fs .find k t.tail (before.filter Step.moves ++ [.down n]) q := by
    apply Iff.intro
    · intro h
      cases h with
      | stay _ hs => rcases hs with hs | hs <;> cases hs
      | up _ h => exact h
    · exact .up hd
  simp only [hup, leads_filter_moves]

/-- A source that was found from the directory `p`, and the path that stands for it in a
configuration in the directory `t`. The path leads to the source just if the source can be found
from the directory above `t`. -/
structure StandsFor (fs : Filesystem) (p t : Place) (src emitted : String) : Prop where
  found : ∃ q c, fs.Resolves p src q ∧ fs.node? q = some (.file c)
  reached : fs.SameFile t emitted p src ↔ fs.SameFile t.tail src p src

theorem StandsFor.sameFile {emitted : String} (h : fs.StandsFor p t src emitted)
    (ht : t.tail = p) : fs.SameFile t emitted p src := by
  obtain ⟨q, c, hq, hc⟩ := h.found
  rw [h.reached, ht]
  exact ⟨q, c, hq, hq, hc⟩

theorem RootAt.standsFor (hroot : fs.RootAt root p) (ht : fs.IsTree)
    (hd : fs.node? t = some .directory) (hsrc : Path.isAbsolute src = false)
    (hfile : fs.isFile (Path.below root src)) :
    fs.StandsFor p t src (fromToolDir (Path.normalize src)) := by
  obtain ⟨q, c, hq, hc⟩ := isFile_iff.1 hfile
  obtain ⟨k, hk, hl⟩ := hroot.leads_of_below hsrc hq
  obtain ⟨before, n, hs⟩ :=
    hl.ends_in_name ht (Path.steps_ne_nil src) (not_directory_of_file hc)
  have hsource := (resolves_iff (Path.ne_empty_of_steps hs) hsrc).2 ⟨k, hk, hl⟩
  refine ⟨⟨q, c, hsource, hc⟩, ?_⟩
  simp only [SameFile, resolves_fromToolDir hd hsrc hs]

theorem RootAt.standsFor_all (hroot : fs.RootAt root p) (ht : fs.IsTree)
    (hd : fs.node? t = some .directory) {srcs : List String}
    (hsrcs : ∀ src ∈ srcs, Path.isAbsolute src = false ∧ fs.isFile (Path.below root src)) :
    List.Forall₂ (fs.StandsFor p t) srcs ((srcs.map Path.normalize).map fromToolDir) := by
  rw [List.map_map, List.forall₂_map_right_iff, List.forall₂_same]
  intro src hsrc
  exact hroot.standsFor ht hd (hsrcs src hsrc).1 (hsrcs src hsrc).2

end Filesystem

/-- The configurations of a run that succeeds name the sources that were checked, one path for each
of them. From the directory that a configuration is written to, the path leads to its source just if
the source can be found from the directory above that one, as it is if that one is the root. -/
theorem regenerate_sources (root : String) (l : Layout) (w : World) (ht : w.files.IsTree)
    (hrelative : ∀ src ∈ l.requiredFiles, Path.isAbsolute src = false)
    (hok : (regenerate World.host root l w).1 = .ok ()) :
    ∃ fs₁ fs₂ files c f p n t m u,
      files = (regenerate World.host root l w).2.files ∧
      ((w.files.project root).commonConfig l).result = .ok c ∧
      w.files.writeText (Path.below root l.commonPath) (Json.render c.toDoc) = .ok fs₁ ∧
      ((fs₁.project root).fuzzConfig l).result = .ok f ∧
      fs₁.writeText (Path.below root l.fuzzPath) (Json.render f.toDoc) = .ok fs₂ ∧
      Written root [.tests l] fs₂ files ∧
      files.RootAt root p ∧
      files.locatePath .create (.text (Path.below root l.commonPath)) = .ok (n :: t) ∧
      files.locatePath .create (.text (Path.below root l.fuzzPath)) = .ok (m :: u) ∧
      List.Forall₂ (files.StandsFor p t) l.commonSources c.files ∧
      List.Forall₂ (files.StandsFor p u) (l.fuzzSources ++ [l.fuzzHarness]) f.files ∧
      (t.tail = p → List.Forall₂ (fun src emitted => files.SameFile t emitted p src)
        l.commonSources c.files) ∧
      (u.tail = p → List.Forall₂ (fun src emitted => files.SameFile u emitted p src)
        (l.fuzzSources ++ [l.fuzzHarness]) f.files) := by
  obtain ⟨result, files, lines, log, heq, hends⟩ := l.regenerate_eq root w
  rw [heq] at hok ⊢
  cases hok
  obtain ⟨hmet, hwritten, -⟩ := hends.of_ok
  obtain ⟨_, fs₁, hbuilt₁, hwrite₁, hrest⟩ := hwritten.of_cons
  obtain ⟨_, fs₂, hbuilt₂, hwrite₂, htests⟩ := hrest.of_cons
  obtain ⟨_, fs₃, -, hwrite₃, hnil⟩ := htests.of_cons
  cases hnil
  obtain ⟨c, hc, rfl⟩ := Logged.map_eq_ok.1 hbuilt₁
  obtain ⟨f, hf, rfl⟩ := Logged.map_eq_ok.1 hbuilt₂
  -- what was there before the first write is there after the last one
  obtain ⟨hgrows₁, n, t, hn, htdir⟩ := Filesystem.writeText_eq_ok ht hwrite₁
  obtain ⟨hgrows₂, m, u, hm, hudir⟩ := Filesystem.writeText_eq_ok hgrows₁.tree hwrite₂
  obtain ⟨hgrows₃, -⟩ := Filesystem.writeText_eq_ok hgrows₂.tree hwrite₃
  have hgrows₂₃ := hgrows₂.trans hgrows₃
  have hgrows := hgrows₁.trans hgrows₂₃
  obtain ⟨p, hp, hpdir⟩ := Filesystem.isDirectory_iff.1 (hmet .root List.mem_cons_self)
  have hroot : files.RootAt root p := ⟨hgrows.place _ _ _ hp, hgrows.directory _ hpdir⟩
  have hsources : ∀ src ∈ l.requiredFiles,
      Path.isAbsolute src = false ∧ files.isFile (Path.below root src) := by
    intro src hsrc
    have hmem : Requirement.file src ∈ l.requirements :=
      List.mem_append_right _ (List.mem_map_of_mem hsrc)
    exact ⟨hrelative src hsrc, hgrows.isFile (hmet _ hmem)⟩
  obtain ⟨patches, inputs, -, -, rfl⟩ := Project.commonConfig_eq_ok.1 hc
  obtain ⟨mounted, -, rfl⟩ := Project.fuzzConfig_eq_ok.1 hf
  have hcommon : List.Forall₂ (files.StandsFor p t) l.commonSources
      (l.normalized.commonSources.map fromToolDir) := by
    apply hroot.standsFor_all hgrows.tree (hgrows₂₃.directory _ htdir)
    intro src hsrc
    apply hsources
    rw [Layout.requiredFiles, List.append_assoc]
    exact List.mem_append_left _ hsrc
  have hfuzz : List.Forall₂ (files.StandsFor p u) (l.fuzzSources ++ [l.fuzzHarness])
      ((l.normalized.fuzzSources ++ [l.normalized.fuzzHarness]).map fromToolDir) := by
    have hmap : l.normalized.fuzzSources ++ [l.normalized.fuzzHarness] =
        (l.fuzzSources ++ [l.fuzzHarness]).map Path.normalize := by
      rw [List.map_append]
      rfl
    rw [hmap]
    apply hroot.standsFor_all hgrows.tree (hgrows₃.directory _ hudir)
    intro src hsrc
    apply hsources
    rw [Layout.requiredFiles, List.append_assoc]
    exact List.mem_append_right _ hsrc
  exact ⟨fs₁, fs₂, files, _, _, p, n, t, m, u, rfl, hc, hwrite₁, hf, hwrite₂, htests, hroot,
    hgrows₂₃.place _ _ _ hn, hgrows₃.place _ _ _ hm, hcommon, hfuzz,
    fun hp => hcommon.imp fun _ _ h => h.sameFile hp,
    fun hp => hfuzz.imp fun _ _ h => h.sameFile hp⟩

/-- A layout whose configurations lie two directories below the root. -/
def Layout.nested : Layout where
  toolDir := "a/b"
  testDir := "t"
  fuzzInputDir := "f"
  commonSources := []
  fuzzSources := []
  fuzzHarness := "h.c"
  excludedTests := []

def World.nested : World where
  files.nodes := [([.text "a"], .directory), ([.text "b", .text "a"], .directory),
    ([.text "t"], .directory), ([.text "f"], .directory), ([.text "h.c"], .file (.text ""))]

theorem regenerate_nested :
    World.nested.files.IsTree ∧
    (∀ src ∈ Layout.nested.requiredFiles, Path.isAbsolute src = false) ∧
    (regenerate World.host "." .nested .nested).1 = .ok () ∧
    ∃ (fs₁ fs₂ files : Filesystem) (f : FuzzConfig) (p u : Place) (m : Octets),
      files = (regenerate World.host "." .nested .nested).2.files ∧
      ((fs₁.project ".").fuzzConfig .nested).result = .ok f ∧
      fs₁.writeText (Path.below "." Layout.nested.fuzzPath) (Json.render f.toDoc) = .ok fs₂ ∧
      Written "." [.tests .nested] fs₂ files ∧
      files.RootAt "." p ∧
      files.locatePath .create (.text (Path.below "." Layout.nested.fuzzPath)) = .ok (m :: u) ∧
      ∃ emitted, f.files = [emitted] ∧ ¬ files.SameFile u emitted p "h.c" := by
  have ht : World.nested.files.IsTree := Filesystem.isTree_of_nodes (by decide +kernel)
  have hrelative : ∀ src ∈ Layout.nested.requiredFiles, Path.isAbsolute src = false := by decide
  have hok : (regenerate World.host "." .nested .nested).1 = .ok () := by decide +kernel
  obtain ⟨fs₁, fs₂, files, c, f, p, n, t, m, u, hfiles, -, -, hf, hwrite, htests, hroot, -, hm, -,
    hfuzz, -⟩ := regenerate_sources "." .nested .nested ht hrelative hok
  refine ⟨ht, hrelative, hok, fs₁, fs₂, files, f, p, u, m, hfiles, hf, hwrite, htests, hroot, hm,
    ?_⟩
  obtain ⟨emitted, hnamed, hemitted⟩ : ∃ emitted, files.StandsFor p u "h.c" emitted ∧
      f.files = [emitted] := by
    generalize f.files = emitteds at hfuzz
    cases hfuzz with
    | cons hnamed hrest =>
      cases hrest
      exact ⟨_, hnamed, rfl⟩
  refine ⟨emitted, hemitted, ?_⟩
  rw [hnamed.reached]
  rintro ⟨q, c, hq, -⟩
  have hplace : files.locatePath .create (.text (Path.below "." Layout.nested.fuzzPath)) =
      .ok [.text "fuzz.config", .text "b", .text "a"] := by
    rw [hfiles]
    decide +kernel
  cases hm.symm.trans hplace
  have hmissing : files.walkThrough .find maxLinks [.text "a"]
      (Route.ofPath (.text "h.c")).steps = .error .notFound := by
    rw [hfiles]
    decide +kernel
  cases hq.symm.trans hmissing

end AnalyzerConfig
