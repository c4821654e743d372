import AnalyzerConfig.Proofs.Filesystem.Limits
import AnalyzerConfig.Proofs.Layout.Relative
import AnalyzerConfig.Proofs.Project.Below
import AnalyzerConfig.Proofs.Run.InStep
import AnalyzerConfig.Proofs.Run.Rerun

namespace AnalyzerConfig

variable {root root' path dir name : String} {l : Layout} {fs : Filesystem} {p q : Place}
variable {purpose : Purpose} {c : Octets}

theorem Path.EndsIn.isNamed (h : EndsIn name path) (hn : IsName name)
    (hp : isAbsolute path = false) : Filesystem.IsNamed purpose (steps path) := by
  intro _
  have hne : path ≠ "" := by
    rintro rfl
    rcases h with h | ⟨before, h⟩
    · exact hn.ne_empty h.symm
    · exact absurd h.symm (List.append_ne_nil_of_right_ne_nil _ nofun)
  have hlast := h.getLast?_steps hn
  rw [Route.ofPath_text hne, hp] at hlast
  exact ⟨_, hlast⟩

theorem Project.entryPath_agree (hroot : root ≠ "") (hroot' : root' ≠ "")
    (hdir : Path.isAbsolute dir = false) (n : Octets) :
    Agree (fun _ _ => True) (entryPath root (Path.below root dir) n)
      (entryPath root' (Path.below root' dir) n) := by
  cases n with
  | text s =>
    rw [entryPath_text hroot hdir, entryPath_text hroot' hdir]
    exact .ok _
  | raw bs hbs =>
    rw [entryPath_of_not_text hroot hdir rfl, entryPath_of_not_text hroot' hdir rfl]
    exact .error trivial

namespace Layout

/-- Something lies at a place, or a run makes a file there. -/
def Occupies (root : String) (l : Layout) (fs : Filesystem) (p : Place) : Prop :=
  fs.node? p ≠ none ∨
    ∃ s ∈ l.stages, fs.locatePath .create (.text (Path.below root s.path)) = .ok p

/-- No path that a run looks up below the root is too long or leads through too many links, and
neither is the path of anything in a directory that is scanned. -/
structure WithinLimits (root : String) (l : Layout) (fs : Filesystem) : Prop where
  short : ∀ path ∈ l.lookups, Filesystem.isShort (.text (Path.below root path))
  fewLinks : ∀ path ∈ l.lookups, fs.FewLinks (Route.ofPath (.text (Path.below root path)))
  entryShort : ∀ dir ∈ l.scannedDirs, ∀ d n,
    fs.locatePath .find (.text (Path.below root dir)) = .ok d → fs.node? d = some .directory →
      l.Occupies root fs (n :: d) → Filesystem.isShortBelow (Path.below root dir) n
  entryFewLinks : ∀ dir ∈ l.scannedDirs, ∀ n,
    fs.FewLinks ((Route.ofPath (.text (Path.below root dir))).entry n)

theorem Occupies.of_put {s : Stage} (htakes : fs.TakesFile p) (hs : s ∈ l.stages)
    (hp : fs.locatePath .create (.text (Path.below root s.path)) = .ok p)
    (h : l.Occupies root (fs.put p (.file c)) q) : l.Occupies root fs q := by
  rcases h with h | ⟨s', hs', hq⟩
  · by_cases hqp : q = p
    · subst hqp
      exact .inr ⟨s, hs, hp⟩
    · rw [htakes.node?_put_ne hqp] at h
      exact .inl h
  · exact .inr ⟨s', hs', htakes.locatePath_create_put.1 hq⟩

/-- A run that keeps within the limits still does after it has written. -/
theorem WithinLimits.put {s : Stage} (h : l.WithinLimits root fs) (htakes : fs.TakesFile p)
    (hs : s ∈ l.stages) (hp : fs.locatePath .create (.text (Path.below root s.path)) = .ok p) :
    l.WithinLimits root (fs.put p (.file c)) where
  short := h.short
  fewLinks path hpath := (h.fewLinks path hpath).put htakes
  entryShort dir hdir d n hd hdirectory hn := by
    have hdirectory := htakes.node?_put_directory.1 hdirectory
    obtain ⟨hshort, hd⟩ := Filesystem.locatePath_eq_ok.1 hd
    rcases htakes.locate_find_put.1 hd with hd | ⟨-, hdp, -⟩
    · exact h.entryShort dir hdir d n (Filesystem.locatePath_eq_ok.2 ⟨hshort, hd⟩) hdirectory
        (hn.of_put htakes hs hp)
    · exact absurd hdp (htakes.ne_of_directory hdirectory)
  entryFewLinks dir hdir n := (h.entryFewLinks dir hdir n).put htakes

theorem WithinLimits.of_noLinks (ht : fs.IsTree) (hl : fs.NoLinks)
    (hnames : ∀ n d, fs.node? (n :: d) ≠ none → n.bytes.length ≤ maxNameLength)
    (hshort : ∀ path ∈ l.lookups,
      (Path.below root path).utf8ByteSize + 1 + maxNameLength ≤ maxPathLength) :
    l.WithinLimits root fs where
  short path hpath := by
    have hlength := hshort path hpath
    rw [Filesystem.isShort_text]
    omega
  fewLinks _ _ := hl.fewLinks _
  entryShort dir hdir d n _ _ hn := by
    have hlength := hshort dir (mem_lookups_of_dir hdir)
    have hname : n.bytes.length ≤ maxNameLength := by
      -- a name that is yet to be made could not be made if it were too long
      by_cases hnode : fs.node? (n :: d) = none
      · obtain ⟨s, -, hs⟩ := hn.resolve_left fun h => h hnode
        obtain ⟨-, hsteps, k, -, hleads⟩ :=
          (Filesystem.locatePath_eq_ok.1 hs).imp_right Filesystem.locate_eq_ok.1
        obtain ⟨m, e, heq, hlen⟩ := (hleads.end_of_tree ht hsteps).2 hnode
        cases heq
        exact hlen
      · exact hnames n d hnode
    have hseparator := Path.utf8ByteSize_separator (Path.below root dir)
    rw [Filesystem.isShortBelow, decide_eq_true_iff]
    omega
  entryFewLinks _ _ _ := hl.fewLinks _

theorem WithinLimits.locatePath_eq_ok (h : l.WithinLimits root fs) (hl : l.IsRelative)
    (hroot : fs.RootAt root p) (hpath : path ∈ l.lookups)
    (hs : Filesystem.IsNamed purpose (Path.steps path)) :
    fs.locatePath purpose (.text (Path.below root path)) = .ok q ↔
      ∃ k, Filesystem.Leads fs purpose k p (Path.steps path) q := by
  rw [Filesystem.locatePath_eq_ok, and_iff_right (h.short path hpath)]
  exact hroot.locate_below (hl.lookup hpath) hs (h.fewLinks path hpath)

theorem isNamed_stage {s : Stage} (hl : l.IsRelative) (hs : s ∈ l.stages) :
    Filesystem.IsNamed purpose (Path.steps s.path) := by
  obtain ⟨name, -, hn, hends⟩ := endsIn_outputName (l.outputs_eq ▸ List.mem_map_of_mem hs)
  exact hends.isNamed hn (hl.stage hs)

/-- Two roots of one directory, from which a run keeps within the limits. -/
structure SameRoot (root root' : String) (l : Layout) (p : Place) (fs : Filesystem) : Prop where
  tree : fs.IsTree
  left : fs.RootAt root p
  right : fs.RootAt root' p
  leftWithin : l.WithinLimits root fs
  rightWithin : l.WithinLimits root' fs

namespace SameRoot

theorem put {s : Stage} (h : SameRoot root root' l p fs) (htakes : fs.TakesFile q)
    (hs : s ∈ l.stages) (hq : fs.locatePath .create (.text (Path.below root s.path)) = .ok q)
    (hq' : fs.locatePath .create (.text (Path.below root' s.path)) = .ok q) :
    SameRoot root root' l p (fs.put q (.file c)) where
  tree := htakes.isTree_put h.tree
  left := h.left.put htakes
  right := h.right.put htakes
  leftWithin := h.leftWithin.put htakes hs hq
  rightWithin := h.rightWithin.put htakes hs hq'

variable (h : SameRoot root root' l p fs) (hl : l.IsRelative)
include h hl

theorem locatePath_iff (hpath : path ∈ l.lookups)
    (hs : Filesystem.IsNamed purpose (Path.steps path)) :
    fs.locatePath purpose (.text (Path.below root path)) = .ok q ↔
      fs.locatePath purpose (.text (Path.below root' path)) = .ok q := by
  rw [h.leftWithin.locatePath_eq_ok hl h.left hpath hs,
    h.rightWithin.locatePath_eq_ok hl h.right hpath hs]

theorem isDirectory_eq (hpath : path ∈ l.lookups) :
    fs.isDirectory (Path.below root path) = fs.isDirectory (Path.below root' path) := by
  apply Bool.eq_iff_iff.2
  simp only [Filesystem.isDirectory_iff, h.locatePath_iff hl hpath .find]

theorem isFile_eq (hpath : path ∈ l.lookups) :
    fs.isFile (Path.below root path) = fs.isFile (Path.below root' path) := by
  apply Bool.eq_iff_iff.2
  simp only [Filesystem.isFile_iff, h.locatePath_iff hl hpath .find]

theorem isMet_eq {r : Requirement} (hr : r ∈ l.requirements) :
    r.isMet fs root = r.isMet fs root' := by
  simp only [requirements, Requirement.list, List.mem_append, List.mem_cons, List.mem_map] at hr
  rcases hr with (rfl | ⟨dir, hdir, rfl⟩) | ⟨file, hfile, rfl⟩
  · have hleft := Filesystem.isDirectory_iff.2 ⟨p, h.left.located, h.left.directory⟩
    have hright := Filesystem.isDirectory_iff.2 ⟨p, h.right.located, h.right.directory⟩
    exact hleft.trans hright.symm
  · exact h.isDirectory_eq hl (by simp [lookups, hdir])
  · exact h.isFile_eq hl (by simp [lookups, hfile])

theorem isFileAt_entry_eq (hdir : dir ∈ l.scannedDirs) (n : Octets) :
    fs.isFileAt ((Route.ofPath (.text (Path.below root dir))).entry n) =
      fs.isFileAt ((Route.ofPath (.text (Path.below root' dir))).entry n) := by
  have hrelative := hl.scannedDir hdir
  apply Bool.eq_iff_iff.2
  simp only [Filesystem.isFileAt_iff,
    h.left.locate_entry hrelative (h.leftWithin.entryFewLinks dir hdir n),
    h.right.locate_entry hrelative (h.rightWithin.entryFewLinks dir hdir n)]

theorem entries?_eq (hdir : dir ∈ l.scannedDirs) :
    fs.entries? (Path.below root dir) = fs.entries? (Path.below root' dir) := by
  apply Option.ext
  intro es
  have hpath := mem_lookups_of_dir hdir
  rw [Filesystem.entries?_eq_some, Filesystem.entries?_eq_some]
  apply exists_congr
  intro d
  rw [h.locatePath_iff hl hpath .find]
  apply and_congr_right
  intro hright
  have hleft := (h.locatePath_iff hl hpath .find).2 hright
  apply and_congr_right
  intro hd
  have hentries : (fs.names d).map (fun n => (⟨n, Filesystem.isShortBelow (Path.below root dir) n &&
        fs.isFileAt ((Route.ofPath (.text (Path.below root dir))).entry n)⟩ : Entry)) =
      (fs.names d).map fun n => ⟨n, Filesystem.isShortBelow (Path.below root' dir) n &&
        fs.isFileAt ((Route.ofPath (.text (Path.below root' dir))).entry n)⟩ := by
    apply List.map_congr_left
    intro n hn
    -- the entry is within the limits from either root, so only what it leads to counts
    have hnode := Filesystem.node?_ne_none_of_mem_names hn
    rw [h.leftWithin.entryShort dir hdir d n hleft hd (.inl hnode),
      h.rightWithin.entryShort dir hdir d n hright hd (.inl hnode), h.isFileAt_entry_eq hl hdir]
  rw [hentries]

theorem findFiles_alike (hin : ¬ Path.IsHyphen root) (hin' : ¬ Path.IsHyphen root')
    (hdir : dir ∈ l.scannedDirs) (pattern : String) :
    Logged.Alike (fun _ _ => True) ((fs.project root).findFiles dir pattern)
      ((fs.project root').findFiles dir pattern) := by
  have hrelative := hl.scannedDir hdir
  have hinput := Project.isStandardInput_below h.left.ne_empty hin hrelative
  have hinput' := Project.isStandardInput_below h.right.ne_empty hin' hrelative
  unfold Project.findFiles
  split
  · exact .refl (fun _ => trivial) _
  split
  · exact .refl (fun _ => trivial) _
  simp only [Filesystem.project, h.entries?_eq hl hdir]
  cases fs.entries? (Path.below root' dir) with
  | none => exact .refl (fun _ => trivial) _
  | some es =>
    simp only [Option.map_some, hinput, hinput', Bool.false_eq_true, if_false]
    refine Logged.Alike.bind ⟨rfl, ?_⟩ fun _ => .refl (fun _ => trivial) _
    exact mapM_agree (Project.entryPath_agree h.left.ne_empty h.right.ne_empty hrelative) _

theorem write {s : Stage} (hs : s ∈ l.stages) (text : String) :
    (∃ fs₁, fs.writeText (Path.below root s.path) text = .ok fs₁ ∧
      fs.writeText (Path.below root' s.path) text = .ok fs₁ ∧ SameRoot root root' l p fs₁) ∨
    ∃ fault fault', fs.writeText (Path.below root s.path) text = .error fault ∧
      fs.writeText (Path.below root' s.path) text = .error fault' := by
  have hplace q : fs.locatePath .create (.text (Path.below root s.path)) = .ok q ↔
      fs.locatePath .create (.text (Path.below root' s.path)) = .ok q :=
    h.locatePath_iff hl (mem_lookups_of_stage hs) (isNamed_stage hl hs)
  cases hwrite : fs.writeText (Path.below root s.path) text with
  | ok fs₁ =>
    obtain ⟨q, hq, hopen, rfl⟩ := Filesystem.write_eq_ok.1 hwrite
    have htakes := Filesystem.TakesFile.of_tree h.tree hq hopen
    refine .inl ⟨_, rfl, Filesystem.write_eq_ok.2 ⟨q, (hplace q).1 hq, hopen, rfl⟩, ?_⟩
    exact h.put htakes hs hq ((hplace q).1 hq)
  | error fault =>
    cases hwrite' : fs.writeText (Path.below root' s.path) text with
    | error fault' => exact .inr ⟨fault, fault', rfl, rfl⟩
    | ok fs₁ =>
      obtain ⟨q, hq, hopen, rfl⟩ := Filesystem.write_eq_ok.1 hwrite'
      cases hwrite.symm.trans (Filesystem.write_eq_ok.2 ⟨q, (hplace q).2 hq, hopen, rfl⟩)

end SameRoot

theorem inStep_sameRoot (hl : l.IsRelative) (hin : ¬ Path.IsHyphen root)
    (hin' : ¬ Path.IsHyphen root') :
    InStep (fun _ _ => True) root root' l fun fs fs' => fs = fs' ∧ SameRoot root root' l p fs where
  refl _ := trivial
  met := by
    rintro fs _ ⟨rfl, h⟩ r hr
    exact h.isMet_eq hl hr
  unmet _ _ := trivial
  scan := by
    rintro fs _ ⟨rfl, h⟩ scan hscan
    exact h.findFiles_alike hl hin hin' (List.mem_map_of_mem hscan) _
  write := by
    rintro fs _ ⟨rfl, h⟩ s hs text
    rcases h.write hl hs text with ⟨fs₁, hwrite, hwrite', h₁⟩ | ⟨fault, fault', hwrite, hwrite'⟩
    · exact .inl ⟨fs₁, fs₁, hwrite, hwrite', rfl, h₁⟩
    · exact .inr ⟨fault, fault', hwrite, hwrite', trivial⟩

end Layout

/-- Runs from two roots of one directory both succeed or both fail. Either way they print the same
and write the same texts to the same files. They log the same too, but for the records of what was
written, which name each output by the root of their own run. -/
theorem regenerate_congr_root (l : Layout) (w : World) (hl : l.IsRelative)
    (h : l.SameRoot root root' p w.files) (hin : ¬ Path.IsHyphen root)
    (hin' : ¬ Path.IsHyphen root') :
    ((regenerate World.host root l w).1 = .ok () ↔ (regenerate World.host root' l w).1 = .ok ()) ∧
    (regenerate World.host root l w).2.printed = (regenerate World.host root' l w).2.printed ∧
    LogsAlike root root' (regenerate World.host root l w).2.log
      (regenerate World.host root' l w).2.log ∧
    (regenerate World.host root l w).2.files = (regenerate World.host root' l w).2.files ∧
    ∃ ws : List (String × String),
      ((regenerate World.host root l w).1 = .ok () → ws.map Prod.fst = l.stages.map Stage.path) ∧
      w.files.writeTexts root ws = .ok (regenerate World.host root l w).2.files ∧
      w.files.writeTexts root' ws = .ok (regenerate World.host root l w).2.files := by
  have hR : w.files = w.files ∧ l.SameRoot root root' p w.files := ⟨rfl, h⟩
  obtain ⟨result, result', files, files', lines, log, log', hrun, hrun', hagree, ⟨rfl, -⟩, hlog,
    ws, -, hall, hws, hws'⟩ := (Layout.inStep_sameRoot hl hin hin').regenerate hR
  rw [hrun, hrun']
  exact ⟨hagree.eq_ok_iff, rfl, (LogsAlike.refl root root' w.log).append hlog, rfl, ws, hall, hws,
    hws'⟩

theorem Layout.isRelative_default : IsRelative {} := by
  apply IsRelative.mk <;> decide

theorem Layout.sameRoot_project : SameRoot "." "tests/.." {} [] World.project.files := by
  have ht : World.project.files.IsTree := Filesystem.isTree_of_nodes (by decide +kernel)
  have hl : World.project.files.NoLinks := Filesystem.noLinks_of_nodes (by simp [World.project])
  have hnames : ∀ n d, World.project.files.node? (n :: d) ≠ none →
      n.bytes.length ≤ maxNameLength := by
    intro n d hn
    obtain ⟨node, hmem⟩ := Filesystem.exists_mem_nodes hn
    have hall : ∀ entry ∈ World.project.files.nodes, ∀ n ∈ entry.1.head?,
        n.bytes.length ≤ maxNameLength := by decide +kernel
    exact hall _ hmem n rfl
  exact ⟨ht, ⟨by decide +kernel, rfl⟩, ⟨by decide +kernel, rfl⟩,
    .of_noLinks ht hl hnames (by decide +kernel), .of_noLinks ht hl hnames (by decide +kernel)⟩

theorem regenerate_project_detour :
    Layout.IsRelative {} ∧ Layout.SameRoot "." "tests/.." {} [] World.project.files ∧
    ¬ Path.IsHyphen "." ∧ ¬ Path.IsHyphen "tests/.." ∧
    (regenerate World.host "tests/.." {} .project).1 = .ok () ∧
    (regenerate World.host "." {} .project).2.files =
      (regenerate World.host "tests/.." {} .project).2.files := by
  have hin : ¬ Path.IsHyphen "." := by decide
  have hin' : ¬ Path.IsHyphen "tests/.." := by decide
  have hok : (regenerate World.host "." {} .project).1 = .ok () := by decide +kernel
  obtain ⟨hiff, -, -, hfiles, -⟩ := regenerate_congr_root {} .project Layout.isRelative_default
    Layout.sameRoot_project hin hin'
  exact ⟨Layout.isRelative_default, Layout.sameRoot_project, hin, hin', hiff.1 hok, hfiles⟩

/-- A detour in the spelling of a root shows in the log, and a root that leaves no room for the
paths below it is spelled too long. -/
theorem regenerate_project_spellings :
    Layout.IsRelative {} ∧ World.project.files.IsTree ∧ World.project.files.RootAt "." [] ∧
    World.project.files.RootAt "tests/.." [] ∧ World.project.files.RootAt (Path.padded 4093) [] ∧
    ¬ Path.IsHyphen "." ∧ ¬ Path.IsHyphen "tests/.." ∧ ¬ Path.IsHyphen (Path.padded 4093) ∧
    (regenerate World.host "." {} .project).1 = .ok () ∧
    (regenerate World.host "tests/.." {} .project).1 = .ok () ∧
    (regenerate World.host "." {} .project).2.log ≠
      (regenerate World.host "tests/.." {} .project).2.log ∧
    (regenerate World.host (Path.padded 4093) {} .project).1 ≠ .ok () := by
  obtain ⟨hok, hok', hlog⟩ : (regenerate World.host "." {} .project).1 = .ok () ∧
      (regenerate World.host "tests/.." {} .project).1 = .ok () ∧
      (regenerate World.host "." {} .project).2.log ≠
        (regenerate World.host "tests/.." {} .project).2.log := by
    decide +kernel
  have hlong : World.project.files.RootAt (Path.padded 4093) [] :=
    Filesystem.rootAt_padded rfl (by decide)
  refine ⟨Layout.isRelative_default, Layout.sameRoot_project.tree, Layout.sameRoot_project.left,
    Layout.sameRoot_project.right, hlong, by decide, by decide, Path.not_isHyphen_padded 4093, hok,
    hok', hlog, ?_⟩
  intro hpadded
  obtain ⟨result, files, lines, log, heq, hends⟩ :=
    Layout.regenerate_eq (Path.padded 4093) {} .project
  rw [heq] at hpadded
  cases hpadded
  obtain ⟨hmet, -⟩ := hends.of_ok
  have htool : World.project.files.isDirectory (Path.below (Path.padded 4093) "trustinsoft") :=
    hmet (.directory "trustinsoft") (by decide)
  obtain ⟨q, hq, -⟩ := Filesystem.isDirectory_iff.1 htool
  have hshort := (Filesystem.isShort_text _).1 (Filesystem.locatePath_eq_ok.1 hq).1
  rw [Path.utf8ByteSize_below (by decide), Path.utf8ByteSize_padded] at hshort
  have hsize : "trustinsoft".utf8ByteSize = 11 := by decide
  rw [hsize, maxPathLength] at hshort
  omega

end AnalyzerConfig
