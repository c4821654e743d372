import AnalyzerConfig.Proofs.Filesystem.Passing
import AnalyzerConfig.Proofs.Run.Stages

namespace AnalyzerConfig

variable {fs fs' : Filesystem} {root : String} {dirs files : List String} {w : World}
variable {result : Except Failure Unit} {lines : List String}

namespace Requirement

def path (root : String) : Requirement → String
  | .root => root
  | .directory dir => Path.below root dir
  | .file source => Path.below root source

def directoryLine (dir : String) : String := "   > OK! Directory '" ++ dir ++ "' exists."

def fileLine (file : String) : String := "   > OK! File '" ++ file ++ "' exists."

/-- How the check of some directories and files below a root ends, and what it prints. -/
inductive Checked (fs : Filesystem) (root : String) (dirs files : List String) :
    Except Failure Unit → List String → Prop
  | complete (hroot : fs.isDirectory root)
      (hdirs : ∀ dir ∈ dirs, fs.isDirectory (Path.below root dir))
      (hfiles : ∀ file ∈ files, fs.isFile (Path.below root file)) :
      Checked fs root dirs files (.ok ()) (dirs.map directoryLine ++ files.map fileLine)
  | noRoot (hroot : ¬ fs.isDirectory root) :
      Checked fs root dirs files (.error (.rootNotDirectory root)) []
  | noDirectory {before after : List String} {dir : String} (hroot : fs.isDirectory root)
      (hsplit : dirs = before ++ dir :: after)
      (hbefore : ∀ dir ∈ before, fs.isDirectory (Path.below root dir))
      (hdir : ¬ fs.isDirectory (Path.below root dir)) :
      Checked fs root dirs files (.error (.missingDirectory dir)) (before.map directoryLine)
  | noFile {before after : List String} {file : String} (hroot : fs.isDirectory root)
      (hdirs : ∀ dir ∈ dirs, fs.isDirectory (Path.below root dir))
      (hsplit : files = before ++ file :: after)
      (hbefore : ∀ file ∈ before, fs.isFile (Path.below root file))
      (hfile : ¬ fs.isFile (Path.below root file)) :
      Checked fs root dirs files (.error (.missingFile file root))
        (dirs.map directoryLine ++ before.map fileLine)

theorem confirmations_list (dirs files : List String) :
    confirmations (list dirs files) = dirs.map directoryLine ++ files.map fileLine := by
  have hdirs : (dirs.map directory).filterMap confirmation? = dirs.map directoryLine := by
    rw [List.filterMap_map, ← List.filterMap_eq_map]
    rfl
  have hfiles : (files.map file).filterMap confirmation? = files.map fileLine := by
    rw [List.filterMap_map, ← List.filterMap_eq_map]
    rfl
  rw [confirmations, list, List.filterMap_append, List.filterMap_cons, hdirs, hfiles]
  rfl

theorem forall_mem_list {P : Requirement → Prop} :
    (∀ r ∈ list dirs files, P r) ↔
      P .root ∧ (∀ dir ∈ dirs, P (.directory dir)) ∧ ∀ file ∈ files, P (.file file) := by
  simp only [list, List.cons_append, List.forall_mem_cons, List.forall_mem_append,
    List.forall_mem_map]

theorem list_append_directory (before after files : List String) (dir : String) :
    list (before ++ dir :: after) files =
      list before [] ++ .directory dir :: (after.map .directory ++ files.map .file) := by
  simp only [list, List.map_append, List.map_cons, List.map_nil, List.append_nil, List.cons_append,
    List.append_assoc]

theorem list_append_file (dirs before after : List String) (file : String) :
    list dirs (before ++ file :: after) =
      list dirs before ++ .file file :: after.map .file := by
  simp only [list, List.map_append, List.map_cons, List.cons_append, List.append_assoc]

theorem isMet_of_alike (hdir : fs.workingDir = fs'.workingDir) {r : Requirement}
    (h : ∀ x, fs.PassesThrough (r.path root) x → fs.AlikeAt fs' x) :
    r.isMet fs root = r.isMet fs' root := by
  cases r with
  | root => exact Filesystem.isDirectory_of_alike hdir h
  | directory dir => exact Filesystem.isDirectory_of_alike hdir h
  | file source => exact Filesystem.isFile_of_alike hdir h

theorem exists_locatePath_of_isMet {r : Requirement} (h : r.isMet fs root = true) :
    ∃ q, fs.locatePath .find (.text (r.path root)) = .ok q ∧ fs.node? q ≠ none := by
  have hdirectory {path : String} (h : fs.isDirectory path) :
      ∃ q, fs.locatePath .find (.text path) = .ok q ∧ fs.node? q ≠ none := by
    obtain ⟨q, hq, hd⟩ := Filesystem.isDirectory_iff.1 h
    exact ⟨q, hq, by rw [hd]; exact Option.some_ne_none _⟩
  cases r with
  | root => exact hdirectory h
  | directory dir => exact hdirectory h
  | file source =>
    obtain ⟨q, c, hq, hc⟩ := Filesystem.isFile_iff.1 h
    exact ⟨q, hq, by rw [hc]; exact Option.some_ne_none _⟩

/-- A requirement is still met if nothing that its path passes is taken away or replaced. -/
theorem isMet_of_kept (hdir : fs.workingDir = fs'.workingDir) {r : Requirement}
    (hr : r.isMet fs root = true)
    (h : ∀ p node, fs.PassesThrough (r.path root) p → fs.node? p = some node →
      fs'.node? p = some node) : r.isMet fs' root = true := by
  obtain ⟨q, hq, hnode⟩ := exists_locatePath_of_isMet hr
  have halike : ∀ x, fs.PassesThrough (r.path root) x → fs.AlikeAt fs' x := by
    intro x hx
    have hne := Filesystem.node?_ne_none_of_passesThrough hq hnode hx
    obtain ⟨node, hx'⟩ := Option.ne_none_iff_exists'.1 hne
    exact .inl (hx'.trans (h x node hx hx').symm)
  rw [← isMet_of_alike hdir halike, hr]

theorem Checked.ok_iff (h : Checked fs root dirs files result lines) :
    result = .ok () ↔ ∀ r ∈ list dirs files, r.isMet fs root = true := by
  rw [forall_mem_list]
  cases h with
  | complete hroot hdirs hfiles => exact iff_of_true rfl ⟨hroot, hdirs, hfiles⟩
  | noRoot hroot => exact iff_of_false nofun fun h => hroot h.1
  | noDirectory _ hsplit _ hdir =>
    apply iff_of_false nofun
    intro h
    apply hdir
    apply h.2.1
    rw [hsplit]
    exact List.mem_append_right _ List.mem_cons_self
  | noFile _ _ hsplit _ hfile =>
    apply iff_of_false nofun
    intro h
    apply hfile
    apply h.2.2
    rw [hsplit]
    exact List.mem_append_right _ List.mem_cons_self

end Requirement

open Requirement in
theorem exists_checked (root : String) (dirs files : List String) (w : World) :
    ∃ result lines,
      precheck World.host root (list dirs files) w = (result, w.after w.files lines []) ∧
      Checked w.files root dirs files result lines := by
  by_cases hroot : w.files.isDirectory root
  · rcases all_or_first (fun dir => w.files.isDirectory (Path.below root dir)) dirs with hdirs |
      ⟨before, dir, after, rfl, hbefore, hdir⟩
    · rcases all_or_first (fun file => w.files.isFile (Path.below root file)) files with hfiles |
        ⟨before, file, after, rfl, hbefore, hfile⟩
      · have hmet : ∀ r ∈ list dirs files, r.isMet w.files root = true :=
          forall_mem_list.2 ⟨hroot, hdirs, hfiles⟩
        refine ⟨_, _, precheck_of_all_met hmet, ?_⟩
        rw [confirmations_list]
        exact .complete hroot hdirs hfiles
      · have hmet : ∀ r ∈ list dirs before, r.isMet w.files root = true :=
          forall_mem_list.2 ⟨hroot, hdirs, hbefore⟩
        rw [list_append_file]
        refine ⟨_, _, precheck_of_first_unmet _ hmet hfile, ?_⟩
        rw [confirmations_list]
        exact .noFile hroot hdirs rfl hbefore (Bool.not_eq_true _ ▸ hfile)
    · have hmet : ∀ r ∈ list before [], r.isMet w.files root = true :=
        forall_mem_list.2 ⟨hroot, hbefore, fun _ h => nomatch h⟩
      rw [list_append_directory]
      refine ⟨_, _, precheck_of_first_unmet _ hmet hdir, ?_⟩
      rw [confirmations_list, List.map_nil, List.append_nil]
      exact .noDirectory hroot rfl hbefore (Bool.not_eq_true _ ▸ hdir)
  · have hunmet : Requirement.root.isMet w.files root = false := Bool.not_eq_true _ ▸ hroot
    refine ⟨_, _, (precheck_of_unmet hunmet).trans ?_, .noRoot hroot⟩
    rw [World.after_nil]
    rfl

/-- The check goes well if and only if the root is a directory, and so is each directory, and each
file is a regular one. It stops at the first that is missing, has confirmed those before it, and
changes no file. If it goes well, it goes well too wherever things were added, and nothing was taken
away or replaced that one of the paths passes. -/
theorem precheck_outcome (root : String) (dirs files : List String) (w : World) :
    ∃ result lines,
      precheck World.host root (Requirement.list dirs files) w =
        (result, w.after w.files lines []) ∧
      Requirement.Checked w.files root dirs files result lines ∧
      (result = .ok () ↔ w.files.isDirectory root ∧
        (∀ dir ∈ dirs, w.files.isDirectory (Path.below root dir)) ∧
        ∀ file ∈ files, w.files.isFile (Path.below root file)) ∧
      (result = .ok () → ∀ w' : World, w'.files.workingDir = w.files.workingDir →
        (∀ r ∈ Requirement.list dirs files, ∀ p node, w.files.PassesThrough (r.path root) p →
          w.files.node? p = some node → w'.files.node? p = some node) →
        precheck World.host root (Requirement.list dirs files) w' =
          (.ok (), w'.after w'.files lines [])) := by
  obtain ⟨result, lines, hrun, hchecked⟩ := exists_checked root dirs files w
  refine ⟨result, lines, hrun, hchecked, ?_, ?_⟩
  · rw [hchecked.ok_iff, Requirement.forall_mem_list]
    rfl
  · intro hok w' hdir hkept
    have hmet := hchecked.ok_iff.1 hok
    have hmet' : ∀ r ∈ Requirement.list dirs files, r.isMet w'.files root = true := by
      intro r hr
      exact Requirement.isMet_of_kept hdir.symm (hmet r hr) (hkept r hr)
    rw [precheck_of_all_met hmet] at hrun
    obtain ⟨-, hworld⟩ := Prod.mk.inj hrun
    have hlines := List.append_cancel_left (congrArg World.printed hworld)
    rw [precheck_of_all_met hmet', hlines]

/-- A directory with a file in it, and a link to that directory. -/
def World.linked : World where
  files.nodes := [([.text "d"], .directory), ([.text "a.c", .text "d"], .file (.text "")),
    ([.text "l"], .link (.text "d"))]

def World.grown : World where
  files.nodes := World.linked.files.nodes ++
    [([.text "new", .text "d"], .directory),
      ([.text "b.c", .text "new", .text "d"], .file (.text ""))]

theorem precheck_grown :
    precheck World.host "." (Requirement.list ["d/", "", "l", "d"] ["l/a.c", "l/../d/a.c"])
      World.grown = (.ok (), World.grown.after World.grown.files
        ["   > OK! Directory 'd/' exists.", "   > OK! Directory '' exists.",
          "   > OK! Directory 'l' exists.", "   > OK! Directory 'd' exists.",
          "   > OK! File 'l/a.c' exists.", "   > OK! File 'l/../d/a.c' exists."] []) := by
  obtain ⟨result, lines, hrun, hchecked, hok, hgrown⟩ :=
    precheck_outcome "." ["d/", "", "l", "d"] ["l/a.c", "l/../d/a.c"] World.linked
  have hresult : result = .ok () := hok.2 (by decide +kernel)
  have hkept : ∀ p node, World.linked.files.node? p = some node →
      World.grown.files.node? p = some node := by
    intro p node hp
    cases p with
    | nil => exact hp
    | cons n d =>
      have hp : World.linked.files.nodes.lookup (n :: d) = some node := hp
      show List.lookup (n :: d) (World.linked.files.nodes ++ _) = some node
      rw [List.lookup_append, hp, Option.some_or]
  have hlines : lines = ["   > OK! Directory 'd/' exists.", "   > OK! Directory '' exists.",
      "   > OK! Directory 'l' exists.", "   > OK! Directory 'd' exists.",
      "   > OK! File 'l/a.c' exists.", "   > OK! File 'l/../d/a.c' exists."] := by
    subst hresult
    cases hchecked with
    | complete => decide +kernel
  rw [← hlines]
  exact hgrown hresult World.grown rfl fun r _ p node _ hp => hkept p node hp

end AnalyzerConfig
