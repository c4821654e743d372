import AnalyzerConfig.Run

namespace AnalyzerConfig

variable {root : String} {l : Layout} {fs fs' files : Filesystem} {result : Except Failure Unit}
variable {lines : List String} {w w' : World}

namespace World

def after (w : World) (files : Filesystem) (lines : List String) (log : List LogRecord) :
    World where
  files := files
  printed := w.printed ++ lines
  log := w.log ++ log

@[simp] theorem after_files (log : List LogRecord) : (w.after files lines log).files = files := rfl

theorem after_after (lines' : List String) (log log' : List LogRecord) :
    (w.after fs lines log).after fs' lines' log' = w.after fs' (lines ++ lines') (log ++ log') := by
  simp only [after, List.append_assoc]

theorem after_nil : w.after w.files [] [] = w := by
  simp only [after, List.append_nil]

theorem bind_eq {α β : Type} {x : StateM World α} {f : α → StateM World β} {a : α}
    (h : x w = (a, w')) : (x >>= f) w = f a w' := by
  change f (x w).1 (x w).2 = f a w'
  rw [h]

theorem print_eq (w : World) (line : String) :
    World.host.print line w = ((), w.after w.files [line] []) := by
  simp only [World.host, after, List.append_nil]

theorem record_eq (w : World) (r : LogRecord) :
    World.host.record r w = ((), w.after w.files [] [r]) := by
  simp only [World.host, after, List.append_nil]

theorem emit_eq (w : World) (log : List LogRecord) :
    World.host.emit log w = ((), w.after w.files [] log) := by
  induction log generalizing w with
  | nil =>
    rw [after_nil]
    rfl
  | cons r log ih =>
    unfold Host.emit
    rw [bind_eq (record_eq w r), ih, after_after]
    rfl

theorem write_of_ok {path text : String} (h : w.files.writeText path text = .ok files) :
    World.host.writeText path text w = (.ok (), w.after files [] []) := by
  simp only [World.host, h, after, List.append_nil]

theorem write_of_error {path text : String} {fault : FileFault}
    (h : w.files.writeText path text = .error fault) :
    World.host.writeText path text w = (.error fault, w) := by
  simp only [World.host, h]

end World

def Requirement.isMet (fs : Filesystem) (root : String) : Requirement → Bool
  | .root => fs.isDirectory root
  | .directory path => fs.isDirectory (Path.below root path)
  | .file path => fs.isFile (Path.below root path)

theorem Requirement.holds_eq (r : Requirement) (w : World) :
    r.holds World.host root w = (r.isMet w.files root, w) := by
  cases r <;> rfl

def Requirement.confirmations (rs : List Requirement) : List String := rs.filterMap confirmation?

theorem precheck_of_met {r : Requirement} {rs : List Requirement}
    (h : r.isMet w.files root = true) :
    precheck World.host root (r :: rs) w =
      precheck World.host root rs (w.after w.files (Requirement.confirmations [r]) []) := by
  rw [precheck, World.bind_eq (r.holds_eq w), if_pos h]
  cases hr : r.confirmation? with
  | none =>
    have hnil : Requirement.confirmations [r] = [] := by simp [Requirement.confirmations, hr]
    rw [hnil, World.after_nil]
  | some line =>
    have hline : Requirement.confirmations [r] = [line] := by
      simp [Requirement.confirmations, hr]
    rw [hline]
    exact World.bind_eq (World.print_eq w line)

theorem precheck_of_unmet {r : Requirement} {rs : List Requirement}
    (h : r.isMet w.files root = false) :
    precheck World.host root (r :: rs) w = (.error (r.failure root), w) := by
  rw [precheck, World.bind_eq (r.holds_eq w), if_neg (Bool.not_eq_true _ ▸ h)]
  rfl

theorem precheck_append {met : List Requirement} (rest : List Requirement)
    (h : ∀ r ∈ met, r.isMet w.files root = true) :
    precheck World.host root (met ++ rest) w =
      precheck World.host root rest (w.after w.files (Requirement.confirmations met) []) := by
  induction met generalizing w with
  | nil =>
    rw [List.nil_append]
    exact congrArg _ World.after_nil.symm
  | cons r met ih =>
    rw [List.cons_append, precheck_of_met (h r List.mem_cons_self)]
    have hrest := fun q hq => h q (List.mem_cons_of_mem r hq)
    rw [ih (by exact hrest), World.after_after]
    unfold Requirement.confirmations
    rw [← List.filterMap_append]
    rfl

theorem precheck_of_all_met {rs : List Requirement}
    (h : ∀ r ∈ rs, r.isMet w.files root = true) :
    precheck World.host root rs w =
      (.ok (), w.after w.files (Requirement.confirmations rs) []) := by
  have hcheck := precheck_append [] h
  rw [List.append_nil] at hcheck
  exact hcheck

theorem precheck_of_first_unmet {met : List Requirement} {r : Requirement}
    (rest : List Requirement) (hmet : ∀ q ∈ met, q.isMet w.files root = true)
    (hr : r.isMet w.files root = false) :
    precheck World.host root (met ++ r :: rest) w =
      (.error (r.failure root), w.after w.files (Requirement.confirmations met) []) := by
  rw [precheck_append _ hmet]
  exact precheck_of_unmet hr

/-- Stages were completed in this order: each configuration was built from the files that the stages
before it left, and the whole of it was written to them. -/
inductive Written (root : String) : List Stage → Filesystem → Filesystem → Prop
  | nil {fs : Filesystem} : Written root [] fs fs
  | cons {s : Stage} {rest : List Stage} {fs fs₁ fs₂ : Filesystem} {doc : Json.Doc}
      (hbuilt : (s.build (fs.project root)).result = .ok doc)
      (hwrite : fs.writeText (Path.below root s.path) (Json.render doc) = .ok fs₁)
      (h : Written root rest fs₁ fs₂) : Written root (s :: rest) fs fs₂

theorem Written.of_cons {s : Stage} {rest : List Stage} (h : Written root (s :: rest) fs fs') :
    ∃ doc fs₁, (s.build (fs.project root)).result = .ok doc ∧
      fs.writeText (Path.below root s.path) (Json.render doc) = .ok fs₁ ∧
      Written root rest fs₁ fs' := by
  cases h with
  | cons hbuilt hwrite h => exact ⟨_, _, hbuilt, hwrite, h⟩

/-- How stages that are yet to run end a run, and what they print, if none of them is completed. -/
inductive Halts (root : String) (fs : Filesystem) :
    List Stage → Except Failure Unit → List String → Prop
  | finished : Halts root fs [] (.ok ()) []
  | unbuilt {s : Stage} {rest : List Stage} {e : Failure}
      (h : (s.build (fs.project root)).result = .error e) :
      Halts root fs (s :: rest) (.error e) []
  | unwritten {s : Stage} {rest : List Stage} {doc : Json.Doc} {fault : FileFault}
      (hbuilt : (s.build (fs.project root)).result = .ok doc)
      (hwrite : fs.writeText (Path.below root s.path) (Json.render doc) = .error fault) :
      Halts root fs (s :: rest) (.error (.unwritable (Path.below root s.path) fault))
        [s.announcement]

namespace Stage

variable {s : Stage} {doc : Json.Doc}

theorem run_of_unbuilt {e : Failure} (h : (s.build (w.files.project root)).result = .error e) :
    s.run World.host root w =
      (.error e, w.after w.files [] (s.build (w.files.project root)).log) := by
  unfold run
  have hlook : World.host.look root s.dirs w = (w.files.project root, w) := rfl
  rw [World.bind_eq hlook, World.bind_eq (World.emit_eq w _), h]
  rfl

theorem run_of_built (h : (s.build (w.files.project root)).result = .ok doc) :
    s.run World.host root w =
      match w.files.writeText (Path.below root s.path) (Json.render doc) with
      | .error fault => (.error (.unwritable (Path.below root s.path) fault),
          w.after w.files [s.announcement] (s.build (w.files.project root)).log)
      | .ok files => (.ok (), w.after files [s.announcement]
          ((s.build (w.files.project root)).log ++
            [.wrote (Path.below root s.path) (Json.render doc)])) := by
  unfold run
  have hlook : World.host.look root s.dirs w = (w.files.project root, w) := rfl
  rw [World.bind_eq hlook, World.bind_eq (World.emit_eq w _), h]
  show (World.host.print s.announcement >>= _) _ = _
  rw [World.bind_eq (World.print_eq _ _), World.after_after, List.nil_append, List.append_nil]
  cases hw : w.files.writeText (Path.below root s.path) (Json.render doc) with
  | error fault => exact World.bind_eq (World.write_of_error (w := w.after w.files _ _) hw)
  | ok files =>
    refine (World.bind_eq (World.write_of_ok (w := w.after w.files _ _) hw)).trans ?_
    refine (World.bind_eq (World.record_eq _ _)).trans ?_
    rw [World.after_after, World.after_after, List.append_nil, List.append_nil]
    rfl

end Stage

/-- A run of stages completes some of them and comes to a halt at the others. -/
theorem runStages_eq (root : String) (ss : List Stage) (w : World) :
    ∃ done left files result lines log, ss = done ++ left ∧ Written root done w.files files ∧
      Halts root files left result lines ∧
      runStages World.host root ss w =
        (result, w.after files (done.map Stage.announcement ++ lines) log) := by
  induction ss generalizing w with
  | nil =>
    refine ⟨[], [], w.files, .ok (), [], [], rfl, .nil, .finished, ?_⟩
    exact congrArg _ World.after_nil.symm
  | cons s rest ih =>
    generalize hlog : (s.build (w.files.project root)).log = log
    cases hbuilt : (s.build (w.files.project root)).result with
    | error e =>
      have hrun := Stage.run_of_unbuilt hbuilt
      refine ⟨[], s :: rest, w.files, .error e, [], log, rfl, .nil, .unbuilt hbuilt, ?_⟩
      rw [← hlog]
      exact World.bind_eq hrun
    | ok doc =>
      have hrun := Stage.run_of_built hbuilt
      cases hwrite : w.files.writeText (Path.below root s.path) (Json.render doc) with
      | error fault =>
        rw [hwrite] at hrun
        refine ⟨[], s :: rest, w.files, _, _, log, rfl, .nil, .unwritten hbuilt hwrite, ?_⟩
        rw [← hlog]
        exact World.bind_eq hrun
      | ok files =>
        rw [hwrite, hlog] at hrun
        let record := LogRecord.wrote (Path.below root s.path) (Json.render doc)
        obtain ⟨done, left, files', result, lines, log', rfl, hdone, hhalt, hrest⟩ :=
          ih (w.after files [s.announcement] (log ++ [record]))
        refine ⟨s :: done, left, files', result, lines, log ++ [record] ++ log', rfl,
          .cons hbuilt hwrite hdone, hhalt, ?_⟩
        refine (World.bind_eq hrun).trans (hrest.trans ?_)
        rw [World.after_after]
        rfl

def Layout.opening : String := "1. Check if all necessary directories and files exist..."

/-- What a run prints that succeeds. -/
def Layout.transcript (l : Layout) : List String :=
  opening :: Requirement.confirmations l.requirements ++ l.stages.map Stage.announcement

/-- How a run of a layout ends, what files it leaves, and what it prints. -/
inductive Layout.Ends (root : String) (l : Layout) (fs : Filesystem) :
    Except Failure Unit → Filesystem → List String → Prop
  /-- The precheck stopped at the first requirement that is not met, and nothing was written. -/
  | unmet {met rest : List Requirement} {r : Requirement} (hreq : l.requirements = met ++ r :: rest)
      (hmet : ∀ q ∈ met, q.isMet fs root = true) (hr : r.isMet fs root = false) :
      Ends root l fs (.error (r.failure root)) fs (opening :: Requirement.confirmations met)
  /-- All is there; the first stages were completed, and the first of the others stopped the run. -/
  | halted {done left : List Stage} {files : Filesystem} {result : Except Failure Unit}
      {lines : List String} (hmet : ∀ q ∈ l.requirements, q.isMet fs root = true)
      (hstages : l.stages = done ++ left) (hdone : Written root done fs files)
      (hhalt : Halts root files left result lines) :
      Ends root l fs result files (opening :: Requirement.confirmations l.requirements ++
        done.map Stage.announcement ++ lines)

theorem all_or_first {α : Type} (f : α → Bool) (as : List α) :
    (∀ a ∈ as, f a = true) ∨ ∃ before a after, as = before ++ a :: after ∧
      (∀ b ∈ before, f b = true) ∧ f a = false := by
  cases h : as.find? (fun a => !f a) with
  | none =>
    left
    simpa using h
  | some a =>
    right
    obtain ⟨ha, before, after, has, hbefore⟩ := List.find?_eq_some_iff_append.1 h
    exact ⟨before, a, after, has, by simpa using hbefore, by simpa using ha⟩

theorem Layout.regenerate_eq (root : String) (l : Layout) (w : World) :
    ∃ result files lines log, regenerate World.host root l w = (result, w.after files lines log) ∧
      l.Ends root w.files result files lines := by
  have hopen := World.print_eq w opening
  rcases all_or_first (Requirement.isMet w.files root) l.requirements with hmet |
    ⟨met, r, rest, hreq, hmet, hr⟩
  · have hcheck := precheck_of_all_met (w := w.after w.files [opening] []) hmet
    rw [World.after_after] at hcheck
    obtain ⟨done, left, files, result, lines, log, hstages, hdone, hhalt, hrun⟩ :=
      runStages_eq root l.stages
        (w.after w.files ([opening] ++ Requirement.confirmations l.requirements) [])
    rw [World.after_after] at hrun
    have hends := Ends.halted hmet hstages hdone hhalt
    rw [List.append_assoc] at hends
    have hregenerate : regenerate World.host root l w = _ :=
      (World.bind_eq hopen).trans ((World.bind_eq hcheck).trans hrun)
    exact ⟨result, files, _, _, hregenerate, hends⟩
  · have hcheck := precheck_of_first_unmet rest (w := w.after w.files [opening] []) hmet hr
    rw [← hreq, World.after_after] at hcheck
    exact ⟨_, _, _, _, (World.bind_eq hopen).trans (World.bind_eq hcheck), .unmet hreq hmet hr⟩

end AnalyzerConfig
