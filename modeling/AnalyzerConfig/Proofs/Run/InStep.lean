import AnalyzerConfig.Proofs.Project.Building
import AnalyzerConfig.Proofs.Run.Stages

namespace AnalyzerConfig

/-- Outcomes that agree: the same result twice, or two failures that `E` relates. -/
inductive Agree (E : Failure → Failure → Prop) {α : Type} :
    Except Failure α → Except Failure α → Prop
  | ok (a : α) : Agree E (.ok a) (.ok a)
  | error {e e' : Failure} (h : E e e') : Agree E (.error e) (.error e')

variable {E : Failure → Failure → Prop} {α β : Type}

theorem Agree.refl (hE : ∀ e, E e e) (r : Except Failure α) : Agree E r r := by
  cases r with
  | error e => exact .error (hE e)
  | ok a => exact .ok a

theorem Agree.eq {r r' : Except Failure α} (h : Agree Eq r r') : r = r' := by
  cases h with
  | ok => rfl
  | error h => rw [h]

theorem Agree.eq_ok_iff {r r' : Except Failure α} (h : Agree E r r') {a : α} :
    r = .ok a ↔ r' = .ok a := by
  cases h with
  | ok => exact Iff.rfl
  | error => exact ⟨nofun, nofun⟩

theorem Agree.bind {r r' : Except Failure α} {f g : α → Except Failure β} (h : Agree E r r')
    (hfg : ∀ a, Agree E (f a) (g a)) : Agree E (r >>= f) (r' >>= g) := by
  cases h with
  | ok a => exact hfg a
  | error h => exact .error h

theorem mapM_agree {f g : α → Except Failure β} (h : ∀ a, Agree E (f a) (g a)) (as : List α) :
    Agree E (as.mapM f) (as.mapM g) := by
  induction as with
  | nil => exact .ok []
  | cons a as ih =>
    rw [List.mapM_cons, List.mapM_cons]
    exact (h a).bind fun b => ih.bind fun bs => .ok (b :: bs)

namespace Logged

structure Alike (E : Failure → Failure → Prop) (x y : Logged α) : Prop where
  log : x.log = y.log
  result : Agree E x.result y.result

theorem Alike.refl (hE : ∀ e, E e e) (x : Logged α) : Alike E x x := ⟨rfl, .refl hE _⟩

theorem Alike.bind {x y : Logged α} {f g : α → Logged β} (h : Alike E x y)
    (hfg : ∀ a, Alike E (f a) (g a)) : Alike E (x >>= f) (y >>= g) := by
  obtain ⟨log, result⟩ := x
  obtain ⟨log', result'⟩ := y
  obtain ⟨hlog, hresult⟩ := h
  obtain rfl : log = log' := hlog
  cases hresult with
  | ok a => exact ⟨congrArg (log ++ ·) (hfg a).log, (hfg a).result⟩
  | error he => exact ⟨rfl, .error he⟩

theorem Alike.map {x y : Logged α} (h : Alike E x y) (hE : ∀ e, E e e) (f : α → β) :
    Alike E (f <$> x) (f <$> y) :=
  h.bind fun a => .refl hE (pure (f a))

end Logged

section

variable {project project' : Project} {l : Layout} {dir pattern virtualDir : String}
variable (hE : ∀ e, E e e)
include hE

theorem Project.mounts_alike
    (h : Logged.Alike E (project.findFiles dir pattern) (project'.findFiles dir pattern)) :
    Logged.Alike E (project.mounts dir pattern virtualDir)
      (project'.mounts dir pattern virtualDir) :=
  h.bind fun _ => .refl hE _

variable (hscan : ∀ scan ∈ l.scans,
  Logged.Alike E (project.findFiles scan.1 scan.2) (project'.findFiles scan.1 scan.2))
include hscan

theorem Project.commonConfig_alike :
    Logged.Alike E (project.commonConfig l) (project'.commonConfig l) := by
  have hpatches := hscan (l.normalized.patchDir, "*.json") (by simp [Layout.scans])
  have hinputs := hscan (l.normalized.inputDir, l.normalized.inputPattern) (by simp [Layout.scans])
  exact (mounts_alike hE hpatches).bind fun _ => (mounts_alike hE hinputs).bind fun _ => .refl hE _

theorem Project.fuzzConfig_alike :
    Logged.Alike E (project.fuzzConfig l) (project'.fuzzConfig l) := by
  have hinputs := hscan (l.normalized.fuzzInputDir, l.normalized.inputPattern)
    (by simp [Layout.scans])
  exact (mounts_alike hE hinputs).bind fun _ => .refl hE _

theorem Project.testEntries_alike (commonPath fuzzPath : String) :
    Logged.Alike E (project.testEntries l commonPath fuzzPath)
      (project'.testEntries l commonPath fuzzPath) := by
  have htests := hscan (l.normalized.testDir, "*.c") (by simp [Layout.scans])
  have hinputs := hscan (l.normalized.fuzzInputDir, l.normalized.inputPattern)
    (by simp [Layout.scans])
  have hfiles : Logged.Alike E (project.testFiles l) (project'.testFiles l) :=
    htests.bind fun _ => .refl hE _
  exact hfiles.bind fun _ => hinputs.bind fun _ => .refl hE _

theorem Stage.build_alike {s : Stage} (hs : s ∈ l.stages) :
    Logged.Alike E (s.build project) (s.build project') := by
  simp only [Layout.stages, List.mem_cons, List.not_mem_nil, or_false] at hs
  rcases hs with rfl | rfl | rfl
  · exact (Project.commonConfig_alike hE hscan).map hE _
  · exact (Project.fuzzConfig_alike hE hscan).map hE _
  · exact (Project.testEntries_alike hE hscan _ _).map hE _

end

/-- The files after texts were written to paths below a root, one after the other. -/
def Filesystem.writeTexts (fs : Filesystem) (root : String) (ws : List (String × String)) :
    Except FileFault Filesystem :=
  ws.foldlM (fun fs write => fs.writeText (Path.below root write.1) write.2) fs

theorem Filesystem.writeTexts_cons {fs fs₁ : Filesystem} {root path text : String}
    (h : fs.writeText (Path.below root path) text = .ok fs₁) (ws : List (String × String)) :
    fs.writeTexts root ((path, text) :: ws) = fs₁.writeTexts root ws := by
  rw [writeTexts, List.foldlM_cons, h]
  rfl

/-- A relation in which the files of a run from one root and those of a run from another stay: the
runs find the same in related files, and what both write leaves related files. -/
structure InStep (E : Failure → Failure → Prop) (root root' : String) (l : Layout)
    (R : Filesystem → Filesystem → Prop) : Prop where
  refl : ∀ e, E e e
  met : ∀ fs fs', R fs fs' → ∀ r ∈ l.requirements, r.isMet fs root = r.isMet fs' root'
  unmet : ∀ r ∈ l.requirements, E (r.failure root) (r.failure root')
  scan : ∀ fs fs', R fs fs' → ∀ scan ∈ l.scans, Logged.Alike E
    ((fs.project root).findFiles scan.1 scan.2) ((fs'.project root').findFiles scan.1 scan.2)
  write : ∀ fs fs', R fs fs' → ∀ s ∈ l.stages, ∀ text,
    (∃ fs₁ fs₁', fs.writeText (Path.below root s.path) text = .ok fs₁ ∧
      fs'.writeText (Path.below root' s.path) text = .ok fs₁' ∧ R fs₁ fs₁') ∨
    ∃ fault fault', fs.writeText (Path.below root s.path) text = .error fault ∧
      fs'.writeText (Path.below root' s.path) text = .error fault' ∧
      E (.unwritable (Path.below root s.path) fault) (.unwritable (Path.below root' s.path) fault')

/-- Records of two runs that agree: the same record twice, or two that tell of one text written to
one path below the root of each run. -/
inductive LogRecord.Alike (root root' : String) : LogRecord → LogRecord → Prop
  | refl (r : LogRecord) : Alike root root' r r
  | wrote (path text : String) :
    Alike root root' (.wrote (Path.below root path) text) (.wrote (Path.below root' path) text)

/-- Logs that agree record by record. -/
def LogsAlike (root root' : String) : List LogRecord → List LogRecord → Prop :=
  List.Forall₂ (LogRecord.Alike root root')

theorem LogsAlike.refl (root root' : String) (log : List LogRecord) :
    LogsAlike root root' log log :=
  List.forall₂_same.2 fun r _ => .refl r

theorem LogsAlike.append {root root' : String} {log₁ log₁' log₂ log₂' : List LogRecord}
    (h₁ : LogsAlike root root' log₁ log₁') (h₂ : LogsAlike root root' log₂ log₂') :
    LogsAlike root root' (log₁ ++ log₂) (log₁' ++ log₂') :=
  List.rel_append h₁ h₂

theorem LogsAlike.eq {root : String} {log log' : List LogRecord}
    (h : LogsAlike root root log log') :
    log = log' := by
  rw [← List.forall₂_eq_eq_eq]
  refine h.imp fun r r' hr => ?_
  cases hr <;> rfl

/-- How two runs of stages go that stay in step: they end alike in related files, print the same,
log what agrees, and write the same texts to the same paths below their roots. -/
def RunAlike (E : Failure → Failure → Prop) (root root' : String)
    (R : Filesystem → Filesystem → Prop) (paths : List String) (w w' : World)
    (run run' : Except Failure Unit × World) : Prop :=
  ∃ result result' files files' lines log log',
    run = (result, w.after files lines log) ∧ run' = (result', w'.after files' lines log') ∧
    Agree E result result' ∧ R files files' ∧ LogsAlike root root' log log' ∧
    ∃ ws : List (String × String), ws.map Prod.fst <+: paths ∧
      (result = .ok () → ws.map Prod.fst = paths) ∧
      w.files.writeTexts root ws = .ok files ∧ w'.files.writeTexts root' ws = .ok files'

variable {root root' : String} {l : Layout} {R : Filesystem → Filesystem → Prop}

theorem RunAlike.cons {paths : List String} {w w' : World} {run run' : Except Failure Unit × World}
    {path text : String} {fs₁ fs₁' : Filesystem} {lines : List String} {log log' : List LogRecord}
    (hwrite : w.files.writeText (Path.below root path) text = .ok fs₁)
    (hwrite' : w'.files.writeText (Path.below root' path) text = .ok fs₁')
    (hlog : LogsAlike root root' log log')
    (h : RunAlike E root root' R paths (w.after fs₁ lines log) (w'.after fs₁' lines log')
      run run') :
    RunAlike E root root' R (path :: paths) w w' run run' := by
  obtain ⟨result, result', files, files', lines', logs, logs', rfl, rfl, hagree, hR, hlogs, ws,
    hprefix, hall, hws, hws'⟩ := h
  refine ⟨result, result', files, files', lines ++ lines', log ++ logs, log' ++ logs', ?_, ?_,
    hagree, hR, hlog.append hlogs, (path, text) :: ws, ?_, ?_, ?_, ?_⟩
  · rw [World.after_after]
  · rw [World.after_after]
  · exact List.cons_prefix_cons.2 ⟨rfl, hprefix⟩
  · intro hok
    rw [List.map_cons, hall hok]
  · rw [Filesystem.writeTexts_cons hwrite]
    exact hws
  · rw [Filesystem.writeTexts_cons hwrite']
    exact hws'

/-- A stage keeps two runs in step: either it ends both, or both write the same text. -/
theorem InStep.run_stage (h : InStep E root root' l R) {s : Stage} (hs : s ∈ l.stages)
    {w w' : World} (hR : R w.files w'.files) :
    ∃ lines log log', LogsAlike root root' log log' ∧
      ((∃ e e', E e e' ∧ s.run World.host root w = (.error e, w.after w.files lines log) ∧
        s.run World.host root' w' = (.error e', w'.after w'.files lines log')) ∨
      ∃ text fs₁ fs₁', w.files.writeText (Path.below root s.path) text = .ok fs₁ ∧
        w'.files.writeText (Path.below root' s.path) text = .ok fs₁' ∧ R fs₁ fs₁' ∧
        s.run World.host root w = (.ok (), w.after fs₁ lines log) ∧
        s.run World.host root' w' = (.ok (), w'.after fs₁' lines log')) := by
  obtain ⟨hlog, hagree⟩ := Stage.build_alike h.refl (h.scan _ _ hR) hs
  have hsame := LogsAlike.refl root root' (s.build (w.files.project root)).log
  cases hbuilt : (s.build (w.files.project root)).result with
  | error e =>
    rw [hbuilt] at hagree
    cases hbuilt' : (s.build (w'.files.project root')).result with
    | ok doc =>
      rw [hbuilt'] at hagree
      cases hagree
    | error e' =>
      rw [hbuilt'] at hagree
      cases hagree with
      | error he =>
        have hrun' := Stage.run_of_unbuilt hbuilt'
        rw [← hlog] at hrun'
        exact ⟨_, _, _, hsame, .inl ⟨e, e', he, Stage.run_of_unbuilt hbuilt, hrun'⟩⟩
  | ok doc =>
    have hbuilt' := hagree.eq_ok_iff.1 hbuilt
    have hrun := Stage.run_of_built hbuilt
    have hrun' := Stage.run_of_built hbuilt'
    rw [← hlog] at hrun'
    rcases h.write _ _ hR s hs (Json.render doc) with
      ⟨fs₁, fs₁', hwrite, hwrite', hR₁⟩ | ⟨fault, fault', hwrite, hwrite', hE⟩
    · rw [hwrite] at hrun
      rw [hwrite'] at hrun'
      have hwrote := hsame.append (.cons (.wrote s.path (Json.render doc)) .nil)
      exact ⟨_, _, _, hwrote, .inr ⟨_, fs₁, fs₁', hwrite, hwrite', hR₁, hrun, hrun'⟩⟩
    · rw [hwrite] at hrun
      rw [hwrite'] at hrun'
      exact ⟨_, _, _, hsame, .inl ⟨_, _, hE, hrun, hrun'⟩⟩

theorem InStep.runStages (h : InStep E root root' l R) {ss : List Stage}
    (hss : ∀ s ∈ ss, s ∈ l.stages) {w w' : World} (hR : R w.files w'.files) :
    RunAlike E root root' R (ss.map Stage.path) w w' (runStages World.host root ss w)
      (runStages World.host root' ss w') := by
  induction ss generalizing w w' with
  | nil =>
    refine ⟨.ok (), .ok (), w.files, w'.files, [], [], [], ?_, ?_, .ok (), hR, .nil, [],
      List.nil_prefix, fun _ => rfl, rfl, rfl⟩
    · exact congrArg _ World.after_nil.symm
    · exact congrArg _ World.after_nil.symm
  | cons s rest ih =>
    obtain ⟨lines, log, log', hlog, ⟨e, e', hE, hrun, hrun'⟩ |
      ⟨text, fs₁, fs₁', hwrite, hwrite', hR₁, hrun, hrun'⟩⟩ :=
      h.run_stage (hss s List.mem_cons_self) hR
    · exact ⟨.error e, .error e', w.files, w'.files, lines, log, log', World.bind_eq hrun,
        World.bind_eq hrun', .error hE, hR, hlog, [], List.nil_prefix, nofun, rfl, rfl⟩
    · have hstep : AnalyzerConfig.runStages World.host root (s :: rest) w = _ :=
        World.bind_eq hrun
      have hstep' : AnalyzerConfig.runStages World.host root' (s :: rest) w' = _ :=
        World.bind_eq hrun'
      rw [hstep, hstep']
      have hR₁ : R (w.after fs₁ lines log).files (w'.after fs₁' lines log').files := hR₁
      have hrest := ih (fun s' hs' => hss s' (List.mem_cons_of_mem s hs')) hR₁
      exact hrest.cons hwrite hwrite' hlog

theorem InStep.precheck (h : InStep E root root' l R) {w w' : World} (hR : R w.files w'.files) :
    ∃ lines,
      (∃ e e', E e e' ∧
        precheck World.host root l.requirements w = (.error e, w.after w.files lines []) ∧
        precheck World.host root' l.requirements w' = (.error e', w'.after w'.files lines [])) ∨
      precheck World.host root l.requirements w = (.ok (), w.after w.files lines []) ∧
        precheck World.host root' l.requirements w' = (.ok (), w'.after w'.files lines []) := by
  have hmet := h.met _ _ hR
  rcases all_or_first (Requirement.isMet w.files root) l.requirements with hall |
    ⟨met, r, rest, hreq, hall, hr⟩
  · refine ⟨_, .inr ⟨precheck_of_all_met hall, precheck_of_all_met ?_⟩⟩
    intro r hmem
    rw [← hmet r hmem]
    exact hall r hmem
  · have hr' : r.isMet w'.files root' = false := by
      rw [← hmet r (by simp [hreq]), hr]
    have hall' : ∀ q ∈ met, q.isMet w'.files root' = true := by
      intro q hq
      rw [← hmet q (by simp [hreq, hq])]
      exact hall q hq
    have hunmet := h.unmet r (by simp [hreq])
    rw [hreq]
    exact ⟨_, .inl ⟨_, _, hunmet, precheck_of_first_unmet rest hall hr,
      precheck_of_first_unmet rest hall' hr'⟩⟩

/-- Runs that start with related files stay in step to their ends. -/
theorem InStep.regenerate (h : InStep E root root' l R) {w w' : World}
    (hR : R w.files w'.files) :
    RunAlike E root root' R (l.stages.map Stage.path) w w' (regenerate World.host root l w)
      (regenerate World.host root' l w') := by
  have hopen := World.print_eq w Layout.opening
  have hopen' := World.print_eq w' Layout.opening
  have hR : R (w.after w.files [Layout.opening] []).files
      (w'.after w'.files [Layout.opening] []).files := hR
  obtain ⟨lines, ⟨e, e', hE, hcheck, hcheck'⟩ | ⟨hcheck, hcheck'⟩⟩ := h.precheck hR
  · rw [World.after_after] at hcheck hcheck'
    exact ⟨.error e, .error e', w.files, w'.files, _, _, _,
      (World.bind_eq hopen).trans (World.bind_eq hcheck),
      (World.bind_eq hopen').trans (World.bind_eq hcheck'),
      .error hE, hR, .nil, [], List.nil_prefix, nofun, rfl, rfl⟩
  · rw [World.after_after] at hcheck hcheck'
    have hR : R (w.after w.files ([Layout.opening] ++ lines) []).files
      (w'.after w'.files ([Layout.opening] ++ lines) []).files := hR
    obtain ⟨result, result', files, files', lines', log, log', hrun, hrun', hrest⟩ :=
      h.runStages (fun s hs => hs) hR
    rw [World.after_after] at hrun hrun'
    exact ⟨result, result', files, files', _, _, _,
      (World.bind_eq hopen).trans ((World.bind_eq hcheck).trans hrun),
      (World.bind_eq hopen').trans ((World.bind_eq hcheck').trans hrun'), hrest⟩

end AnalyzerConfig
