import AnalyzerConfig.CommandLine
import AnalyzerConfig.Proofs.Filesystem.Naming
import AnalyzerConfig.Proofs.Project.Building
import AnalyzerConfig.Proofs.Run.Stages

namespace AnalyzerConfig

variable {root : String} {l : Layout} {fs files : Filesystem} {result : Except Failure Unit}
variable {lines : List String}

theorem Written.found?_of_noLinks {ss : List Stage} {n : Octets} {r : Route}
    (hss : ∀ s ∈ ss, ∃ name, Path.IsName name ∧ Path.EndsIn name s.path ∧ .text name ≠ n)
    (h : Written root ss fs files) (hl : fs.NoLinks) (hr : r.steps.getLast? = some (.down n)) :
    files.found? r = fs.found? r := by
  induction h with
  | nil => rfl
  | @cons s rest fs fs₁ fs₂ doc hbuilt hwrite h ih =>
    obtain ⟨name, hname, hends, hne⟩ := hss s List.mem_cons_self
    obtain ⟨d, -, htakes, rfl⟩ := Filesystem.writeText_of_noLinks hl hname (hends.below root) hwrite
    have hput := Filesystem.found?_put_ne (c := .text (Json.render doc)) hl htakes hr ?_
    · rw [← hput]
      apply ih
      · intro s' hs'
        exact hss s' (List.mem_cons_of_mem s hs')
      · exact htakes.noLinks_put hl
    · intro heq
      exact hne (Option.some.inj heq)

theorem Path.isName_common : IsName "common.config" := ⟨by decide, by decide, by decide, by decide⟩

theorem Path.isName_fuzz : IsName "fuzz.config" := ⟨by decide, by decide, by decide, by decide⟩

theorem Path.isName_tests : IsName "tis.config" := ⟨by decide, by decide, by decide, by decide⟩

theorem Written.found?_tests {ss : List Stage} (hss : ∀ s ∈ ss, s ∈ [.common l, .fuzz l])
    (h : Written root ss fs files) (hl : fs.NoLinks) :
    files.found? (Route.ofPath (.text (Path.below root l.testsPath))) =
      fs.found? (Route.ofPath (.text (Path.below root l.testsPath))) := by
  have htests : Path.EndsIn "tis.config" l.testsPath := .inl rfl
  apply h.found?_of_noLinks ?_ hl ((htests.below root).getLast?_steps Path.isName_tests)
  intro s hs
  have hs := hss s hs
  simp only [List.mem_cons, List.not_mem_nil, or_false] at hs
  rcases hs with rfl | rfl
  · exact ⟨"common.config", Path.isName_common, Path.endsIn_join, by decide⟩
  · exact ⟨"fuzz.config", Path.isName_fuzz, Path.endsIn_join, by decide⟩

theorem Layout.done_of_left {done left : List Stage} (hstages : l.stages = done ++ left)
    (hleft : left ≠ []) : ∀ s ∈ done, s ∈ [.common l, .fuzz l] := by
  have hlast := congrArg List.dropLast hstages
  rw [List.dropLast_append_of_ne_nil hleft] at hlast
  intro s hs
  show s ∈ l.stages.dropLast
  rw [hlast]
  exact List.mem_append_left _ hs

theorem Halts.done_of_stale {done left : List Stage} {name dir : String}
    (hstages : l.stages = done ++ left)
    (h : Halts root files left (.error (.staleExclusion name dir)) lines) :
    done = [.common l, .fuzz l] := by
  cases h with
  | @unbuilt s rest _ herr =>
    match done, hstages with
    | [], hstages =>
      obtain ⟨rfl, -⟩ := List.cons.inj hstages
      obtain ⟨_, _, hscan⟩ := Stage.common_error herr
      cases hscan
    | [_], hstages =>
      obtain ⟨rfl, hrest⟩ := List.cons.inj hstages
      obtain ⟨rfl, -⟩ := List.cons.inj hrest
      obtain ⟨_, _, hscan⟩ := Stage.fuzz_error herr
      cases hscan
    | [_, _], hstages =>
      obtain ⟨rfl, hrest⟩ := List.cons.inj hstages
      obtain ⟨rfl, -⟩ := List.cons.inj hrest
      rfl
    | _ :: _ :: _ :: _, hstages => simp [Layout.stages] at hstages

theorem Layout.Ends.isPrefix (h : l.Ends root fs result files lines) : lines <+: l.transcript := by
  cases h with
  | @unmet met rest r hreq hmet hr =>
    refine ⟨Requirement.confirmations (r :: rest) ++ l.stages.map Stage.announcement, ?_⟩
    rw [transcript, hreq, Requirement.confirmations, Requirement.confirmations,
      Requirement.confirmations, List.filterMap_append, List.cons_append, List.cons_append,
      List.append_assoc]
  | @halted done left _ _ lines hmet hstages hdone hhalt =>
    rw [transcript, hstages, List.map_append, ← List.append_assoc]
    apply List.prefix_append_right_inj _ |>.2
    cases hhalt with
    | finished => exact List.nil_prefix
    | unbuilt => exact List.nil_prefix
    | unwritten => exact ⟨_, rfl⟩

theorem Layout.Ends.of_ok (h : l.Ends root fs (.ok ()) files lines) :
    (∀ r ∈ l.requirements, r.isMet fs root = true) ∧ Written root l.stages fs files ∧
      lines = l.transcript := by
  cases h with
  | @halted done left _ _ lines hmet hstages hdone hhalt =>
    cases hhalt with
    | finished =>
      rw [List.append_nil] at hstages
      rw [transcript, hstages, List.append_nil]
      exact ⟨hmet, hdone, rfl⟩

theorem Layout.Ends.of_stale {name dir : String}
    (h : l.Ends root fs (.error (.staleExclusion name dir)) files lines) :
    Written root [.common l, .fuzz l] fs files := by
  generalize hresult : (.error (.staleExclusion name dir) : Except Failure Unit) = result at h
  cases h with
  | @unmet met rest r hreq hmet hr =>
    have hfailure := Except.error.inj hresult
    cases r <;> cases hfailure
  | halted hmet hstages hdone hhalt =>
    subst hresult
    rw [← hhalt.done_of_stale hstages]
    exact hdone

theorem Layout.Ends.found?_tests (h : l.Ends root fs result files lines) (hr : result ≠ .ok ())
    (hl : fs.NoLinks) :
    files.found? (Route.ofPath (.text (Path.below root l.testsPath))) =
      fs.found? (Route.ofPath (.text (Path.below root l.testsPath))) := by
  cases h with
  | unmet => rfl
  | @halted done left _ _ lines hmet hstages hdone hhalt =>
    apply hdone.found?_tests ?_ hl
    apply done_of_left hstages
    intro heq
    subst heq
    cases hhalt
    exact hr rfl

theorem layoutSource_snd (path : String) (w : World) :
    (World.host.layoutSource path w).2 = w := by
  have hexists : World.host.pathExists path w = (w.files.pathExists path, w) := rfl
  have hread : World.host.readText path w = (w.files.readText path, w) := rfl
  unfold Host.layoutSource
  rw [World.bind_eq hexists]
  split
  · rw [World.bind_eq hread]
    cases w.files.readText path <;> rfl
  · rfl

def Arguments.overrides (a : Arguments) (workingDir : String) (w : World) :
    Except Failure Layout.Overrides :=
  let (path, required) := a.layoutFile (a.root.getD workingDir)
  (World.host.layoutSource path w).1.overrides path required

/-- The world in which a run goes on once its configuration is resolved. -/
def World.resolved (w : World) (config : RunConfig) : World :=
  w.after w.files [] [.resolved config]

theorem World.resolved_files (w : World) (config : RunConfig) :
    (w.resolved config).files = w.files := rfl

theorem World.resolved_after {w : World} {config : RunConfig} (log : List LogRecord) :
    (w.resolved config).after files lines log = w.after files lines (.resolved config :: log) :=
  World.after_after lines [.resolved config] log

theorem resolveConfig_eq (a : Arguments) (workingDir : String) (w : World) :
    resolveConfig World.host a workingDir w =
      match a.overrides workingDir w with
      | .error e => (.error e, w)
      | .ok o =>
        let config : RunConfig := ⟨a.root.getD workingDir, Layout.resolved o a.excludeTests⟩
        (.ok config, w.resolved config) := by
  unfold resolveConfig Arguments.overrides
  generalize a.layoutFile (a.root.getD workingDir) = file
  have hsource : World.host.layoutSource file.1 w =
      ((World.host.layoutSource file.1 w).1, w) := Prod.ext rfl (layoutSource_snd file.1 w)
  simp only
  rw [World.bind_eq hsource]
  cases LayoutSource.overrides file.1 file.2 (World.host.layoutSource file.1 w).1 with
  | error e => rfl
  | ok o => exact World.bind_eq (World.record_eq w _)

theorem resolveConfig_fst (a : Arguments) (workingDir : String) (w : World) :
    (resolveConfig World.host a workingDir w).1 =
      (a.overrides workingDir w).map fun o =>
        ⟨a.root.getD workingDir, Layout.resolved o a.excludeTests⟩ := by
  rw [resolveConfig_eq]
  cases a.overrides workingDir w <;> rfl

theorem runConfigured_eq (a : Arguments) (workingDir : String) (w : World) :
    runConfigured World.host a workingDir w =
      match (resolveConfig World.host a workingDir w).1 with
      | .error e => (.error e, w)
      | .ok config => regenerate World.host config.root config.layout (w.resolved config) := by
  have hresolve := resolveConfig_eq a workingDir w
  cases ho : a.overrides workingDir w with
  | error e =>
    rw [ho] at hresolve
    rw [hresolve]
    exact World.bind_eq hresolve
  | ok o =>
    rw [ho] at hresolve
    rw [hresolve]
    exact World.bind_eq hresolve

/-- A run completes its stages in order, each of them wholly or not at all. Wherever it stops, the
files are those that the completed stages left, and what was printed is the beginning of what a run
prints that succeeds. -/
theorem regenerate_completes_in_order (root : String) (l : Layout) (w : World) :
    ∃ result files lines log,
      regenerate World.host root l w = (result, w.after files lines log) ∧
      l.Ends root w.files result files lines ∧
      lines <+: l.transcript ∧
      (result = .ok () → Written root l.stages w.files files ∧ lines = l.transcript) ∧
      (∀ name dir, result = .error (.staleExclusion name dir) →
        Written root [.common l, .fuzz l] w.files files) ∧
      (result ≠ .ok () → w.files.NoLinks →
        files.found? (Route.ofPath (.text (Path.below root l.testsPath))) =
          w.files.found? (Route.ofPath (.text (Path.below root l.testsPath)))) ∧
      ∀ a workingDir, runConfigured World.host a workingDir w =
        match (resolveConfig World.host a workingDir w).1 with
        | .error e => (.error e, w)
        | .ok config => regenerate World.host config.root config.layout
            (w.after w.files [] [.resolved config]) := by
  obtain ⟨result, files, lines, log, heq, hends⟩ := l.regenerate_eq root w
  refine ⟨result, files, lines, log, heq, hends, hends.isPrefix, ?_, ?_, hends.found?_tests, ?_⟩
  · intro heq
    subst heq
    exact hends.of_ok.2
  · intro name dir heq
    subst heq
    exact hends.of_stale
  · intro a workingDir
    exact runConfigured_eq a workingDir w

end AnalyzerConfig
