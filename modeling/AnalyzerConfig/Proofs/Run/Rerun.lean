import AnalyzerConfig.Proofs.Run.Effects

namespace AnalyzerConfig

variable {root : String} {l : Layout} {fs fs' fs₁ files : Filesystem} {p q : Place} {c : Octets}

/-- A pattern that the name is not accepted by, be it that the text is no pattern. -/
def Glob.Rejects (pattern name : String) : Prop :=
  ∀ pat, Glob.parse pattern = .ok pat → Glob.accepts pat (Octets.text name).bytes = false

instance Glob.decidableRejects (pattern name : String) : Decidable (Rejects pattern name) :=
  match h : parse pattern with
  | .error _ => isTrue fun _ hpat => nomatch h.symm.trans hpat
  | .ok pat =>
    if ha : accepts pat (Octets.text name).bytes = false then
      isTrue fun _ hpat => Except.ok.inj (h.symm.trans hpat) ▸ ha
    else isFalse fun hr => ha (hr pat h)

namespace Layout

def outputNames : List String := ["common.config", "fuzz.config", "tis.config"]

def outputs (l : Layout) : List String := [l.commonPath, l.fuzzPath, l.testsPath]

theorem outputs_eq (l : Layout) : l.outputs = l.stages.map Stage.path := rfl

theorem endsIn_outputName {path : String} (h : path ∈ l.outputs) :
    ∃ name ∈ outputNames, Path.IsName name ∧ Path.EndsIn name path := by
  simp only [outputs, List.mem_cons, List.not_mem_nil, or_false] at h
  rcases h with rfl | rfl | rfl
  · exact ⟨"common.config", by decide, Path.isName_common, Path.endsIn_join⟩
  · exact ⟨"fuzz.config", by decide, Path.isName_fuzz, Path.endsIn_join⟩
  · exact ⟨"tis.config", by decide, Path.isName_tests, .inl rfl⟩

/-- Files to which a run adds none that its scans select: all its outputs are there already, or
there are no links and no output has a name that is scanned for. -/
def Quiet (root : String) (l : Layout) (fs : Filesystem) : Prop :=
  (∀ path ∈ l.outputs, fs.isFile (Path.below root path) = true) ∨
    fs.NoLinks ∧ ∀ name ∈ outputNames, Glob.Rejects l.inputPattern name

theorem rejects_json : ∀ name ∈ outputNames, Glob.Rejects "*.json" name := by decide +kernel

theorem rejects_c : ∀ name ∈ outputNames, Glob.Rejects "*.c" name := by decide +kernel

theorem rejects_scan {scan : String × String} {name : String} (hscan : scan ∈ l.scans)
    (hname : name ∈ outputNames) (h : Glob.Rejects l.inputPattern name) :
    Glob.Rejects scan.2 name := by
  simp only [scans, List.mem_cons, List.not_mem_nil, or_false] at hscan
  rcases hscan with rfl | rfl | rfl | rfl
  · exact rejects_json name hname
  · exact h
  · exact h
  · exact rejects_c name hname

/-- Files in which a run finds all that it found in others. -/
structure Keeps (root : String) (l : Layout) (fs fs' : Filesystem) : Prop where
  scan : ∀ scan ∈ l.scans, ∀ ps, ((fs.project root).findFiles scan.1 scan.2).result = .ok ps →
    ((fs'.project root).findFiles scan.1 scan.2).result = .ok ps
  met : ∀ r : Requirement, r.isMet fs root = true → r.isMet fs' root = true
  place : ∀ path p, fs.locatePath .create path = .ok p → fs'.locatePath .create path = .ok p
  opens : ∀ p, fs.openFault? p = none → fs'.openFault? p = none
  text : ∀ p s, fs.node? p = some (.file (.text s)) → ∃ s', fs'.node? p = some (.file (.text s'))

namespace Keeps

theorem refl : Keeps root l fs fs where
  scan _ _ _ h := h
  met _ h := h
  place _ _ h := h
  opens _ h := h
  text _ s h := ⟨s, h⟩

theorem trans (h₁ : Keeps root l fs fs₁) (h₂ : Keeps root l fs₁ fs') : Keeps root l fs fs' where
  scan s hs ps h := h₂.scan s hs ps (h₁.scan s hs ps h)
  met r h := h₂.met r (h₁.met r h)
  place path p h := h₂.place path p (h₁.place path p h)
  opens p h := h₂.opens p (h₁.opens p h)
  text p s h := by
    obtain ⟨s₁, hs₁⟩ := h₁.text p s h
    exact h₂.text p s₁ hs₁

end Keeps

theorem Quiet.takesFile {path : String} (hq : Quiet root l fs) (hpath : path ∈ l.outputs)
    (hp : fs.locatePath .create (.text (Path.below root path)) = .ok p)
    (hopen : fs.openFault? p = none) :
    fs.TakesFile p ∧ ((∃ c, fs.node? p = some (.file c)) ∨
      fs.NoLinks ∧ ∃ name d, p = .text name :: d ∧ ∀ scan ∈ l.scans, Glob.Rejects scan.2 name) := by
  rcases hq with hfiles | ⟨hl, hrejects⟩
  · obtain ⟨c, hc⟩ := Filesystem.isFile_of_create hp (hfiles path hpath)
    exact ⟨.of_file hc, .inl ⟨c, hc⟩⟩
  · obtain ⟨name, hmem, hname, hends⟩ := endsIn_outputName hpath
    have hlast := (hends.below root).getLast?_steps hname
    have hlocate := (Filesystem.locatePath_eq_ok.1 hp).2
    obtain ⟨htakes, d, hpd⟩ := Filesystem.TakesFile.of_noLinks hl hlast hlocate hopen
    refine ⟨htakes, .inr ⟨hl, name, d, hpd, ?_⟩⟩
    intro scan hscan
    exact rejects_scan hscan hmem (hrejects name hmem)

/-- A written file that scans do not select changes nothing that a run finds. -/
theorem keeps_put {s : String} (htakes : fs.TakesFile p)
    (h : (∃ c, fs.node? p = some (.file c)) ∨ fs.NoLinks ∧ ∃ name d, p = .text name :: d ∧
      ∀ scan ∈ l.scans, Glob.Rejects scan.2 name) :
    Keeps root l fs (fs.put p (.file (.text s))) where
  scan scan hscan ps := by
    apply Project.findFiles_congr (Filesystem.isDirectory_put htakes _)
    intro pat hpat _ _ n
    rw [Filesystem.finds_put htakes]
    apply or_iff_left
    intro hgains
    rcases h with ⟨c, hc⟩ | ⟨hl, name, d, hpd, hrejects⟩
    · cases hc.symm.trans hgains.fresh
    · -- the name that was selected is the name of the new file
      obtain ⟨-, k, -, hleads⟩ := Filesystem.locate_eq_ok.1 hgains.place
      obtain ⟨d', hpd', -⟩ := hleads.end_of_noLinks hl List.getLast?_concat
      obtain ⟨rfl, -⟩ := List.cons.inj (hpd'.symm.trans hpd)
      exact Bool.false_ne_true ((hrejects scan hscan pat hpat).symm.trans hgains.accepted)
  met r hr := by
    cases r with
    | root => exact (Filesystem.isDirectory_put htakes _).trans hr
    | directory path => exact (Filesystem.isDirectory_put htakes _).trans hr
    | file path => exact Filesystem.isFile_put htakes hr
  place path q hq := htakes.locatePath_put hq
  opens _ h := htakes.openFault?_put h
  text q s' hq := by
    by_cases heq : q = p
    · subst heq
      exact ⟨s, htakes.node?_put_self⟩
    · exact ⟨s', (htakes.node?_put_ne heq).trans hq⟩

theorem Quiet.put (hq : Quiet root l fs) (htakes : fs.TakesFile p) :
    Quiet root l (fs.put p (.file c)) := by
  rcases hq with hfiles | ⟨hl, hrejects⟩
  · left
    intro path hpath
    exact Filesystem.isFile_put htakes (hfiles path hpath)
  · exact .inr ⟨htakes.noLinks_put hl, hrejects⟩

theorem Quiet.write {path s : String} (hq : Quiet root l fs) (hpath : path ∈ l.outputs)
    (h : fs.writeText (Path.below root path) s = .ok fs') :
    ∃ p, fs.locatePath .create (.text (Path.below root path)) = .ok p ∧
      fs.openFault? p = none ∧ fs' = fs.put p (.file (.text s)) ∧ fs.TakesFile p ∧
      Quiet root l fs' ∧ Keeps root l fs fs' := by
  obtain ⟨p, hp, hopen, rfl⟩ := Filesystem.write_eq_ok.1 h
  obtain ⟨htakes, hnew⟩ := hq.takesFile hpath hp hopen
  exact ⟨p, hp, hopen, rfl, htakes, hq.put htakes, keeps_put htakes hnew⟩

end Layout

namespace Filesystem

/-- The files after texts were written to places, one after the other. -/
def puts (fs : Filesystem) (ws : List (Place × String)) : Filesystem :=
  ws.foldl (fun fs write => fs.put write.1 (.file (.text write.2))) fs

theorem node?_puts {ws : List (Place × String)} (hws : ∀ write ∈ ws, write.1 ≠ []) (q : Place) :
    (∃ node, ∀ fs : Filesystem, (fs.puts ws).node? q = node) ∨
      ∀ fs : Filesystem, (fs.puts ws).node? q = fs.node? q := by
  induction ws with
  | nil => exact .inr fun fs => rfl
  | cons write ws ih =>
    have hrest := fun w hw => hws w (List.mem_cons_of_mem write hw)
    rcases ih hrest with ⟨node, hnode⟩ | hsame
    · exact .inl ⟨node, fun fs => hnode _⟩
    · have hput (fs : Filesystem) : (fs.puts (write :: ws)).node? q =
          if q = write.1 then some (.file (.text write.2)) else fs.node? q :=
        (hsame _).trans (fs.node?_put (hws write List.mem_cons_self) _ q)
      by_cases hq : q = write.1
      · left
        exists some (.file (.text write.2))
        intro fs
        rw [hput, if_pos hq]
      · right
        intro fs
        rw [hput, if_neg hq]

theorem node?_puts_puts {ws : List (Place × String)} (hws : ∀ write ∈ ws, write.1 ≠ [])
    (fs : Filesystem) (q : Place) : ((fs.puts ws).puts ws).node? q = (fs.puts ws).node? q := by
  rcases node?_puts hws q with ⟨node, hnode⟩ | hsame
  · rw [hnode, hnode]
  · exact hsame _

end Filesystem

/-- Stages that were completed can be completed again in any later files in which they find what
they found, and they write the same to the same places. -/
theorem Written.again {ss : List Stage} (h : Written root ss fs files)
    (hss : ∀ s ∈ ss, s ∈ l.stages) (hq : l.Quiet root fs) :
    ∃ ws : List (Place × String), (∀ write ∈ ws, write.1 ≠ []) ∧ files = fs.puts ws ∧
      l.Quiet root files ∧ l.Keeps root fs files ∧
      ∀ later, l.Quiet root later → l.Keeps root files later →
        Written root ss later (later.puts ws) := by
  induction h with
  | nil => exact ⟨[], nofun, rfl, hq, .refl, fun later _ _ => .nil⟩
  | @cons s rest fs fs₁ fs₂ doc hbuilt hwrite h ih =>
    have hs := hss s List.mem_cons_self
    have hpath : s.path ∈ l.outputs := List.mem_map_of_mem hs
    obtain ⟨p, hp, hopen, rfl, htakes, hq₁, hkeeps₁⟩ := hq.write hpath hwrite
    obtain ⟨ws, hws, rfl, hq₂, hkeeps₂, hagain⟩ :=
      ih (fun s' hs' => hss s' (List.mem_cons_of_mem s hs')) hq₁
    refine ⟨(p, Json.render doc) :: ws, ?_, rfl, hq₂, hkeeps₁.trans hkeeps₂, ?_⟩
    · intro write hmem
      rcases List.mem_cons.1 hmem with rfl | hmem
      · exact htakes.ne_nil
      · exact hws write hmem
    · intro later hqlater hkeeps
      have hall := hkeeps₁.trans (hkeeps₂.trans hkeeps)
      have hbuilt' := Stage.build_congr hs hall.scan hbuilt
      have hwrite' := Filesystem.write_eq_ok (c := .text (Json.render doc)).2
        ⟨p, hall.place _ p hp, hall.opens p hopen, rfl⟩
      obtain ⟨-, -, -, -, -, hqlater', hkeeps'⟩ := hqlater.write hpath hwrite'
      exact .cons hbuilt' hwrite' (hagain _ hqlater' (hkeeps.trans hkeeps'))

theorem Written.outputs_text {ss : List Stage} (h : Written root ss fs files)
    (hss : ∀ s ∈ ss, s ∈ l.stages) (hq : l.Quiet root fs) {s : Stage} (hs : s ∈ ss) :
    ∃ p text, files.locatePath .create (.text (Path.below root s.path)) = .ok p ∧
      files.node? p = some (.file (.text text)) := by
  induction h with
  | nil => cases hs
  | @cons s' rest fs fs₁ fs₂ doc hbuilt hwrite h ih =>
    have hpath : s'.path ∈ l.outputs := List.mem_map_of_mem (hss s' List.mem_cons_self)
    have hrest := fun s hs => hss s (List.mem_cons_of_mem s' hs)
    obtain ⟨p, hp, -, rfl, htakes, hq₁, hkeeps₁⟩ := hq.write hpath hwrite
    rcases List.mem_cons.1 hs with rfl | hs
    · obtain ⟨-, -, -, -, hkeeps₂, -⟩ := h.again hrest hq₁
      obtain ⟨text, htext⟩ := hkeeps₂.text p _ htakes.node?_put_self
      exact ⟨p, text, (hkeeps₁.trans hkeeps₂).place _ p hp, htext⟩
    · exact ih hrest hq₁ hs

theorem Written.eq_of_halts {done left : List Stage} {files' : Filesystem} {lines : List String}
    {result : Except Failure Unit} (hdone : Written root done fs files)
    (h : Written root (done ++ left) fs files') (hhalt : Halts root files left result lines) :
    result = .ok () ∧ files = files' := by
  induction hdone with
  | nil =>
    cases hhalt with
    | finished =>
      cases h
      exact ⟨rfl, rfl⟩
    | unbuilt herr =>
      obtain ⟨doc, fs₁, hbuilt, -, -⟩ := h.of_cons
      cases hbuilt.symm.trans herr
    | unwritten hbuilt herr =>
      obtain ⟨doc, fs₁, hbuilt', hwrite, -⟩ := h.of_cons
      cases hbuilt.symm.trans hbuilt'
      cases hwrite.symm.trans herr
  | cons hbuilt hwrite hdone ih =>
    obtain ⟨doc, fs₁, hbuilt', hwrite', hrest⟩ := h.of_cons
    cases hbuilt.symm.trans hbuilt'
    cases hwrite.symm.trans hwrite'
    exact ih hrest hhalt

theorem Layout.regenerate_of_written (w : World)
    (hmet : ∀ r ∈ l.requirements, r.isMet w.files root = true)
    (h : Written root l.stages w.files files) :
    (regenerate World.host root l w).1 = .ok () ∧
      (regenerate World.host root l w).2.files = files := by
  obtain ⟨result, files', lines, log, heq, hends⟩ := l.regenerate_eq root w
  rw [heq]
  cases hends with
  | @unmet met rest r hreq _ hr =>
    have hr' := hmet r (by simp [hreq])
    exact absurd hr' (by simp [hr])
  | halted _ hstages hdone hhalt =>
    rw [hstages] at h
    exact hdone.eq_of_halts h hhalt

/-- A run after a run that succeeded succeeds too, and leaves its three outputs as they are, if the
outputs were there before the first run, or if there were no links and no output has a name that is
scanned for. -/
theorem regenerate_twice (root : String) (l : Layout) (w : World)
    (hok : (regenerate World.host root l w).1 = .ok ()) (hq : l.Quiet root w.files) :
    (regenerate World.host root l (regenerate World.host root l w).2).1 = .ok () ∧
      ∀ path ∈ l.outputs, ∃ text,
        (regenerate World.host root l w).2.files.readText (Path.below root path) = .ok text ∧
        (regenerate World.host root l (regenerate World.host root l w).2).2.files.readText
          (Path.below root path) = .ok text := by
  obtain ⟨result, files, lines, log, heq, hends⟩ := l.regenerate_eq root w
  rw [heq] at hok ⊢
  cases hok
  obtain ⟨hmet, hwritten, -⟩ := hends.of_ok
  obtain ⟨ws, hws, rfl, hq₁, hkeeps, hagain⟩ := hwritten.again (fun s hs => hs) hq
  obtain ⟨hok', hfiles⟩ := Layout.regenerate_of_written (w.after (w.files.puts ws) lines log)
    (fun r hr => hkeeps.met r (hmet r hr)) (hagain _ hq₁ .refl)
  refine ⟨hok', ?_⟩
  intro path hpath
  rw [Layout.outputs_eq] at hpath
  obtain ⟨s, hs, rfl⟩ := List.mem_map.1 hpath
  rw [hfiles, World.after_files]
  obtain ⟨p, text, hp, htext⟩ := hwritten.outputs_text (fun s hs => hs) hq hs
  have htext' : ((w.files.puts ws).puts ws).node? p = some (.file (.text text)) := by
    rw [Filesystem.node?_puts_puts hws, htext]
  obtain ⟨-, -, -, -, hkeeps', -⟩ := (hagain _ hq₁ .refl).again (fun s hs => hs) hq₁
  have hp' := hkeeps'.place _ p hp
  exact ⟨text, Filesystem.readText_of_create hp htext, Filesystem.readText_of_create hp' htext'⟩

def World.project : World where
  files.nodes := [
    ([.text "trustinsoft"], .directory),
    ([.text "tests"], .directory),
    ([.text "unity", .text "tests"], .directory),
    ([.text "src", .text "unity", .text "tests"], .directory),
    ([.text "unity.c", .text "src", .text "unity", .text "tests"], .file (.text "")),
    ([.text "unity_setup.c", .text "tests"], .file (.text "")),
    ([.text "parse.c", .text "tests"], .file (.text "")),
    ([.text "fuzzing"], .directory),
    ([.text "afl.c", .text "fuzzing"], .file (.text "")),
    ([.text "inputs", .text "fuzzing"], .directory),
    ([.text "test1", .text "inputs", .text "fuzzing"], .file (.text "")),
    ([.text "cJSON.c"], .file (.text "")),
    ([.text "cJSON_Utils.c"], .file (.text ""))]

theorem Layout.quiet_project : Quiet "." {} World.project.files := by
  right
  apply And.intro
  · apply Filesystem.noLinks_of_nodes
    simp [World.project]
  · decide +kernel

theorem regenerate_project_twice :
    (regenerate World.host "." {} .project).1 = .ok () ∧
    Layout.Quiet "." {} World.project.files ∧
    (regenerate World.host "." {} (regenerate World.host "." {} .project).2).1 = .ok () ∧
      ∀ path ∈ Layout.outputs {}, ∃ text,
        (regenerate World.host "." {} .project).2.files.readText (Path.below "." path) = .ok text ∧
        (regenerate World.host "." {} (regenerate World.host "." {} .project).2).2.files.readText
          (Path.below "." path) = .ok text := by
  have hok : (regenerate World.host "." {} .project).1 = .ok () := by decide +kernel
  exact ⟨hok, Layout.quiet_project, regenerate_twice "." {} .project hok Layout.quiet_project⟩

end AnalyzerConfig
