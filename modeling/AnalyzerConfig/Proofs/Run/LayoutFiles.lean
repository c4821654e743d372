import AnalyzerConfig.Proofs.Filesystem.Below
import AnalyzerConfig.Proofs.Filesystem.Passing
import AnalyzerConfig.Proofs.Run.Exclusion

namespace AnalyzerConfig

variable {fs : Filesystem} {w w' : World} {a : Arguments} {workingDir root path text : String}
variable {d : Place}

namespace Filesystem

/-- A root directory in which there is no layout file, whatever the reason. -/
inductive LacksLayoutFile (fs : Filesystem) (d : Place) : Prop
  | noDirectory (h : fs.node? (.text "trustinsoft" :: d) = none)
  | parentIsFile {c : Octets} (h : fs.node? (.text "trustinsoft" :: d) = some (.file c))
  | noFile (hd : fs.node? (.text "trustinsoft" :: d) = some .directory)
      (h : fs.node? (.text "regenerate.toml" :: .text "trustinsoft" :: d) = none)
  | danglingLink {target : Octets} (hd : fs.node? (.text "trustinsoft" :: d) = some .directory)
      (h : fs.node? (.text "regenerate.toml" :: .text "trustinsoft" :: d) = some (.link target))
      (hno : ∀ k q, ¬ Leads fs .find k (linkStart target (.text "trustinsoft" :: d))
        (Route.ofPath target).steps q)

theorem LacksLayoutFile.not_leads (h : fs.LacksLayoutFile d) {k : Nat} {q : Place} :
    ¬ Leads fs .find k d [.down (.text "trustinsoft"), .down (.text "regenerate.toml")] q := by
  intro hleads
  have hparent := hleads.of_down
  cases h with
  | noDirectory h => rcases hparent with ⟨_, hn, -⟩ | ⟨_, _, hn, -⟩ <;> cases h.symm.trans hn
  | parentIsFile h =>
    rcases hparent with ⟨_, -, -, hrest⟩ | ⟨_, _, hn, -⟩
    · have hend := hrest.eq_of_not_directory (by rw [h]; exact nofun)
      cases hend.1
    · cases h.symm.trans hn
  | noFile hd h =>
    rcases hparent with ⟨_, -, -, hrest⟩ | ⟨_, _, hn, -⟩
    · rcases hrest.of_down with ⟨_, hn, -⟩ | ⟨_, _, hn, -⟩ <;> cases h.symm.trans hn
    · cases hd.symm.trans hn
  | danglingLink hd h hno =>
    rcases hparent with ⟨_, -, -, hrest⟩ | ⟨_, _, hn, -⟩
    · rcases hrest.of_down with ⟨_, hn, hl, -⟩ | ⟨_, _, hn, htarget⟩
      · exact hl _ (Option.some.inj (hn.symm.trans h))
      · obtain rfl := Node.link.inj (Option.some.inj (h.symm.trans hn))
        rw [List.append_nil] at htarget
        exact hno _ _ htarget
    · cases hd.symm.trans hn

theorem RootAt.not_pathExists (h : fs.RootAt root d) (hlacks : fs.LacksLayoutFile d) :
    ¬ fs.pathExists (Path.below root "trustinsoft/regenerate.toml") := by
  intro hthere
  obtain ⟨q, hq⟩ := pathExists_iff.1 hthere
  obtain ⟨k, -, hleads⟩ := h.leads_of_below (by decide) hq
  have hsteps : Path.steps "trustinsoft/regenerate.toml" =
      [.down (.text "trustinsoft"), .down (.text "regenerate.toml")] := by decide
  rw [hsteps] at hleads
  exact hlacks.not_leads hleads

end Filesystem

theorem layoutSource_of_missing (h : ¬ w.files.pathExists path) :
    (World.host.layoutSource path w).1 = .missing := by
  have hexists : World.host.pathExists path w = (w.files.pathExists path, w) := rfl
  rw [Host.layoutSource, World.bind_eq hexists, if_neg h]
  rfl

theorem layoutSource_of_there (h : w.files.pathExists path) :
    (World.host.layoutSource path w).1 =
      match w.files.readText path with
      | .error fault => .unreadable fault
      | .ok text => .text text := by
  have hexists : World.host.pathExists path w = (w.files.pathExists path, w) := rfl
  have hread : World.host.readText path w = (w.files.readText path, w) := rfl
  rw [Host.layoutSource, World.bind_eq hexists, if_pos h, World.bind_eq hread]
  cases w.files.readText path <;> rfl

theorem layoutSource_congr (h : w.files.ReadsAlike w'.files path) :
    (World.host.layoutSource path w).1 = (World.host.layoutSource path w').1 := by
  by_cases hthere : w.files.pathExists path
  · rw [layoutSource_of_there hthere, layoutSource_of_there (h.there ▸ hthere), h.text hthere]
  · rw [layoutSource_of_missing hthere, layoutSource_of_missing (h.there ▸ hthere)]

theorem layoutSource_of_leadsTo {node : Node} (h : w.files.LeadsTo path node) :
    (World.host.layoutSource path w).1 =
      match Filesystem.readNode node with
      | .error fault => .unreadable fault
      | .ok text => .text text := by
  rw [layoutSource_of_there h.pathExists, h.readText]

def Arguments.layoutPath (a : Arguments) (workingDir : String) : String :=
  (a.layoutFile (a.root.getD workingDir)).1

theorem resolveConfig_congr (h : w.files.ReadsAlike w'.files (a.layoutPath workingDir)) :
    (resolveConfig World.host a workingDir w).1 = (resolveConfig World.host a workingDir w').1 := by
  have hsource := layoutSource_congr h
  unfold Arguments.layoutPath at hsource
  rw [resolveConfig_fst, resolveConfig_fst, Arguments.overrides, Arguments.overrides]
  simp only [hsource]

theorem resolveConfig_of_source {source : LayoutSource}
    (h : (World.host.layoutSource (a.layoutPath workingDir) w).1 = source) :
    (resolveConfig World.host a workingDir w).1 =
      (source.overrides (a.layoutPath workingDir) a.layout.isSome).map fun o =>
        ⟨a.root.getD workingDir, Layout.resolved o a.excludeTests⟩ := by
  have hrequired : (a.layoutFile (a.root.getD workingDir)).2 = a.layout.isSome := by
    unfold Arguments.layoutFile
    cases a.layout <;> rfl
  rw [resolveConfig_fst, Arguments.overrides, ← h, ← hrequired]
  rfl

theorem resolveConfig_of_missing (h : ¬ w.files.pathExists (a.layoutPath workingDir)) :
    (resolveConfig World.host a workingDir w).1 =
      if a.layout.isSome then .error (.missingLayout (a.layoutPath workingDir))
      else .ok ⟨a.root.getD workingDir, Layout.resolved {} a.excludeTests⟩ := by
  rw [resolveConfig_of_source (layoutSource_of_missing h), LayoutSource.overrides]
  cases a.layout.isSome <;> rfl

theorem resolveConfig_of_unreadable {node : Node} {fault : FileFault}
    (h : w.files.LeadsTo (a.layoutPath workingDir) node)
    (hfault : Filesystem.readNode node = .error fault) :
    (resolveConfig World.host a workingDir w).1 =
      .error (.unreadableLayout (a.layoutPath workingDir) fault) := by
  rw [resolveConfig_of_source (layoutSource_of_leadsTo h), hfault]
  rfl

theorem resolveConfig_of_text (h : w.files.LeadsTo (a.layoutPath workingDir) (.file (.text text))) :
    (resolveConfig World.host a workingDir w).1 =
      match Layout.Overrides.ofText? text with
      | none => .error (.illFormedLayout (a.layoutPath workingDir))
      | some o => .ok ⟨a.root.getD workingDir, Layout.resolved o a.excludeTests⟩ := by
  rw [resolveConfig_of_source (layoutSource_of_leadsTo h)]
  simp only [Filesystem.readNode, LayoutSource.overrides]
  cases Layout.Overrides.ofText? text <;> rfl

/-- One path decides about the configuration of a run: no other files have a part in it, as long as
that path is there or not and reads as it does. If the arguments give the path, it has to be there.
If they do not, and nothing is there, the defaults hold; but what is there has to be a file, a text
and a layout in any case. -/
theorem resolveConfig_one_file (a : Arguments) (workingDir : String) (w : World) :
    let root := a.root.getD workingDir
    let path := a.layoutPath workingDir
    let result := (resolveConfig World.host a workingDir w).1
    (∀ w' : World, w.files.ReadsAlike w'.files path →
      (resolveConfig World.host a workingDir w').1 = result) ∧
    (∀ w' : World, w.files.workingDir = w'.files.workingDir →
      (∀ p, w.files.PassesThrough path p → w.files.node? p = w'.files.node? p) →
      (resolveConfig World.host a workingDir w').1 = result) ∧
    (∀ given, a.layout = some given → path = given ∧
      (¬ w.files.pathExists path → result = .error (.missingLayout path))) ∧
    (a.layout = none → path = Path.below root "trustinsoft/regenerate.toml" ∧
      (¬ w.files.pathExists path → result = .ok ⟨root, { Layout.normalized {} with
        excludedTests := mergeNames ["unity_setup.c"] (a.excludeTests.getD []) }⟩) ∧
      ∀ d, w.files.RootAt root d → w.files.LacksLayoutFile d → ¬ w.files.pathExists path) ∧
    (w.files.LeadsTo path .directory → result = .error (.unreadableLayout path .isADirectory)) ∧
    (∀ bytes h, w.files.LeadsTo path (.file (.raw bytes h)) →
      result = .error (.unreadableLayout path .notText)) ∧
    ∀ text, w.files.LeadsTo path (.file (.text text)) → Layout.Overrides.ofText? text = none →
      result = .error (.illFormedLayout path) := by
  intro root path result
  refine ⟨fun w' h => (resolveConfig_congr h).symm, ?_, ?_, ?_, ?_, ?_, ?_⟩
  · intro w' hdir h
    exact (resolveConfig_congr (Filesystem.readsAlike_of_passes hdir h)).symm
  · intro given hgiven
    have hpath : path = given := by
      show (a.layoutFile root).1 = given
      rw [Arguments.layoutFile, hgiven]
    refine ⟨hpath, fun hmissing => ?_⟩
    exact (resolveConfig_of_missing hmissing).trans (by rw [hgiven]; rfl)
  · intro hnone
    have hpath : path = Path.below root "trustinsoft/regenerate.toml" := by
      show (a.layoutFile root).1 = _
      rw [Arguments.layoutFile, hnone]
    refine ⟨hpath, fun hmissing => ?_, fun d hroot hlacks => ?_⟩
    · exact (resolveConfig_of_missing hmissing).trans (by rw [hnone]; rfl)
    · rw [hpath]
      exact hroot.not_pathExists hlacks
  · intro h
    exact resolveConfig_of_unreadable h rfl
  · intro bytes invalid h
    exact resolveConfig_of_unreadable h rfl
  · intro text h htext
    exact (resolveConfig_of_text h).trans (by rw [htext])

/-- A world with a layout file at its root. -/
def World.layoutAtRoot : World where
  files.nodes := [([.text "layout.toml"],
    .file (.text "tool_dir = \"tools\"\nexcluded_tests = [\"a.c\", \"b.c\"]\n"))]

/-- The same with another one, which is no layout, where a run looks for one by default. -/
def World.layoutTwice : World where
  files.nodes := World.layoutAtRoot.files.nodes ++ [([.text "trustinsoft"], .directory),
    ([.text "regenerate.toml", .text "trustinsoft"], .file (.text "tool_dir = 1\n"))]

theorem resolveConfig_layoutTwice :
    (resolveConfig World.host { layout := some "layout.toml", excludeTests := some ["b.c", "c.c"] }
        "/" .layoutTwice).1 =
      .ok ⟨"/", { toolDir := "tools", excludedTests := ["a.c", "b.c", "c.c"] }⟩ ∧
    (resolveConfig World.host {} "/" .layoutTwice).1 =
      .error (.illFormedLayout "/trustinsoft/regenerate.toml") ∧
    (resolveConfig World.host { excludeTests := some ["b.c", "unity_setup.c"] } "/"
        .layoutAtRoot).1 = .ok ⟨"/", { excludedTests := ["unity_setup.c", "b.c"] }⟩ := by
  refine ⟨?_, ?_, ?_⟩
  · obtain ⟨hsame, -⟩ := resolveConfig_one_file
      { layout := some "layout.toml", excludeTests := some ["b.c", "c.c"] } "/" World.layoutAtRoot
    have hreads : World.layoutAtRoot.files.ReadsAlike World.layoutTwice.files "layout.toml" :=
      ⟨by decide +kernel, fun _ => by decide +kernel⟩
    apply (hsame World.layoutTwice hreads).trans
    decide +kernel
  · obtain ⟨-, -, -, -, -, -, hno⟩ := resolveConfig_one_file {} "/" World.layoutTwice
    apply hno "tool_dir = 1\n"
    · exact ⟨[.text "regenerate.toml", .text "trustinsoft"], by decide +kernel, rfl⟩
    · decide +kernel
  · obtain ⟨-, -, -, hdefault, -⟩ := resolveConfig_one_file
      { excludeTests := some ["b.c", "unity_setup.c"] } "/" World.layoutAtRoot
    obtain ⟨-, hmissing, hlacks⟩ := hdefault rfl
    have hroot : World.layoutAtRoot.files.RootAt "/" [] := ⟨by decide +kernel, rfl⟩
    apply (hmissing (hlacks [] hroot (.noDirectory rfl))).trans
    decide +kernel

end AnalyzerConfig
