import AnalyzerConfig.Proofs.Filesystem.Looking

namespace AnalyzerConfig.Filesystem

/-- Steps from a place on look at another place, before they end or lead no further. -/
inductive Passes (fs : Filesystem) : Place → List Step → Place → Prop
  | start {p : Place} {steps : List Step} : Passes fs p steps p
  | stay {p x : Place} {step : Step} {rest : List Step} (hd : fs.node? p = some .directory)
      (hs : step = .slash ∨ step = .here) (h : Passes fs p rest x) : Passes fs p (step :: rest) x
  | up {p x : Place} {rest : List Step} (hd : fs.node? p = some .directory)
      (h : Passes fs p.tail rest x) : Passes fs p (.up :: rest) x
  | name {p : Place} {n : Octets} {rest : List Step} (hd : fs.node? p = some .directory) :
      Passes fs p (.down n :: rest) (n :: p)
  | down {p x : Place} {n : Octets} {rest : List Step} {node : Node}
      (hd : fs.node? p = some .directory) (hn : fs.node? (n :: p) = some node)
      (hl : ∀ target, node ≠ .link target) (h : Passes fs (n :: p) rest x) :
      Passes fs p (.down n :: rest) x
  | link {p x : Place} {n target : Octets} {rest : List Step}
      (hd : fs.node? p = some .directory) (hn : fs.node? (n :: p) = some (.link target))
      (h : Passes fs (linkStart target p) ((Route.ofPath target).steps ++ rest) x) :
      Passes fs p (.down n :: rest) x

def PassesThrough (fs : Filesystem) (path : String) (x : Place) : Prop :=
  Passes fs (fs.start (Route.ofPath (.text path))) (Route.ofPath (.text path)).steps x

/-- The same lies at a place in both, but for the contents of a file. -/
def AlikeAt (fs fs' : Filesystem) (x : Place) : Prop :=
  fs.node? x = fs'.node? x ∨ ∃ c c', fs.node? x = some (.file c) ∧ fs'.node? x = some (.file c')

variable {fs fs' : Filesystem} {purpose : Purpose} {k : Nat} {p q x : Place} {steps : List Step}
variable {r : Route} {path : String}

theorem AlikeAt.directory_iff (h : AlikeAt fs fs' x) :
    fs.node? x = some .directory ↔ fs'.node? x = some .directory := by
  rcases h with heq | ⟨c, c', hc, hc'⟩
  · rw [heq]
  · simp [hc, hc']

theorem AlikeAt.file_iff (h : AlikeAt fs fs' x) :
    (∃ c, fs.node? x = some (.file c)) ↔ ∃ c, fs'.node? x = some (.file c) := by
  rcases h with heq | ⟨c, c', hc, hc'⟩
  · rw [heq]
  · simp [hc, hc']

theorem walk_of_not_directory {follow : Place → List Step → Except FileFault Place} {step : Step}
    (hp : fs.node? p ≠ some .directory) :
    fs.walk purpose follow (step :: steps) p = .error .notADirectory := by
  unfold walk
  split
  · next hd => exact absurd hd hp
  · rfl

theorem walk_of_alike {follow follow' : Place → List Step → Except FileFault Place}
    (hf : ∀ p steps, (∀ x, Passes fs p steps x → AlikeAt fs fs' x) →
      follow p steps = follow' p steps)
    (h : ∀ x, Passes fs p steps x → AlikeAt fs fs' x) :
    fs.walk purpose follow steps p = fs'.walk purpose follow' steps p := by
  induction steps generalizing p with
  | nil => rfl
  | cons step rest ih =>
    have hp := h p .start
    by_cases hd : fs.node? p = some .directory
    · have hd' := hp.directory_iff.1 hd
      unfold walk
      rw [hd, hd']
      cases step with
      | slash => exact ih fun x hx => h x (.stay hd (.inl rfl) hx)
      | here => exact ih fun x hx => h x (.stay hd (.inr rfl) hx)
      | up => exact ih fun x hx => h x (.up hd hx)
      | down n =>
        simp only
        apply if_congr Iff.rfl rfl
        -- a link hands what is left of the steps to `follow`; a file is no link, whatever it holds
        rcases h (n :: p) (.name hd) with hn | ⟨c, c', hc, hc'⟩
        · rw [← hn]
          split
          · rfl
          · next target hlink => exact hf _ _ fun x hx => h x (.link hd hlink hx)
          · next node hl hnode => exact ih fun x hx => h x (.down hd hnode hl hx)
        · rw [hc, hc']
          exact ih fun x hx => h x (.down hd hc nofun hx)
    · rw [walk_of_not_directory hd, walk_of_not_directory (mt hp.directory_iff.2 hd)]

theorem walkThrough_of_alike {links : Nat} (h : ∀ x, Passes fs p steps x → AlikeAt fs fs' x) :
    fs.walkThrough purpose links p steps = fs'.walkThrough purpose links p steps := by
  induction links generalizing p steps with
  | zero => exact walk_of_alike (fun _ _ _ => rfl) h
  | succ links ih => exact walk_of_alike (fun _ _ hx => ih hx) h

theorem locate_of_alike (hdir : fs.workingDir = fs'.workingDir)
    (h : ∀ x, Passes fs (fs.start r) r.steps x → AlikeAt fs fs' x) :
    fs.locate purpose r = fs'.locate purpose r := by
  have hwalk : fs.walkThrough purpose maxLinks (fs.start r) r.steps =
      fs'.walkThrough purpose maxLinks (fs.start r) r.steps := walkThrough_of_alike h
  unfold start at hwalk
  rw [locate, locate, hwalk, hdir]

theorem Leads.passes (h : Leads fs .find k p steps q) : Passes fs p steps q := by
  induction h with
  | done => exact .start
  | stay hd hs _ ih => exact .stay hd hs ih
  | up hd _ ih => exact .up hd ih
  | down hd _ hn hl _ ih => exact .down hd hn hl ih
  | link hd _ hn _ ih => exact .link hd hn ih
  | fresh _ hp _ _ => cases hp

theorem Leads.node?_ne_none_of_passes (h : Leads fs .find k p steps q) (hq : fs.node? q ≠ none)
    (hx : Passes fs p steps x) : fs.node? x ≠ none := by
  have hne {y : Place} {node : Node} (hy : fs.node? y = some node) : fs.node? y ≠ none := by
    rw [hy]
    exact Option.some_ne_none node
  induction h with
  | done =>
    cases hx
    exact hq
  | stay hd hs _ ih =>
    cases hx with
    | start => exact hne hd
    | stay _ _ hx => exact ih hq hx
    | up | name | down | link => rcases hs with hs | hs <;> cases hs
  | up hd _ ih =>
    cases hx with
    | start => exact hne hd
    | stay _ hs => rcases hs with hs | hs <;> cases hs
    | up _ hx => exact ih hq hx
  | down hd _ hn hl _ ih =>
    cases hx with
    | start => exact hne hd
    | stay _ hs => rcases hs with hs | hs <;> cases hs
    | name => exact hne hn
    | down _ _ _ hx => exact ih hq hx
    | link _ hlink => exact absurd (Option.some.inj (hn.symm.trans hlink)) (hl _)
  | link hd _ hn _ ih =>
    cases hx with
    | start => exact hne hd
    | stay _ hs => rcases hs with hs | hs <;> cases hs
    | name => exact hne hn
    | down _ hnode hl => exact absurd (Option.some.inj (hnode.symm.trans hn)) (hl _)
    | link _ hlink hx =>
      obtain rfl := Node.link.inj (Option.some.inj (hn.symm.trans hlink))
      exact ih hq hx
  | fresh _ hp _ _ => cases hp

theorem node?_ne_none_of_passesThrough (h : fs.locatePath .find (.text path) = .ok q)
    (hq : fs.node? q ≠ none) (hx : fs.PassesThrough path x) : fs.node? x ≠ none := by
  obtain ⟨-, -, k, -, hl⟩ := (locatePath_eq_ok.1 h).imp_right locate_eq_ok.1
  exact hl.node?_ne_none_of_passes hq hx

theorem passesThrough_of_locatePath (h : fs.locatePath .find (.text path) = .ok q) :
    fs.PassesThrough path q := by
  obtain ⟨-, -, k, -, hl⟩ := (locatePath_eq_ok.1 h).imp_right locate_eq_ok.1
  exact hl.passes

section

variable (hdir : fs.workingDir = fs'.workingDir)
  (h : ∀ x, fs.PassesThrough path x → AlikeAt fs fs' x)
include hdir h

theorem locatePath_of_alike :
    fs.locatePath purpose (.text path) = fs'.locatePath purpose (.text path) := by
  have hlocate : fs.locate purpose (Route.ofPath (.text path)) =
      fs'.locate purpose (Route.ofPath (.text path)) := locate_of_alike hdir h
  rw [locatePath, locatePath, hlocate]

theorem isDirectory_of_alike : fs.isDirectory path = fs'.isDirectory path := by
  apply Bool.eq_iff_iff.2
  rw [isDirectory_iff, isDirectory_iff, ← locatePath_of_alike hdir h]
  apply exists_congr
  intro q
  apply and_congr_right
  intro hq
  exact (h q (passesThrough_of_locatePath hq)).directory_iff

theorem isFile_of_alike : fs.isFile path = fs'.isFile path := by
  apply Bool.eq_iff_iff.2
  rw [isFile_iff, isFile_iff, ← locatePath_of_alike hdir h]
  apply exists_congr
  intro q
  rw [exists_and_left, exists_and_left]
  apply and_congr_right
  intro hq
  exact (h q (passesThrough_of_locatePath hq)).file_iff

end

def LeadsTo (fs : Filesystem) (path : String) (node : Node) : Prop :=
  ∃ p, fs.locatePath .find (.text path) = .ok p ∧ fs.node? p = some node

/-- A path is there in both or in neither, and what can be read there is the same. -/
structure ReadsAlike (fs fs' : Filesystem) (path : String) : Prop where
  there : fs.pathExists path = fs'.pathExists path
  text : fs.pathExists path → fs.readText path = fs'.readText path

theorem pathExists_iff : fs.pathExists path ↔ ∃ p, fs.locatePath .find (.text path) = .ok p := by
  unfold pathExists
  cases fs.locatePath .find (.text path) with
  | error fault => exact iff_of_false nofun nofun
  | ok p => exact iff_of_true rfl ⟨p, rfl⟩

theorem LeadsTo.pathExists {node : Node} (h : fs.LeadsTo path node) : fs.pathExists path := by
  obtain ⟨p, hp, -⟩ := h
  exact pathExists_iff.2 ⟨p, hp⟩

def readNode : Node → Except FileFault String
  | .file (.text s) => .ok s
  | .file (.raw _ _) => .error .notText
  | .link _ => .error .notText
  | .directory => .error .isADirectory
  | .socket => .error .noSuchDevice

theorem LeadsTo.readText {node : Node} (h : fs.LeadsTo path node) :
    fs.readText path = readNode node := by
  obtain ⟨p, hp, hnode⟩ := h
  simp only [Filesystem.readText, hp, openFault?, hnode]
  cases node with
  | directory | socket | link => rfl
  | file c => cases c <;> rfl

/-- A path reads the same if the same lies at all places that it passes. -/
theorem readsAlike_of_passes (hdir : fs.workingDir = fs'.workingDir)
    (h : ∀ x, fs.PassesThrough path x → fs.node? x = fs'.node? x) : ReadsAlike fs fs' path := by
  have hlocate : fs.locatePath .find (.text path) = fs'.locatePath .find (.text path) :=
    locatePath_of_alike hdir fun x hx => .inl (h x hx)
  refine ⟨by rw [pathExists, pathExists, hlocate], fun hthere => ?_⟩
  obtain ⟨p, hp⟩ := pathExists_iff.1 hthere
  have hnode := h p (passesThrough_of_locatePath hp)
  simp only [readText, ← hlocate, hp, openFault?, hnode]

end AnalyzerConfig.Filesystem
