import AnalyzerConfig.Proofs.Run.Exclusion
import AnalyzerConfig.Proofs.Toml.Keys

namespace AnalyzerConfig

variable {a : Arguments} {workingDir : String} {w : World} {t : Toml.Table} {v : Toml.Value}
variable {o o' : Layout.Overrides} {l : Layout}

namespace Layout

inductive Setting where
  | toolDir
  | testDir
  | fuzzInputDir
  | patchFixtureDir
  | inputFixtureDir
  | inputPrefix
  | commonSources
  | includeDirs
  | defines
  | undefines
  | recursionDepth
  | fuzzSources
  | fuzzHarness
  | excludedTests

namespace Setting

def key : Setting → String
  | .toolDir => "tool_dir"
  | .testDir => "test_dir"
  | .fuzzInputDir => "fuzz_input_dir"
  | .patchFixtureDir => "patch_fixture_dir"
  | .inputFixtureDir => "input_fixture_dir"
  | .inputPrefix => "input_prefix"
  | .commonSources => "common_sources"
  | .includeDirs => "include_dirs"
  | .defines => "defines"
  | .undefines => "undefines"
  | .recursionDepth => "max_recursion_depth"
  | .fuzzSources => "fuzz_sources"
  | .fuzzHarness => "fuzz_harness"
  | .excludedTests => "excluded_tests"

abbrev type : Setting → Type
  | .toolDir | .testDir | .fuzzInputDir | .patchFixtureDir | .inputFixtureDir | .inputPrefix
  | .fuzzHarness => String
  | .commonSources | .includeDirs | .defines | .undefines | .fuzzSources | .excludedTests =>
    List String
  | .recursionDepth => UInt32

def read? (v : Toml.Value) : (s : Setting) → Option s.type
  | .toolDir | .testDir | .fuzzInputDir | .patchFixtureDir | .inputFixtureDir | .inputPrefix
  | .fuzzHarness => v.string?
  | .commonSources | .includeDirs | .defines | .undefines | .fuzzSources | .excludedTests =>
    v.strings?
  | .recursionDepth => v.word?

def field (l : Layout) : (s : Setting) → s.type
  | .toolDir => l.toolDir
  | .testDir => l.testDir
  | .fuzzInputDir => l.fuzzInputDir
  | .patchFixtureDir => l.patchFixtureDir
  | .inputFixtureDir => l.inputFixtureDir
  | .inputPrefix => l.inputPrefix
  | .commonSources => l.commonSources
  | .includeDirs => l.includeDirs
  | .defines => l.defines
  | .undefines => l.undefines
  | .recursionDepth => l.recursionDepth
  | .fuzzSources => l.fuzzSources
  | .fuzzHarness => l.fuzzHarness
  | .excludedTests => l.excludedTests

def override (o : Overrides) : (s : Setting) → Option s.type
  | .toolDir => o.toolDir
  | .testDir => o.testDir
  | .fuzzInputDir => o.fuzzInputDir
  | .patchFixtureDir => o.patchFixtureDir
  | .inputFixtureDir => o.inputFixtureDir
  | .inputPrefix => o.inputPrefix
  | .commonSources => o.commonSources
  | .includeDirs => o.includeDirs
  | .defines => o.defines
  | .undefines => o.undefines
  | .recursionDepth => o.recursionDepth
  | .fuzzSources => o.fuzzSources
  | .fuzzHarness => o.fuzzHarness
  | .excludedTests => o.excludedTests

def put (o : Overrides) : (s : Setting) → s.type → Overrides
  | .toolDir, x => { o with toolDir := some x }
  | .testDir, x => { o with testDir := some x }
  | .fuzzInputDir, x => { o with fuzzInputDir := some x }
  | .patchFixtureDir, x => { o with patchFixtureDir := some x }
  | .inputFixtureDir, x => { o with inputFixtureDir := some x }
  | .inputPrefix, x => { o with inputPrefix := some x }
  | .commonSources, x => { o with commonSources := some x }
  | .includeDirs, x => { o with includeDirs := some x }
  | .defines, x => { o with defines := some x }
  | .undefines, x => { o with undefines := some x }
  | .recursionDepth, x => { o with recursionDepth := some x }
  | .fuzzSources, x => { o with fuzzSources := some x }
  | .fuzzHarness, x => { o with fuzzHarness := some x }
  | .excludedTests, x => { o with excludedTests := some x }

/-- What a run makes of a setting: paths get their normal form, and more tests may be excluded. -/
def resolve (excluded : List String) : (s : Setting) → s.type → s.type
  | .toolDir, p | .testDir, p | .fuzzInputDir, p | .patchFixtureDir, p | .inputFixtureDir, p
  | .fuzzHarness, p => Path.normalize p
  | .commonSources, ps | .fuzzSources, ps => ps.map Path.normalize
  | .excludedTests, names => mergeNames names excluded
  | .inputPrefix, x => x
  | .includeDirs, x | .defines, x | .undefines, x => x
  | .recursionDepth, x => x

theorem key_injective : Function.Injective key := by
  intro s s' h
  cases s <;> cases s' <;> first | rfl | exact absurd h (by decide)

theorem override_empty (s : Setting) : s.override {} = none := by
  cases s <;> rfl

theorem override_put_self (s : Setting) (x : s.type) (o : Overrides) :
    s.override (s.put o x) = some x := by
  cases s <;> rfl

theorem override_put_of_ne {s s' : Setting} (h : s' ≠ s) (x : s.type) (o : Overrides) :
    s'.override (s.put o x) = s'.override o := by
  cases s <;> cases s' <;> first | rfl | exact absurd rfl h

theorem field_apply (s : Setting) (o : Overrides) (l : Layout) :
    s.field (o.apply l) = (s.override o).getD (s.field l) := by
  cases s <;> rfl

theorem field_resolved (s : Setting) (o : Overrides) (excludeTests : Option (List String)) :
    s.field (resolved o excludeTests) =
      s.resolve (excludeTests.getD []) (s.field (o.apply {})) := by
  cases s <;> rfl

/-- What a table gives for a setting. -/
def given (t : Toml.Table) (s : Setting) : Option s.type := (t.lookup s.key).bind fun v => s.read? v

end Setting

/-- A table that sets settings only, each to a value of its type. -/
def IsTable (t : Toml.Table) : Prop :=
  ∀ member ∈ t, ∃ s : Setting, s.key = member.1 ∧ ∃ x, s.read? member.2 = some x

namespace Overrides

theorem set?_key (o : Overrides) (s : Setting) (v : Toml.Value) :
    o.set? s.key v = (s.read? v).map (s.put o) := by
  cases s <;> rfl

theorem set?_of_unknown {key : String} (h : ∀ s : Setting, s.key ≠ key) (o : Overrides)
    (v : Toml.Value) : o.set? key v = none := by
  unfold set?
  split
  · exact absurd rfl (h .toolDir)
  · exact absurd rfl (h .testDir)
  · exact absurd rfl (h .fuzzInputDir)
  · exact absurd rfl (h .patchFixtureDir)
  · exact absurd rfl (h .inputFixtureDir)
  · exact absurd rfl (h .inputPrefix)
  · exact absurd rfl (h .commonSources)
  · exact absurd rfl (h .includeDirs)
  · exact absurd rfl (h .defines)
  · exact absurd rfl (h .undefines)
  · exact absurd rfl (h .recursionDepth)
  · exact absurd rfl (h .fuzzSources)
  · exact absurd rfl (h .fuzzHarness)
  · exact absurd rfl (h .excludedTests)
  · rfl

theorem set?_eq_some {key : String} :
    o.set? key v = some o' ↔
      ∃ s : Setting, s.key = key ∧ ∃ x, s.read? v = some x ∧ s.put o x = o' := by
  by_cases hkey : ∃ s : Setting, s.key = key
  · obtain ⟨s, rfl⟩ := hkey
    rw [set?_key, Option.map_eq_some_iff]
    apply Iff.intro
    · intro h
      exact ⟨s, rfl, h⟩
    · rintro ⟨s', hkey, h⟩
      rwa [← Setting.key_injective hkey]
  · rw [set?_of_unknown (not_exists.1 hkey)]
    apply Iff.intro
    · intro h
      cases h
    · rintro ⟨s, hs, -⟩
      exact absurd ⟨s, hs⟩ hkey

/-- A table with distinct keys sets each setting to what it gives for it. -/
theorem exists_foldlM_set? (ht : IsTable t) (hd : Toml.Distinct t) (o : Overrides) :
    ∃ o', t.foldlM (fun o member => o.set? member.1 member.2) o = some o' ∧
      ∀ s : Setting, s.override o' = (s.given t).or (s.override o) := by
  induction t generalizing o with
  | nil => exact ⟨o, rfl, fun s => rfl⟩
  | cons member t ih =>
    obtain ⟨s, hkey, x, hx⟩ := ht member List.mem_cons_self
    have hrest : IsTable t := fun other hother => ht other (List.mem_cons_of_mem _ hother)
    obtain ⟨o', ho', hset⟩ := ih hrest (List.nodup_cons.1 hd).2 (s.put o x)
    have hstep : o.set? member.1 member.2 = some (s.put o x) := by
      rw [← hkey, set?_key, hx, Option.map_some]
    refine ⟨o', by rw [List.foldlM_cons, hstep]; exact ho', fun s' => ?_⟩
    rw [hset]
    by_cases hs : s' = s
    · subst hs
      have hlater := hd.lookup_cons
      rw [← hkey] at hlater
      rw [Setting.override_put_self, Setting.given, Setting.given, hlater, List.lookup_cons, hkey,
        beq_self_eq_true]
      simp only [Option.bind_none, Option.none_or, Option.bind_some, hx, Option.some_or]
    · have hother : (s'.key == member.1) = false := by
        rw [beq_eq_false_iff_ne, ← hkey]
        exact fun heq => hs (Setting.key_injective heq)
      rw [Setting.override_put_of_ne hs, Setting.given, Setting.given, List.lookup_cons, hother]

theorem exists_ofTable? (ht : IsTable t) (hd : Toml.Distinct t) :
    ∃ o, ofTable? t = some o ∧ ∀ s : Setting, s.override o = s.given t := by
  obtain ⟨o, ho, hset⟩ := exists_foldlM_set? ht hd {}
  refine ⟨o, ho, fun s => ?_⟩
  rw [hset, Setting.override_empty, Option.or_none]

theorem ofText?_eq_some {text : String} :
    ofText? text = some o ↔ ∃ t, Toml.parse? text = some t ∧ ofTable? t = some o :=
  Option.bind_eq_some_iff

theorem isTable_of_foldlM (h : t.foldlM (fun o member => o.set? member.1 member.2) o = some o') :
    IsTable t := by
  induction t generalizing o with
  | nil => exact nofun
  | cons member t ih =>
    rw [List.foldlM_cons] at h
    obtain ⟨next, hnext, h⟩ := Option.bind_eq_some_iff.1 h
    obtain ⟨s, hkey, x, hx, -⟩ := set?_eq_some.1 hnext
    exact List.forall_mem_cons.2 ⟨⟨s, hkey, x, hx⟩, ih h⟩

end Overrides

theorem Setting.given_eq_some {s : Setting} (ht : IsTable t) (hv : t.lookup s.key = some v) :
    ∃ x, s.read? v = some x ∧ s.given t = some x := by
  obtain ⟨before, after, rfl, -⟩ := List.lookup_eq_some_iff.1 hv
  obtain ⟨s', hkey, x, hx⟩ := ht (s.key, v) (by simp)
  obtain rfl := key_injective hkey
  exact ⟨x, hx, by rw [given, hv, Option.bind_some, hx]⟩

end Layout

/-- A table is what the layout file of a run holds. If the file may be missing, and is, the table is
empty. -/
def Arguments.ReadsTable (a : Arguments) (workingDir : String) (w : World) (t : Toml.Table) :
    Prop :=
  let (path, required) := a.layoutFile (a.root.getD workingDir)
  match (World.host.layoutSource path w).1 with
  | .text s => Toml.parse? s = some t
  | .missing => required = false ∧ t = []
  | .unreadable _ => False

theorem Arguments.readsTable_of_text {path text : String} {required : Bool}
    (hfile : a.layoutFile (a.root.getD workingDir) = (path, required))
    (hsource : (World.host.layoutSource path w).1 = .text text) (h : Toml.parse? text = some t) :
    a.ReadsTable workingDir w t := by
  unfold ReadsTable
  rw [hfile]
  simp only [hsource]
  exact h

theorem Arguments.ReadsTable.distinct (h : a.ReadsTable workingDir w t) : Toml.Distinct t := by
  unfold ReadsTable at h
  simp only at h
  split at h
  · exact Toml.distinct_of_parse h
  · rw [h.2]
    exact List.nodup_nil
  · exact h.elim

theorem Arguments.ReadsTable.overrides (h : a.ReadsTable workingDir w t)
    (ho : Layout.Overrides.ofTable? t = some o) : a.overrides workingDir w = .ok o := by
  unfold ReadsTable at h
  unfold Arguments.overrides
  simp only at h ⊢
  split at h
  · next text htext =>
    have htable : Layout.Overrides.ofText? text = some o :=
      Layout.Overrides.ofText?_eq_some.2 ⟨t, h, ho⟩
    rw [htext, LayoutSource.overrides, htable]
  · next hmissing =>
    obtain ⟨hrequired, rfl⟩ := h
    cases ho
    rw [hmissing, LayoutSource.overrides, hrequired]
    rfl
  · exact h.elim

theorem Arguments.ReadsTable.exists_layout (h : a.ReadsTable workingDir w t)
    (ht : Layout.IsTable t) :
    ∃ l, (resolveConfig World.host a workingDir w).1 = .ok ⟨a.root.getD workingDir, l⟩ ∧
      (∀ s : Layout.Setting, s.field l =
        s.resolve (a.excludeTests.getD []) ((s.given t).getD (s.field {}))) ∧
      l.normalized = l := by
  obtain ⟨o, ho, hset⟩ := Layout.Overrides.exists_ofTable? ht h.distinct
  refine ⟨Layout.resolved o a.excludeTests, ?_, fun s => ?_, Layout.normalized_resolved _ _⟩
  · rw [resolveConfig_fst, h.overrides ho]
    rfl
  · rw [Layout.Setting.field_resolved, Layout.Setting.field_apply, hset]

/-- The layout of a run has the value of the layout file in each field whose key is there, and the
default in each other, as the run resolves it. A key has a part in its own field alone. The layout
is in its normal form, so that all steps of the run see the same paths. -/
theorem resolveConfig_settings (h : a.ReadsTable workingDir w t) (ht : Layout.IsTable t) :
    ∃ l, (resolveConfig World.host a workingDir w).1 = .ok ⟨a.root.getD workingDir, l⟩ ∧
      (∀ s : Layout.Setting,
        (∀ v, t.lookup s.key = some v → ∃ x, s.read? v = some x ∧
          s.field l = s.resolve (a.excludeTests.getD []) x) ∧
        (t.lookup s.key = none →
          s.field l = s.resolve (a.excludeTests.getD []) (s.field {}))) ∧
      (∀ (s : Layout.Setting) w' t', a.ReadsTable workingDir w' t' → Layout.IsTable t' →
        (∀ key ≠ s.key, t'.lookup key = t.lookup key) →
        ∃ l', (resolveConfig World.host a workingDir w').1 = .ok ⟨a.root.getD workingDir, l'⟩ ∧
          ∀ s' ≠ s, s'.field l' = s'.field l) ∧
      l.normalized = l := by
  obtain ⟨l, hl, hfields, hnormal⟩ := h.exists_layout ht
  refine ⟨l, hl, fun s => ⟨fun v hv => ?_, fun hnone => ?_⟩, ?_, hnormal⟩
  · obtain ⟨x, hx, hgiven⟩ := Layout.Setting.given_eq_some ht hv
    exact ⟨x, hx, by rw [hfields, hgiven, Option.getD_some]⟩
  · rw [hfields, Layout.Setting.given, hnone, Option.bind_none, Option.getD_none]
  · intro s w' t' h' ht' hagree
    obtain ⟨l', hl', hfields', -⟩ := h'.exists_layout ht'
    refine ⟨l', hl', fun s' hs => ?_⟩
    have hkey : s'.key ≠ s.key := fun heq => hs (Layout.Setting.key_injective heq)
    rw [hfields, hfields', Layout.Setting.given, Layout.Setting.given, hagree _ hkey]

def Layout.settingsText : String := "test_dir = \"./t/\"\nexcluded_tests = [\"a.c\"]\n"

def World.configured : World where
  files := { nodes := [([.text "trustinsoft"], .directory),
    ([.text "regenerate.toml", .text "trustinsoft"], .file (.text Layout.settingsText))] }

/-- Arguments that exclude a test there, and once more the test that the file excludes. -/
def Arguments.configured : Arguments where
  root := some "."
  excludeTests := some ["b.c", "a.c"]

theorem resolveConfig_configured :
    ∃ t, Arguments.configured.ReadsTable "/" .configured t ∧ Layout.IsTable t ∧
      (resolveConfig World.host .configured "/" .configured).1 =
        .ok ⟨".", { testDir := "t", excludedTests := ["a.c", "b.c"] }⟩ ∧
      ∀ s : Layout.Setting,
        (∀ v, t.lookup s.key = some v → ∃ x, s.read? v = some x ∧
          s.field { testDir := "t", excludedTests := ["a.c", "b.c"] } =
            s.resolve ["b.c", "a.c"] x) ∧
        (t.lookup s.key = none →
          s.field { testDir := "t", excludedTests := ["a.c", "b.c"] } =
            s.resolve ["b.c", "a.c"] (s.field {})) := by
  have htext : Layout.Overrides.ofText? Layout.settingsText =
      some { testDir := some "./t/", excludedTests := some ["a.c"] } := by decide +kernel
  have hfile : Arguments.configured.layoutFile (Arguments.configured.root.getD "/") =
      ("./trustinsoft/regenerate.toml", false) := by decide +kernel
  have hsource : (World.host.layoutSource "./trustinsoft/regenerate.toml" .configured).1 =
      .text Layout.settingsText := by decide +kernel
  have hconfig : (resolveConfig World.host .configured "/" .configured).1 =
      .ok ⟨".", { testDir := "t", excludedTests := ["a.c", "b.c"] }⟩ := by decide +kernel
  obtain ⟨t, hparse, htable⟩ := Layout.Overrides.ofText?_eq_some.1 htext
  have hreads : Arguments.configured.ReadsTable "/" .configured t := by
    apply Arguments.readsTable_of_text
    · exact hfile
    · exact hsource
    · exact hparse
  have ht := Layout.Overrides.isTable_of_foldlM htable
  obtain ⟨l, hl, hfields, -⟩ := resolveConfig_settings hreads ht
  rw [hconfig, Except.ok.injEq, RunConfig.mk.injEq] at hl
  obtain ⟨-, rfl⟩ := hl
  exact ⟨t, hreads, ht, hconfig, hfields⟩

end AnalyzerConfig
