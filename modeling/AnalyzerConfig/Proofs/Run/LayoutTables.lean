import AnalyzerConfig.Proofs.Run.LayoutFiles
import AnalyzerConfig.Proofs.Run.Settings
import Mathlib.Data.Set.List

namespace AnalyzerConfig

variable {w : World} {path text : String} {t : Toml.Table} {v : Toml.Value} {o : Layout.Overrides}

namespace Toml.Value

theorem string?_eq_some {s : String} : v.string? = some s ↔ v = .string s := by
  cases v <;> simp [string?]

theorem mapM_string?_eq_some {items : List Value} {ss : List String} :
    items.mapM string? = some ss ↔ items = ss.map .string := by
  induction items generalizing ss with
  | nil => cases ss <;> simp
  | cons item items ih =>
    rw [List.mapM_cons]
    apply Iff.intro
    · intro h
      obtain ⟨s, hs, h⟩ := Option.bind_eq_some_iff.1 h
      obtain ⟨rest, hrest, h⟩ := Option.bind_eq_some_iff.1 h
      cases h
      rw [List.map_cons, string?_eq_some.1 hs, ih.1 hrest]
    · intro h
      cases ss with
      | nil => cases h
      | cons s ss =>
        obtain ⟨hitem, hitems⟩ := List.cons.inj h
        rw [string?_eq_some.2 hitem, ih.2 hitems]
        rfl

theorem strings?_eq_some {ss : List String} :
    v.strings? = some ss ↔ v = .array (ss.map .string) := by
  cases v with
  | array items => rw [strings?, mapM_string?_eq_some, array.injEq]
  | string | integer | float | boolean | time | table => simp [strings?]

theorem word?_eq_some {n : UInt32} : v.word? = some n ↔ v = .integer n.toNat := by
  cases v with
  | integer m =>
    rw [word?, Option.ite_none_right_eq_some, Option.some.injEq, integer.injEq]
    apply Iff.intro
    · rintro ⟨⟨hm, hlt⟩, rfl⟩
      rw [UInt32.toNat_ofNat_of_lt' (by change m.toNat < 4294967296; omega)]
      omega
    · rintro rfl
      have hlt : n.toNat < 4294967296 := n.toNat_lt
      refine ⟨by omega, ?_⟩
      rw [Int.toNat_natCast, UInt32.ofNat_toNat]
  | string | float | boolean | time | array | table => simp [word?]

end Toml.Value

namespace Layout.Setting

def value : (s : Setting) → s.type → Toml.Value
  | .toolDir, x | .testDir, x | .fuzzInputDir, x | .patchFixtureDir, x | .inputFixtureDir, x
  | .inputPrefix, x | .fuzzHarness, x => .string x
  | .commonSources, xs | .includeDirs, xs | .defines, xs | .undefines, xs | .fuzzSources, xs
  | .excludedTests, xs => .array (xs.map .string)
  | .recursionDepth, n => .integer n.toNat

/-- The values that a setting can have in a layout file. -/
def Takes (v : Toml.Value) : Setting → Prop
  | .toolDir | .testDir | .fuzzInputDir | .patchFixtureDir | .inputFixtureDir | .inputPrefix
  | .fuzzHarness => ∃ x, v = .string x
  | .commonSources | .includeDirs | .defines | .undefines | .fuzzSources | .excludedTests =>
    ∃ items, v = .array items ∧ ∀ item ∈ items, ∃ x, item = .string x
  | .recursionDepth => ∃ n, v = .integer n ∧ 0 ≤ n ∧ n ≤ 4294967295

theorem read?_eq_some {s : Setting} {x : s.type} : s.read? v = some x ↔ v = s.value x := by
  cases s with
  | toolDir | testDir | fuzzInputDir | patchFixtureDir | inputFixtureDir | inputPrefix
  | fuzzHarness => exact Toml.Value.string?_eq_some
  | commonSources | includeDirs | defines | undefines | fuzzSources | excludedTests =>
    exact Toml.Value.strings?_eq_some
  | recursionDepth => exact Toml.Value.word?_eq_some

theorem exists_array_iff :
    (∃ xs : List String, v = .array (xs.map .string)) ↔
      ∃ items, v = .array items ∧ ∀ item ∈ items, ∃ x, item = Toml.Value.string x := by
  apply Iff.intro
  · rintro ⟨xs, rfl⟩
    refine ⟨xs.map .string, rfl, fun item hitem => ?_⟩
    obtain ⟨x, -, rfl⟩ := List.mem_map.1 hitem
    exact ⟨x, rfl⟩
  · rintro ⟨items, rfl, h⟩
    have hitems : items ∈ Set.range (List.map Toml.Value.string) := by
      rw [Set.range_list_map]
      exact fun item hitem => (h item hitem).imp fun x hx => hx.symm
    obtain ⟨xs, rfl⟩ := hitems
    exact ⟨xs, rfl⟩

theorem exists_word_iff :
    (∃ n : UInt32, v = .integer n.toNat) ↔ ∃ n, v = .integer n ∧ 0 ≤ n ∧ n ≤ 4294967295 := by
  apply Iff.intro
  · rintro ⟨n, rfl⟩
    have hlt : n.toNat < 4294967296 := n.toNat_lt
    exact ⟨n.toNat, rfl, by omega, by omega⟩
  · rintro ⟨n, rfl, hn, hle⟩
    have hlt : n.toNat < UInt32.size := by
      change n.toNat < 4294967296
      omega
    refine ⟨UInt32.ofNat n.toNat, ?_⟩
    rw [UInt32.toNat_ofNat_of_lt' hlt, Int.toNat_of_nonneg hn]

theorem takes_iff {s : Setting} : s.Takes v ↔ ∃ x, s.read? v = some x := by
  simp only [read?_eq_some]
  cases s with
  | toolDir | testDir | fuzzInputDir | patchFixtureDir | inputFixtureDir | inputPrefix
  | fuzzHarness => exact Iff.rfl
  | commonSources | includeDirs | defines | undefines | fuzzSources | excludedTests =>
    exact exists_array_iff.symm
  | recursionDepth => exact exists_word_iff.symm

end Layout.Setting

namespace Layout

theorem isTable_iff :
    IsTable t ↔ ∀ member ∈ t, ∃ s : Setting, s.key = member.1 ∧ s.Takes member.2 := by
  simp only [Setting.takes_iff]
  exact Iff.rfl

theorem Overrides.lookup_of_ofTable? (hd : Toml.Distinct t) (h : ofTable? t = some o)
    (s : Setting) : t.lookup s.key = (s.override o).map s.value := by
  have ht := isTable_of_foldlM h
  obtain ⟨o', ho', hset⟩ := exists_ofTable? ht hd
  obtain rfl : o' = o := Option.some.inj (ho'.symm.trans h)
  rw [hset]
  cases hv : t.lookup s.key with
  | none =>
    rw [Setting.given, hv]
    rfl
  | some v =>
    obtain ⟨x, hx, hgiven⟩ := Setting.given_eq_some ht hv
    rw [hgiven, Option.map_some, ← Setting.read?_eq_some.1 hx]

end Layout

section

variable (h : w.files.LeadsTo path (.file (.text text))) (ht : Toml.parse? text = some t)
include h ht

theorem overrides_of_table (ho : Layout.Overrides.ofTable? t = some o) (required : Bool) :
    (World.host.layoutSource path w).1.overrides path required = .ok o := by
  have htext : Layout.Overrides.ofText? text = some o :=
    Layout.Overrides.ofText?_eq_some.2 ⟨t, ht, ho⟩
  rw [layoutSource_of_leadsTo h]
  simp only [Filesystem.readNode, LayoutSource.overrides]
  rw [htext]

theorem overrides_of_not_isTable (hno : ¬ Layout.IsTable t) (required : Bool) :
    (World.host.layoutSource path w).1.overrides path required =
      .error (.illFormedLayout path) := by
  have htext : Layout.Overrides.ofText? text = none := by
    rw [Option.eq_none_iff_forall_ne_some]
    intro o ho
    obtain ⟨t', ht', ho⟩ := Layout.Overrides.ofText?_eq_some.1 ho
    obtain rfl := Option.some.inj (ht.symm.trans ht')
    exact hno (Layout.Overrides.isTable_of_foldlM ho)
  rw [layoutSource_of_leadsTo h]
  simp only [Filesystem.readNode, LayoutSource.overrides]
  rw [htext]

end

/-- A layout file is good if all its keys are known and have values that they can have. Then it
sets the fields of these keys, to these values, and no others; the configuration takes the rest from
the defaults. A file that is not good is an error as a whole, for a run as well. -/
theorem layout_of_table (hfile : w.files.LeadsTo path (.file (.text text)))
    (ht : Toml.parse? text = some t) (required : Bool) :
    let loaded := (World.host.layoutSource path w).1.overrides path required
    ((∃ o, loaded = .ok o) ↔
      ∀ member ∈ t, ∃ s : Layout.Setting, s.key = member.1 ∧ s.Takes member.2) ∧
    (∀ o, loaded = .ok o →
      (∀ s : Layout.Setting, t.lookup s.key = (s.override o).map s.value) ∧
      ∀ (a : Arguments) workingDir, a.layoutPath workingDir = path →
        (resolveConfig World.host a workingDir w).1 =
          .ok ⟨a.root.getD workingDir, Layout.resolved o a.excludeTests⟩) ∧
    ((¬ ∃ o, loaded = .ok o) →
      loaded = .error (.illFormedLayout path) ∧
      ∀ (a : Arguments) workingDir, a.layoutPath workingDir = path →
        (resolveConfig World.host a workingDir w).1 = .error (.illFormedLayout path)) := by
  intro loaded
  -- a run asks for the file as required or not, and gets the same either way, for the file is there
  have hresolved {a : Arguments} {workingDir : String} {result : Except Failure Layout.Overrides}
      (hpath : a.layoutPath workingDir = path)
      (h : ∀ required, (World.host.layoutSource path w).1.overrides path required = result) :
      (resolveConfig World.host a workingDir w).1 = result.map fun o =>
        ⟨a.root.getD workingDir, Layout.resolved o a.excludeTests⟩ := by
    rw [resolveConfig_of_source rfl, hpath, h]
  rw [← Layout.isTable_iff]
  by_cases htable : Layout.IsTable t
  · have hd := Toml.distinct_of_parse ht
    obtain ⟨o, ho, -⟩ := Layout.Overrides.exists_ofTable? htable hd
    have hloaded := overrides_of_table hfile ht ho
    have hok : loaded = .ok o := hloaded required
    refine ⟨iff_of_true ⟨o, hok⟩ htable, fun o' ho' => ?_, fun hnot => absurd ⟨o, hok⟩ hnot⟩
    obtain rfl := Except.ok.inj (hok.symm.trans ho')
    exact ⟨Layout.Overrides.lookup_of_ofTable? hd ho, fun a _ hpath => hresolved hpath hloaded⟩
  · have hloaded := overrides_of_not_isTable hfile ht htable
    have herror : loaded = .error (.illFormedLayout path) := hloaded required
    have hnot : ¬ ∃ o, loaded = .ok o := by
      rintro ⟨o, ho⟩
      exact absurd (herror.symm.trans ho) nofun
    refine ⟨iff_of_false hnot htable, fun o ho => absurd ⟨o, ho⟩ hnot, fun _ => ⟨herror, ?_⟩⟩
    exact fun a _ hpath => hresolved hpath hloaded

def Layout.deepText (depth : String) : String :=
  "tool_dir = \"tools\"\nmax_recursion_depth = " ++ depth ++ "\n"

def World.deep (depth : String) : World where
  files.nodes := [([.text "layout.toml"], .file (.text (Layout.deepText depth)))]

theorem World.deep_leadsTo (depth : String) :
    (World.deep depth).files.LeadsTo "layout.toml" (.file (.text (Layout.deepText depth))) :=
  ⟨[.text "layout.toml"], rfl, rfl⟩

theorem layout_of_table_deep :
    (∃ t, Toml.parse? (Layout.deepText "4294967295") = some t ∧
      (∀ member ∈ t, ∃ s : Layout.Setting, s.key = member.1 ∧ s.Takes member.2) ∧
      (resolveConfig World.host { layout := some "layout.toml" } "/" (.deep "4294967295")).1 =
        .ok ⟨"/", { toolDir := "tools", recursionDepth := 4294967295 }⟩) ∧
    ∃ t, Toml.parse? (Layout.deepText "4294967296") = some t ∧
      (¬ ∀ member ∈ t, ∃ s : Layout.Setting, s.key = member.1 ∧ s.Takes member.2) ∧
      (resolveConfig World.host { layout := some "layout.toml" } "/" (.deep "4294967296")).1 =
        .error (.illFormedLayout "layout.toml") := by
  apply And.intro
  · have htext : Layout.Overrides.ofText? (Layout.deepText "4294967295") =
        some { toolDir := some "tools", recursionDepth := some 4294967295 } := by decide +kernel
    obtain ⟨t, ht, ho⟩ := Layout.Overrides.ofText?_eq_some.1 htext
    have hfile := World.deep_leadsTo "4294967295"
    obtain ⟨hiff, hgood, -⟩ := layout_of_table hfile ht true
    have hloaded := overrides_of_table hfile ht ho true
    obtain ⟨-, hresolved⟩ := hgood _ hloaded
    exact ⟨t, ht, hiff.1 ⟨_, hloaded⟩, hresolved { layout := some "layout.toml" } "/" rfl⟩
  · have hparsed : (Toml.parse? (Layout.deepText "4294967296")).isSome := by decide +kernel
    have hnone : Layout.Overrides.ofText? (Layout.deepText "4294967296") = none := by
      decide +kernel
    obtain ⟨t, ht⟩ := Option.isSome_iff_exists.1 hparsed
    have hfile := World.deep_leadsTo "4294967296"
    obtain ⟨hiff, -, hbad⟩ := layout_of_table hfile ht true
    have hnot : ¬ ∃ o, (World.host.layoutSource "layout.toml" (.deep "4294967296")).1.overrides
        "layout.toml" true = .ok o := by
      rintro ⟨o, ho⟩
      rw [layoutSource_of_leadsTo hfile] at ho
      simp only [Filesystem.readNode, LayoutSource.overrides, hnone] at ho
      cases ho
    obtain ⟨-, hresolved⟩ := hbad hnot
    exact ⟨t, ht, mt hiff.2 hnot, hresolved { layout := some "layout.toml" } "/" rfl⟩

end AnalyzerConfig
