import AnalyzerConfig.Config
import AnalyzerConfig.Proofs.Json.Reading

namespace AnalyzerConfig

open Json

variable {d d' : Doc} {ds : List Doc}

namespace Json

theorem read?_render (d : Doc) : read? (render d) = some (d.mapKeys foldKey) :=
  read?_eq_some_iff.2 (padded_render d)

theorem mapKeys_eq_of_render (h : render d = render d') :
    d.mapKeys foldKey = d'.mapKeys foldKey := by
  have hread := read?_render d
  rw [h, read?_render d'] at hread
  exact (Option.some.inj hread).symm

theorem mapKeysItems_eq_map (f : String → String) (ds : List Doc) :
    mapKeysItems f ds = ds.map (Doc.mapKeys f) := by
  induction ds with
  | nil => rfl
  | cons d ds ih => rw [mapKeysItems, ih, List.map_cons]

theorem mapKeysItems_eq_self {f : String → String} (h : ∀ d ∈ ds, d.mapKeys f = d) :
    mapKeysItems f ds = ds := by
  rw [mapKeysItems_eq_map]
  exact (List.map_congr_left h).trans (List.map_id _)

theorem Doc.mapKeys_strs (f : String → String) (ss : List String) :
    (Doc.strs ss).mapKeys f = .strs ss := by
  rw [strs, mapKeys, mapKeysItems_eq_self]
  simp only [List.forall_mem_map]
  exact fun _ _ => rfl

theorem Doc.strs_injective : Function.Injective Doc.strs := by
  intro ss ss' h
  exact List.map_injective_iff.2 (fun _ _ => Doc.str.inj) (Doc.arr.inj h)

end Json

theorem Mount.mapKeys_listDoc (ms : List Mount) :
    (Mount.listDoc ms).mapKeys foldKey = Mount.listDoc ms := by
  have hname : foldKey "name" = "name" := by decide
  have hfrom : foldKey "from" = "from" := by decide
  have hfiles : foldKey "files" = "files" := by decide
  have hmount (m : Mount) : m.toDoc.mapKeys foldKey = m.toDoc := by
    simp only [toDoc, Doc.mapKeys, mapKeysMembers, hname, hfrom]
  have hitems : mapKeysItems foldKey (ms.map Mount.toDoc) = ms.map Mount.toDoc := by
    apply mapKeysItems_eq_self
    simp only [List.forall_mem_map]
    exact fun m _ => hmount m
  simp only [listDoc, Doc.mapKeys, mapKeysMembers, hfiles, hitems]

theorem CommonConfig.mapKeys_toDoc (c : CommonConfig) : c.toDoc.mapKeys foldKey = c.toDoc := by
  have hfiles : foldKey "files" = "files" := by decide
  have hoptions : foldKey "compilation_cmd" = "compilation_cmd" := by decide
  have hdepth : foldKey "val-clone-on-recursive-calls-max-depth" =
    "val-clone-on-recursive-calls-max-depth" := by decide
  have hmounts : foldKey "filesystem" = "filesystem" := by decide
  simp only [toDoc, Doc.mapKeys, mapKeysMembers, hfiles, hoptions, hdepth, hmounts,
    Doc.mapKeys_strs, Mount.mapKeys_listDoc]

theorem FuzzConfig.mapKeys_toDoc (c : FuzzConfig) : c.toDoc.mapKeys foldKey = c.toDoc := by
  have hfiles : foldKey "files" = "files" := by decide
  have hmounts : foldKey "filesystem" = "filesystem" := by decide
  simp only [toDoc, Doc.mapKeys, mapKeysMembers, hfiles, hmounts, Doc.mapKeys_strs,
    Mount.mapKeys_listDoc]

theorem Mount.listDoc_injective : Function.Injective Mount.listDoc := by
  have hmount : Function.Injective Mount.toDoc := by
    intro m m' h
    cases m with
    | mk name source =>
      cases m' with
      | mk name' source' =>
        simp only [toDoc, Doc.obj.injEq, List.cons.injEq, Prod.mk.injEq, Doc.str.injEq, true_and,
          and_true] at h
        rw [h.1, h.2]
  intro ms ms' h
  simp only [listDoc, Doc.obj.injEq, List.cons.injEq, Prod.mk.injEq, Doc.arr.injEq, true_and,
    and_true] at h
  exact List.map_injective_iff.2 hmount h

theorem CommonConfig.toDoc_injective : Function.Injective CommonConfig.toDoc := by
  intro c c' h
  cases c with
  | mk files options depth mounts =>
    cases c' with
    | mk files' options' depth' mounts' =>
      simp only [toDoc, Doc.obj.injEq, List.cons.injEq, Prod.mk.injEq, Doc.str.injEq,
        Doc.num.injEq, true_and, and_true] at h
      obtain ⟨hfiles, rfl, hdepth, hmounts⟩ := h
      obtain rfl := Doc.strs_injective hfiles
      obtain rfl := UInt32.toNat_inj.1 (Int.ofNat_inj.1 hdepth)
      obtain rfl := Mount.listDoc_injective hmounts
      rfl

theorem FuzzConfig.toDoc_injective : Function.Injective FuzzConfig.toDoc := by
  intro c c' h
  cases c with
  | mk files mounts =>
    cases c' with
    | mk files' mounts' =>
      simp only [toDoc, Doc.obj.injEq, List.cons.injEq, Prod.mk.injEq, true_and, and_true] at h
      obtain ⟨hfiles, hmounts⟩ := h
      obtain rfl := Doc.strs_injective hfiles
      obtain rfl := Mount.listDoc_injective hmounts
      rfl

def TestInput.asRead : TestInput → String × Doc
  | .files paths => ("files", .arr (paths.map .str))
  | .arguments line => ("val-args", .str line)

/-- The object that a test is read as. A second include has the key of the first. -/
def TestEntry.asRead (t : TestEntry) : Doc :=
  match t.extraConfig with
  | none => .obj [("name", .str t.name), t.input.asRead, ("include", .str t.config)]
  | some path =>
    .obj [("name", .str t.name), t.input.asRead, ("include", .str t.config),
      ("include", .str path)]

theorem TestInput.mapKeys_member (i : TestInput) :
    (foldKey i.member.1, i.member.2.mapKeys foldKey) = i.asRead := by
  cases i with
  | files paths =>
    have hfiles : foldKey "files" = "files" := by decide
    simp only [member, hfiles, Doc.mapKeys_strs]
    rfl
  | arguments line =>
    have harguments : foldKey "val-args" = "val-args" := by decide
    simp only [member, harguments]
    rfl

theorem TestEntry.mapKeys_toDoc (t : TestEntry) : t.toDoc.mapKeys foldKey = t.asRead := by
  have hname : foldKey "name" = "name" := by decide
  have hinclude : foldKey "include" = "include" := by decide
  have hsecond : foldKey "include_" = "include" := by decide
  unfold toDoc asRead
  cases t.extraConfig with
  | none =>
    simp only [Option.map_none, Option.toList_none, List.append_nil, Doc.mapKeys, mapKeysMembers,
      TestInput.mapKeys_member, hname, hinclude]
  | some path =>
    simp only [Option.map_some, Option.toList_some, List.cons_append, List.nil_append, Doc.mapKeys,
      mapKeysMembers, TestInput.mapKeys_member, hname, hinclude, hsecond]

theorem TestInput.asRead_injective : Function.Injective TestInput.asRead := by
  intro i i' h
  cases i with
  | files paths =>
    cases i' with
    | files paths' => rw [Doc.strs_injective (Prod.mk.inj h).2]
    | arguments line => exact absurd (Prod.mk.inj h).1 (by decide)
  | arguments line =>
    cases i' with
    | files paths => exact absurd (Prod.mk.inj h).1 (by decide)
    | arguments line' => rw [Doc.str.inj (Prod.mk.inj h).2]

theorem TestEntry.asRead_injective : Function.Injective TestEntry.asRead := by
  intro t t' h
  cases t with
  | mk name input config extra =>
    cases t' with
    | mk name' input' config' extra' =>
      cases extra <;> cases extra' <;> simp only [asRead, Doc.obj.injEq, List.cons.injEq,
        Prod.mk.injEq, Doc.str.injEq, true_and, and_true, reduceCtorEq, and_false] at h
      all_goals
        obtain ⟨rfl, hinput, h⟩ := h
        obtain rfl := TestInput.asRead_injective hinput
      · rw [h]
      · rw [h.1, h.2]

theorem TestEntry.mapKeys_listDoc (ts : List TestEntry) :
    (TestEntry.listDoc ts).mapKeys foldKey = .arr (ts.map TestEntry.asRead) := by
  rw [listDoc, Doc.mapKeys, mapKeysItems_eq_map, List.map_map]
  exact congrArg Doc.arr (List.map_congr_left fun t _ => t.mapKeys_toDoc)

/-- The text of a configuration determines the configuration, and that of a list of tests the tests.
A test is read back as its name, its input and its include, with a second include behind them
exactly if it has one. -/
theorem render_determines :
    (∀ c c' : CommonConfig, render c.toDoc = render c'.toDoc ↔ c = c') ∧
    (∀ f f' : FuzzConfig, render f.toDoc = render f'.toDoc ↔ f = f') ∧
    (∀ ts ts' : List TestEntry,
      render (TestEntry.listDoc ts) = render (TestEntry.listDoc ts') ↔ ts = ts') ∧
    ∀ ts : List TestEntry,
      read? (render (TestEntry.listDoc ts)) = some (.arr (ts.map TestEntry.asRead)) := by
  refine ⟨fun c c' => ⟨fun h => ?_, fun h => h ▸ rfl⟩, fun f f' => ⟨fun h => ?_, fun h => h ▸ rfl⟩,
    fun ts ts' => ⟨fun h => ?_, fun h => h ▸ rfl⟩, fun ts => ?_⟩
  · have hdoc := mapKeys_eq_of_render h
    rw [c.mapKeys_toDoc, c'.mapKeys_toDoc] at hdoc
    exact CommonConfig.toDoc_injective hdoc
  · have hdoc := mapKeys_eq_of_render h
    rw [f.mapKeys_toDoc, f'.mapKeys_toDoc] at hdoc
    exact FuzzConfig.toDoc_injective hdoc
  · have hdoc := mapKeys_eq_of_render h
    rw [TestEntry.mapKeys_listDoc, TestEntry.mapKeys_listDoc] at hdoc
    exact List.map_injective_iff.2 TestEntry.asRead_injective (Doc.arr.inj hdoc)
  · rw [read?_render, TestEntry.mapKeys_listDoc]

end AnalyzerConfig
