import AnalyzerConfig.Proofs.Glob.Beginnings
import AnalyzerConfig.Proofs.Project.Emitted

namespace AnalyzerConfig

variable {fs : Filesystem} {root dir pattern p s virtualDir : String} {n : Octets}
variable {ps : List String}
variable {l : Layout}

namespace Path

theorem head?_segments_join_normalize (dir p : String) :
    (segments (join (normalize dir) (normalize p))).head? ≠ some "." := by
  by_cases h : namingSegments dir = []
  · rw [normalize_of_no_names h]
    exact head?_segments_normalize p
  · rw [join_normalize_of_names h, segments_slash,
      List.head?_append_of_ne_nil _ (segments_ne_nil _)]
    exact head?_segments_normalize dir

end Path

/-- A visible regular file directly in a directory, of which both can be looked up by their
paths. -/
structure Filesystem.VisibleFile (fs : Filesystem) (base : String) (n : Octets) : Prop where
  directory : fs.isDirectory base
  file : fs.isFileAt ((Route.ofPath (.text base)).entry n)
  visible : n.startsWithDot = false
  short : isShortBelow base n

/-- The names of all visible files of a directory below the root that begin with a text, none of
them twice. There are none in the standard input. -/
structure Filesystem.Inputs (fs : Filesystem) (root dir start : String) (names : List String) :
    Prop where
  nodup : names.Nodup
  mem_iff : ∀ n, (∃ s ∈ names, n = .text s) ↔
    Project.isStandardInput (Path.below root dir) = false ∧
      fs.VisibleFile (Path.below root dir) n ∧ (Octets.text start).bytes <+: n.bytes

namespace Project

section

variable (hdir : Path.isAbsolute dir = false) (hhead : (Path.segments dir).head? ≠ some ".")
include hdir hhead

theorem entryFrom_of_head (n : Octets) : Path.entryFrom root (Path.below root dir) n =
    some (n.text?.map fun s => Path.join (Path.normalize dir) s) := by
  simp only [Path.join_normalize hdir]
  exact Path.entryFrom_of_components (Path.isAbsolute_below hdir root)
    (Path.components_below_of_head hdir hhead root) n

theorem text_of_entryFrom {n : Octets} {path : String}
    (h : entryPath root (Path.below root dir) n = .ok path) :
    ∃ s, n = .text s ∧ path = slashed (Path.join (Path.normalize dir) s) := by
  rw [entryPath, entryFrom_of_head hdir hhead] at h
  cases n with
  | raw bs hbs => cases h
  | text s =>
    cases h
    exact ⟨s, rfl, rfl⟩

/-- A scan for names that begin with a literal text finds the path of each of them. -/
theorem findFiles_of_literal {start : String} (hstart : Glob.IsLiteral start)
    (h : ((fs.project root).findFiles dir (start ++ "*")).result = .ok ps) :
    ∃ names, fs.Inputs root dir start names ∧
      ps = names.map fun s => slashed (Path.join (Path.normalize dir) s) := by
  obtain ⟨pat, hpat, -, ⟨hd, rfl⟩ | ⟨hd, names, paths, hlists, hpaths, rfl⟩⟩ := findFiles_eq_ok.1 h
  · refine ⟨[], ⟨List.nodup_nil, fun n => ⟨nofun, ?_⟩⟩, rfl⟩
    rintro ⟨-, hfile, -⟩
    cases hd.symm.trans hfile.directory
  · cases hpat.symm.trans (Glob.parse_literal_star hstart)
    obtain ⟨texts, hperm, heq⟩ := exists_ordered_texts hpaths fun n _ path hpath =>
      text_of_entryFrom hdir hhead hpath
    refine ⟨texts, ⟨(hperm.nodup_iff.2 hlists.1).of_map _, fun n => ?_⟩, heq⟩
    have hmem : (∃ s ∈ texts, n = .text s) ↔ n ∈ names := by
      rw [← hperm.mem_iff, List.mem_map]
      simp only [eq_comm]
    rw [hmem, hlists.2, and_congr_right_iff]
    intro _
    apply Iff.intro
    · intro hn
      exact ⟨⟨hd, hn.file, hn.visible, hn.short⟩, Glob.accepts_literals_star.1 hn.accepted⟩
    · rintro ⟨hn, hbegins⟩
      exact ⟨hn.short, hn.file, hn.visible, Glob.accepts_literals_star.2 hbegins⟩

end

end Project

/-- A mount of the file `s` of the directory `dir`. Its path is the joined one, with a slash for
every backslash, and its name the last one of that path, which is `s` itself if there is no
backslash in it. -/
structure Mount.IsOf (virtualDir dir s : String) (m : Mount) : Prop where
  source : m.source = fromToolDir (Project.slashed (Path.join (Path.normalize dir) s))
  name : m.name = Path.join virtualDir
    (Path.baseName (Project.slashed (Path.join (Path.normalize dir) s)))
  plain : '\\' ∉ s.toList → m.name = Path.join virtualDir s

/-- A test that runs the harness on the file `s` of the directory `dir`, by the last name of its
path. -/
structure TestEntry.IsOf (harness dir commonPath fuzzPath s : String) (t : TestEntry) : Prop where
  eq : t = .ofInput harness dir commonPath fuzzPath
    (Path.baseName (Project.slashed (Path.join (Path.normalize dir) s)))
  plain : '\\' ∉ s.toList → t = .ofInput harness dir commonPath fuzzPath s

theorem Filesystem.Inputs.isName (hnames : fs.ProperNames) {start : String} {names : List String}
    (h : fs.Inputs root dir start names) (hs : s ∈ names) : Path.IsName s := by
  obtain ⟨-, hfile, -⟩ := (h.mem_iff (.text s)).1 ⟨s, hs, rfl⟩
  obtain ⟨d, hd⟩ := exists_node_of_isFileAt hfile.file
  exact hnames s d hd

namespace Project

theorem baseName_slashed_join (dir : String) (hs : Path.IsName s) (hplain : '\\' ∉ s.toList) :
    Path.baseName (slashed (Path.join dir s)) = s := by
  obtain ⟨before, hsegments, -⟩ := Path.segments_join_name dir hs
  apply baseName_slashed _ hs hplain
  rw [hsegments]
  exact List.getLast?_concat

theorem mount_isOf (hs : Path.IsName s) (virtualDir : String) :
    Mount.IsOf virtualDir dir s
      (mount virtualDir (slashed (Path.join (Path.normalize dir) s))) where
  source := rfl
  name := rfl
  plain hplain := by rw [mount, baseName_slashed_join _ hs hplain]

theorem fuzzTest_isOf (hs : Path.IsName s) (commonPath fuzzPath : String) :
    TestEntry.IsOf (Path.baseName (Path.normalize l.fuzzHarness)) (Path.normalize l.fuzzInputDir)
      commonPath fuzzPath s
      (fuzzTest l.normalized commonPath fuzzPath
        (slashed (Path.join (Path.normalize (Path.normalize l.fuzzInputDir)) s))) where
  eq := rfl
  plain hplain := by
    rw [fuzzTest, baseName_slashed_join _ hs hplain]
    rfl

/-- The files mounted for the common configuration behind the patches, those mounted for the fuzz
tests and those that have a fuzz test are the visible files of their directories whose names begin
with the prefix, byte by byte. -/
theorem inputs_exact (hnames : fs.ProperNames) (hliteral : Glob.IsLiteral l.inputPrefix)
    (htest : Path.isAbsolute l.testDir = false)
    (hfixture : Path.isAbsolute l.inputFixtureDir = false)
    (hfuzz : Path.isAbsolute l.fuzzInputDir = false) :
    (∀ c, ((fs.project root).commonConfig l).result = .ok c → ∃ patches mounts names,
      ((fs.project root).mounts l.normalized.patchDir "*.json"
        l.normalized.patchFixtureDir).result = .ok patches ∧
      c.mounts = patches ++ mounts ∧ fs.Inputs root l.normalized.inputDir l.inputPrefix names ∧
      List.Forall₂ (Mount.IsOf l.normalized.inputFixtureDir l.normalized.inputDir) names mounts) ∧
    (∀ f, ((fs.project root).fuzzConfig l).result = .ok f → ∃ names,
      fs.Inputs root l.normalized.fuzzInputDir l.inputPrefix names ∧
      List.Forall₂ (Mount.IsOf l.normalized.fuzzInputDir l.normalized.fuzzInputDir) names
        f.mounts) ∧
    ∀ commonPath fuzzPath ts,
      ((fs.project root).testEntries l commonPath fuzzPath).result = .ok ts →
      ∃ tests entries names, ts = tests ++ entries ∧
        (∀ t ∈ tests, t.extraConfig = none) ∧ (∀ t ∈ entries, t.extraConfig = some fuzzPath) ∧
        fs.Inputs root l.normalized.fuzzInputDir l.inputPrefix names ∧
        List.Forall₂ (TestEntry.IsOf (Path.baseName l.normalized.fuzzHarness)
          l.normalized.fuzzInputDir commonPath fuzzPath) names entries := by
  have hnormal := Path.isAbsolute_normalize hfuzz
  have hhead := Path.head?_segments_normalize l.fuzzInputDir
  refine ⟨fun c hc => ?_, fun f hf => ?_, fun commonPath fuzzPath ts hts => ?_⟩
  · obtain ⟨patches, inputs, hpatches, hinputs, rfl⟩ := commonConfig_eq_ok.1 hc
    have hdir := Path.isAbsolute_join (Path.isAbsolute_normalize htest)
      (Path.isAbsolute_normalize hfixture)
    obtain ⟨names, hchosen, rfl⟩ := findFiles_of_literal hdir
      (Path.head?_segments_join_normalize l.testDir l.inputFixtureDir) hliteral hinputs
    refine ⟨_, _, names, mounts_eq_ok.2 ⟨patches, hpatches, rfl⟩, rfl, hchosen, ?_⟩
    rw [List.map_map, List.forall₂_map_right_iff, List.forall₂_same]
    exact fun s hs => mount_isOf (hchosen.isName hnames hs) _
  · obtain ⟨inputs, hinputs, rfl⟩ := fuzzConfig_eq_ok.1 hf
    obtain ⟨names, hchosen, rfl⟩ := findFiles_of_literal hnormal hhead hliteral hinputs
    refine ⟨names, hchosen, ?_⟩
    rw [List.map_map, List.forall₂_map_right_iff, List.forall₂_same]
    exact fun s hs => mount_isOf (hchosen.isName hnames hs) _
  · obtain ⟨files, inputs, -, hinputs, rfl⟩ := testEntries_eq_ok.1 hts
    obtain ⟨names, hchosen, rfl⟩ := findFiles_of_literal hnormal hhead hliteral hinputs
    refine ⟨_, _, names, rfl, extraConfig_fileTest _ _, extraConfig_fuzzTest _ _ _, hchosen, ?_⟩
    rw [List.map_map, List.forall₂_map_right_iff, List.forall₂_same]
    exact fun s hs => fuzzTest_isOf (hchosen.isName hnames hs) _ _

end Project

def Layout.gathered : Layout := { Layout.mixed with inputFixtureDir := "." }

theorem Project.inputs_mixed :
    Filesystem.mixed.ProperNames ∧ Glob.IsLiteral "test" ∧
    (∃ patches mounts names,
      ((Filesystem.mixed.project ".").mounts "t/json-patch-tests" "*.json"
        "json-patch-tests").result = .ok patches ∧
      [⟨"test1", "../t/test1"⟩] = patches ++ mounts ∧
      Filesystem.mixed.Inputs "." "t/" "test" names ∧
      List.Forall₂ (Mount.IsOf "" "t/") names mounts) ∧
    (∃ names, Filesystem.mixed.Inputs "." "t" "test" names ∧
      List.Forall₂ (Mount.IsOf "t" "t") names [⟨"t/test1", "../t/test1"⟩]) ∧
    ∃ tests entries names, TestEntry.mixed = tests ++ entries ∧
      (∀ t ∈ tests, t.extraConfig = none) ∧ (∀ t ∈ entries, t.extraConfig = some "f") ∧
      Filesystem.mixed.Inputs "." "t" "test" names ∧
      List.Forall₂ (TestEntry.IsOf "h.c" "t" "c" "f") names entries := by
  have hnames := Filesystem.plainNames_mixed.proper
  have hliteral : Glob.IsLiteral "test" := by decide
  have hc : ((Filesystem.mixed.project ".").commonConfig .gathered).result =
      .ok ⟨["../cJSON_Utils.c", "../tests/unity/src/unity.c"], "-DUNITY_EXCLUDE_SETJMP_H", 10000,
        [⟨"test1", "../t/test1"⟩]⟩ := by decide +kernel
  have hf : ((Filesystem.mixed.project ".").fuzzConfig .gathered).result =
      .ok ⟨["../cJSON.c", "../src/h.c"], [⟨"t/test1", "../t/test1"⟩]⟩ := by decide +kernel
  have hts : ((Filesystem.mixed.project ".").testEntries .gathered "c" "f").result =
      .ok TestEntry.mixed := by decide +kernel
  have htest : Path.isAbsolute Layout.gathered.testDir = false := by decide
  have hfixture : Path.isAbsolute Layout.gathered.inputFixtureDir = false := by decide
  have hinput : Path.isAbsolute Layout.gathered.fuzzInputDir = false := by decide
  exact ⟨hnames, hliteral,
    (inputs_exact hnames hliteral htest hfixture hinput).1 _ hc,
    (inputs_exact hnames hliteral htest hfixture hinput).2.1 _ hf,
    (inputs_exact hnames hliteral htest hfixture hinput).2.2 "c" "f" _ hts⟩

theorem Project.findFiles_of_long {pat : Glob.Pattern} (hpat : Glob.Builds pattern pat)
    (hlong : maxPathLength < (Path.below root dir).utf8ByteSize) :
    ((fs.project root).findFiles dir pattern).result = .ok [] := by
  refine findFiles_eq_ok.2 ⟨pat, hpat.1, hpat.2, .inl ⟨?_, rfl⟩⟩
  rw [← Bool.not_eq_true, Filesystem.isDirectory_iff]
  rintro ⟨q, hq, -⟩
  have hshort := (Filesystem.isShort_text _).1 (Filesystem.locatePath_eq_ok.1 hq).1
  omega

def Filesystem.hyphened : Filesystem where
  nodes := [([.text "-"], .directory), ([.text "test1", .text "-"], .file (.text ""))]

def Layout.single (dir : String) : Layout where
  testDir := dir
  fuzzInputDir := dir
  excludedTests := []

theorem Project.inputs_overlooked :
    Glob.IsLiteral "test" ∧ (Octets.text "test").bytes <+: (Octets.text "test1").bytes ∧
    (Filesystem.hyphened.VisibleFile (Path.below "-" "") (.text "test1") ∧
      (∃ c, ((Filesystem.hyphened.project "-").commonConfig (.single ".")).result = .ok c) ∧
      (∃ f, ((Filesystem.hyphened.project "-").fuzzConfig (.single ".")).result = .ok f ∧
        f.mounts = []) ∧
      ((Filesystem.hyphened.project "-").testEntries (.single ".") "c" "f").result = .ok []) ∧
    Filesystem.mixed.locatePath .find (.text (Path.below (Path.padded 4093) "t")) =
      .ok [.text "t"] ∧
    Filesystem.mixed.node? [.text "test1", .text "t"] = some (.file (.text "")) ∧
    (∃ c, ((Filesystem.mixed.project (Path.padded 4093)).commonConfig (.single "t")).result =
      .ok c) ∧
    (∃ f, ((Filesystem.mixed.project (Path.padded 4093)).fuzzConfig (.single "t")).result = .ok f ∧
      f.mounts = []) ∧
    ((Filesystem.mixed.project (Path.padded 4093)).testEntries (.single "t") "c" "f").result =
      .ok [] := by
  have hroot : Filesystem.mixed.RootAt (Path.padded 4093) [] :=
    Filesystem.rootAt_padded rfl (by decide)
  have hsize {dir : String} (hdir : Path.isAbsolute dir = false) :
      (Path.below (Path.padded 4093) dir).utf8ByteSize = 4094 + dir.utf8ByteSize := by
    rw [Path.below_padded hdir, String.utf8ByteSize_append, Path.utf8ByteSize_padded]
  have hinputs : Glob.Builds "test*" ("test".toList.map .literal ++ [.many]) := ⟨rfl, by decide⟩
  have hjson : Glob.Builds "*.json" (.many :: ".json".toList.map .literal) := ⟨rfl, by decide⟩
  have hnone {pattern : String} {pat : Glob.Pattern} (hpat : Glob.Builds pattern pat) :
      ((Filesystem.mixed.project (Path.padded 4093)).findFiles "t" pattern).result = .ok [] :=
    findFiles_of_noRoom hpat.1 hpat.2 (Filesystem.noRoom_padded (m := 4092) (by decide))
  have hlong {dir pattern : String} {pat : Glob.Pattern} (hpat : Glob.Builds pattern pat)
      (hdir : Path.isAbsolute dir = false) (hbytes : 1 < dir.utf8ByteSize) :
      ((Filesystem.mixed.project (Path.padded 4093)).findFiles dir pattern).result = .ok [] :=
    findFiles_of_long hpat (by rw [hsize hdir, maxPathLength]; omega)
  refine ⟨by decide, by decide +kernel, ⟨?_, ?_, ?_, by decide +kernel⟩, ?_, rfl, ?_, ?_, ?_⟩
  · exact ⟨by decide +kernel, by decide +kernel, by decide, by decide +kernel⟩
  · exact ⟨⟨["../cJSON_Utils.c", "../tests/unity/src/unity.c"], "-DUNITY_EXCLUDE_SETJMP_H", 10000,
      []⟩, by decide +kernel⟩
  · exact ⟨⟨["../cJSON.c", "../fuzzing/afl.c"], []⟩, by decide +kernel, rfl⟩
  · refine hroot.locatePath_below (by decide) ?_ (.down rfl nofun rfl nofun .done)
    rw [hsize (by decide)]
    decide
  · exact ⟨_, commonConfig_eq_ok.2 ⟨[], [], hlong hjson (by decide) (by decide),
      hlong hinputs (by decide) (by decide), rfl⟩⟩
  · exact ⟨_, fuzzConfig_eq_ok.2 ⟨[], hnone hinputs, rfl⟩, rfl⟩
  · have hc : Glob.Builds "*.c" (.many :: ".c".toList.map .literal) := ⟨rfl, by decide⟩
    exact testEntries_eq_ok.2 ⟨[], [], testFiles_eq_ok.2 ⟨[], hnone hc, rfl⟩, hnone hinputs, rfl⟩

end AnalyzerConfig
