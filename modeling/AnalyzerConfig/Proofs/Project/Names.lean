import AnalyzerConfig.Proofs.Project.Emitted

namespace AnalyzerConfig

variable {fs : Filesystem} {root dir dir' base base' pattern p s t b b' : String}
variable {pat : Glob.Pattern} {k : Nat} {ps : List String} {l : Layout}

namespace Path

def climb (k : Nat) : String := ofSegments (List.replicate k "..")

theorem segments_climb_succ (k : Nat) : segments (climb (k + 1)) = List.replicate (k + 1) ".." :=
  segments_ofSegments nofun fun t ht => List.eq_of_mem_replicate ht ▸ by decide

theorem not_isName_of_climb (h : (segments (climb k)).getLast? = some s) : ¬ IsName s := by
  intro hs
  cases k with
  | zero =>
    cases h
    exact hs.ne_empty rfl
  | succ k =>
    rw [segments_climb_succ] at h
    exact hs.ne_dots (List.eq_of_mem_replicate (List.mem_of_getLast? h))

theorem baseName_climb (k : Nat) : baseName (climb k) = climb k := by
  cases k with
  | zero => decide
  | succ k =>
    have hnames : namingSegments (climb (k + 1)) = List.replicate (k + 1) ".." := by
      rw [namingSegments, segments_climb_succ, List.filter_replicate]
      rfl
    rw [baseName, hnames, List.replicate_succ', List.getLast?_concat]
    rfl

theorem backslash_not_mem_climb (k : Nat) : '\\' ∉ (climb k).toList := by
  intro h
  obtain ⟨s, hs, hmem⟩ := exists_segment_of_mem h (by decide)
  cases k with
  | zero =>
    cases List.mem_singleton.1 hs
    cases hmem
  | succ k =>
    rw [segments_climb_succ] at hs
    rw [List.eq_of_mem_replicate hs] at hmem
    exact absurd hmem (by decide)

theorem IsName.getLast?_segments (hs : IsName s) : (Path.segments s).getLast? = some s := by
  rw [hs.segments]
  rfl

/-- What the entry `s` of the directory `base` is called, as seen from `root`. -/
inductive Calls (root base s : String) : String → Prop
  | name : Calls root base s s
  /-- The text of the root leads through the entry, and its path only goes up. -/
  | through {rest : List Component} (habsolute : isAbsolute base = isAbsolute root)
      (hroot : components root = components base ++ .name (.text s) :: rest) :
      Calls root base s (climb rest.length)

theorem Sees.calls (h : Sees root base s p) (hs : IsName s) (hplain : '\\' ∉ s.toList) :
    Calls root base s (baseName (Project.slashed p)) := by
  have hname (hlast : (segments p).getLast? = some s) : baseName (Project.slashed p) = s :=
    Project.baseName_slashed hlast hs hplain
  cases h with
  | absolute =>
    rw [hname (by rw [getLast?_segments_below, hs.getLast?_segments])]
    exact .name
  | @through rest habsolute hroot =>
    have hclimb : ofSegments (rest.map fun _ => "..") = climb rest.length := by
      rw [climb, List.map_const']
    rw [hclimb, Project.slashed_eq_self (backslash_not_mem_climb _), baseName_climb]
    exact .through habsolute hroot
  | way _ _ hway =>
    rw [hname (by rw [segments_of_wayBetween hway hs]; exact List.getLast?_concat)]
    exact .name

theorem Calls.eq (h : Calls root base s b) (h' : Calls root base t b) (hs : IsName s)
    (ht : IsName t) : s = t := by
  cases h with
  | name =>
    cases h' with
    | name => rfl
    | through => exact absurd hs (not_isName_of_climb hs.getLast?_segments)
  | @through rest _ hroot =>
    generalize hb : climb rest.length = b at h'
    cases h' with
    | name =>
      subst hb
      exact absurd ht (not_isName_of_climb ht.getLast?_segments)
    | through _ hroot' =>
      have htail := List.append_cancel_left (hroot.symm.trans hroot')
      exact Octets.text.inj (Component.name.inj (List.cons.inj htail).1)

def dirSegments (dir : String) : List String := if dir = "" then [] else segments dir

theorem dirSegments_injective : Function.Injective dirSegments := by
  intro dir dir' h
  unfold dirSegments at h
  split at h
  · split at h
    · next hdir hdir' => rw [hdir, hdir']
    · exact absurd h.symm (segments_ne_nil _)
  · split at h
    · exact absurd h (segments_ne_nil _)
    · rw [← ofSegments_segments dir, h, ofSegments_segments]

theorem segments_join (hdir : dir.toList.getLast? ≠ some '/') (b : String) :
    segments (join dir b) = dirSegments dir ++ segments b := by
  unfold join dirSegments
  split
  · rfl
  · rw [trimSlashes_eq_self hdir, segments_slash]

section

variable (hdir : dir.toList.getLast? ≠ some '/') (hdir' : dir'.toList.getLast? ≠ some '/')
  (h : join dir b = join dir' b')
include hdir hdir' h

theorem eq_of_join (hlength : (segments b).length = (segments b').length) : dir = dir' := by
  have hsegments := congrArg segments h
  rw [segments_join hdir, segments_join hdir'] at hsegments
  exact dirSegments_injective (List.append_inj' hsegments hlength).1

theorem getLast?_segments_of_join : (segments b).getLast? = (segments b').getLast? := by
  have hlast := congrArg (fun p => (segments p).getLast?) h
  simp only [segments_join hdir, segments_join hdir'] at hlast
  rwa [List.getLast?_append_of_ne_nil _ (segments_ne_nil b),
    List.getLast?_append_of_ne_nil _ (segments_ne_nil b')] at hlast

end

end Path

namespace Filesystem

/-- A tree in which the names of files, links to files among them, have no backslash. -/
def PlainFiles (fs : Filesystem) : Prop :=
  ∀ s d node, fs.node? (.text s :: d) = some node → node ≠ .directory → '\\' ∉ s.toList

theorem plainFiles_of_nodes (h : ∀ entry ∈ fs.nodes, entry.2 ≠ .directory →
    ∀ s ∈ entry.1.head?.bind Octets.text?, '\\' ∉ s.toList) : fs.PlainFiles := by
  intro s d node hs hne
  obtain ⟨before, after, hnodes, -⟩ := List.lookup_eq_some_iff.1 hs
  exact h (.text s :: d, node) (by simp [hnodes]) hne s rfl

theorem PlainFiles.of_isFileAt (hplain : fs.PlainFiles) {r : Route}
    (h : fs.isFileAt (r.entry (.text s))) : '\\' ∉ s.toList := by
  obtain ⟨q, c, hq, hc⟩ := isFileAt_iff.1 h
  obtain ⟨-, k, -, hl⟩ := locate_eq_ok.1 hq
  have hsteps : (r.entry (.text s)).steps = r.steps ++ [.down (.text s)] := rfl
  rw [hsteps] at hl
  obtain ⟨-, k₂, m, -, -, hlast⟩ := hl.split .find
  cases hlast with
  | down _ _ hn _ h =>
    cases h
    refine hplain s m _ hn ?_
    rintro rfl
    cases hn.symm.trans hc
  | stay _ hstay => rcases hstay with h | h <;> cases h
  | link _ _ hn _ => exact hplain s m _ hn nofun
  | fresh _ hp => cases hp

/-- A file of the directory `base` that a scan from `root` calls `b`. -/
structure Known (fs : Filesystem) (root base b s : String) : Prop where
  directory : fs.isDirectory base
  file : fs.isFileAt ((Route.ofPath (.text base)).entry (.text s))
  isName : Path.IsName s
  called : Path.Calls root base s b

theorem Known.ne_empty (h : fs.Known root base b s) : base ≠ "" := by
  obtain ⟨q, hq, -⟩ := isDirectory_iff.1 h.directory
  exact ne_empty_of_locatePath hq

theorem Known.not_isDirectory {rest : List Path.Component} (h : fs.Known root base b s)
    (habsolute : Path.isAbsolute p = Path.isAbsolute base)
    (hp : Path.components p = Path.components base ++ .name (.text s) :: rest) :
    ¬ fs.isDirectory p := by
  intro hdirectory
  obtain ⟨q, hq, hd⟩ := isDirectory_iff.1 hdirectory
  obtain ⟨r, c, hr, hc⟩ := isFileAt_iff.1 h.file
  obtain ⟨k, -, hl⟩ := leads_moves_of_locatePath hq
  obtain ⟨j, -, hl'⟩ := (locate_entry_iff h.ne_empty).1 hr
  -- the moves of the path go to the file first
  have hmoves : ∃ more, Path.moves p = Path.moves base ++ [.down (.text s)] ++ more := by
    have hsegment : (Path.Component.name (.text s)).segment = s := rfl
    rw [Path.moves, Path.namingSegments_eq_filter, hp, List.map_append, List.filter_append,
      ← Path.namingSegments_eq_filter, List.map_cons, hsegment,
      List.filter_cons_of_pos h.isName.isNaming, List.map_append, List.map_cons,
      Step.ofSegment_name h.isName]
    exact ⟨_, List.append_cons _ _ _⟩
  obtain ⟨more, hmoves⟩ := hmoves
  rw [rootStart, habsolute, hmoves] at hl
  obtain ⟨k₁, k₂, m, -, hthrough, hrest⟩ := hl.split .find
  obtain rfl := hthrough.unique hl'
  obtain ⟨-, rfl⟩ := hrest.eq_of_not_directory (not_directory_of_file hc)
  cases hd.symm.trans hc

/-- Of two directories on the text of the root, the nearer one does not lie behind a file of the
other. -/
theorem Known.length_le {rest rest' : List Path.Component} (h : fs.Known root base b s)
    (h' : fs.Known root base' b' t) (habsolute : Path.isAbsolute base' = Path.isAbsolute base)
    (hroot : Path.components root = Path.components base ++ .name (.text s) :: rest)
    (hroot' : Path.components root = Path.components base' ++ .name (.text t) :: rest') :
    rest.length ≤ rest'.length := by
  rcases List.append_eq_append_iff.1 (hroot.symm.trans hroot') with
    ⟨more, hbelow, hmore⟩ | ⟨more, -, hmore⟩
  · cases more with
    | nil => exact Nat.le_of_eq (congrArg List.length (List.cons.inj hmore).2)
    | cons c more =>
      obtain ⟨rfl, -⟩ := List.cons.inj hmore
      exact absurd h'.directory (h.not_isDirectory habsolute hbelow)
  · have hlength := congrArg List.length hmore
    rw [List.length_append, List.length_cons, List.length_cons] at hlength
    omega

theorem Known.eq_of_join (h : fs.Known root base b s) (h' : fs.Known root base' b' t)
    (hdir : dir.toList.getLast? ≠ some '/') (hdir' : dir'.toList.getLast? ≠ some '/')
    (heq : Path.join dir b = Path.join dir' b') : dir = dir' := by
  have hlast := Path.getLast?_segments_of_join hdir hdir' heq
  cases h.called with
  | name =>
    cases h'.called with
    | name =>
      exact Path.eq_of_join hdir hdir' heq (by rw [h.isName.segments, h'.isName.segments]; rfl)
    | through =>
      rw [h.isName.getLast?_segments] at hlast
      exact absurd h.isName (Path.not_isName_of_climb hlast.symm)
  | @through rest habsolute hroot =>
    cases h'.called with
    | name =>
      rw [h'.isName.getLast?_segments] at hlast
      exact absurd h'.isName (Path.not_isName_of_climb hlast)
    | @through rest' habsolute' hroot' =>
      have hstart := habsolute.trans habsolute'.symm
      have hlength := Nat.le_antisymm (h.length_le h' hstart.symm hroot hroot')
        (h'.length_le h hstart hroot' hroot)
      exact Path.eq_of_join hdir hdir' heq (by rw [hlength])

end Filesystem

namespace Project

theorem names_of_findFiles (hnames : fs.ProperNames) (hplain : fs.PlainFiles)
    (h : ((fs.project root).findFiles dir pattern).result = .ok ps) :
    (ps.map Path.baseName).Nodup ∧
      ∀ path ∈ ps, ∃ s, fs.Known root (Path.below root dir) (Path.baseName path) s := by
  obtain ⟨pat, -, hmem, -⟩ := mem_findFiles h
  have hknown {path} (hpath : path ∈ ps) : ∃ s,
      fs.Known root (Path.below root dir) (Path.baseName path) s ∧
        entryPath root (Path.below root dir) (.text s) = .ok path := by
    obtain ⟨hd, -, n, hfinds, hentry⟩ := (hmem path).1 hpath
    obtain ⟨p, hp, rfl⟩ := entryPath_eq_ok.1 hentry
    obtain ⟨s, rfl, hsees⟩ := Path.sees_of_entryFrom hp
    have hs := hfinds.isName hnames
    exact ⟨s, ⟨hd, hfinds.file, hs, hsees.calls hs (hplain.of_isFileAt hfinds.file)⟩, hentry⟩
  constructor
  · refine (nodup_findFiles hnames h).map_on fun path hpath path' hpath' heq => ?_
    obtain ⟨s, hs, hentry⟩ := hknown hpath
    obtain ⟨t, ht, hentry'⟩ := hknown hpath'
    obtain rfl := hs.called.eq (heq ▸ ht.called) hs.isName ht.isName
    exact Except.ok.inj (hentry.symm.trans hentry')
  · intro path hpath
    obtain ⟨s, hs, -⟩ := hknown hpath
    exact ⟨s, hs⟩

theorem nodup_mount_names (hnames : fs.ProperNames) (hplain : fs.PlainFiles)
    (h : ((fs.project root).findFiles dir pattern).result = .ok ps) (virtualDir : String) :
    ((ps.map (mount virtualDir)).map Mount.name).Nodup := by
  have hmap : (ps.map (mount virtualDir)).map Mount.name =
      (ps.map Path.baseName).map (Path.join virtualDir) := by
    rw [List.map_map, List.map_map]
    rfl
  rw [hmap]
  exact (names_of_findFiles hnames hplain h).1.map (Path.join_injective virtualDir)

theorem nodup_fuzzTest_names (hnames : fs.ProperNames) (hplain : fs.PlainFiles)
    (h : ((fs.project root).findFiles dir pattern).result = .ok ps) (commonPath fuzzPath : String) :
    ((ps.map (fuzzTest l commonPath fuzzPath)).map TestEntry.name).Nodup := by
  have hinjective : Function.Injective fun s => Path.baseName l.fuzzHarness ++ " " ++ s := by
    intro s t h
    have hlist := congrArg String.toList h
    simp only [String.toList_append, List.append_right_inj] at hlist
    exact String.toList_injective hlist
  have hmap : (ps.map (fuzzTest l commonPath fuzzPath)).map TestEntry.name =
      (ps.map Path.baseName).map fun s => Path.baseName l.fuzzHarness ++ " " ++ s := by
    rw [List.map_map, List.map_map]
    rfl
  rw [hmap]
  exact (names_of_findFiles hnames hplain h).1.map hinjective

/-- In the common configuration no two mounts have the same name, in the fuzz configuration neither,
and no two tests of C files and no two tests of fuzz inputs have. -/
theorem names_nodup (hnames : fs.ProperNames) (hplain : fs.PlainFiles)
    (hne : l.normalized.patchFixtureDir ≠ l.normalized.inputFixtureDir) :
    (∀ c, ((fs.project root).commonConfig l).result = .ok c → (c.mounts.map Mount.name).Nodup) ∧
    (∀ f, ((fs.project root).fuzzConfig l).result = .ok f → (f.mounts.map Mount.name).Nodup) ∧
    ∀ commonPath fuzzPath ts,
      ((fs.project root).testEntries l commonPath fuzzPath).result = .ok ts →
      ∃ tests entries, ts = tests ++ entries ∧
        (∀ t ∈ tests, t.extraConfig = none) ∧ (∀ t ∈ entries, t.extraConfig = some fuzzPath) ∧
        (tests.map TestEntry.name).Nodup ∧ (entries.map TestEntry.name).Nodup := by
  refine ⟨fun c hc => ?_, fun f hf => ?_, fun commonPath fuzzPath ts hts => ?_⟩
  · obtain ⟨patches, inputs, hpatches, hinputs, rfl⟩ := commonConfig_eq_ok.1 hc
    rw [List.map_append]
    refine List.nodup_append'.2 ⟨nodup_mount_names hnames hplain hpatches _,
      nodup_mount_names hnames hplain hinputs _, ?_⟩
    rw [List.disjoint_left]
    intro name hname hname'
    simp only [List.map_map, List.mem_map, Function.comp_apply] at hname hname'
    obtain ⟨path, hpath, rfl⟩ := hname
    obtain ⟨path', hpath', heq⟩ := hname'
    obtain ⟨s, hs⟩ := (names_of_findFiles hnames hplain hpatches).2 path hpath
    obtain ⟨t, ht⟩ := (names_of_findFiles hnames hplain hinputs).2 path' hpath'
    exact hne (hs.eq_of_join ht (Path.getLast?_normalize _) (Path.getLast?_normalize _) heq.symm)
  · obtain ⟨inputs, hinputs, rfl⟩ := fuzzConfig_eq_ok.1 hf
    exact nodup_mount_names hnames hplain hinputs _
  · obtain ⟨files, inputs, hfiles, hinputs, rfl⟩ := testEntries_eq_ok.1 hts
    obtain ⟨found, hfound, hexclude⟩ := testFiles_eq_ok.1 hfiles
    refine ⟨_, _, rfl, extraConfig_fileTest _ _, extraConfig_fuzzTest _ _ _, ?_, ?_⟩
    · have hsublist : files.Sublist found := by
        rw [exclude_eq_ok (nodup_findFiles hnames hfound) hexclude]
        exact List.filter_sublist
      rw [List.map_map]
      exact (names_of_findFiles hnames hplain hfound).1.sublist (hsublist.map Path.baseName)
    · exact nodup_fuzzTest_names hnames hplain hinputs commonPath fuzzPath

end Project

/-- Fixtures of the same name in two directories, with two tests above them. -/
def Filesystem.fixtures : Filesystem where
  nodes := [([.text "t"], .directory), ([.text "a.c", .text "t"], .file (.text "")),
    ([.text "b.c", .text "t"], .file (.text "")), ([.text "p", .text "t"], .directory),
    ([.text "test.json", .text "p", .text "t"], .file (.text "")),
    ([.text "i", .text "t"], .directory),
    ([.text "test.json", .text "i", .text "t"], .file (.text "")),
    ([.text "test1", .text "i", .text "t"], .link (.text "test.json"))]

def Layout.fixtures : Layout where
  testDir := "t"
  patchFixtureDir := "./p"
  inputFixtureDir := "i/"
  fuzzInputDir := "t/i"
  excludedTests := ["b.c"]

def Mount.fixtures : List Mount × List Mount :=
  ([⟨"p/test.json", "../t/p/test.json"⟩, ⟨"i/test.json", "../t/i/test.json"⟩,
      ⟨"i/test1", "../t/i/test1"⟩],
    [⟨"t/i/test.json", "../t/i/test.json"⟩, ⟨"t/i/test1", "../t/i/test1"⟩])

def TestEntry.fixtures : List TestEntry :=
  [⟨"a.c", .files ["t/a.c"], "c", none⟩,
    ⟨"afl.c test.json", .arguments " t/i/test.json", "c", some "f"⟩,
    ⟨"afl.c test1", .arguments " t/i/test1", "c", some "f"⟩]

theorem Project.names_fixtures :
    Filesystem.fixtures.ProperNames ∧ Filesystem.fixtures.PlainFiles ∧
    Layout.fixtures.normalized.patchFixtureDir ≠ Layout.fixtures.normalized.inputFixtureDir ∧
    (Mount.fixtures.1.map Mount.name).Nodup ∧ (Mount.fixtures.2.map Mount.name).Nodup ∧
    ∃ tests entries, TestEntry.fixtures = tests ++ entries ∧
      (∀ t ∈ tests, t.extraConfig = none) ∧ (∀ t ∈ entries, t.extraConfig = some "f") ∧
      (tests.map TestEntry.name).Nodup ∧ (entries.map TestEntry.name).Nodup := by
  have hnames : Filesystem.fixtures.ProperNames :=
    Filesystem.properNames_of_nodes (by decide +kernel)
  have hplain : Filesystem.fixtures.PlainFiles :=
    Filesystem.plainFiles_of_nodes (by decide +kernel)
  have hne : Layout.fixtures.normalized.patchFixtureDir ≠
    Layout.fixtures.normalized.inputFixtureDir := by decide
  have hc : ((Filesystem.fixtures.project ".").commonConfig .fixtures).result =
      .ok ⟨["../cJSON_Utils.c", "../tests/unity/src/unity.c"], "-DUNITY_EXCLUDE_SETJMP_H", 10000,
        Mount.fixtures.1⟩ := by decide +kernel
  have hf : ((Filesystem.fixtures.project ".").fuzzConfig .fixtures).result =
      .ok ⟨["../cJSON.c", "../fuzzing/afl.c"], Mount.fixtures.2⟩ := by decide +kernel
  have hts : ((Filesystem.fixtures.project ".").testEntries .fixtures "c" "f").result =
      .ok TestEntry.fixtures := by decide +kernel
  exact ⟨hnames, hplain, hne, (names_nodup hnames hplain hne).1 _ hc,
    (names_nodup hnames hplain hne).2.1 _ hf, (names_nodup hnames hplain hne).2.2 "c" "f" _ hts⟩

end AnalyzerConfig
