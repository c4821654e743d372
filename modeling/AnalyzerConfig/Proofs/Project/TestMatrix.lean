import AnalyzerConfig.Proofs.Filesystem.Moves
import AnalyzerConfig.Proofs.Glob.Endings
import AnalyzerConfig.Proofs.Path.Joining
import AnalyzerConfig.Proofs.Project.Below
import AnalyzerConfig.Proofs.Project.Building

namespace AnalyzerConfig

variable {fs : Filesystem} {root dir base pattern name : String} {pat : Glob.Pattern} {n : Octets}
variable {k : Nat} {p q : Place} {steps : List Step} {ps : List String}

/-- The names in a tree are names that entries can have, and have no backslash in them. -/
def Filesystem.PlainNames (fs : Filesystem) : Prop :=
  ∀ s d, fs.node? (.text s :: d) ≠ none → Path.IsName s ∧ '\\' ∉ s.toList

theorem Filesystem.plainNames_of_nodes (h : ∀ entry ∈ fs.nodes,
    ∀ s ∈ entry.1.head?.bind Octets.text?, Path.IsName s ∧ '\\' ∉ s.toList) : fs.PlainNames := by
  intro s d hs
  obtain ⟨node, hmem⟩ := exists_mem_nodes hs
  exact h _ hmem s rfl

theorem Filesystem.Leads.exists_of_down (h : Leads fs .find k p steps q)
    (hn : Step.down n ∈ steps) : ∃ d, fs.node? (n :: d) ≠ none := by
  induction h with
  | done => cases hn
  | stay _ hs _ ih =>
    rcases List.mem_cons.1 hn with rfl | hn
    · rcases hs with hs | hs <;> cases hs
    · exact ih hn
  | up _ _ ih =>
    rcases List.mem_cons.1 hn with hn | hn
    · cases hn
    · exact ih hn
  | @down k p q m rest node _ _ hm _ _ ih =>
    rcases List.mem_cons.1 hn with hn | hn
    · cases hn
      exact ⟨p, by rw [hm]; exact Option.some_ne_none _⟩
    · exact ih hn
  | @link k p q m target rest _ _ hm _ ih =>
    rcases List.mem_cons.1 hn with hn | hn
    · cases hn
      exact ⟨p, by rw [hm]; exact Option.some_ne_none _⟩
    · exact ih (List.mem_append_right _ hn)
  | fresh _ hp _ _ => cases hp

theorem Filesystem.exists_node_of_isFileAt {r : Route} (h : fs.isFileAt (r.entry n)) :
    ∃ d, fs.node? (n :: d) ≠ none := by
  obtain ⟨q, c, hq, -⟩ := isFileAt_iff.1 h
  obtain ⟨-, k, -, hl⟩ := locate_eq_ok.1 hq
  exact hl.exists_of_down (List.mem_append_right _ List.mem_cons_self)

theorem Project.slashed_eq_self {path : String} (h : '\\' ∉ path.toList) : slashed path = path := by
  rw [slashed, ← String.toList_inj, String.toList_map]
  apply (List.map_congr_left _).trans (List.map_id _)
  intro c hc
  have hne : c ≠ '\\' := by
    rintro rfl
    exact h hc
  exact if_neg hne

theorem exists_texts_of_forall₂ {r : Octets → String → Prop} {g : String → String}
    {names : List Octets} (h : List.Forall₂ r names ps)
    (hr : ∀ n ∈ names, ∀ path, r n path → ∃ s, n = .text s ∧ path = g s) :
    ∃ texts : List String, names = texts.map .text ∧ ps = texts.map g := by
  induction h with
  | nil => exact ⟨[], rfl, rfl⟩
  | @cons n path names ps hn _ ih =>
    obtain ⟨texts, rfl, rfl⟩ := ih fun n hn => hr n (List.mem_cons_of_mem _ hn)
    obtain ⟨s, rfl, rfl⟩ := hr n List.mem_cons_self path hn
    exact ⟨s :: texts, rfl, rfl⟩

theorem Project.exists_ordered_texts {ε : Type} {f : Octets → Except ε String}
    {g : String → String} {names : List Octets} {paths : List String}
    (h : names.mapM f = .ok paths)
    (hf : ∀ n ∈ names, ∀ path, f n = .ok path → ∃ s, n = .text s ∧ path = g s) :
    ∃ texts : List String, (texts.map Octets.text).Perm names ∧ inOrder paths = texts.map g := by
  obtain ⟨names', hpaths, hperm⟩ :=
    List.perm_comp_forall₂ (inOrder_perm paths) (List.Forall₂.flip (mapM_eq_ok.1 h))
  obtain ⟨texts, rfl, heq⟩ := exists_texts_of_forall₂ (List.Forall₂.flip hpaths)
    fun n hn => hf n (hperm.mem_iff.1 hn)
  exact ⟨texts, hperm, heq⟩

/-- A regular file in the directory that is not hidden, and whose path is short enough when the
directory is spelled in its normal form. -/
structure Filesystem.Shows (fs : Filesystem) (root dir : String) (n : Octets) : Prop where
  file : fs.isFileAt ((Route.ofPath (.text (Path.below root dir))).entry n)
  visible : n.startsWithDot = false
  short : isShortBelow (Path.below root (Path.normalize dir)) n

theorem Filesystem.finds_iff (hkept : Path.IsKept root dir) :
    fs.Finds (Path.below root (Path.normalize dir)) pat n ↔
      fs.Shows root dir n ∧ Glob.accepts pat n.bytes := by
  have hfile : fs.isFileAt ((Route.ofPath (.text (Path.below root (Path.normalize dir)))).entry n) ↔
      fs.isFileAt ((Route.ofPath (.text (Path.below root dir))).entry n) := by
    simp only [isFileAt_iff, locate_entry_congr hkept.ne_empty hkept.normalize.ne_empty
      hkept.isAbsolute_below hkept.namingSegments_below]
  apply Iff.intro
  · intro h
    exact ⟨⟨hfile.1 h.file, h.visible, h.short⟩, h.accepted⟩
  · rintro ⟨h, haccepted⟩
    exact ⟨h.short, hfile.2 h.file, h.visible, haccepted⟩

theorem Filesystem.Finds.leads (h : fs.Finds base pat n) :
    ∃ k ≤ maxLinks, ∃ q, Leads fs .find k (fs.start (Route.ofPath (.text base)))
      ((Route.ofPath (.text base)).steps ++ [.down n]) q := by
  obtain ⟨q, c, hq, -⟩ := isFileAt_iff.1 h.file
  obtain ⟨-, k, hk, hl⟩ := locate_eq_ok.1 hq
  exact ⟨k, hk, q, hl⟩

theorem Filesystem.Finds.isDirectory (hbase : base ≠ "") (h : fs.Finds base pat n) :
    fs.isDirectory base := by
  obtain ⟨k, hk, q, hl⟩ := h.leads
  obtain ⟨k₁, k₂, m, rfl, h₁, h₂⟩ := hl.split .find
  have hshort := h.short
  rw [isShortBelow, decide_eq_true_iff] at hshort
  have hlocated : fs.locatePath .find (.text base) = .ok m := by
    rw [locatePath_eq_ok, isShort_text, locate_eq_ok]
    exact ⟨by omega, Route.steps_ne_nil hbase, k₁, by omega, h₁⟩
  exact isDirectory_iff.2 ⟨m, hlocated, h₂.directory_of_cons⟩

section

variable (hroot : root ≠ "") (hdir : Path.isAbsolute dir = false)
include hroot hdir

theorem Filesystem.Finds.entryPath (hnames : fs.PlainNames)
    (h : fs.Finds (Path.below root (Path.normalize dir)) pat (.text name)) :
    Path.IsName name ∧ Project.entryPath root (Path.below root (Path.normalize dir)) (.text name) =
      .ok (Path.join (Path.normalize dir) name) := by
  have hnormal := Path.isAbsolute_normalize hdir
  obtain ⟨k, -, q, hl⟩ := h.leads
  rw [Route.ofPath_below hroot hnormal] at hl
  obtain ⟨d, hd⟩ := hl.exists_of_down (n := .text name) (by simp)
  obtain ⟨hname, hplain⟩ := hnames name d hd
  have hjoin := Path.join_normalize hdir name
  refine ⟨hname, ?_⟩
  rw [Project.entryPath_text hroot hnormal, Path.namingSegments_normalize, ← hjoin,
    Project.slashed_eq_self]
  -- a segment with a backslash is the name of something on the way to the entry
  intro hmem
  obtain ⟨s, hs, hmem⟩ := Path.exists_segment_of_mem hmem (by decide)
  rw [Path.segments_join_normalize hdir hname.noSlash] at hs
  rcases List.mem_append.1 hs with hs | hs
  · have hdown : Step.ofSegment (.text s) ∈
        Path.rootSteps root ++ Path.steps (Path.normalize dir) ++ [.down (.text name)] := by
      rw [← Path.namingSegments_normalize] at hs
      have hsteps := List.mem_map_of_mem (f := fun s => Step.ofSegment (.text s))
        (List.mem_filter.1 hs).1
      simp only [List.mem_append]
      exact .inl (.inr hsteps)
    have hne {t : String} (ht : '\\' ∉ t.toList) : s ≠ t := by
      rintro rfl
      exact ht hmem
    have hs : Step.ofSegment (.text s) = .down (.text s) := by
      simp only [Step.ofSegment, Octets.text.injEq, hne (t := "") (by decide),
        hne (t := ".") (by decide), hne (t := "..") (by decide), if_false]
    obtain ⟨e, he⟩ := hl.exists_of_down (hs ▸ hdown)
    exact (hnames s e he).2 hmem
  · exact hplain (List.mem_singleton.1 hs ▸ hmem)

theorem Project.text_of_entryPath (hnames : fs.PlainNames) {path : String}
    (hfinds : fs.Finds (Path.below root (Path.normalize dir)) pat n)
    (h : entryPath root (Path.below root (Path.normalize dir)) n = .ok path) :
    ∃ s, n = .text s ∧ path = Path.join (Path.normalize dir) s := by
  cases n with
  | raw bs hbs =>
    rw [entryPath_of_not_text hroot (Path.isAbsolute_normalize hdir) rfl] at h
    cases h
  | text s =>
    obtain ⟨-, hpath⟩ := hfinds.entryPath hroot hdir hnames
    exact ⟨s, rfl, Except.ok.inj (h.symm.trans hpath)⟩

/-- A scan of plain names finds the paths of all names that it selects, once each and in order. -/
theorem Project.findFiles_eq_paths (hin : ¬ Path.IsHyphen root) (hnames : fs.PlainNames)
    (h : ((fs.project root).findFiles (Path.normalize dir) pattern).result = .ok ps) :
    ∃ (pat : Glob.Pattern) (texts : List String), Glob.parse pattern = .ok pat ∧
      ps = texts.map (Path.join (Path.normalize dir)) ∧ ps.Pairwise (· < ·) ∧
      (∀ s ∈ texts, Path.IsName s) ∧
      ∀ n, (∃ s ∈ texts, n = .text s) ↔ fs.Shows root dir n ∧ Glob.accepts pat n.bytes := by
  have hnormal := Path.isAbsolute_normalize hdir
  have hkept : Path.IsKept root dir := .inr ⟨hdir, hroot⟩
  obtain ⟨pat, hpat, -, ⟨hd, rfl⟩ | ⟨-, names, paths, hlists, hpaths, rfl⟩⟩ := findFiles_eq_ok.1 h
  · refine ⟨pat, [], hpat, rfl, .nil, nofun, fun n => ?_⟩
    rw [← Filesystem.finds_iff hkept]
    apply Iff.intro
    · rintro ⟨s, hs, -⟩
      cases hs
    · intro hfinds
      exact absurd (hfinds.isDirectory hkept.normalize.ne_empty) (Bool.not_eq_true _ ▸ hd)
  · have hmem n : n ∈ names ↔ fs.Finds (Path.below root (Path.normalize dir)) pat n := by
      rw [hlists.2, and_iff_right (isStandardInput_below hroot hin hnormal)]
    obtain ⟨texts, hperm, heq⟩ := exists_ordered_texts hpaths fun n hn path hpath =>
      text_of_entryPath hroot hdir hnames ((hmem n).1 hn) hpath
    have hnodup : texts.Nodup := (hperm.nodup_iff.2 hlists.1).of_map _
    have hpairs : (inOrder paths).Pairwise (· ≠ ·) :=
      heq ▸ hnodup.map (Path.join_injective _)
    have hmem' n : n ∈ texts.map Octets.text ↔
        fs.Finds (Path.below root (Path.normalize dir)) pat n := by
      rw [hperm.mem_iff, hmem]
    refine ⟨pat, texts, hpat, heq, ?_, ?_, fun n => ?_⟩
    · exact ((inOrder_pairwise paths).and hpairs).imp fun h => Std.lt_of_le_of_ne h.1 h.2
    · intro s hs
      exact (((hmem' _).1 (List.mem_map_of_mem hs)).entryPath hroot hdir hnames).1
    · rw [← Filesystem.finds_iff hkept, ← hmem', List.mem_map]
      simp only [eq_comm]

end

theorem exclude_eq_ok {testDir : String} {names files rest : List String} (hfiles : files.Nodup)
    (h : exclude testDir names files = .ok rest) :
    rest = files.filter fun path => path ∉ names.map (Path.join testDir) := by
  induction names generalizing files with
  | nil =>
    cases h
    exact (List.filter_eq_self.2 (by simp)).symm
  | cons name names ih =>
    unfold exclude at h
    simp only at h
    split at h
    · rw [ih (hfiles.erase _) h, hfiles.erase_eq_filter, List.filter_filter]
      apply List.filter_congr
      intro path _
      apply Bool.eq_iff_iff.2
      simp only [List.map_cons, List.mem_cons, not_or, Bool.and_eq_true, decide_eq_true_iff,
        bne_iff_ne, ne_eq]
      exact and_comm
    · cases h

theorem exclude_paths_eq_ok {testDir : String} {names texts rest : List String}
    (htexts : (texts.map (Path.join testDir)).Nodup)
    (h : exclude testDir names (texts.map (Path.join testDir)) = .ok rest) :
    rest = (texts.filter (· ∉ names)).map (Path.join testDir) := by
  rw [exclude_eq_ok htexts h, List.filter_map]
  apply congrArg
  apply List.filter_congr
  intro s _
  apply Bool.eq_iff_iff.2
  simp only [Function.comp_apply, decide_eq_true_iff,
    List.mem_map_of_injective (Path.join_injective testDir)]

def TestEntry.ofFile (dir commonPath name : String) : TestEntry where
  name := name
  input := .files [Path.join dir name]
  config := commonPath
  extraConfig := none

def TestEntry.ofInput (harness dir commonPath fuzzPath name : String) : TestEntry where
  name := harness ++ " " ++ name
  input := .arguments (" " ++ Path.join dir name)
  config := commonPath
  extraConfig := some fuzzPath

theorem Project.fileTest_join (commonPath dir : String) (hname : Path.IsName name) :
    fileTest commonPath (Path.join (Path.normalize dir) name) =
      .ofFile (Path.normalize dir) commonPath name := by
  rw [fileTest, Path.baseName_join _ hname]
  rfl

theorem Project.fuzzTest_join {l : Layout} (commonPath fuzzPath : String)
    (hname : Path.IsName name) :
    fuzzTest l.normalized commonPath fuzzPath (Path.join (Path.normalize l.fuzzInputDir) name) =
      .ofInput (Path.baseName (Path.normalize l.fuzzHarness)) (Path.normalize l.fuzzInputDir)
        commonPath fuzzPath name := by
  rw [fuzzTest, Path.baseName_join _ hname]
  rfl

/-- Names in the byte order of their paths in a directory, no two of them the same. -/
def Path.InByteOrder (dir : String) (names : List String) : Prop :=
  names.Pairwise fun s t => (Octets.text (join dir s)).bytes < (Octets.text (join dir t)).bytes

theorem Path.inByteOrder_of_pairwise {names : List String}
    (h : (names.map (join dir)).Pairwise (· < ·)) : InByteOrder dir names :=
  (List.pairwise_map.1 h).imp Octets.bytes_text_lt

/-- The tests are those of the C files in the test directory that are not excluded, and then those
of the fuzz inputs. Each of these files has one test, which names it by its path from the root. -/
theorem Project.testEntries_exact {l : Layout} {commonPath fuzzPath : String} {ts : List TestEntry}
    (hroot : root ≠ "") (hin : ¬ Path.IsHyphen root) (htest : Path.isAbsolute l.testDir = false)
    (hfuzz : Path.isAbsolute l.fuzzInputDir = false) (hnames : fs.PlainNames)
    (h : ((fs.project root).testEntries l commonPath fuzzPath).result = .ok ts) :
    ∃ (tests inputs : List String) (pat : Glob.Pattern),
      ts = tests.map (.ofFile (Path.normalize l.testDir) commonPath) ++
        inputs.map (.ofInput (Path.baseName (Path.normalize l.fuzzHarness))
          (Path.normalize l.fuzzInputDir) commonPath fuzzPath) ∧
      (∀ n, (∃ s ∈ tests, n = .text s) ↔
        fs.Shows root l.testDir n ∧ (Octets.text ".c").bytes <:+ n.bytes ∧
          ∀ s ∈ l.excludedTests, n ≠ .text s) ∧
      Glob.parse (l.inputPrefix ++ "*") = .ok pat ∧
      (∀ n, (∃ s ∈ inputs, n = .text s) ↔
        fs.Shows root l.fuzzInputDir n ∧ Glob.accepts pat n.bytes) ∧
      Path.InByteOrder (Path.normalize l.testDir) tests ∧
      Path.InByteOrder (Path.normalize l.fuzzInputDir) inputs := by
  obtain ⟨files, inputPaths, hfiles, hinputs, rfl⟩ := testEntries_eq_ok.1 h
  obtain ⟨found, hfound, hexclude⟩ := testFiles_eq_ok.1 hfiles
  obtain ⟨_, texts, hparse, rfl, horder, hisName, hmem⟩ :=
    findFiles_eq_paths hroot htest hin hnames hfound
  obtain ⟨pat, inputs, hpat, rfl, horder', hisName', hmem'⟩ :=
    findFiles_eq_paths hroot hfuzz hin hnames hinputs
  have hstar : Glob.parse "*.c" = .ok (.many :: ".c".toList.map .literal) := rfl
  cases hparse.symm.trans hstar
  have hfiles : files =
      (texts.filter (· ∉ l.excludedTests)).map (Path.join (Path.normalize l.testDir)) :=
    exclude_paths_eq_ok (horder.imp fun h => Std.ne_of_lt h) hexclude
  subst hfiles
  refine ⟨texts.filter (· ∉ l.excludedTests), inputs, pat, ?_, ?_, hpat, hmem', ?_,
    Path.inByteOrder_of_pairwise horder'⟩
  · have htests := List.map_congr_left (l := texts.filter (· ∉ l.excludedTests)) fun s hs =>
      fileTest_join commonPath l.testDir (hisName s (List.mem_of_mem_filter hs))
    have hinputs := List.map_congr_left fun s hs =>
      fuzzTest_join (l := l) commonPath fuzzPath (hisName' s hs)
    rw [List.map_map, List.map_map, ← htests, ← hinputs]
    rfl
  · intro n
    have hending : Glob.accepts (.many :: ".c".toList.map .literal) n.bytes ↔
        (Octets.text ".c").bytes <:+ n.bytes := Glob.accepts_star_literals
    rw [← hending, ← and_assoc, ← hmem n]
    apply Iff.intro
    · rintro ⟨s, hs, rfl⟩
      obtain ⟨hs, hkept⟩ := List.mem_filter.1 hs
      refine ⟨⟨s, hs, rfl⟩, ?_⟩
      rintro s' hs' heq
      cases heq
      exact of_decide_eq_true hkept hs'
    · rintro ⟨⟨s, hs, rfl⟩, hkept⟩
      have hs' : s ∉ l.excludedTests := fun hs' => hkept s hs' rfl
      exact ⟨s, List.mem_filter.2 ⟨hs, decide_eq_true hs'⟩, rfl⟩
  · exact Path.inByteOrder_of_pairwise (horder.sublist (List.filter_sublist.map _))

def Layout.mixed : Layout where
  testDir := "./t/"
  fuzzInputDir := "t"
  fuzzHarness := "src/h.c"
  excludedTests := ["setup.c"]

/-- A directory with a test, another one behind a link, a fuzz input, and what is neither. -/
def Filesystem.mixed : Filesystem where
  nodes := [([.text "t"], .directory), ([.text "test1", .text "t"], .file (.text "")),
    ([.text "b.c", .text "t"], .link (.text "a.c")), ([.text "a.c", .text "t"], .file (.text "")),
    ([.text "setup.c", .text "t"], .file (.text "")), ([.text ".c", .text "t"], .file (.text "")),
    ([.text "d.c", .text "t"], .directory), ([.text "e.c", .text "t"], .link (.text "e.c"))]

def TestEntry.mixed : List TestEntry :=
  [⟨"a.c", .files ["t/a.c"], "c", none⟩, ⟨"b.c", .files ["t/b.c"], "c", none⟩,
    ⟨"h.c test1", .arguments " t/test1", "c", some "f"⟩]

theorem Filesystem.plainNames_mixed : mixed.PlainNames := plainNames_of_nodes (by decide +kernel)

theorem testEntries_mixed :
    ¬ Path.IsHyphen "." ∧ Filesystem.mixed.PlainNames ∧
    ((Filesystem.mixed.project ".").testEntries .mixed "c" "f").result =
      .ok TestEntry.mixed ∧
    ∃ (tests inputs : List String) (pat : Glob.Pattern),
      TestEntry.mixed = tests.map (.ofFile "t" "c") ++ inputs.map (.ofInput "h.c" "t" "c" "f") ∧
      (∀ n, (∃ s ∈ tests, n = .text s) ↔
        Filesystem.mixed.Shows "." "./t/" n ∧ (Octets.text ".c").bytes <:+ n.bytes ∧
          ∀ s ∈ ["setup.c"], n ≠ .text s) ∧
      Glob.parse "test*" = .ok pat ∧
      ∀ n, (∃ s ∈ inputs, n = .text s) ↔
        Filesystem.mixed.Shows "." "t" n ∧ Glob.accepts pat n.bytes := by
  have hin : ¬ Path.IsHyphen "." := by decide
  have hresult : ((Filesystem.mixed.project ".").testEntries .mixed "c" "f").result =
      .ok TestEntry.mixed := by decide +kernel
  obtain ⟨tests, inputs, pat, hts, htests, hpat, hinputs, -⟩ := Project.testEntries_exact
    (by decide) hin (by decide) (by decide) Filesystem.plainNames_mixed hresult
  exact ⟨hin, Filesystem.plainNames_mixed, hresult, tests, inputs, pat, hts, htests, hpat, hinputs⟩

theorem Project.findFiles_of_noRoom (hpat : Glob.parse pattern = .ok pat)
    (hnest : Glob.nesting pat ≤ Glob.maxNesting)
    (hroom : ∀ n, Filesystem.isShortBelow (Path.below root dir) n = false) :
    ((fs.project root).findFiles dir pattern).result = .ok [] := by
  refine findFiles_eq_ok.2 ⟨pat, hpat, hnest, ?_⟩
  cases hd : fs.isDirectory (Path.below root dir) with
  | false => exact .inl ⟨rfl, rfl⟩
  | true =>
    refine .inr ⟨rfl, [], [], ⟨List.nodup_nil, fun n => ?_⟩, rfl, rfl⟩
    apply Iff.intro
    · intro h
      cases h
    · rintro ⟨-, h⟩
      exact absurd h.short (by rw [hroom n]; exact Bool.false_ne_true)

theorem Path.below_padded (hdir : isAbsolute dir = false) (m : Nat) :
    below (padded (m + 1)) dir = padded (m + 1) ++ dir := by
  have hlast : (padded (m + 1)).toList.getLast? = some '/' := by
    rw [padded_succ, toList_slash]
    exact List.getLast?_concat
  have hseparator : separator (padded (m + 1)) = "" := if_pos (.inr hlast)
  rw [below, if_neg (Bool.eq_false_iff.1 hdir), hseparator, String.append_empty]

theorem Filesystem.noRoom_padded {m : Nat} (hm : maxPathLength < m + 4) (n : Octets) :
    isShortBelow (Path.below (Path.padded (m + 1)) "t") n = false := by
  have hlast : (Path.padded (m + 1) ++ "t").toList.getLast? = some 't' := by
    rw [String.toList_append]
    exact List.getLast?_concat
  have hseparator : Path.separator (Path.padded (m + 1) ++ "t") = "/" := by
    refine if_neg (not_or_intro ?_ ?_)
    · intro h
      rw [h] at hlast
      cases hlast
    · rw [hlast]
      decide
  have hname : "t".utf8ByteSize = 1 := by decide
  have hslash : "/".utf8ByteSize = 1 := by decide
  rw [isShortBelow, Path.below_padded (by decide), hseparator, String.utf8ByteSize_append,
    Path.utf8ByteSize_padded, hname, hslash, decide_eq_false_iff_not]
  omega

theorem testEntries_padded :
    ¬ Path.IsHyphen (Path.padded 4093) ∧ Filesystem.mixed.PlainNames ∧
    Filesystem.mixed.locatePath .find (.text (Path.below (Path.padded 4093) "t")) =
      .ok [.text "t"] ∧
    Filesystem.mixed.node? [.text "a.c", .text "t"] = some (.file (.text "")) ∧
    ((Filesystem.mixed.project (Path.padded 4093)).testEntries
      { Layout.mixed with testDir := "t", excludedTests := [] } "c" "f").result = .ok [] := by
  have hroot : Filesystem.mixed.RootAt (Path.padded 4093) [] :=
    Filesystem.rootAt_padded rfl (by decide)
  have hname : "t".utf8ByteSize = 1 := by decide
  refine ⟨Path.not_isHyphen_padded 4093, Filesystem.plainNames_mixed, ?_, rfl, ?_⟩
  · obtain ⟨k, hk, hl⟩ := hroot.leads
    have ht : Filesystem.mixed.node? [.text "t"] = some .directory := rfl
    have hdown : Filesystem.Leads Filesystem.mixed .find 0 [] (Path.steps "t") [.text "t"] :=
      .down rfl nofun ht nofun .done
    rw [Filesystem.locatePath_eq_ok, Filesystem.isShort_text, hroot.locate_eq_ok (by decide),
      Path.below_padded (by decide), String.utf8ByteSize_append, Path.utf8ByteSize_padded, hname]
    exact ⟨by decide, k, hk, hl.append .find hdown⟩
  · have hroom := Filesystem.noRoom_padded (m := 4092) (by decide)
    have hparse : Glob.parse "test*" = .ok ("test".toList.map .literal ++ [.many]) := rfl
    refine Project.testEntries_eq_ok.2 ⟨[], [], Project.testFiles_eq_ok.2 ⟨[], ?_, rfl⟩, ?_, rfl⟩
    · exact Project.findFiles_of_noRoom rfl (by decide) hroom
    · exact Project.findFiles_of_noRoom hparse (by decide) hroom

end AnalyzerConfig
