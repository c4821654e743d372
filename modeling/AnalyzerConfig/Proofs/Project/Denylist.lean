import AnalyzerConfig.Proofs.Project.Emitted

namespace AnalyzerConfig

variable {fs : Filesystem} {root dir testDir name path s : String} {l : Layout}
variable {names names' files found rest ss : List String}

/-- Names that can all be taken out of the files: none of them twice, and each of them there. -/
structure IsCurrent (testDir : String) (names files : List String) : Prop where
  nodup : names.Nodup
  found : ∀ name ∈ names, Path.join testDir name ∈ files

/-- The first name that cannot be taken out: it is missing, or was taken out already. -/
def IsFirstStale (testDir : String) (names files : List String) (name : String) : Prop :=
  ∃ before after, names = before ++ name :: after ∧ IsCurrent testDir before files ∧
    (name ∈ before ∨ Path.join testDir name ∉ files)

theorem IsCurrent.perm (h : names.Perm names') (hcurrent : IsCurrent testDir names files) :
    IsCurrent testDir names' files :=
  ⟨h.nodup_iff.1 hcurrent.nodup, fun name hname => hcurrent.found name (h.mem_iff.2 hname)⟩

theorem isCurrent_append_singleton (hcurrent : IsCurrent testDir names files)
    (hname : name ∉ names) (hfound : Path.join testDir name ∈ files) :
    IsCurrent testDir (names ++ [name]) files where
  nodup := by
    rw [← List.concat_eq_append]
    exact hcurrent.nodup.concat hname
  found n hn := by
    rcases List.mem_append.1 hn with hn | hn
    · exact hcurrent.found n hn
    · exact List.mem_singleton.1 hn ▸ hfound

theorem isCurrent_or_stale (testDir : String) (names files : List String) :
    IsCurrent testDir names files ∨ ∃ name, IsFirstStale testDir names files name := by
  induction names using List.reverseRecOn with
  | nil => exact .inl ⟨List.nodup_nil, nofun⟩
  | append_singleton names name ih =>
    rcases ih with hcurrent | ⟨stale, before, after, rfl, hbefore, hstale⟩
    · by_cases hstale : name ∈ names ∨ Path.join testDir name ∉ files
      · exact .inr ⟨name, names, [], rfl, hcurrent, hstale⟩
      · obtain ⟨hname, hfound⟩ := not_or.1 hstale
        exact .inl (isCurrent_append_singleton hcurrent hname (not_not.1 hfound))
    · refine .inr ⟨stale, before, after ++ [name], ?_, hbefore, hstale⟩
      rw [List.append_assoc, List.cons_append]

theorem isCurrent_cons (hfiles : files.Nodup) :
    IsCurrent testDir (name :: names) files ↔
      Path.join testDir name ∈ files ∧
        IsCurrent testDir names (files.erase (Path.join testDir name)) := by
  apply Iff.intro
  · rintro ⟨hnodup, hfound⟩
    obtain ⟨hname, hnodup⟩ := List.nodup_cons.1 hnodup
    refine ⟨hfound name List.mem_cons_self, hnodup, fun n hn => ?_⟩
    rw [hfiles.mem_erase_iff]
    refine ⟨fun heq => hname ?_, hfound n (List.mem_cons_of_mem name hn)⟩
    exact Path.join_injective testDir heq ▸ hn
  · rintro ⟨hfirst, hnodup, hfound⟩
    simp only [hfiles.mem_erase_iff] at hfound
    refine ⟨List.nodup_cons.2 ⟨fun hname => (hfound name hname).1 rfl, hnodup⟩, fun n hn => ?_⟩
    rcases List.mem_cons.1 hn with rfl | hn
    · exact hfirst
    · exact (hfound n hn).2

theorem exclude_append (testDir : String) (names more files : List String) :
    exclude testDir (names ++ more) files =
      (exclude testDir names files).bind (exclude testDir more) := by
  induction names generalizing files with
  | nil => rfl
  | cons name names ih =>
    rw [List.cons_append, exclude, exclude]
    split
    · exact ih _
    · rfl

theorem exclude_singleton (testDir name : String) (files : List String) :
    exclude testDir [name] files =
      if Path.join testDir name ∈ files then .ok (files.erase (Path.join testDir name))
      else .error (.staleExclusion name testDir) := by
  rw [exclude]
  rfl

section

variable (hfiles : files.Nodup)
include hfiles

theorem exists_exclude_iff :
    (∃ rest, exclude testDir names files = .ok rest) ↔ IsCurrent testDir names files := by
  -- the files get fewer with every name, so they vary in the induction
  induction names generalizing files with
  | nil => exact ⟨fun _ => ⟨List.nodup_nil, nofun⟩, fun _ => ⟨files, rfl⟩⟩
  | cons name names ih =>
    rw [isCurrent_cons hfiles, ← ih (hfiles.erase _), exclude]
    by_cases hfound : Path.join testDir name ∈ files
    · rw [if_pos hfound, and_iff_right hfound]
    · simp [hfound]

theorem exclude_of_current (h : IsCurrent testDir names files) :
    exclude testDir names files =
      .ok (files.filter fun path => path ∉ names.map (Path.join testDir)) := by
  obtain ⟨rest, hrest⟩ := (exists_exclude_iff hfiles).2 h
  rw [hrest, exclude_eq_ok hfiles hrest]

theorem exclude_perm (h : names.Perm names') (hok : exclude testDir names files = .ok rest) :
    exclude testDir names' files = .ok rest := by
  have hcurrent := (exists_exclude_iff hfiles).1 ⟨rest, hok⟩
  rw [exclude_of_current hfiles (hcurrent.perm h), exclude_eq_ok hfiles hok]
  simp only [(h.map _).mem_iff]

theorem exclude_of_stale (h : IsFirstStale testDir names files name) :
    exclude testDir names files = .error (.staleExclusion name testDir) := by
  obtain ⟨before, after, rfl, hbefore, hstale⟩ := h
  rw [exclude_append, exclude_of_current hfiles hbefore, Except.bind, exclude]
  apply if_neg
  intro hleft
  obtain ⟨hfound, hkept⟩ := List.mem_filter.1 hleft
  rcases hstale with hname | hmissing
  · exact of_decide_eq_true hkept (List.mem_map_of_mem hname)
  · exact hmissing hfound

theorem exclude_eq_error {e : Failure} (h : exclude testDir names files = .error e) :
    ∃ name, IsFirstStale testDir names files name ∧ e = .staleExclusion name testDir := by
  rcases isCurrent_or_stale testDir names files with hcurrent | ⟨name, hstale⟩
  · rw [exclude_of_current hfiles hcurrent] at h
    cases h
  · rw [exclude_of_stale hfiles hstale] at h
    cases h
    exact ⟨name, hstale, rfl⟩

end

namespace Project

theorem testFiles_result {project : Project}
    (h : (project.findFiles (Path.normalize l.testDir) "*.c").result = .ok found) :
    (project.testFiles l).result = exclude (Path.normalize l.testDir) l.excludedTests found := by
  have hfound : (project.findFiles l.normalized.testDir "*.c").result = .ok found := h
  have hexclude : exclude (Path.normalize l.testDir) l.excludedTests found =
      exclude l.normalized.testDir l.normalized.excludedTests found := rfl
  unfold testFiles
  simp only [Logged.result_bind, hfound, Logged.ofExcept, Except.bind]
  rw [hexclude]
  cases exclude l.normalized.testDir l.normalized.excludedTests found <;> rfl

/-- The tests are the files that a scan of the test directory finds, without those that the excluded
names stand for. There is a list of them just if each excluded name is there and is excluded once;
otherwise the first name that is not so is blamed. In another order the names take the same files
away. -/
theorem testFiles_exact (hnames : fs.ProperNames)
    (h : ((fs.project root).findFiles (Path.normalize l.testDir) "*.c").result = .ok found) :
    ((∃ files, ((fs.project root).testFiles l).result = .ok files) ↔
      IsCurrent (Path.normalize l.testDir) l.excludedTests found) ∧
    (∀ files, ((fs.project root).testFiles l).result = .ok files →
      files = found.filter fun path =>
        path ∉ l.excludedTests.map (Path.join (Path.normalize l.testDir))) ∧
    (∀ e, ((fs.project root).testFiles l).result = .error e →
      ∃ name, IsFirstStale (Path.normalize l.testDir) l.excludedTests found name ∧
        e = .staleExclusion name (Path.normalize l.testDir)) ∧
    ∀ names, names.Perm l.excludedTests → ∀ files,
      ((fs.project root).testFiles { l with excludedTests := names }).result = .ok files ↔
        ((fs.project root).testFiles l).result = .ok files := by
  have hfound := nodup_findFiles hnames h
  rw [testFiles_result h]
  refine ⟨exists_exclude_iff hfound, fun files => exclude_eq_ok hfound,
    fun e => exclude_eq_error hfound, fun names hperm files => ?_⟩
  have h' : ((fs.project root).findFiles
      (Path.normalize { l with excludedTests := names }.testDir) "*.c").result = .ok found := h
  rw [testFiles_result h']
  exact ⟨exclude_perm hfound hperm, exclude_perm hfound hperm.symm⟩

theorem testFiles_mixed_perm :
    Filesystem.mixed.ProperNames ∧
    ((Filesystem.mixed.project ".").findFiles "t" "*.c").result =
      .ok ["t/a.c", "t/b.c", "t/setup.c"] ∧
    IsCurrent "t" ["setup.c", "a.c"] ["t/a.c", "t/b.c", "t/setup.c"] ∧
    ((Filesystem.mixed.project ".").testFiles
      { Layout.mixed with excludedTests := ["a.c", "setup.c"] }).result = .ok ["t/b.c"] := by
  have hnames := Filesystem.plainNames_mixed.proper
  have hfound : ((Filesystem.mixed.project ".").findFiles "t" "*.c").result =
      .ok ["t/a.c", "t/b.c", "t/setup.c"] := by decide +kernel
  have hresult : ((Filesystem.mixed.project ".").testFiles
      { Layout.mixed with excludedTests := ["setup.c", "a.c"] }).result = .ok ["t/b.c"] := by
    decide +kernel
  obtain ⟨hcurrent, -, -, hperm⟩ := testFiles_exact
    (l := { Layout.mixed with excludedTests := ["setup.c", "a.c"] }) hnames hfound
  exact ⟨hnames, hfound, hcurrent.1 ⟨_, hresult⟩,
    (hperm ["a.c", "setup.c"] (.swap _ _ _) _).2 hresult⟩

end Project

/-- An entry of a directory is found at the path that its name has there: the directory is not the
standard input, is not absolute below an absolute root, and has no backslash in its text, nor has
the name. -/
structure Path.IsJoined (root dir name : String) : Prop where
  notInput : Project.isStandardInput (below root (normalize dir)) = false
  notAbsolute : ¬ (isAbsolute root = true ∧ isAbsolute dir = true)
  plain : '\\' ∉ (join (normalize dir) name).toList

theorem Path.plain_ofSegments
    (h : ∀ s ∈ ss, s ≠ "" ∧ '/' ∉ s.toList ∧ '\\' ∉ s.toList) :
    isAbsolute (ofSegments ss) = false ∧ '\\' ∉ (ofSegments ss).toList := by
  refine ⟨isAbsolute_ofSegments fun s hs => ⟨(h s hs).1, (h s hs).2.1⟩, fun hmem => ?_⟩
  by_cases hss : ss = []
  · rw [hss] at hmem
    cases hmem
  · obtain ⟨s, hs, hmem⟩ := exists_segment_of_mem hmem (by decide)
    rw [segments_ofSegments hss fun s hs => (h s hs).2.1] at hs
    exact (h s hs).2.2 hmem

section

variable (hkept : Path.IsKept root dir) (hs : Path.IsName s)
include hkept hs

theorem Project.entryPath_eq_join
    (hnot : ¬ (Path.isAbsolute root = true ∧ Path.isAbsolute dir = true)) :
    entryPath root (Path.below root (Path.normalize dir)) (.text s) =
      .ok (slashed (Path.join (Path.normalize dir) s)) := by
  cases hdir : Path.isAbsolute dir with
  | false =>
    have habsolute := Path.isAbsolute_below (Path.isAbsolute_normalize hdir) root
    have hcomponents := Path.components_below_normalize hdir root
    rw [entryPath, Path.entryFrom_of_components habsolute hcomponents, Path.join_normalize hdir]
    rfl
  | true =>
    have hnames := hkept.names_ne_nil hdir
    have hroot : Path.isAbsolute root = false := by
      rw [← Bool.not_eq_true]
      exact fun hroot => hnot ⟨hroot, hdir⟩
    have hnormal := hkept.isAbsolute_normalize.trans hdir
    have hentry : Path.entryFrom root (Path.normalize dir) (.text s) =
        some (some (Path.below (Path.normalize dir) s)) := by
      unfold Path.entryFrom
      rw [hnormal, hroot]
      rfl
    rw [entryPath, Path.below_of_absolute hnormal, hentry, Path.join_normalize_of_names hnames,
      Path.below_normalize_of_names hnames hs.isAbsolute]
    rfl

theorem Project.isAbsolute_entryPath (hroot : Path.isAbsolute root = true)
    (hdir : Path.isAbsolute dir = true) (hplain : '\\' ∉ (Path.join (Path.normalize dir) s).toList)
    (h : entryPath root (Path.below root (Path.normalize dir)) (.text s) = .ok path) :
    Path.isAbsolute path = false := by
  have hnormal := hkept.isAbsolute_normalize.trans hdir
  have hnames := hkept.names_ne_nil hdir
  rw [Path.join_normalize_of_names hnames, Path.toList_slash, List.mem_append, not_or] at hplain
  have hplainName : '\\' ∉ s.toList := fun hmem => hplain.2 (List.mem_cons_of_mem _ hmem)
  have hdots : ".." ≠ "" ∧ '/' ∉ "..".toList ∧ '\\' ∉ "..".toList := by decide
  obtain ⟨p, hp, rfl⟩ := entryPath_eq_ok.1 h
  obtain ⟨_, hs', hsees⟩ := Path.sees_of_entryFrom hp
  cases hs'
  rw [Path.below_of_absolute hnormal] at hsees
  have hsegments : Path.isAbsolute p = false ∧ '\\' ∉ p.toList := by
    cases hsees with
    | absolute _ hrelative => cases hrelative.symm.trans hroot
    | through =>
      apply Path.plain_ofSegments
      intro t ht
      obtain ⟨-, -, rfl⟩ := List.mem_map.1 ht
      exact hdots
    | way _ _ hway =>
      obtain ⟨shared, down, up, hdown, -, hcs⟩ := Path.names_of_wayBetween hnormal hroot hway
      apply Path.plain_ofSegments
      rw [hcs]
      intro t ht
      rcases List.mem_append.1 ht with ht | ht
      · rcases List.mem_append.1 ht with ht | ht
        · obtain ⟨-, -, rfl⟩ := List.mem_map.1 ht
          exact hdots
        · have ht : t ∈ Path.namingSegments (Path.normalize dir) :=
            hdown ▸ List.mem_append_right shared ht
          obtain ⟨hsegment, hnaming⟩ := List.mem_filter.1 ht
          refine ⟨?_, Path.noSlash_of_mem_segments hsegment,
            fun hmem => hplain.1 (Path.mem_of_mem_segments hsegment hmem)⟩
          rintro rfl
          cases hnaming
      · obtain rfl := List.mem_singleton.1 ht
        exact ⟨hs.ne_empty, hs.noSlash, hplainName⟩
  rw [slashed_eq_self hsegments.2]
  exact hsegments.1

end

section

variable {pat : Glob.Pattern} (hnames : fs.ProperNames) (hkept : Path.IsKept root l.testDir)
  (hfinds : ∀ e ∈ l.excludedTests,
    fs.Finds (Path.below root (Path.normalize l.testDir)) pat (.text e))
  (hpat : Glob.parse "*.c" = .ok pat)
  (h : ((fs.project root).findFiles (Path.normalize l.testDir) "*.c").result = .ok found)
include hnames hkept hfinds hpat h

theorem Project.isCurrent_of_joined (hnodup : l.excludedTests.Nodup)
    (hjoined : ∀ e ∈ l.excludedTests, Path.IsJoined root l.testDir e) :
    IsCurrent (Path.normalize l.testDir) l.excludedTests found := by
  obtain ⟨_, hpat', hmem, -⟩ := mem_findFiles h
  cases hpat'.symm.trans hpat
  refine ⟨hnodup, fun e he => (hmem _).2 ⟨?_, (hjoined e he).notInput, .text e, hfinds e he, ?_⟩⟩
  · exact (hfinds e he).isDirectory hkept.normalize.ne_empty
  · rw [entryPath_eq_join hkept ((hfinds e he).isName hnames) (hjoined e he).notAbsolute,
      slashed_eq_self (hjoined e he).plain]

theorem Project.isJoined_of_excluded {files : List String}
    (hfiles : exclude (Path.normalize l.testDir) l.excludedTests found = .ok files)
    (hout : ∀ e ∈ l.excludedTests, ∀ path,
      entryPath root (Path.below root (Path.normalize l.testDir)) (.text e) = .ok path →
        path ∉ files) {e : String} (he : e ∈ l.excludedTests) :
    Path.IsJoined root l.testDir e := by
  obtain ⟨_, hpat', hmem, hall⟩ := mem_findFiles h
  cases hpat'.symm.trans hpat
  have hfound := nodup_findFiles hnames h
  have hcurrent := (exists_exclude_iff hfound).1 ⟨files, hfiles⟩
  obtain ⟨hd, hinput, n, -, hentry⟩ := (hmem _).1 (hcurrent.found e he)
  obtain ⟨p, -, hslashed⟩ := entryPath_eq_ok.1 hentry
  have hplain : '\\' ∉ (Path.join (Path.normalize l.testDir) e).toList :=
    hslashed ▸ backslash_not_mem_slashed p
  refine ⟨hinput, ?_, hplain⟩
  rintro ⟨hroot, hdir⟩
  -- the path at which the file is found is not taken out, since it is not absolute
  obtain ⟨path, hpath, hentry⟩ := hall hd hinput _ (hfinds e he)
  have hname := (hfinds e he).isName hnames
  have hrelative := isAbsolute_entryPath hkept hname hroot hdir hplain hentry
  apply hout e he path hentry
  rw [exclude_eq_ok hfound hfiles, List.mem_filter]
  refine ⟨hpath, decide_eq_true fun hjoined => ?_⟩
  obtain ⟨e', -, rfl⟩ := List.mem_map.1 hjoined
  have hnamed := hkept.names_ne_nil hdir
  have hne := mt Path.normalize_eq_empty.1 hnamed
  rw [Path.join_normalize_of_names hnamed, Path.isAbsolute_slash hne, hkept.isAbsolute_normalize,
    hdir] at hrelative
  cases hrelative

end

/-- Names of visible C files in the test directory, none of them twice, can all be excluded just if
each of these files is found at the path that its name has in the directory, as the layout spells
it. -/
theorem Project.testFiles_excludes_iff (hnames : fs.ProperNames)
    (hkept : Path.IsKept root l.testDir) (hnodup : l.excludedTests.Nodup)
    (hshown : ∀ e ∈ l.excludedTests, fs.Shows root l.testDir (.text e) ∧
      (Octets.text ".c").bytes <:+ (Octets.text e).bytes)
    (h : ((fs.project root).findFiles (Path.normalize l.testDir) "*.c").result = .ok found) :
    (∃ files, ((fs.project root).testFiles l).result = .ok files ∧
      ∀ e ∈ l.excludedTests, ∀ path,
        entryPath root (Path.below root (Path.normalize l.testDir)) (.text e) = .ok path →
          path ∉ files) ↔
      ∀ e ∈ l.excludedTests, Path.IsJoined root l.testDir e := by
  have hpat : Glob.parse "*.c" = .ok (.many :: ".c".toList.map .literal) := rfl
  have hfinds e (he : e ∈ l.excludedTests) :
      fs.Finds (Path.below root (Path.normalize l.testDir)) (.many :: ".c".toList.map .literal)
        (.text e) :=
    (Filesystem.finds_iff hkept).2 ⟨(hshown e he).1, Glob.accepts_star_literals.2 (hshown e he).2⟩
  rw [testFiles_result h]
  apply Iff.intro
  · rintro ⟨files, hfiles, hout⟩ e he
    exact isJoined_of_excluded hnames hkept hfinds hpat h hfiles hout he
  · intro hjoined
    have hcurrent := isCurrent_of_joined hnames hkept hfinds hpat h hnodup hjoined
    refine ⟨_, exclude_of_current (nodup_findFiles hnames h) hcurrent, fun e he path hentry => ?_⟩
    have hname := (hfinds e he).isName hnames
    rw [entryPath_eq_join hkept hname (hjoined e he).notAbsolute,
      slashed_eq_self (hjoined e he).plain] at hentry
    cases hentry
    intro hleft
    exact of_decide_eq_true (List.mem_filter.1 hleft).2 (List.mem_map_of_mem he)

theorem Project.testFiles_mixed_stale :
    Filesystem.mixed.ProperNames ∧ Path.IsKept "/" "/t" ∧
    Filesystem.mixed.Shows "/" "/t" (.text "setup.c") ∧
    ((Filesystem.mixed.project "/").findFiles "/t" "*.c").result =
      .ok ["t/a.c", "t/b.c", "t/setup.c"] ∧
    ((Filesystem.mixed.project "/").testFiles { Layout.mixed with testDir := "/t" }).result =
      .error (.staleExclusion "setup.c" "/t") ∧
    ¬ ∃ files, ((Filesystem.mixed.project "/").testFiles
        { Layout.mixed with testDir := "/t" }).result = .ok files ∧
      ∀ e ∈ ["setup.c"], ∀ path, entryPath "/" "/t" (.text e) = .ok path → path ∉ files := by
  have hnames := Filesystem.plainNames_mixed.proper
  have hkept : Path.IsKept "/" "/t" := by decide
  have hshows : Filesystem.mixed.Shows "/" "/t" (.text "setup.c") :=
    ⟨by decide +kernel, by decide, by decide +kernel⟩
  have hfound : ((Filesystem.mixed.project "/").findFiles "/t" "*.c").result =
      .ok ["t/a.c", "t/b.c", "t/setup.c"] := by decide +kernel
  have hending : (Octets.text ".c").bytes <:+ (Octets.text "setup.c").bytes := by decide +kernel
  refine ⟨hnames, hkept, hshows, hfound, by decide +kernel, fun hexcluded => ?_⟩
  have hjoined := (testFiles_excludes_iff (l := { Layout.mixed with testDir := "/t" }) hnames hkept
    (List.nodup_singleton _) (List.forall_mem_singleton.2 ⟨hshows, hending⟩) hfound).1 hexcluded
  exact (hjoined "setup.c" List.mem_cons_self).notAbsolute (by decide)

end AnalyzerConfig
