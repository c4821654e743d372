import AnalyzerConfig.Proofs.Filesystem.Moves
import AnalyzerConfig.Proofs.Path.Ways
import AnalyzerConfig.Proofs.Project.Scanning
import Mathlib.Data.List.Induction

namespace AnalyzerConfig

variable {fs : Filesystem} {root dir base pattern path p s t : String} {n : Octets}
variable {ps : List String}

namespace Project

theorem length_slashed (p : String) : (slashed p).toList.length = p.toList.length := by
  rw [slashed, String.toList_map, List.length_map]

theorem backslash_not_mem_slashed (p : String) : '\\' ∉ (slashed p).toList := by
  rw [slashed, String.toList_map]
  intro h
  obtain ⟨c, -, hc⟩ := List.mem_map.1 h
  split at hc
  · cases hc
  · next hne => exact hne hc

theorem entryPath_eq_ok :
    entryPath root base n = .ok path ↔
      ∃ p, Path.entryFrom root base n = some (some p) ∧ path = slashed p := by
  unfold entryPath
  cases Path.entryFrom root base n with
  | none => simp
  | some p =>
    cases p with
    | none => simp
    | some p =>
      simp only [Except.ok.injEq, Option.some.injEq, exists_eq_left']
      exact eq_comm

end Project

theorem Path.length_ofSegments_concat (ss : List String) (s name : String) :
    (ofSegments ss).toList.length < (ofSegments (s :: ss ++ [name])).toList.length := by
  rw [ofSegments_concat (List.cons_ne_nil s ss), toList_slash, List.length_append]
  have hle : (ofSegments ss).toList.length ≤ (ofSegments (s :: ss)).toList.length := by
    cases ss with
    | nil => exact Nat.zero_le _
    | cons t ss =>
      unfold ofSegments
      rw [String.intercalate_cons_cons, String.toList_append, List.length_append]
      exact Nat.le_add_left _ _
  rw [List.length_cons]
  omega

theorem Path.ne_of_through {rest : List Component} {cs : List Component}
    (hroot : components root = components base ++ .name (.text s) :: rest)
    (hway : wayBetween (components base) (components root) = some cs) :
    Project.slashed (ofSegments (rest.map fun _ => "..")) ≠
      Project.slashed (ofSegments (cs.map Component.segment ++ [t])) := by
  intro h
  have hlength := congrArg (List.length ∘ String.toList) h
  simp only [Function.comp_apply, Project.length_slashed] at hlength
  rw [hroot, wayBetween_append (by simp)] at hway
  obtain rfl := Option.some.inj hway
  have hup : (upFrom (.name (.text s) :: rest)).map Component.segment =
      ".." :: rest.map fun _ => ".." := by
    rw [upFrom, List.map_map, List.map_cons]
    rfl
  rw [hup] at hlength
  exact absurd hlength (Nat.ne_of_lt (length_ofSegments_concat _ _ t))

/-- Two entries of a directory are not seen at the same path, even if backslashes are slashes. -/
theorem Path.Sees.eq {p' : String} (h : Sees root base s p) (h' : Sees root base t p')
    (hs : IsName s) (ht : IsName t) (heq : Project.slashed p = Project.slashed p') : s = t := by
  have hname (hsame : Project.slashed s = Project.slashed t) : s = t :=
    Project.slashed_injective hs.noSlash ht.noSlash hsame
  -- the texts of the root and the directory say how an entry is seen, but for `through`: there the
  -- lengths tell it from all others
  cases h with
  | absolute hbase hroot =>
    cases h' with
    | absolute =>
      rw [below, hs.isAbsolute, below, ht.isAbsolute] at heq
      exact hname (Project.slashed_cancel heq)
    | through habsolute | way habsolute =>
      rw [hbase, hroot] at habsolute
      cases habsolute
  | through habsolute hroot =>
    cases h' with
    | absolute hbase hroot =>
      rw [hbase, hroot] at habsolute
      cases habsolute
    | through _ hroot' =>
      have htail := List.append_cancel_left (hroot.symm.trans hroot')
      exact Octets.text.inj (Component.name.inj (List.cons.inj htail).1)
    | way _ _ hway => exact absurd heq (ne_of_through hroot hway)
  | @way cs habsolute _ hway =>
    cases h' with
    | absolute hbase hroot =>
      rw [hbase, hroot] at habsolute
      cases habsolute
    | through _ hroot' => exact absurd heq.symm (ne_of_through hroot' hway)
    | way _ _ hway' =>
      obtain rfl := Option.some.inj (hway.symm.trans hway')
      by_cases hnil : cs.map Component.segment = []
      · have hsingle (s : String) : ofSegments [s] = s := String.intercalate_singleton
        rw [hnil, List.nil_append, List.nil_append, hsingle, hsingle] at heq
        exact hname heq
      · rw [ofSegments_concat hnil, ofSegments_concat hnil] at heq
        exact hname (Project.slashed_cancel heq)

namespace Project

theorem nodup_of_mapM_eq_ok {α β ε : Type} {f : α → Except ε β} {as : List α} {bs : List β}
    (h : as.mapM f = .ok bs) (has : as.Nodup)
    (hf : ∀ a ∈ as, ∀ a' ∈ as, ∀ b, f a = .ok b → f a' = .ok b → a = a') : bs.Nodup := by
  rw [mapM_eq_ok] at h
  induction h with
  | nil => exact List.nodup_nil
  | @cons a b as bs hab h ih =>
    obtain ⟨ha, has⟩ := List.nodup_cons.1 has
    refine List.nodup_cons.2 ⟨fun hb => ha ?_, ih has fun c hc c' hc' =>
      hf c (List.mem_cons_of_mem a hc) c' (List.mem_cons_of_mem a hc')⟩
    obtain ⟨a', ha', hb'⟩ := (mem_of_mapM_eq_ok (mapM_eq_ok.2 h)).1 hb
    rw [hf a List.mem_cons_self a' (List.mem_cons_of_mem a ha') b hab hb']
    exact ha'

end Project

theorem Project.entryPath_injective {pat : Glob.Pattern} {m : Octets} (hnames : fs.ProperNames)
    (hn : fs.Finds base pat n) (hm : fs.Finds base pat m)
    (h : entryPath root base n = .ok path) (h' : entryPath root base m = .ok path) : n = m := by
  obtain ⟨p, hp, rfl⟩ := entryPath_eq_ok.1 h
  obtain ⟨p', hp', heq⟩ := entryPath_eq_ok.1 h'
  obtain ⟨s, rfl, hs⟩ := Path.sees_of_entryFrom hp
  obtain ⟨t, rfl, ht⟩ := Path.sees_of_entryFrom hp'
  rw [hs.eq ht (hn.isName hnames) (hm.isName hnames) heq]

theorem Project.mem_findFiles (h : ((fs.project root).findFiles dir pattern).result = .ok ps) :
    ∃ pat, Glob.parse pattern = .ok pat ∧
      (∀ path, path ∈ ps ↔ fs.isDirectory (Path.below root dir) = true ∧
        isStandardInput (Path.below root dir) = false ∧
          ∃ n, fs.Finds (Path.below root dir) pat n ∧
            entryPath root (Path.below root dir) n = .ok path) ∧
      (fs.isDirectory (Path.below root dir) = true →
        isStandardInput (Path.below root dir) = false →
          ∀ n, fs.Finds (Path.below root dir) pat n →
            ∃ path ∈ ps, entryPath root (Path.below root dir) n = .ok path) := by
  obtain ⟨pat, hpat, -, ⟨hd, rfl⟩ | ⟨hd, names, paths, hlists, hpaths, rfl⟩⟩ := findFiles_eq_ok.1 h
  · exact ⟨pat, hpat, fun path => by simp [hd], fun hd' => absurd (hd.symm.trans hd') nofun⟩
  · refine ⟨pat, hpat, fun path => ?_, fun _ hin n hn => ?_⟩
    · rw [(inOrder_perm paths).mem_iff, mem_of_mapM_eq_ok hpaths, and_iff_right hd]
      simp only [hlists.2, and_assoc, exists_and_left]
    · simp only [(inOrder_perm paths).mem_iff]
      exact exists_of_mapM_eq_ok hpaths ((hlists.2 n).2 ⟨hin, hn⟩)

theorem Project.nodup_findFiles (hnames : fs.ProperNames)
    (h : ((fs.project root).findFiles dir pattern).result = .ok ps) : ps.Nodup := by
  obtain ⟨pat, -, -, ⟨-, rfl⟩ | ⟨-, names, paths, hlists, hpaths, rfl⟩⟩ := findFiles_eq_ok.1 h
  · exact List.nodup_nil
  · rw [(inOrder_perm paths).nodup_iff]
    refine nodup_of_mapM_eq_ok hpaths hlists.1 fun n hn m hm path => ?_
    exact entryPath_injective hnames ((hlists.2 n).1 hn).2 ((hlists.2 m).1 hm).2

namespace Filesystem

variable {k : Nat} {q : Place} {c : Octets} {cs : List Path.Component}

/-- An absolute path that is the place it leads to, without links and `..` on the way. -/
def IsReal (fs : Filesystem) (path : String) : Prop :=
  fs.node? (placeOf (Path.namingSegments path)) = some .directory

instance decidableIsReal (fs : Filesystem) (path : String) : Decidable (fs.IsReal path) :=
  inferInstanceAs (Decidable (_ = _))

theorem IsTree.leads_placeOf (ht : fs.IsTree) (hnames : fs.ProperNames) {ss : List String}
    (h : fs.node? (placeOf ss) = some .directory) :
    Leads fs .find 0 [] (ss.map fun s => .ofSegment (.text s)) (placeOf ss) := by
  induction ss using List.reverseRecOn with
  | nil => exact .done
  | append_singleton ss s ih =>
    have hplace : placeOf (ss ++ [s]) = .text s :: placeOf ss := placeOf_append ss [s]
    rw [hplace] at h ⊢
    have hparent := ht _ _ h
    have hs : Path.IsName s := hnames s _ (by rw [h]; exact Option.some_ne_none _)
    rw [List.map_append, List.map_singleton, Step.ofSegment_name hs]
    exact (ih hparent).append .find (.down hparent nofun h nofun .done)

/-- From the place of its names, a path leads back over the last of them. -/
theorem IsTree.leads_back (ht : fs.IsTree) (hnames : fs.ProperNames) {ss ts : List String}
    (h : fs.node? (placeOf (ss ++ ts)) = some .directory) :
    Leads fs .find 0 [] ((ss ++ ts ++ ts.map fun _ => "..").map fun s => .ofSegment (.text s))
      (placeOf ss) := by
  have hdown := ht.leads_placeOf hnames h
  have hup : ((ts.map fun _ => "..").map fun s => Step.ofSegment (.text s)) =
      List.replicate (placeOf ts).length .up := by
    rw [List.map_map, length_placeOf]
    exact List.map_const'
  rw [placeOf_append] at h hdown
  rw [List.map_append, hup]
  exact hdown.append .find (ht.leads_up h)

theorem isShortBelow_iff (hs : Path.IsName s) :
    isShortBelow base (.text s) ↔ (Path.below base s).utf8ByteSize ≤ maxPathLength := by
  rw [isShortBelow, decide_eq_true_iff, Octets.length_bytes_text,
    Path.utf8ByteSize_below hs.isAbsolute]

section

variable (hbase : base ≠ "") (hs : Path.IsName s)
  (hfile : fs.locate .find ((Route.ofPath (.text base)).entry (.text s)) = .ok q)
include hbase hs hfile

theorem locatePath_below_entry (hshort : isShortBelow base (.text s)) :
    fs.locatePath .find (.text (Path.below base s)) = .ok q := by
  apply locatePath_of_entry hbase hs _ _ _ ((isShortBelow_iff hs).1 hshort) hfile
  · exact Path.isAbsolute_below hs.isAbsolute base
  · rw [Path.namingSegments_below hs.isAbsolute, hs.namingSegments]
  · rw [Path.getLast?_segments_below, hs.segments]
    rfl

section

variable (habsolute : Path.isAbsolute base = Path.isAbsolute root)
  (hway : Path.wayBetween (Path.components base) (Path.components root) = some cs)
  (hshort : (Path.below root (Path.ofSegments (cs.map Path.Component.segment ++ [s]))).utf8ByteSize
    ≤ maxPathLength)
include habsolute hway hshort

theorem locatePath_of_above (habove : Path.components root <+: Path.components base) :
    fs.locatePath .find
      (.text (Path.below root (Path.ofSegments (cs.map Path.Component.segment ++ [s])))) =
        .ok q := by
  obtain ⟨rest, hrest⟩ := habove
  have hcs : cs = rest := by
    rw [← hrest, Path.wayBetween_of_above] at hway
    exact (Option.some.inj hway).symm
  apply locatePath_of_entry hbase hs _ _ _ hshort hfile
  · rw [Path.isAbsolute_below (Path.isAbsolute_of_wayBetween habsolute hway hs), habsolute]
  · rw [Path.namingSegments_of_wayBetween habsolute hway hs, ← List.append_assoc,
      Path.namingSegments_eq_filter base, ← hrest, List.map_append, List.filter_append,
      ← Path.namingSegments_eq_filter, hcs]
  · rw [Path.getLast?_segments_below, Path.segments_of_wayBetween hway hs]
    exact List.getLast?_concat

theorem locatePath_of_real (ht : fs.IsTree) (hnames : fs.ProperNames)
    (hroot : Path.isAbsolute root = true) (hreal : fs.IsReal root) :
    fs.locatePath .find
      (.text (Path.below root (Path.ofSegments (cs.map Path.Component.segment ++ [s])))) =
        .ok q := by
  obtain ⟨shared, down, up, hdown, hup, hcs⟩ :=
    Path.names_of_wayBetween (habsolute.trans hroot) hroot hway
  -- both ways go through the place of the names that the two paths share
  rw [IsReal, hup] at hreal
  have hback := ht.leads_back hnames hreal
  obtain ⟨k, hk, hl⟩ := (locate_entry_iff hbase).1 hfile
  rw [rootStart, habsolute.trans hroot, if_pos rfl, Path.moves, hdown, List.map_append,
    List.append_assoc] at hl
  obtain ⟨k₁, k₂, m, rfl, h₁, h₂⟩ := hl.split .find
  obtain rfl : m = placeOf shared := by
    rw [placeOf_append] at hreal
    exact h₁.unique (ht.leads_placeOf hnames (ht.directory_of_append hreal))
  have hkept : (cs.map Path.Component.segment).filter Path.isNaming =
      (up.map fun _ => "..") ++ down := by
    rw [hcs, List.filter_eq_self]
    intro t ht
    rcases List.mem_append.1 ht with ht | ht
    · obtain ⟨-, -, rfl⟩ := List.mem_map.1 ht
      rfl
    · have ht : t ∈ Path.namingSegments base := hdown ▸ List.mem_append_right shared ht
      exact Path.isNaming_of_mem_namingSegments ht
  apply locatePath_of_moves _ hs.isNaming hshort (k := 0 + k₂) (by omega)
  · have hsteps := hback.append .find h₂
    rw [rootStart, Path.isAbsolute_below (Path.isAbsolute_of_wayBetween habsolute hway hs),
      hroot, if_pos rfl, Path.moves, Path.namingSegments_of_wayBetween habsolute hway hs, hkept,
      hup]
    simpa only [List.map_append, List.map_singleton, Step.ofSegment_name hs, List.append_assoc]
      using hsteps
  · rw [Path.getLast?_segments_below, Path.segments_of_wayBetween hway hs]
    exact List.getLast?_concat

end

end

/-- A root has a way to the paths of an absolute directory: its text is above the directory, or it
is real. There is one to every other directory. -/
def HasWay (fs : Filesystem) (root dir : String) : Prop :=
  Path.isAbsolute root = true → Path.isAbsolute dir = true →
    Path.components root <+: Path.components dir ∨ fs.IsReal root

/-- The way from an absolute root to an absolute path may be longer than the path. -/
def IsNear (root dir path : String) : Prop :=
  Path.isAbsolute root = true → Path.isAbsolute dir = true →
    (Path.below root path).utf8ByteSize ≤ maxPathLength

theorem IsReal.directory_of_through (ht : fs.IsTree) (hnames : fs.ProperNames)
    {rest : List Path.Component} (hbase : base ≠ "") (habsolute : Path.isAbsolute base = true)
    (hroot : Path.isAbsolute root = true) (hreal : fs.IsReal root)
    (hthrough : Path.components root = Path.components base ++ .name (.text s) :: rest)
    (hfile : fs.locate .find ((Route.ofPath (.text base)).entry (.text s)) = .ok q) :
    fs.node? q = some .directory := by
  rw [Path.components_of_absolute hroot, Path.components_of_absolute habsolute,
    List.cons_append, List.cons_inj_right] at hthrough
  obtain ⟨above, below, hnamed, habove, hbelow⟩ := List.map_eq_append_iff.1 hthrough
  obtain rfl := List.map_injective_iff.2 Path.Component.ofSegment_injective habove
  obtain ⟨t, below, rfl, ht', -⟩ := List.map_eq_cons_iff.1 hbelow
  obtain rfl := Path.Component.eq_of_ofSegment ht'
  have hplace : placeOf (Path.namingSegments base ++ [t]) =
      .text t :: placeOf (Path.namingSegments base) := placeOf_append _ [t]
  rw [IsReal, hnamed, List.append_cons, placeOf_append] at hreal
  have hdirectory := ht.directory_of_append hreal
  have hl' := ht.leads_placeOf hnames hdirectory
  have ht' : Path.IsName t :=
    hnames t _ (by rw [← hplace, hdirectory]; exact Option.some_ne_none _)
  obtain ⟨k, -, hl⟩ := (locate_entry_iff hbase).1 hfile
  rw [List.map_append, List.map_singleton, Step.ofSegment_name ht'] at hl'
  rw [rootStart, habsolute, if_pos rfl] at hl
  rw [hl.unique hl']
  exact hdirectory

/-- The path of an entry of a directory below the root leads to the entry. -/
theorem locatePath_of_sees (hdir : Path.isAbsolute dir = false) (hs : Path.IsName s)
    (hsees : Path.Sees root (Path.below root dir) s path) (hbase : Path.below root dir ≠ "")
    (hshort : isShortBelow (Path.below root dir) (.text s))
    (hfile : fs.locate .find ((Route.ofPath (.text (Path.below root dir))).entry (.text s)) =
      .ok q) : fs.locatePath .find (.text (Path.below root path)) = .ok q := by
  obtain ⟨rest, hrest⟩ := Path.components_below_prefix hdir root
  cases hsees with
  | absolute hb hr =>
    rw [Path.isAbsolute_below hdir, hr] at hb
    cases hb
  | through _ hroot =>
    have hlength := congrArg List.length hroot
    rw [← hrest] at hlength
    simp only [List.length_append, List.length_cons] at hlength
    omega
  | @way cs habsolute _ hway =>
    have hcs : cs = rest := by
      rw [← hrest, Path.wayBetween_of_above] at hway
      exact (Option.some.inj hway).symm
    subst hcs
    have hle := Path.utf8ByteSize_below_way hdir hs hrest.symm
    have hshort := Nat.le_trans hle ((isShortBelow_iff hs).1 hshort)
    exact locatePath_of_above hbase hs hfile habsolute hway hshort ⟨cs, hrest⟩

theorem locatePath_of_sees_absolute (ht : fs.IsTree) (hnames : fs.ProperNames)
    (hdir : Path.isAbsolute dir = true) (hs : Path.IsName s) (hsees : Path.Sees root dir s path)
    (hbase : dir ≠ "") (hshort : isShortBelow dir (.text s))
    (hfile : fs.locate .find ((Route.ofPath (.text dir)).entry (.text s)) = .ok q)
    (hq : fs.node? q ≠ some .directory) (hway : fs.HasWay root dir) (hnear : IsNear root dir path) :
    fs.locatePath .find (.text (Path.below root path)) = .ok q := by
  cases hsees with
  | absolute hb hr =>
    have habsolute := (Path.isAbsolute_below hs.isAbsolute dir).trans hb
    rw [Path.below_of_absolute habsolute]
    exact locatePath_below_entry hbase hs hfile hshort
  | through habsolute hroot =>
    have hr := habsolute.symm.trans hdir
    rcases hway hr hdir with habove | hreal
    · have hle := habove.length_le
      rw [hroot, List.length_append, List.length_cons] at hle
      omega
    · exact absurd (hreal.directory_of_through ht hnames hbase hdir hr hroot hfile) hq
  | way habsolute _ hcs =>
    have hr := habsolute.symm.trans hdir
    have hshort := hnear hr hdir
    rcases hway hr hdir with habove | hreal
    · exact locatePath_of_above hbase hs hfile habsolute hcs hshort habove
    · exact locatePath_of_real hbase hs hfile habsolute hcs hshort ht hnames hr hreal

end Filesystem

/-- Every path that a scan finds is that of a file in the directory with a name that the pattern
accepts, and leads from the root to this file, as long as it has no backslash. A backslash becomes a
slash in it. Where both the root and the directory are absolute, the text of the root has to be the
way to it. -/
theorem Project.findFiles_names_files (hnames : fs.ProperNames) (ht : fs.IsTree)
    (h : ((fs.project root).findFiles dir pattern).result = .ok ps) :
    ∃ pat, Glob.parse pattern = .ok pat ∧ ∀ path ∈ ps, ∃ s p q c,
      fs.Finds (Path.below root dir) pat (.text s) ∧
      fs.locate .find ((Route.ofPath (.text (Path.below root dir))).entry (.text s)) = .ok q ∧
      fs.node? q = some (.file c) ∧
      path = slashed p ∧ (path = p ↔ '\\' ∉ p.toList) ∧
      (fs.HasWay root dir → Filesystem.IsNear root dir p →
        fs.locatePath .find (.text (Path.below root p)) = .ok q) := by
  obtain ⟨pat, hpat, hmem, -⟩ := mem_findFiles h
  refine ⟨pat, hpat, fun path hpath => ?_⟩
  obtain ⟨hd, -, n, hfinds, hentry⟩ := (hmem path).1 hpath
  obtain ⟨p, hp, rfl⟩ := entryPath_eq_ok.1 hentry
  obtain ⟨s, rfl, hsees⟩ := Path.sees_of_entryFrom hp
  have hs := hfinds.isName hnames
  have hbase : Path.below root dir ≠ "" := by
    obtain ⟨q, hq, -⟩ := Filesystem.isDirectory_iff.1 hd
    exact Filesystem.ne_empty_of_locatePath hq
  obtain ⟨q, c, hq, hc⟩ := Filesystem.isFileAt_iff.1 hfinds.file
  refine ⟨s, p, q, c, hfinds, hq, hc, rfl, ?_, fun hway hnear => ?_⟩
  · exact ⟨fun hsame => hsame ▸ backslash_not_mem_slashed p, slashed_eq_self⟩
  cases hdir : Path.isAbsolute dir with
  | false => exact Filesystem.locatePath_of_sees hdir hs hsees hbase hfinds.short hq
  | true =>
    have hshort := hfinds.short
    have hdirectory := Filesystem.not_directory_of_file hc
    rw [Path.below_of_absolute hdir] at hbase hsees hq hshort
    exact Filesystem.locatePath_of_sees_absolute ht hnames hdir hs hsees hbase hshort hq hdirectory
      hway hnear

/-- A root, and a directory beside it with two files, one of them with a backslash in its name. -/
def Filesystem.backslashed : Filesystem where
  nodes := [([.text "r"], .directory), ([.text "t"], .directory),
    ([.text "c.c", .text "t"], .file (.text "")), ([.text "a\\b.c", .text "t"], .file (.text ""))]

theorem Project.findFiles_backslashed :
    Filesystem.backslashed.ProperNames ∧ Filesystem.backslashed.IsTree ∧
    ((Filesystem.backslashed.project "/r").findFiles "/t" "*.c").result =
      .ok ["../t/a/b.c", "../t/c.c"] ∧
    Filesystem.backslashed.HasWay "/r" "/t" ∧ Filesystem.IsNear "/r" "/t" "../t/c.c" ∧
    Filesystem.backslashed.pathExists (Path.below "/r" "../t/a/b.c") = false ∧
    ∃ pat, Glob.parse "*.c" = .ok pat ∧ ∀ path ∈ ["../t/a/b.c", "../t/c.c"], ∃ s p q c,
      Filesystem.backslashed.Finds "/t" pat (.text s) ∧
      Filesystem.backslashed.locate .find ((Route.ofPath (.text "/t")).entry (.text s)) = .ok q ∧
      Filesystem.backslashed.node? q = some (.file c) ∧
      path = slashed p ∧ (path = p ↔ '\\' ∉ p.toList) ∧
      (Filesystem.backslashed.HasWay "/r" "/t" → Filesystem.IsNear "/r" "/t" p →
        Filesystem.backslashed.locatePath .find (.text (Path.below "/r" p)) = .ok q) := by
  have hnames : Filesystem.backslashed.ProperNames :=
    Filesystem.properNames_of_nodes (by decide +kernel)
  have ht : Filesystem.backslashed.IsTree := Filesystem.isTree_of_nodes (by decide)
  have hreal : Filesystem.backslashed.IsReal "/r" := by decide +kernel
  have hresult : ((Filesystem.backslashed.project "/r").findFiles "/t" "*.c").result =
      .ok ["../t/a/b.c", "../t/c.c"] := by decide +kernel
  refine ⟨hnames, ht, hresult, fun _ _ => .inr hreal, fun _ _ => by decide, by decide +kernel, ?_⟩
  exact Project.findFiles_names_files hnames ht hresult

end AnalyzerConfig
