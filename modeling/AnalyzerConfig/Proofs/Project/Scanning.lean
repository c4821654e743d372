import AnalyzerConfig.Proofs.Project.TestMatrix

namespace AnalyzerConfig

variable {fs : Filesystem} {project : Project} {root dir pattern base : String}
variable {pat : Glob.Pattern} {names names' : List Octets}

/-- The names in a tree are names that entries can have. -/
def Filesystem.ProperNames (fs : Filesystem) : Prop :=
  ∀ s d, fs.node? (.text s :: d) ≠ none → Path.IsName s

theorem Filesystem.PlainNames.proper (h : fs.PlainNames) : fs.ProperNames :=
  fun s d hs => (h s d hs).1

theorem Filesystem.properNames_of_nodes (h : ∀ entry ∈ fs.nodes,
    ∀ s ∈ entry.1.head?.bind Octets.text?, Path.IsName s) : fs.ProperNames := by
  intro s d hs
  obtain ⟨node, hmem⟩ := exists_mem_nodes hs
  exact h _ hmem s rfl

namespace Project

theorem slashed_injective {s t : String} (hs : '/' ∉ s.toList) (ht : '/' ∉ t.toList)
    (h : slashed s = slashed t) : s = t := by
  have back {u : String} (hu : '/' ∉ u.toList) :
      (slashed u).toList.map (fun c => if c = '/' then '\\' else c) = u.toList := by
    rw [slashed, String.toList_map, List.map_map]
    apply (List.map_congr_left _).trans (List.map_id _)
    intro c hc
    have hne : c ≠ '/' := by
      rintro rfl
      exact hu hc
    by_cases hb : c = '\\' <;> simp [hb, hne]
  rw [← String.toList_inj, ← back hs, ← back ht, h]

theorem slashed_append (p q : String) : slashed (p ++ q) = slashed p ++ slashed q := by
  rw [← String.toList_inj, String.toList_append]
  simp only [slashed, String.toList_map, String.toList_append, List.map_append]

theorem getLast?_segments_slashed {p s : String} (h : (Path.segments p).getLast? = some s)
    (hs : '\\' ∉ s.toList) : (Path.segments (slashed p)).getLast? = some s := by
  have hlast : Path.segments s = [s] :=
    Path.segments_eq_singleton (Path.noSlash_of_mem_segments (List.mem_of_getLast? h))
  obtain ⟨before, hbefore⟩ := List.getLast?_eq_some_iff.1 h
  rw [← Path.ofSegments_segments p, hbefore]
  by_cases hnil : before = []
  · rw [hnil, List.nil_append, Path.ofSegments, String.intercalate_singleton, slashed_eq_self hs,
      hlast]
    rfl
  · have hslash : slashed "/" = "/" := slashed_eq_self (by decide)
    rw [Path.ofSegments_concat hnil, slashed_append, slashed_append, hslash, slashed_eq_self hs,
      Path.segments_slash, hlast]
    exact List.getLast?_concat

theorem baseName_slashed {p s : String} (h : (Path.segments p).getLast? = some s)
    (hname : Path.IsName s) (hs : '\\' ∉ s.toList) : Path.baseName (slashed p) = s :=
  Path.baseName_of_getLast? (getLast?_segments_slashed h hs) hname

theorem slashed_cancel {p s t : String} (h : slashed (p ++ s) = slashed (p ++ t)) :
    slashed s = slashed t := by
  rw [slashed_append, slashed_append, ← String.toList_inj, String.toList_append,
    String.toList_append] at h
  exact String.toList_inj.1 (List.append_cancel_left h)

theorem slashed_join_injective {s t : String} (hs : '/' ∉ s.toList) (ht : '/' ∉ t.toList)
    (h : slashed (Path.join dir s) = slashed (Path.join dir t)) : s = t := by
  unfold Path.join at h
  split at h
  · exact slashed_injective hs ht h
  · exact slashed_injective hs ht (slashed_cancel h)

theorem mapM_error_iff {α β ε : Type} {f : α → Except ε β} {as : List α} :
    (∃ e, as.mapM f = .error e) ↔ ∃ a ∈ as, ∃ e, f a = .error e := by
  induction as with
  | nil => simp [pure, Except.pure]
  | cons a as ih =>
    rw [List.exists_mem_cons_iff, ← ih, List.mapM_cons]
    cases ha : f a with
    | error e => simp [bind, Except.bind]
    | ok b =>
      cases has : as.mapM f with
      | error e => simp [bind, Except.bind]
      | ok bs => simp [bind, Except.bind, pure, Except.pure]

end Project

/-- A project that lists a directory as the tree has it, in whatever order. -/
def Project.ListedFrom (project : Project) (fs : Filesystem) (dir : String) : Prop :=
  Option.Rel (fun listed es => ∃ es', listed = .ok es' ∧ es'.Perm es)
    (project.entries? dir) (fs.entries? (Path.below project.root dir))

theorem Project.ListedFrom.none_iff (h : project.ListedFrom fs dir) :
    project.entries? dir = none ↔ fs.isDirectory (Path.below project.root dir) = false := by
  rw [← Filesystem.entries?_eq_none]
  unfold ListedFrom at h
  generalize project.entries? dir = es, fs.entries? (Path.below project.root dir) = es' at h ⊢
  cases h with
  | some => simp
  | none => simp

theorem Project.ListedFrom.lists (h : project.ListedFrom fs dir)
    (hd : fs.isDirectory (Path.below project.root dir) = true)
    (hin : isStandardInput (Path.below project.root dir) = false) (pat : Glob.Pattern) :
    ∃ es, project.entries? dir = some (.ok es) ∧
      fs.Lists (Path.below project.root dir) pat (selected pat es) := by
  unfold ListedFrom at h
  cases hes' : fs.entries? (Path.below project.root dir) with
  | none => cases hd.symm.trans (Filesystem.entries?_eq_none.1 hes')
  | some es' =>
    rw [hes'] at h
    generalize hlisted : project.entries? dir = listed at h
    cases h with
    | some h =>
      obtain ⟨es, rfl, hperm⟩ := h
      have hselected : (selected pat es).Perm (selected pat es') := (hperm.filter _).map _
      refine ⟨es, rfl, hselected.nodup_iff.2 (nodup_selected hes'), fun n => ?_⟩
      rw [hselected.mem_iff, mem_selected hes', and_iff_right hin]

theorem Filesystem.Finds.isName (hnames : fs.ProperNames) {s : String}
    (h : fs.Finds base pat (.text s)) : Path.IsName s := by
  obtain ⟨d, hd⟩ := exists_node_of_isFileAt h.file
  exact hnames s d hd

section

variable (hroot : root ≠ "") (hdir : Path.isAbsolute dir = false)
include hroot hdir

theorem Project.entryPath_error_iff {n : Octets} :
    (∃ e, entryPath root (Path.below root dir) n = .error e) ↔ n.text? = none := by
  cases n with
  | text s => simp [entryPath_text hroot hdir, Octets.text?]
  | raw bs hbs =>
    have htext : (Octets.raw bs hbs).text? = none := rfl
    simp [entryPath_of_not_text hroot hdir htext, htext]

theorem Project.paths_of_texts (hnames : fs.ProperNames) {texts : List String}
    (hnodup : texts.Nodup)
    (hfinds : ∀ s ∈ texts, fs.Finds (Path.below root dir) pat (.text s)) :
    (texts.map Octets.text).mapM (entryPath root (Path.below root dir)) =
        .ok (texts.map fun s => slashed (Path.join (Path.normalize dir) s)) ∧
      (texts.map fun s => slashed (Path.join (Path.normalize dir) s)).Nodup := by
  have hslash s (hs : s ∈ texts) : '/' ∉ s.toList :=
    ((hfinds s hs).isName hnames).noSlash
  constructor
  · rw [mapM_eq_ok, List.forall₂_map_left_iff, List.forall₂_map_right_iff, List.forall₂_same]
    intro s hs
    rw [entryPath_text hroot hdir, Path.join_normalize hdir]
  · exact hnodup.map_on fun s hs t ht => slashed_join_injective (hslash s hs) (hslash t ht)

end

theorem Octets.exists_texts {names : List Octets} (h : ∀ n ∈ names, n.text? ≠ none) :
    ∃ texts : List String, names = texts.map .text := by
  induction names with
  | nil => exact ⟨[], rfl⟩
  | cons n names ih =>
    obtain ⟨texts, rfl⟩ := ih fun m hm => h m (List.mem_cons_of_mem n hm)
    cases n with
    | text s => exact ⟨s :: texts, rfl⟩
    | raw bs hbs => exact absurd rfl (h _ List.mem_cons_self)

/-- A scan fails for every pattern that cannot be built. For one that can it finds nothing where
there is no directory; in a directory it fails exactly if it selects a name that is not text, and
otherwise finds the path of each selected file, once each and in byte order. The order in which the
directory lists its names has no part in this. -/
theorem Project.findFiles_exact (hroot : project.root ≠ "") (hin : ¬ Path.IsHyphen project.root)
    (hdir : Path.isAbsolute dir = false) (hnames : fs.ProperNames)
    (hlisted : project.ListedFrom fs dir) :
    ((¬ ∃ pat, Glob.Builds pattern pat) → ∃ e, (project.findFiles dir pattern).result = .error e) ∧
    ∀ pat, Glob.Builds pattern pat →
      (fs.isDirectory (Path.below project.root dir) = false →
        (project.findFiles dir pattern).result = .ok []) ∧
      (fs.isDirectory (Path.below project.root dir) = true →
        ((∃ e, (project.findFiles dir pattern).result = .error e) ↔
          ∃ n, fs.Finds (Path.below project.root dir) pat n ∧ n.text? = none) ∧
        ((∀ n, fs.Finds (Path.below project.root dir) pat n → n.text? ≠ none) →
          ∃ ps, (project.findFiles dir pattern).result = .ok ps ∧
            (ps.Pairwise fun p q => (Octets.text p).bytes < (Octets.text q).bytes) ∧
            ∀ path, path ∈ ps ↔ ∃ s, fs.Finds (Path.below project.root dir) pat (.text s) ∧
              path = slashed (Path.join (Path.normalize dir) s))) := by
  refine ⟨findFiles_of_not_builds, fun pat hpat => ⟨fun hd => ?_, fun hd => ?_⟩⟩
  · exact findFiles_of_none hpat (hlisted.none_iff.2 hd)
  have hinput := isStandardInput_below hroot hin hdir
  obtain ⟨es, hes, hnodup, hmem⟩ := hlisted.lists hd hinput pat
  rw [findFiles_of_listed hpat hes]
  simp only [hinput, Bool.false_eq_true, if_false]
  simp only [hinput, true_and] at hmem
  constructor
  · have hbind (x : Except Failure (List String)) :
        (∃ e, (x.bind fun paths => .ok (inOrder paths)) = .error e) ↔ ∃ e, x = .error e := by
      cases x <;> simp [Except.bind]
    rw [hbind, mapM_error_iff]
    simp only [entryPath_error_iff hroot hdir, hmem]
  · intro htext
    obtain ⟨texts, htexts⟩ := Octets.exists_texts fun n hn => htext n ((hmem n).1 hn)
    rw [htexts] at hnodup hmem ⊢
    have hfinds s : s ∈ texts ↔ fs.Finds (Path.below project.root dir) pat (.text s) := by
      rw [← hmem, List.mem_map_of_injective fun _ _ => Octets.text.inj]
    obtain ⟨hpaths, hdistinct⟩ := paths_of_texts hroot hdir hnames (hnodup.of_map _)
      fun s => (hfinds s).1
    rw [hpaths]
    refine ⟨_, rfl, ?_, fun path => ?_⟩
    · have hne := (inOrder_perm _).nodup_iff.2 hdistinct
      exact ((inOrder_pairwise _).and hne).imp fun h =>
        Octets.bytes_text_lt (Std.lt_of_le_of_ne h.1 h.2)
    · rw [(inOrder_perm _).mem_iff, List.mem_map]
      simp only [hfinds, eq_comm]

def Project.reversed (project : Project) : Project where
  root := project.root
  entries? dir := (project.entries? dir).map (Except.map List.reverse)

theorem Filesystem.listedFrom_reversed (fs : Filesystem) (root dir : String) :
    (fs.project root).reversed.ListedFrom fs dir := by
  unfold Project.ListedFrom
  show Option.Rel _ (((fs.entries? (Path.below root dir)).map .ok).map (Except.map List.reverse))
    (fs.entries? (Path.below root dir))
  cases fs.entries? (Path.below root dir) with
  | none => exact .none
  | some es => exact .some ⟨es.reverse, rfl, es.reverse_perm⟩

theorem Project.findFiles_mixed_reversed :
    ¬ Path.IsHyphen "." ∧ Filesystem.mixed.ProperNames ∧
    (Filesystem.mixed.project ".").reversed.ListedFrom .mixed "./t/" ∧
    Filesystem.mixed.isDirectory (Path.below "." "./t/") = true ∧
    ((Filesystem.mixed.project ".").reversed.findFiles "./t/" "*.c").result =
      .ok ["t/a.c", "t/b.c", "t/setup.c"] ∧
    ∃ pat, Glob.Builds "*.c" pat ∧
      ∀ path, path ∈ ["t/a.c", "t/b.c", "t/setup.c"] ↔
        ∃ s, Filesystem.mixed.Finds (Path.below "." "./t/") pat (.text s) ∧
          path = slashed (Path.join (Path.normalize "./t/") s) := by
  have hin : ¬ Path.IsHyphen "." := by decide
  have hlisted := Filesystem.mixed.listedFrom_reversed "." "./t/"
  have hnames := Filesystem.plainNames_mixed.proper
  have hd : Filesystem.mixed.isDirectory (Path.below "." "./t/") = true := by decide +kernel
  have hresult : ((Filesystem.mixed.project ".").reversed.findFiles "./t/" "*.c").result =
      .ok ["t/a.c", "t/b.c", "t/setup.c"] := by decide +kernel
  have hpat : Glob.Builds "*.c" (.many :: ".c".toList.map .literal) := ⟨rfl, by decide⟩
  obtain ⟨herror, hok⟩ :=
    ((Project.findFiles_exact (by decide) hin (by decide) hnames hlisted).2 _ hpat).2 hd
  obtain ⟨ps, hps, -, hmem⟩ := hok fun n hn hraw => by
    obtain ⟨e, he⟩ := herror.2 ⟨n, hn, hraw⟩
    cases hresult.symm.trans he
  cases hresult.symm.trans hps
  exact ⟨hin, hnames, hlisted, hd, hresult, _, hpat, hmem⟩

theorem Filesystem.RootAt.locatePath_below {p q : Place} (h : fs.RootAt root p)
    (hdir : Path.isAbsolute dir = false)
    (hshort : (Path.below root dir).utf8ByteSize ≤ maxPathLength)
    (hl : Leads fs .find 0 p (Path.steps dir) q) :
    fs.locatePath .find (.text (Path.below root dir)) = .ok q := by
  obtain ⟨k, hk, hroot⟩ := h.leads
  rw [locatePath_eq_ok, isShort_text, h.locate_eq_ok hdir]
  exact ⟨hshort, k, hk, hroot.append .find hl⟩

theorem Project.findFiles_padded :
    ¬ Path.IsHyphen (Path.padded 4093) ∧ Filesystem.mixed.ProperNames ∧
    Filesystem.mixed.locatePath .find (.text (Path.below (Path.padded 4093) "t")) =
      .ok [.text "t"] ∧
    Filesystem.mixed.isDirectory (Path.below (Path.padded 4093) "t") = true ∧
    Filesystem.mixed.node? [.text "a.c", .text "t"] = some (.file (.text "")) ∧
    (Octets.text "a.c").startsWithDot = false ∧
    (∃ pat, Glob.Builds "*.c" pat ∧ Glob.accepts pat (Octets.text "a.c").bytes) ∧
    ((Filesystem.mixed.project (Path.padded 4093)).findFiles "t" "*.c").result = .ok [] := by
  have hpat : Glob.Builds "*.c" (.many :: ".c".toList.map .literal) := ⟨rfl, by decide⟩
  have hroot : Filesystem.mixed.RootAt (Path.padded 4093) [] :=
    Filesystem.rootAt_padded rfl (by decide)
  have ht : Filesystem.mixed.node? [.text "t"] = some .directory := rfl
  have hlocated : Filesystem.mixed.locatePath .find (.text (Path.below (Path.padded 4093) "t")) =
      .ok [.text "t"] := by
    have hname : "t".utf8ByteSize = 1 := by decide
    refine hroot.locatePath_below (by decide) ?_ (.down rfl nofun ht nofun .done)
    rw [Path.below_padded (by decide), String.utf8ByteSize_append, Path.utf8ByteSize_padded, hname]
    decide
  refine ⟨Path.not_isHyphen_padded 4093, Filesystem.plainNames_mixed.proper, hlocated,
    Filesystem.isDirectory_iff.2 ⟨_, hlocated, ht⟩, rfl, by decide, ⟨_, hpat, ?_⟩, ?_⟩
  · exact Glob.accepts_star_literals.2 (by decide)
  · exact findFiles_of_noRoom hpat.1 hpat.2 (Filesystem.noRoom_padded (m := 4092) (by decide))

end AnalyzerConfig
