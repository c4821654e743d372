import AnalyzerConfig.Proofs.Filesystem.Writing

namespace AnalyzerConfig.Filesystem

variable {fs : Filesystem} {p d : Place} {n : Octets} {c : Octets} {r : Route} {path : String}

theorem found?_eq_some {node : Node} :
    fs.found? r = some node ↔ ∃ p, fs.locate .find r = .ok p ∧ fs.node? p = some node := by
  unfold found?
  cases fs.locate .find r with
  | error fault => simp
  | ok p => simp

theorem isFileAt_iff :
    fs.isFileAt r ↔ ∃ p c, fs.locate .find r = .ok p ∧ fs.node? p = some (.file c) := by
  unfold isFileAt found?
  cases fs.locate .find r with
  | error fault => simp
  | ok p =>
    cases hn : fs.node? p with
    | none => simp [hn]
    | some node => cases node <;> simp [hn]

theorem isFile_iff :
    fs.isFile path ↔
      ∃ p c, fs.locatePath .find (.text path) = .ok p ∧ fs.node? p = some (.file c) := by
  simp only [isFile, Bool.and_eq_true, isFileAt_iff, locatePath_eq_ok]
  apply Iff.intro
  · intro h
    obtain ⟨hs, p, c, hl, hn⟩ := h
    exact ⟨p, c, ⟨hs, hl⟩, hn⟩
  · intro h
    obtain ⟨p, c, ⟨hs, hl⟩, hn⟩ := h
    exact ⟨hs, p, c, hl, hn⟩

theorem isDirectory_iff :
    fs.isDirectory path ↔
      ∃ p, fs.locatePath .find (.text path) = .ok p ∧ fs.node? p = some .directory := by
  rw [isDirectory, Bool.and_eq_true, decide_eq_true_iff, found?_eq_some]
  simp only [locatePath_eq_ok, and_assoc, exists_and_left]

theorem readText_eq_ok {text : String} :
    fs.readText path = .ok text ↔
      ∃ p, fs.locatePath .find (.text path) = .ok p ∧ fs.node? p = some (.file (.text text)) := by
  unfold readText
  cases fs.locatePath .find (.text path) with
  | error fault => simp
  | ok p =>
    cases hn : fs.node? p with
    | none => simp [hn, openFault?]
    | some node =>
      cases node with
      | directory | socket | link => simp [hn, openFault?]
      | file c => cases c <;> simp [hn, openFault?]

theorem isFile_of_create {path : String} (h : fs.locatePath .create (.text path) = .ok p)
    (hf : fs.isFile path) : ∃ c, fs.node? p = some (.file c) := by
  obtain ⟨q, c, hq, hn⟩ := isFile_iff.1 hf
  obtain ⟨-, -, k, -, hl⟩ := (locatePath_eq_ok.1 h).imp_right locate_eq_ok.1
  obtain ⟨-, -, k', -, hl'⟩ := (locatePath_eq_ok.1 hq).imp_right locate_eq_ok.1
  obtain rfl := hl.unique (hl'.create_of_find (not_directory_of_file hn))
  exact ⟨c, hn⟩

theorem find_of_create {path : Octets} (h : fs.locatePath .create path = .ok p)
    (hp : fs.node? p ≠ none) : fs.locatePath .find path = .ok p := by
  obtain ⟨hs, hr, k, hk, hl⟩ := (locatePath_eq_ok.1 h).imp_right locate_eq_ok.1
  exact locatePath_eq_ok.2 ⟨hs, locate_eq_ok.2 ⟨hr, k, hk, hl.find_of_create hp⟩⟩

theorem readText_of_create {text : String} (h : fs.locatePath .create (.text path) = .ok p)
    (hp : fs.node? p = some (.file (.text text))) : fs.readText path = .ok text := by
  have hfind := find_of_create h (by rw [hp]; exact Option.some_ne_none _)
  exact readText_eq_ok.2 ⟨p, hfind, hp⟩

theorem isDirectory_put (hp : fs.TakesFile p) (path : String) :
    (fs.put p (.file c)).isDirectory path = fs.isDirectory path := by
  apply Bool.eq_iff_iff.2
  rw [isDirectory_iff, isDirectory_iff]
  apply Iff.intro
  · intro h
    obtain ⟨q, hq, hd⟩ := h
    have hd := hp.node?_put_directory.1 hd
    obtain ⟨hs, hl⟩ := locatePath_eq_ok.1 hq
    rcases hp.locate_find_put.1 hl with hl | ⟨-, hqp, -⟩
    · exact ⟨q, locatePath_eq_ok.2 ⟨hs, hl⟩, hd⟩
    · exact absurd hqp (hp.ne_of_directory hd)
  · intro h
    obtain ⟨q, hq, hd⟩ := h
    exact ⟨q, hp.locatePath_put hq, hp.node?_put_directory.2 hd⟩

theorem isFileAt_put (hp : fs.TakesFile p) :
    (fs.put p (.file c)).isFileAt r ↔
      fs.isFileAt r ∨ fs.node? p = none ∧ fs.locate .create r = .ok p := by
  rw [isFileAt_iff, isFileAt_iff]
  apply Iff.intro
  · intro h
    obtain ⟨q, c', hq, hn⟩ := h
    rcases hp.locate_find_put.1 hq with hl | ⟨hnone, -, hl⟩
    · by_cases hqp : q = p
      · subst hqp
        rcases hp.kind with hnone | ⟨c₀, hc₀⟩
        · obtain ⟨hs, k, hk, hl⟩ := locate_eq_ok.1 hl
          have hd : fs.node? q ≠ some .directory := by
            rw [hnone]
            exact nofun
          exact .inr ⟨hnone, locate_eq_ok.2 ⟨hs, k, hk, hl.create_of_find hd⟩⟩
        · exact .inl ⟨q, c₀, hl, hc₀⟩
      · rw [hp.node?_put_ne hqp] at hn
        exact .inl ⟨q, c', hl, hn⟩
    · exact .inr ⟨hnone, hl⟩
  · intro h
    rcases h with ⟨q, c', hq, hn⟩ | ⟨hnone, hl⟩
    · obtain ⟨c'', hn⟩ := hp.node?_put_file (c := c) ⟨c', hn⟩
      exact ⟨q, c'', hp.locate_put hq, hn⟩
    · exact ⟨p, c, hp.locate_find_put.2 (.inr ⟨hnone, rfl, hl⟩), hp.node?_put_self⟩

theorem isFile_put (hp : fs.TakesFile p) (h : fs.isFile path) :
    (fs.put p (.file c)).isFile path := by
  obtain ⟨q, c', hq, hn⟩ := isFile_iff.1 h
  obtain ⟨c'', hn⟩ := hp.node?_put_file (c := c) ⟨c', hn⟩
  exact isFile_iff.2 ⟨q, c'', hp.locatePath_put hq, hn⟩

theorem nodup_eraseDups {α : Type} [BEq α] [LawfulBEq α] (as : List α) : as.eraseDups.Nodup := by
  induction hlen : as.length using Nat.strongRecOn generalizing as with
  | ind len ih =>
    cases as with
    | nil => exact List.nodup_nil
    | cons a as =>
      rw [List.eraseDups_cons]
      refine List.nodup_cons.2 ⟨?_, ih _ ?_ _ rfl⟩
      · simp
      · have hle := List.length_filter_le (fun b => !b == a) as
        rw [← hlen, List.length_cons]
        omega

theorem eraseDups_filter {α : Type} [BEq α] [LawfulBEq α] (f : α → Bool) (as : List α) :
    (as.filter f).eraseDups = as.eraseDups.filter f := by
  induction hlen : as.length using Nat.strongRecOn generalizing as with
  | ind len ih =>
    cases as with
    | nil => rfl
    | cons a as =>
      have hle := List.length_filter_le (fun b => !b == a) as
      have hrest := ih _ (by rw [← hlen, List.length_cons]; omega) (as.filter fun b => !b == a) rfl
      rw [List.eraseDups_cons]
      by_cases ha : f a
      · rw [List.filter_cons_of_pos ha, List.filter_cons_of_pos ha, List.eraseDups_cons, ← hrest,
          List.filter_filter, List.filter_filter]
        simp only [Bool.and_comm]
      · rw [List.filter_cons_of_neg ha, List.filter_cons_of_neg ha, ← hrest, List.filter_filter]
        congr 1
        apply List.filter_congr
        intro b _
        by_cases hb : b = a
        · subst hb
          simp [ha]
        · simp [hb]

theorem nameIn_eq_some : nameIn d p = some n ↔ p = n :: d := by
  cases p with
  | nil => simp [nameIn]
  | cons m parent =>
    by_cases h : parent = d <;> simp [nameIn, h]

theorem mem_names : n ∈ fs.names d ↔ ∃ node, (n :: d, node) ∈ fs.nodes := by
  simp only [names, List.mem_eraseDups, List.mem_filterMap, nameIn_eq_some]
  apply Iff.intro
  · intro h
    obtain ⟨⟨p, node⟩, hm, rfl⟩ := h
    exact ⟨node, hm⟩
  · intro h
    obtain ⟨node, hm⟩ := h
    exact ⟨_, hm, rfl⟩

theorem mem_names_of_node? {node : Node} (h : fs.node? (n :: d) = some node) :
    n ∈ fs.names d := by
  obtain ⟨before, after, hnodes, -⟩ := List.lookup_eq_some_iff.1 h
  exact mem_names.2 ⟨node, by simp [hnodes]⟩

theorem exists_mem_nodes (h : fs.node? (n :: d) ≠ none) : ∃ node, (n :: d, node) ∈ fs.nodes := by
  obtain ⟨node, hnode⟩ := Option.ne_none_iff_exists'.1 h
  exact mem_names.1 (mem_names_of_node? hnode)

theorem node?_ne_none_of_mem_names (h : n ∈ fs.names d) : fs.node? (n :: d) ≠ none := by
  obtain ⟨node, hm⟩ := mem_names.1 h
  intro hn
  have hne := List.lookup_eq_none_iff.1 hn (n :: d, node) hm
  simp at hne

theorem mem_names_iff : n ∈ fs.names d ↔ fs.node? (n :: d) ≠ none :=
  ⟨node?_ne_none_of_mem_names, fun hn => mem_names.2 (exists_mem_nodes hn)⟩

theorem node?_eq_some_iff_mem {node : Node} (h : (fs.nodes.map Prod.fst).Nodup) :
    fs.node? (n :: d) = some node ↔ (n :: d, node) ∈ fs.nodes := by
  show fs.nodes.lookup (n :: d) = some node ↔ (n :: d, node) ∈ fs.nodes
  generalize fs.nodes = nodes at h
  induction nodes with
  | nil => simp
  | cons entry nodes ih =>
    obtain ⟨q, node'⟩ := entry
    obtain ⟨hq, hrest⟩ := List.nodup_cons.1 h
    by_cases heq : n :: d = q
    · subst heq
      have hnot : (n :: d, node) ∉ nodes := by
        intro hmem
        exact hq (List.mem_map.2 ⟨_, hmem, rfl⟩)
      simp [hnot, eq_comm]
    · have hbeq : (n :: d == q) = false := by simpa using heq
      simp only [List.lookup_cons, hbeq, ih hrest, List.mem_cons, Prod.mk.injEq, heq, false_and,
        false_or]

theorem names_put (fs : Filesystem) (p : Place) (node : Node) (d : Place) :
    (fs.put p node).names d =
      match nameIn d p with
      | some n => n :: (fs.names d).filter (· ≠ n)
      | none => fs.names d := by
  have hrest : (fs.nodes.filter (·.1 ≠ p)).filterMap (fun entry => nameIn d entry.1) =
      (fs.nodes.filterMap fun entry => nameIn d entry.1).filter (fun n => nameIn d p ≠ some n) := by
    rw [List.filter_filterMap, List.filterMap_filter]
    apply List.filterMap_congr
    intro entry _
    cases hq : nameIn d entry.1 with
    | none => simp
    | some n =>
      by_cases heq : entry.1 = p
      · simp [heq ▸ hq, heq, Option.filter]
      · have hne : nameIn d p ≠ some n := fun h =>
          heq ((nameIn_eq_some.1 hq).trans (nameIn_eq_some.1 h).symm)
        simp [heq, hne, Option.filter]
  unfold names put
  rw [List.filterMap_cons]
  cases hp : nameIn d p with
  | none =>
    rw [hrest, hp]
    simp
  | some n =>
    rw [hrest, hp, List.eraseDups_cons, List.filter_filter, eraseDups_filter]
    congr 1
    apply List.filter_congr
    intro m _
    by_cases hm : m = n
    · simp [hm]
    · simp [hm, Ne.symm hm]

theorem entries?_eq_some {es : List Entry} :
    fs.entries? path = some es ↔
      ∃ p, fs.locatePath .find (.text path) = .ok p ∧ fs.node? p = some .directory ∧
        es = (fs.names p).map fun n =>
          ⟨n, isShortBelow path n && fs.isFileAt ((Route.ofPath (.text path)).entry n)⟩ := by
  unfold entries?
  cases fs.locatePath .find (.text path) with
  | error fault => simp
  | ok p =>
    by_cases hd : fs.node? p = some .directory
    · simp [hd, eq_comm]
    · simp [hd]

theorem entries?_eq_none : fs.entries? path = none ↔ fs.isDirectory path = false := by
  rw [← Bool.not_eq_true, isDirectory_iff, Option.eq_none_iff_forall_ne_some]
  apply Iff.intro
  · intro h h'
    obtain ⟨p, hp, hd⟩ := h'
    exact h _ (entries?_eq_some.2 ⟨p, hp, hd, rfl⟩)
  · intro h es hes
    obtain ⟨p, hp, hd, -⟩ := entries?_eq_some.1 hes
    exact h ⟨p, hp, hd⟩

end AnalyzerConfig.Filesystem
