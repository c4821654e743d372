import AnalyzerConfig.Proofs.Arguments.Reading
import Mathlib.Data.List.Induction

namespace AnalyzerConfig

/-- An option with its values as they stand on a command line: apart from it, or a single one behind
an equals sign. -/
inductive OptionUse where
  | apart (option : ValueOption) (value : String) (more : List String)
  | joined (option : ValueOption) (value : String)

namespace OptionUse

def option : OptionUse → ValueOption
  | .apart o _ _ | .joined o _ => o

def values : OptionUse → List String
  | .apart _ v more => v :: more
  | .joined _ v => [v]

def written : OptionUse → List String
  | .apart o v more => o.flag :: v :: more
  | .joined o v => [o.flagWith v]

/-- Values that stand apart are words, and more than one only where the option takes more. -/
def IsSpelled : OptionUse → Prop
  | .apart o v more => (∀ w ∈ v :: more, isWord w = true) ∧ (o.takesMore = true ∨ more = [])
  | .joined _ _ => True

/-- An option that can be read. The path of a root or of a layout is not empty. -/
structure Fits (u : OptionUse) : Prop where
  spelled : u.IsSpelled
  not_empty : u.option.takesMore = true ∨ "" ∉ u.values

instance decidableIsSpelled : DecidablePred IsSpelled
  | .apart _ _ _ => inferInstanceAs (Decidable (_ ∧ _))
  | .joined _ _ => inferInstanceAs (Decidable True)

instance decidableFits (u : OptionUse) : Decidable u.Fits :=
  decidable_of_iff (u.IsSpelled ∧ (u.option.takesMore = true ∨ "" ∉ u.values))
    ⟨fun h => ⟨h.1, h.2⟩, fun h => ⟨h.spelled, h.not_empty⟩⟩

/-- No option that takes one value is used twice. -/
def Single (us : List OptionUse) : Prop :=
  ∀ o : ValueOption, o.takesMore = false → us.countP (fun u => u.option = o) ≤ 1

def valuesOf (o : ValueOption) (us : List OptionUse) : List String :=
  (us.filter fun u => u.option = o).flatMap values

end OptionUse

/-- What some options ask for: each path that is given, and all tests to exclude. -/
def Arguments.ofUses (us : List OptionUse) : Arguments :=
  let excludeTests := OptionUse.valuesOf .excludeTest us
  { root := (OptionUse.valuesOf .root us).head?
    layout := (OptionUse.valuesOf .layout us).head?
    excludeTests := if excludeTests = [] then none else some excludeTests }

variable {r r' : ArgumentReader} {a a' : Arguments} {o : ValueOption} {u : OptionUse}
variable {us : List OptionUse} {arg v w : String} {args trail : List String}

theorem Arguments.give_nil_ne_ok (a : Arguments) (o : ValueOption) : a.give o [] ≠ .ok a' := by
  cases o <;> exact nofun

def Arguments.giveAll (a : Arguments) (us : List OptionUse) : Except UsageFault Arguments :=
  us.foldlM (fun a u => a.give u.option u.values) a

theorem Arguments.giveAll_cons :
    a.giveAll (u :: us) = .ok a' ↔
      ∃ b, a.give u.option u.values = .ok b ∧ b.giveAll us = .ok a' := by
  unfold giveAll
  rw [List.foldlM_cons, UsageFault.bind_eq_ok]

theorem Arguments.giveAll_concat :
    a.giveAll (us ++ [u]) = .ok a' ↔
      ∃ b, a.giveAll us = .ok b ∧ b.give u.option u.values = .ok a' := by
  unfold giveAll
  rw [List.foldlM_append, UsageFault.bind_eq_ok]
  simp only [List.foldlM_cons, List.foldlM_nil, bind_pure]

/-- The arguments `a` become `a'` with what is written on a command line. There may be two dashes at
its end. -/
def Arguments.Becomes (a : Arguments) (args : List String) (a' : Arguments) : Prop :=
  ∃ us trail, args = us.flatMap OptionUse.written ++ trail ∧ (trail = [] ∨ trail = ["--"]) ∧
    (∀ u ∈ us, OptionUse.IsSpelled u) ∧ a.giveAll us = .ok a'

theorem Arguments.becomes_self (h : args = [] ∨ args = ["--"]) : a.Becomes args a :=
  ⟨[], args, rfl, h, nofun, rfl⟩

theorem Arguments.Becomes.cons {b : Arguments} {rest : List String} (h : b.Becomes rest a')
    (hu : u.IsSpelled) (hgive : a.give u.option u.values = .ok b) :
    a.Becomes (u.written ++ rest) a' := by
  obtain ⟨us, trail, rfl, htrail, hus, hall⟩ := h
  refine ⟨u :: us, trail, ?_, htrail, List.forall_mem_cons.2 ⟨hu, hus⟩, ?_⟩
  · rw [List.flatMap_cons, List.append_assoc]
  · exact Arguments.giveAll_cons.2 ⟨b, hgive, hall⟩

namespace ArgumentReader

theorem exists_readAll_written (hr : r.settle = .ok (settled a)) (hu : u.IsSpelled)
    (hgive : a.give u.option u.values = .ok a') (rest : List String) :
    ∃ s : ArgumentReader, r.readAll (u.written ++ rest) = s.readAll rest ∧
      s.settle = .ok (settled a') := by
  cases u with
  | apart o v more =>
    obtain ⟨hwords, hmore⟩ := hu
    have hlength : o.takesMore = true ∨ ([] ++ (v :: more)).length ≤ 1 := by
      rcases hmore with hmore | rfl
      · exact .inl hmore
      · exact .inr (Nat.le_refl 1)
    refine ⟨collecting a o (v :: more), ?_, ?_⟩
    · have hread := read_flag_of_settle hr o
      have hflag := readAll_of_read hread (flag_ne_dashes o) (v :: more ++ rest)
      exact hflag.trans (readAll_words hwords hlength a rest)
    · rw [settle_collecting]
      exact congrArg (Except.map settled) hgive
  | joined o v =>
    refine ⟨settled a', readAll_of_read ?_ (flagWith_ne_dashes o v) rest, settle_settled a'⟩
    rw [read_flagWith_of_settle hr]
    exact congrArg (Except.map settled) hgive

/-- What is written is read. -/
theorem readAll_of_becomes (hr : r.settle = .ok (settled a)) (h : a.Becomes args a') :
    r.readAll args = .ok (settled a') := by
  obtain ⟨us, trail, rfl, htrail, hus, hall⟩ := h
  induction us generalizing r a with
  | nil =>
    rw [List.flatMap_nil, List.nil_append, readAll_trail htrail, hr, Except.ok.inj hall]
  | cons u us ih =>
    obtain ⟨hu, hus⟩ := List.forall_mem_cons.1 hus
    obtain ⟨b, hgive, hall⟩ := Arguments.giveAll_cons.1 hall
    obtain ⟨s, hread, hs⟩ :=
      exists_readAll_written hr hu hgive (us.flatMap OptionUse.written ++ trail)
    rw [List.flatMap_cons, List.append_assoc, hread]
    exact ih hs hus hall

/-- What is read is written. -/
theorem becomes_of_readAll (h : (settled a).readAll args = .ok r') : a.Becomes args r'.given := by
  -- An option may take several arguments, so the induction is on their number.
  induction hn : args.length using Nat.strongRecOn generalizing args a with
  | _ n ih =>
  rcases readAll_eq_ok h with ⟨hends, hsettle⟩ | ⟨arg, rest, s, rfl, hne, hread, hrest⟩
  · rw [settle_settled] at hsettle
    cases hsettle
    exact Arguments.becomes_self hends
  rcases isWord_or_option_of_read hread with hw | ⟨o, rfl | ⟨v, rfl⟩⟩
  · rw [read_word_settled hw] at hread
    cases hread
  · rw [read_flag_of_settle (settle_settled a)] at hread
    cases hread
    obtain ⟨words, after, b, rfl, hwords, hmore, hgive, hafter⟩ :=
      exists_words [] (.inr (Nat.zero_le 1)) hrest
    cases words with
    | nil => exact absurd hgive (Arguments.give_nil_ne_ok _ _)
    | cons v more =>
      have hlength : after.length < n := by
        rw [← hn, List.length_cons, List.length_append]
        omega
      have hmore : o.takesMore = true ∨ more = [] := hmore.imp_right fun hle =>
        List.eq_nil_of_length_eq_zero (Nat.le_zero.1 (Nat.le_of_succ_le_succ hle))
      have hu : (OptionUse.apart o v more).IsSpelled := ⟨hwords, hmore⟩
      exact (ih _ hlength hafter rfl).cons hu hgive
  · rw [read_flagWith_of_settle (settle_settled a)] at hread
    obtain ⟨b, hgive, rfl⟩ := UsageFault.map_eq_ok.1 hread
    have hlength : rest.length < n := by
      rw [← hn, List.length_cons]
      exact Nat.lt_succ_self _
    have hu : (OptionUse.joined o v).IsSpelled := trivial
    exact (ih _ hlength hrest rfl).cons hu hgive

end ArgumentReader

namespace OptionUse

theorem valuesOf_concat (o : ValueOption) (us : List OptionUse) (u : OptionUse) :
    valuesOf o (us ++ [u]) = valuesOf o us ++ if u.option = o then u.values else [] := by
  unfold valuesOf
  rw [List.filter_append, List.flatMap_append]
  by_cases h : u.option = o
  · simp [h]
  · simp [h]

theorem values_ne_nil (u : OptionUse) : u.values ≠ [] := by
  cases u <;> exact List.cons_ne_nil _ _

theorem valuesOf_eq_nil : valuesOf o us = [] ↔ us.countP (fun u => u.option = o) = 0 := by
  rw [valuesOf, List.flatMap_eq_nil_iff, List.countP_eq_zero]
  simp [values_ne_nil]

theorem countP_concat (o : ValueOption) (us : List OptionUse) (u : OptionUse) :
    (us ++ [u]).countP (fun u => u.option = o) =
      us.countP (fun u => u.option = o) + if u.option = o then 1 else 0 := by
  rw [List.countP_append, List.countP_singleton]
  simp only [decide_eq_true_eq]

theorem single_concat :
    Single (us ++ [u]) ↔
      Single us ∧ (u.option.takesMore = true ∨ valuesOf u.option us = []) := by
  unfold Single
  simp only [countP_concat, valuesOf_eq_nil]
  apply Iff.intro
  · intro h
    refine ⟨fun o ho => Nat.le_of_add_right_le (h o ho), ?_⟩
    cases hmore : u.option.takesMore with
    | true => exact .inl rfl
    | false =>
      have hcount := h u.option hmore
      rw [if_pos rfl] at hcount
      exact .inr (Nat.le_zero.1 (Nat.le_of_succ_le_succ hcount))
  · rintro ⟨h, hfirst⟩ o ho
    split
    · next heq =>
      subst heq
      rcases hfirst with hmore | hcount
      · cases ho.symm.trans hmore
      · exact Nat.le_of_eq (congrArg (· + 1) hcount)
    · exact h o ho

theorem IsSpelled.exists_value (h : u.IsSpelled) (hmore : u.option.takesMore = false) :
    ∃ v, u.values = [v] := by
  cases u with
  | apart o v more =>
    rcases h.2 with htrue | rfl
    · cases hmore.symm.trans htrue
    · exact ⟨v, rfl⟩
  | joined o v => exact ⟨v, rfl⟩

end OptionUse

namespace Arguments

open OptionUse

theorem setPath_eq_ok {paths : List String} {new : Option String} :
    setPath paths.head? [v] = .ok new ↔ (paths = [] ∧ "" ∉ [v]) ∧ new = some v := by
  cases paths with
  | nil => by_cases hv : v = "" <;> simp [setPath, hv, eq_comm]
  | cons p paths => simp [setPath]

theorem map_setPath_eq_ok {paths : List String} {f : Option String → Arguments}
    (hnew : paths = [] → a' = f (some v)) :
    (setPath paths.head? [v]).map f = .ok a ↔
      (false = true ∨ paths = [] ∧ "" ∉ [v]) ∧ a = a' := by
  rw [UsageFault.map_eq_ok]
  apply Iff.intro
  · rintro ⟨new, hset, rfl⟩
    obtain ⟨hfirst, rfl⟩ := setPath_eq_ok.1 hset
    exact ⟨.inr hfirst, (hnew hfirst.1).symm⟩
  · rintro ⟨hmore | hfirst, rfl⟩
    · cases hmore
    · exact ⟨_, setPath_eq_ok.2 ⟨hfirst, rfl⟩, hnew hfirst.1⟩

theorem give_ofUses (h : u.IsSpelled) :
    (ofUses us).give u.option u.values = .ok a ↔
      (u.option.takesMore = true ∨ valuesOf u.option us = [] ∧ "" ∉ u.values) ∧
        a = ofUses (us ++ [u]) := by
  have hvalues := fun o => valuesOf_concat o us u
  cases hoption : u.option with
  | root =>
    obtain ⟨v, hv⟩ := h.exists_value (by rw [hoption]; rfl)
    rw [hv]
    apply map_setPath_eq_ok
    intro hnone
    simp [ofUses, hvalues, hoption, hv, hnone]
  | layout =>
    obtain ⟨v, hv⟩ := h.exists_value (by rw [hoption]; rfl)
    rw [hv]
    apply map_setPath_eq_ok
    intro hnone
    simp [ofUses, hvalues, hoption, hv, hnone]
  | excludeTest =>
    have hnew : (ofUses us).give .excludeTest u.values = .ok (ofUses (us ++ [u])) := by
      rw [give, if_neg u.values_ne_nil]
      by_cases hnone : valuesOf .excludeTest us = []
      · simp [ofUses, hvalues, hoption, hnone, u.values_ne_nil]
      · simp [ofUses, hvalues, hoption, hnone]
    rw [hnew, Except.ok.injEq, and_iff_right (.inl rfl), eq_comm]

theorem giveAll_eq_ok (h : ∀ u ∈ us, u.IsSpelled) :
    ({} : Arguments).giveAll us = .ok a ↔
      (∀ u ∈ us, u.Fits) ∧ Single us ∧ a = ofUses us := by
  induction us using List.reverseRecOn generalizing a with
  | nil =>
    have hsingle : Single [] := fun o _ => Nat.zero_le 1
    have hgive : ({} : Arguments).giveAll [] = .ok (ofUses []) := rfl
    rw [hgive, Except.ok.injEq, and_iff_right nofun, and_iff_right hsingle, eq_comm]
  | append_singleton us u ih =>
    obtain ⟨hus, hu⟩ := List.forall_mem_append.1 h
    have hu := hu u List.mem_cons_self
    rw [giveAll_concat]
    apply Iff.intro
    · rintro ⟨b, hall, hgive⟩
      obtain ⟨hfits, hsingle, rfl⟩ := (ih hus).1 hall
      obtain ⟨hcan, rfl⟩ := (give_ofUses hu).1 hgive
      refine ⟨?_, single_concat.2 ⟨hsingle, hcan.imp_right And.left⟩, rfl⟩
      refine List.forall_mem_append.2 ⟨hfits, List.forall_mem_singleton.2 ⟨hu, ?_⟩⟩
      exact hcan.imp_right And.right
    · rintro ⟨hfits, hsingle, rfl⟩
      obtain ⟨hfits, hfit⟩ := List.forall_mem_append.1 hfits
      obtain ⟨hsingle, hfirst⟩ := single_concat.1 hsingle
      refine ⟨ofUses us, (ih hus).2 ⟨hfits, hsingle, rfl⟩, (give_ofUses hu).2 ⟨?_, rfl⟩⟩
      rw [or_and_left]
      exact ⟨hfirst, (hfit u List.mem_cons_self).not_empty⟩

theorem parse_eq_ok_iff_becomes : parse args = .ok a ↔ ({} : Arguments).Becomes args a := by
  rw [parse, UsageFault.map_eq_ok]
  apply Iff.intro
  · rintro ⟨r, hread, rfl⟩
    exact ArgumentReader.becomes_of_readAll hread
  · intro h
    have hread := ArgumentReader.readAll_of_becomes (ArgumentReader.settle_settled {}) h
    exact ⟨_, hread, rfl⟩

/-- The arguments that are accepted are written options, no path among them twice, and perhaps two
dashes at the end. -/
theorem parse_eq_ok_iff :
    parse args = .ok a ↔
      ∃ us trail, args = us.flatMap written ++ trail ∧ (trail = [] ∨ trail = ["--"]) ∧
        (∀ u ∈ us, u.Fits) ∧ Single us ∧ a = ofUses us := by
  rw [parse_eq_ok_iff_becomes]
  apply Iff.intro
  · rintro ⟨us, trail, hargs, htrail, hus, hall⟩
    exact ⟨us, trail, hargs, htrail, (giveAll_eq_ok hus).1 hall⟩
  · rintro ⟨us, trail, hargs, htrail, hfits⟩
    have hus := fun u hu => (hfits.1 u hu).spelled
    exact ⟨us, trail, hargs, htrail, hus, (giveAll_eq_ok hus).2 hfits⟩

theorem countP_isGivenBy_written (h : u.IsSpelled) (o : ValueOption) :
    u.written.countP o.isGivenBy = if u.option = o then 1 else 0 := by
  cases u with
  | apart o' v more =>
    have hwords : (v :: more).countP o.isGivenBy = 0 := by
      apply List.countP_eq_zero.2
      intro w hw
      rw [o.isGivenBy_word (h.1 w hw)]
      exact Bool.false_ne_true
    rw [written, List.countP_cons, hwords, o.isGivenBy_flag, option, Nat.zero_add]
    simp only [decide_eq_true_eq]
  | joined o' v =>
    rw [written, List.countP_singleton, o.isGivenBy_flagWith, option]
    simp only [decide_eq_true_eq]

theorem countP_isGivenBy_flatMap (h : ∀ u ∈ us, u.IsSpelled) (o : ValueOption) :
    (us.flatMap written).countP o.isGivenBy = us.countP fun u => u.option = o := by
  induction us with
  | nil => rfl
  | cons u us ih =>
    obtain ⟨hu, hus⟩ := List.forall_mem_cons.1 h
    rw [List.flatMap_cons, List.countP_append, countP_isGivenBy_written hu, ih hus,
      List.countP_cons, Nat.add_comm]
    simp only [decide_eq_true_eq]

theorem countP_isGivenBy_le (h : parse args = .ok a) (ho : o.takesMore = false) :
    args.countP o.isGivenBy ≤ 1 := by
  obtain ⟨us, trail, rfl, htrail, hfits, hsingle, -⟩ := parse_eq_ok_iff.1 h
  have htrail : trail.countP o.isGivenBy = 0 := by
    rcases htrail with rfl | rfl
    · rfl
    · cases o <;> decide
  rw [List.countP_append, htrail, countP_isGivenBy_flatMap fun u hu => (hfits u hu).spelled]
  exact hsingle o ho

theorem exists_read_of_append {before after : List String} {r r' : ArgumentReader}
    (hne : arg ≠ "--") (h : r.readAll (before ++ arg :: after) = .ok r') :
    ∃ s s' : ArgumentReader, s.read arg = .ok s' ∧ s'.readAll after = .ok r' := by
  induction before generalizing r with
  | nil =>
    rw [List.nil_append, ArgumentReader.readAll_cons hne] at h
    obtain ⟨s, hread, hafter⟩ := UsageFault.bind_eq_ok.1 h
    exact ⟨r, s, hread, hafter⟩
  | cons first before ih =>
    rw [List.cons_append] at h
    rcases ArgumentReader.readAll_eq_ok h with ⟨hends, -⟩ | ⟨_, _, s, heq, -, -, hrest⟩
    · simp at hends
    · cases heq
      exact ih hrest

theorem exists_settled_of_parse {before after : List String} (hoption : isWord arg = false)
    (hne : arg ≠ "--") (h : parse (before ++ arg :: after) = .ok a) :
    ∃ b s r, (ArgumentReader.settled b).read arg = .ok s ∧ s.readAll after = .ok r := by
  obtain ⟨r, hread, -⟩ := UsageFault.map_eq_ok.1 h
  obtain ⟨s, s', harg, hafter⟩ := exists_read_of_append hne hread
  obtain ⟨b, -, harg⟩ := ArgumentReader.exists_settled_of_read hoption harg
  exact ⟨b, s', r, harg, hafter⟩

theorem parse_flag_word_ne_ok (ho : o.takesMore = false) (hw : isWord w = true)
    (before after : List String) (v : String) :
    parse (before ++ o.flag :: v :: w :: after) ≠ .ok a := by
  intro h
  obtain ⟨b, s, r, hflag, hrest⟩ :=
    exists_settled_of_parse (isWord_flag o) (ArgumentReader.flag_ne_dashes o) h
  rw [ArgumentReader.read_flag_of_settle (ArgumentReader.settle_settled b)] at hflag
  cases hflag
  obtain ⟨words, rest, b', heq, -, hmore, hgive, hrest⟩ :=
    ArgumentReader.exists_words [] (.inr (Nat.zero_le 1)) hrest
  cases words with
  | nil => exact give_nil_ne_ok b o hgive
  | cons first more =>
    rcases hmore with hmore | hlength
    · cases ho.symm.trans hmore
    · obtain rfl := List.eq_nil_of_length_eq_zero (Nat.le_zero.1 (Nat.le_of_succ_le_succ hlength))
      cases heq
      exact ArgumentReader.readAll_word_settled_ne_ok hw b' after hrest

theorem parse_flagWith_word_ne_ok (hw : isWord w = true) (before after : List String)
    (v : String) : parse (before ++ o.flagWith v :: w :: after) ≠ .ok a := by
  intro h
  obtain ⟨b, s, r, hflag, hrest⟩ :=
    exists_settled_of_parse (isWord_flagWith o v) (ArgumentReader.flagWith_ne_dashes o v) h
  rw [ArgumentReader.read_flagWith_of_settle (ArgumentReader.settle_settled b)] at hflag
  obtain ⟨b', -, rfl⟩ := UsageFault.map_eq_ok.1 hflag
  exact ArgumentReader.readAll_word_settled_ne_ok hw b' after hrest

/-- Written options, in any order and with no path twice, are read as what they give. Arguments with
a path option twice, or with a word behind the value of one, are never accepted. -/
theorem parse_written_options :
    (∀ us : List OptionUse, (∀ u ∈ us, u.Fits) → Single us →
      parse (us.flatMap written) = .ok (ofUses us)) ∧
    ∀ o : ValueOption, o.takesMore = false →
      (∀ args, 2 ≤ args.countP o.isGivenBy → ∀ a, parse args ≠ .ok a) ∧
      ∀ before v w after, isWord w = true → ∀ a,
        parse (before ++ o.flag :: v :: w :: after) ≠ .ok a ∧
        parse (before ++ o.flagWith v :: w :: after) ≠ .ok a := by
  apply And.intro
  · intro us hfits hsingle
    exact parse_eq_ok_iff.2 ⟨us, [], (List.append_nil _).symm, .inl rfl, hfits, hsingle, rfl⟩
  · intro o ho
    apply And.intro
    · intro args htwice a h
      exact absurd (countP_isGivenBy_le h ho) (Nat.not_le.2 htwice)
    · intro before v w after hw a
      exact ⟨parse_flag_word_ne_ok ho hw before after v,
        parse_flagWith_word_ne_ok hw before after v⟩

theorem parse_written_mixed :
    parse ["--exclude-test", "a.c", "b.c", "--root=src", "--exclude-test", "c.c",
        "--layout", "my.toml"] =
      .ok { root := some "src", layout := some "my.toml",
            excludeTests := some ["a.c", "b.c", "c.c"] } ∧
    (∀ a, parse ["--root", "src", "--layout=my.toml", "--root=src"] ≠ .ok a) ∧
    ∀ a, parse ["--exclude-test", "a.c", "--root", "src", "lib"] ≠ .ok a := by
  refine ⟨?_, ?_, ?_⟩
  · apply parse_written_options.1 [.apart .excludeTest "a.c" ["b.c"], .joined .root "src",
      .apart .excludeTest "c.c" [], .apart .layout "my.toml" []] (by decide)
    intro o ho
    cases o with
    | root | layout => decide
    | excludeTest => cases ho
  · have htwice := (parse_written_options.2 .root rfl).1
    exact htwice _ (by decide)
  · intro a
    have hword := (parse_written_options.2 .root rfl).2 ["--exclude-test", "a.c"] "src" "lib" []
    exact (hword (by decide) a).1

end Arguments

end AnalyzerConfig
