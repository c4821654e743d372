import AnalyzerConfig.Proofs.Arguments.Options

namespace AnalyzerConfig

variable {r r' : ArgumentReader} {a a' : Arguments} {o : ValueOption} {arg v w : String}
variable {args words trail : List String}

theorem UsageFault.bind_eq_ok {α β : Type} {x : Except UsageFault α}
    {f : α → Except UsageFault β} {b : β} :
    x >>= f = .ok b ↔ ∃ a, x = .ok a ∧ f a = .ok b := by
  cases x with
  | error fault => simp [bind, Except.bind]
  | ok a => simp [bind, Except.bind]

theorem UsageFault.map_eq_ok {α β : Type} {x : Except UsageFault α} {f : α → β} {b : β} :
    x.map f = .ok b ↔ ∃ a, x = .ok a ∧ b = f a := by
  cases x with
  | error fault => simp [Except.map]
  | ok a => simp [Except.map, eq_comm]

namespace ArgumentReader

theorem splitLong_name (o : ValueOption) : splitLong o.name.toList = (o.name.toList, none) := by
  cases o <;> decide

theorem splitLong_name_equals (o : ValueOption) (v : String) :
    splitLong (o.name.toList ++ '=' :: v.toList) = (o.name.toList, some v) := by
  have hname : ∀ c ∈ o.name.toList, decide (c ≠ '=') = true :=
    fun _ => ValueOption.ne_equals_of_mem_name
  rw [splitLong, List.dropWhile_append_of_pos hname, List.takeWhile_append_of_pos hname]
  simp

theorem eq_of_splitLong {cs name : List Char} {value : Option String}
    (h : splitLong cs = (name, value)) :
    cs = name ++ (value.map fun v => '=' :: v.toList).getD [] := by
  unfold splitLong at h
  split at h
  · next v hv =>
    cases h
    rw [Option.map_some, Option.getD_some, String.toList_ofList, ← hv,
      List.takeWhile_append_dropWhile]
  · cases h
    rw [Option.map_none, Option.getD_none, List.append_nil]

theorem read_word (r : ArgumentReader) (h : isWord w = true) : r.read w = r.readValue w := by
  unfold isWord at h
  unfold read
  split
  · next hw => rw [hw] at h; cases h
  · next hw => rw [hw] at h; cases h
  · rfl

theorem read_flag (r : ArgumentReader) (o : ValueOption) :
    r.read o.flag = (do return { (← r.settle) with pending := some { option := o } }) := by
  rw [read, ValueOption.toList_flag]
  simp only [splitLong_name, readLong, ValueOption.ofName?_name]

theorem read_flagWith (r : ArgumentReader) (o : ValueOption) (v : String) :
    r.read (o.flagWith v) = (do return { given := ← (← r.settle).given.give o [v] }) := by
  rw [read, ValueOption.toList_flagWith]
  simp only [splitLong_name_equals, readLong, ValueOption.ofName?_name]

theorem request_ne_ok (display : UsageFault) : r.request display ≠ .ok r' := by
  unfold request
  cases r.settle <;> exact nofun

theorem exists_option_of_readLong {name : List Char} {value : Option String}
    (h : r.readLong name value = .ok r') : ∃ o : ValueOption, name = o.name.toList := by
  unfold readLong at h
  split at h
  · next o _ ho => exact ⟨o, ValueOption.eq_name_of_ofName? ho⟩
  · next o ho => exact ⟨o, ValueOption.eq_name_of_ofName? ho⟩
  split at h
  · split at h
    · cases h
    · exact absurd h (request_ne_ok _)
  · cases h

theorem isWord_or_option_of_read (h : r.read arg = .ok r') :
    isWord arg = true ∨
      ∃ o : ValueOption, arg = o.flag ∨ ∃ v, arg = o.flagWith v := by
  unfold read at h
  split at h
  · next cs hcs =>
    right
    have hlong : r.readLong (splitLong cs).1 (splitLong cs).2 = .ok r' := h
    obtain ⟨o, hname⟩ := exists_option_of_readLong hlong
    have hsplit := eq_of_splitLong (Prod.eta (splitLong cs)).symm
    rw [hname] at hsplit
    refine ⟨o, ?_⟩
    cases hvalue : (splitLong cs).2 with
    | none =>
      left
      rw [← String.toList_inj, ValueOption.toList_flag, hcs, hsplit, hvalue, Option.map_none,
        Option.getD_none, List.append_nil]
    | some v =>
      refine .inr ⟨v, ?_⟩
      rw [← String.toList_inj, ValueOption.toList_flagWith, hcs, hsplit, hvalue]
      rfl
  · unfold readShort at h
    split at h
    · exact absurd h (request_ne_ok _)
    split at h
    · exact absurd h (request_ne_ok _)
    · cases h
  · next _ hshort =>
    left
    unfold isWord
    split
    · next c cs hcs => exact absurd hcs (hshort c cs)
    · rfl

theorem readAll_cons (h : arg ≠ "--") (rest : List String) :
    r.readAll (arg :: rest) = r.read arg >>= (·.readAll rest) := by
  rw [readAll]
  exact h

theorem readAll_dashes (r : ArgumentReader) (rest : List String) :
    r.readAll ("--" :: rest) = if rest = [] then r.settle else .error .unknownArgument := by
  rw [readAll]

theorem readAll_of_read (h : r.read arg = .ok r') (hne : arg ≠ "--") (rest : List String) :
    r.readAll (arg :: rest) = r'.readAll rest := by
  rw [readAll_cons hne, h]
  rfl

theorem ne_dashes_of_word (h : isWord w = true) : w ≠ "--" := by
  rintro rfl
  exact absurd h (by decide)

theorem flag_ne_dashes (o : ValueOption) : o.flag ≠ "--" := by
  cases o <;> decide

theorem flagWith_ne_dashes (o : ValueOption) (v : String) : o.flagWith v ≠ "--" := by
  intro h
  have htext := congrArg String.toList h
  rw [ValueOption.toList_flagWith] at htext
  have hnil := (List.cons.inj (List.cons.inj htext).2).2
  exact List.append_ne_nil_of_right_ne_nil _ (List.cons_ne_nil _ _) hnil

theorem readAll_trail (h : trail = [] ∨ trail = ["--"]) : r.readAll trail = r.settle := by
  rcases h with rfl | rfl
  · rfl
  · rw [readAll_dashes, if_pos rfl]

theorem readAll_eq_ok (h : r.readAll args = .ok r') :
    ((args = [] ∨ args = ["--"]) ∧ r.settle = .ok r') ∨
      ∃ arg rest s, args = arg :: rest ∧ arg ≠ "--" ∧ r.read arg = .ok s ∧
        s.readAll rest = .ok r' := by
  cases args with
  | nil => exact .inl ⟨.inl rfl, h⟩
  | cons arg rest =>
    by_cases hdashes : arg = "--"
    · rw [hdashes, readAll_dashes] at h
      split at h
      · next hrest => exact .inl ⟨.inr (by rw [hdashes, hrest]), h⟩
      · cases h
    · rw [readAll_cons hdashes] at h
      obtain ⟨s, hread, hrest⟩ := UsageFault.bind_eq_ok.1 h
      exact .inr ⟨arg, rest, s, rfl, hdashes, hread, hrest⟩

/-- The reader that has given some arguments and waits for no value. -/
def settled (a : Arguments) : ArgumentReader := { given := a }

/-- The reader that has collected some values for an option. -/
def collecting (a : Arguments) (o : ValueOption) (values : List String) : ArgumentReader :=
  { given := a, pending := some { option := o, values } }

theorem settle_settled (a : Arguments) : (settled a).settle = .ok (settled a) := rfl

theorem settle_collecting (a : Arguments) (o : ValueOption) (values : List String) :
    (collecting a o values).settle = (a.give o values).map settled := rfl

theorem exists_of_settle (h : r.settle = .ok r') : ∃ a, r' = settled a := by
  cases r with
  | mk given pending =>
  cases pending with
  | none => exact ⟨given, (Except.ok.inj h).symm⟩
  | some p =>
    obtain ⟨a, -, rfl⟩ := UsageFault.map_eq_ok.1 h
    exact ⟨a, rfl⟩

theorem read_flag_of_settle (h : r.settle = .ok (settled a)) (o : ValueOption) :
    r.read o.flag = .ok (collecting a o []) := by
  rw [read_flag, h]
  rfl

theorem read_flagWith_of_settle (h : r.settle = .ok (settled a)) (o : ValueOption) (v : String) :
    r.read (o.flagWith v) = (a.give o [v]).map settled := by
  rw [read_flagWith, h]
  rfl

theorem exists_settled_of_read (hoption : isWord arg = false) (h : r.read arg = .ok r') :
    ∃ a, r.settle = .ok (settled a) ∧ (settled a).read arg = .ok r' := by
  cases hsettle : r.settle with
  | error fault =>
    exfalso
    rcases isWord_or_option_of_read h with hword | ⟨o, rfl | ⟨v, rfl⟩⟩
    · cases hword.symm.trans hoption
    · rw [read_flag, hsettle] at h
      cases h
    · rw [read_flagWith, hsettle] at h
      cases h
  | ok s =>
    obtain ⟨a, rfl⟩ := exists_of_settle hsettle
    refine ⟨a, rfl, ?_⟩
    rcases isWord_or_option_of_read h with hword | ⟨o, rfl | ⟨v, rfl⟩⟩
    · cases hword.symm.trans hoption
    · rw [← h, read_flag, read_flag, hsettle]
      rfl
    · rw [← h, read_flagWith, read_flagWith, hsettle]
      rfl

/-- Arguments that do not begin with a word are read as if nothing had been pending. -/
theorem exists_settled_of_readAll (hfirst : ∀ arg ∈ args.head?, isWord arg = false)
    (h : r.readAll args = .ok r') :
    ∃ a, r.settle = .ok (settled a) ∧ (settled a).readAll args = .ok r' := by
  rcases readAll_eq_ok h with ⟨hends, hsettle⟩ | ⟨arg, rest, s, rfl, hne, hread, hrest⟩
  · obtain ⟨a, rfl⟩ := exists_of_settle hsettle
    exact ⟨a, hsettle, readAll_trail hends⟩
  · obtain ⟨a, hsettle, hread⟩ := exists_settled_of_read (hfirst arg rfl) hread
    refine ⟨a, hsettle, ?_⟩
    rw [readAll_of_read hread hne, hrest]

theorem read_word_collecting (hw : isWord w = true) (a : Arguments) (values : List String) :
    (collecting a o values).read w =
      if values = [] ∨ o.takesMore = true then .ok (collecting a o (values ++ [w]))
      else .error .unknownArgument := by
  rw [read_word _ hw]
  rfl

theorem read_word_settled (hw : isWord w = true) (a : Arguments) :
    (settled a).read w = .error .unknownArgument := by
  rw [read_word _ hw]
  rfl

theorem readAll_word_settled_ne_ok (hw : isWord w = true) (a : Arguments) (rest : List String) :
    (settled a).readAll (w :: rest) ≠ .ok r' := by
  rw [readAll_cons (ne_dashes_of_word hw), read_word_settled hw]
  exact nofun

/-- An option takes words as its values, as many as it can have. -/
theorem readAll_words (hwords : ∀ w ∈ words, isWord w = true) {values : List String}
    (hmore : o.takesMore = true ∨ (values ++ words).length ≤ 1) (a : Arguments)
    (rest : List String) :
    (collecting a o values).readAll (words ++ rest) =
      (collecting a o (values ++ words)).readAll rest := by
  induction words generalizing values with
  | nil => rw [List.append_nil, List.nil_append]
  | cons w words ih =>
    have hw := hwords w List.mem_cons_self
    have hnow : values = [] ∨ o.takesMore = true := by
      rcases hmore with hmore | hlength
      · exact .inr hmore
      · left
        apply List.eq_nil_of_length_eq_zero
        rw [List.length_append, List.length_cons] at hlength
        omega
    have hread := read_word_collecting (o := o) hw a values
    rw [if_pos hnow] at hread
    rw [List.append_cons] at hmore ⊢
    rw [List.cons_append, readAll_of_read hread (ne_dashes_of_word hw),
      ih (fun w hw => hwords w (List.mem_cons_of_mem _ hw)) hmore]

theorem exists_given_of_readAll {values : List String}
    (hfirst : ∀ arg ∈ args.head?, isWord arg = false)
    (h : (collecting a o values).readAll args = .ok r') :
    ∃ a', a.give o values = .ok a' ∧ (settled a').readAll args = .ok r' := by
  obtain ⟨a', hsettle, hrest⟩ := exists_settled_of_readAll hfirst h
  rw [settle_collecting] at hsettle
  obtain ⟨b, hgive, heq⟩ := UsageFault.map_eq_ok.1 hsettle
  cases heq
  exact ⟨a', hgive, hrest⟩

theorem exists_words (values : List String) (hmore : o.takesMore = true ∨ values.length ≤ 1)
    (h : (collecting a o values).readAll args = .ok r') :
    ∃ words rest a', args = words ++ rest ∧ (∀ w ∈ words, isWord w = true) ∧
      (o.takesMore = true ∨ (values ++ words).length ≤ 1) ∧
      a.give o (values ++ words) = .ok a' ∧ (settled a').readAll rest = .ok r' := by
  induction args generalizing values with
  | nil =>
    have hfirst : ∀ first ∈ ([] : List String).head?, isWord first = false := nofun
    obtain ⟨a', hgive, hrest⟩ := exists_given_of_readAll hfirst h
    exact ⟨[], [], a', rfl, nofun, by rwa [List.append_nil], by rwa [List.append_nil], hrest⟩
  | cons arg args ih =>
    cases hw : isWord arg with
    | false =>
      have hfirst : ∀ first ∈ (arg :: args).head?, isWord first = false := by
        intro first hfirst
        rwa [← Option.mem_some_iff.1 hfirst]
      obtain ⟨a', hgive, hrest⟩ := exists_given_of_readAll hfirst h
      exact ⟨[], _, a', rfl, nofun, by rwa [List.append_nil], by rwa [List.append_nil], hrest⟩
    | true =>
      rw [readAll_cons (ne_dashes_of_word hw), read_word_collecting hw] at h
      split at h
      · next hnow =>
        have hmore : o.takesMore = true ∨ (values ++ [arg]).length ≤ 1 := by
          rcases hnow with rfl | hnow
          · exact .inr (Nat.le_refl 1)
          · exact .inl hnow
        obtain ⟨words, rest, a', rfl, hwords, hmore, hgive, hrest⟩ := ih _ hmore h
        rw [← List.append_cons] at hmore hgive
        have hwords : ∀ w ∈ arg :: words, isWord w = true := List.forall_mem_cons.2 ⟨hw, hwords⟩
        exact ⟨arg :: words, rest, a', rfl, hwords, hmore, hgive, hrest⟩
      · cases h

end ArgumentReader

end AnalyzerConfig
