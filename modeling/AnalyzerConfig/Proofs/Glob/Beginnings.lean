import AnalyzerConfig.Proofs.Glob.Endings

namespace AnalyzerConfig.Glob

variable {cs : List Char} {name : Bytes} {text : String}

/-- A text without wildcards, brackets, braces and backslashes. -/
def IsLiteral (text : String) : Prop :=
  ∀ c ∈ text.toList, c ∉ ['*', '?', '[', ']', '\x7b', '\x7d', '\\']

instance decidableIsLiteral (text : String) : Decidable (IsLiteral text) :=
  List.decidableBAll _ text.toList

theorem State.readPlain_literal {s : State} {c : Char} (hgroups : s.groups = [])
    (hc : c ∉ ['*', '?', '[', ']', '\x7b', '\x7d', '\\']) :
    s.readPlain c = .ok (s.push (.literal c)) := by
  simp only [List.mem_cons, List.not_mem_nil, or_false, not_or] at hc
  obtain ⟨hstar, hany, hopen, -, hbrace, hclose, hescape⟩ := hc
  unfold readPlain
  simp only [hstar, hany, hopen, hbrace, hclose, hescape, if_false, hgroups]
  split
  · next hcomma => rw [hcomma]
  · rfl

theorem State.foldlM_read_literals {s : State} (hmode : s.mode = .plain) (hgroups : s.groups = [])
    (hcs : ∀ c ∈ cs, c ∉ ['*', '?', '[', ']', '\x7b', '\x7d', '\\']) :
    ∃ last, cs.foldlM State.read s =
      .ok { s with tokens := (cs.map .literal).reverse ++ s.tokens, last } := by
  induction cs generalizing s with
  | nil => exact ⟨s.last, rfl⟩
  | cons c cs ih =>
    have hread : s.read c = .ok { s.push (.literal c) with last := some c } := by
      rw [read, readInMode, hmode]
      simp only [readPlain_literal hgroups (hcs c List.mem_cons_self)]
      rfl
    obtain ⟨last, hlast⟩ := ih (s := { s.push (.literal c) with last := some c }) hmode hgroups
      fun c' hc' => hcs c' (List.mem_cons_of_mem c hc')
    refine ⟨last, ?_⟩
    rw [List.foldlM_cons, hread]
    rw [List.map_cons, List.reverse_cons, List.append_assoc]
    exact hlast

theorem parse_literal_star (h : IsLiteral text) :
    parse (text ++ "*") = .ok (text.toList.map .literal ++ [.many]) := by
  obtain ⟨last, hlast⟩ := State.foldlM_read_literals (s := {}) rfl rfl h
  unfold parse
  rw [String.toList_append, List.foldlM_append, hlast]
  simp [State.read, State.readInMode, State.readPlain, State.finish, State.push, bind, Except.bind,
    Except.map, pure, Except.pure]

theorem after_append (ts us : List Token) (lefts : List Bytes) :
    after (ts ++ us) lefts = after us (after ts lefts) := by
  induction ts generalizing lefts with
  | nil => rfl
  | cons t ts ih =>
    rw [List.cons_append, after, after]
    exact ih _

theorem nil_mem_afterMany {lefts : List Bytes} : [] ∈ afterMany lefts ↔ lefts ≠ [] := by
  cases lefts with
  | nil => simp [afterMany]
  | cons longest lefts => simp [afterMany, mem_suffixes]

/-- A text before a star accepts the names that begin with the text. -/
theorem accepts_literals_star :
    accepts (cs.map .literal ++ [.many]) name ↔ cs.flatMap String.utf8EncodeChar <+: name := by
  have haccepts : accepts (cs.map .literal ++ [.many]) name =
      (after (cs.map .literal ++ [.many]) [name]).contains [] := by
    cases cs <;> rfl
  rw [haccepts, after_append, after_literals, List.contains_iff_mem]
  refine nil_mem_afterMany.trans ?_
  rw [ne_eq, List.filterMap_eq_nil_iff]
  simp only [List.mem_singleton, forall_eq]
  rw [← ne_eq, Option.ne_none_iff_exists']
  simp only [List.isPrefixOf?_eq_some_iff_append_eq]
  rfl

end AnalyzerConfig.Glob
