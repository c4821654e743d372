import AnalyzerConfig.Proofs.Filesystem.Looking
import AnalyzerConfig.Proofs.Path.Segments

namespace AnalyzerConfig

/-- A text that an entry of a directory can have as its name. -/
structure Path.IsName (name : String) : Prop where
  noSlash : '/' ∉ name.toList
  ne_empty : name ≠ ""
  ne_dot : name ≠ "."
  ne_dots : name ≠ ".."

instance Path.decidableIsName (name : String) : Decidable (IsName name) :=
  decidable_of_iff ('/' ∉ name.toList ∧ name ≠ "" ∧ name ≠ "." ∧ name ≠ "..")
    ⟨fun h => ⟨h.1, h.2.1, h.2.2.1, h.2.2.2⟩,
      fun h => ⟨h.noSlash, h.ne_empty, h.ne_dot, h.ne_dots⟩⟩

theorem Path.IsName.isNaming {name : String} (h : IsName name) : isNaming name = true := by
  simp [Path.isNaming, h.ne_empty, h.ne_dot]

/-- A path that is a name, or has it behind its last slash. -/
def Path.EndsIn (name path : String) : Prop :=
  path = name ∨ ∃ before, path.toList = before ++ '/' :: name.toList

variable {name path dir : String}

theorem Path.endsIn_join : EndsIn name (join dir name) := by
  unfold join
  split
  · exact .inl rfl
  · exact .inr ⟨_, toList_slash _ _⟩

theorem Path.EndsIn.below (h : EndsIn name path) (dir : String) : EndsIn name (below dir path) := by
  unfold Path.below
  split
  · exact h
  rcases h with rfl | ⟨before, hp⟩
  · unfold separator
    split
    · next hsep =>
      rw [String.append_empty]
      rcases hsep with rfl | hlast
      · rw [String.empty_append]
        exact .inl rfl
      · obtain ⟨before, hdir⟩ := List.getLast?_eq_some_iff.1 hlast
        refine .inr ⟨before, ?_⟩
        rw [String.toList_append, hdir, List.append_assoc]
        rfl
    · exact .inr ⟨_, toList_slash _ _⟩
  · refine .inr ⟨(dir ++ separator dir).toList ++ before, ?_⟩
    rw [String.toList_append, hp, List.append_assoc]

theorem Step.ofSegment_name (hn : Path.IsName name) :
    Step.ofSegment (.text name) = .down (.text name) := by
  simp only [ofSegment, Octets.text.injEq, hn.ne_empty, hn.ne_dot, hn.ne_dots, if_false]

theorem Route.getLast?_steps {path : Octets} {before : List Step} {step : Step}
    (h : path.segments.map Step.ofSegment = before ++ [step]) (hs : step ≠ .slash) :
    (ofPath path).steps.getLast? = some step := by
  unfold ofPath
  rw [h]
  cases before with
  | nil =>
    rw [List.nil_append]
    split
    · next heq => exact absurd (List.cons.inj heq).1 hs
    · next heq => exact absurd (List.cons.inj heq).1 hs
    · rfl
  | cons first before =>
    split
    · next heq => exact absurd (List.cons.inj heq).2 (List.append_ne_nil_of_right_ne_nil _ nofun)
    · next heq =>
      rw [← (List.cons.inj heq).2]
      exact List.getLast?_concat
    · exact List.getLast?_concat

theorem Path.EndsIn.getLast?_steps (h : EndsIn name path) (hn : IsName name) :
    (Route.ofPath (.text path)).steps.getLast? = some (.down (.text name)) := by
  have hname : name.toList.splitOn '/' = [name.toList] := List.splitOn_eq_singleton hn.noSlash
  have hlast : ∃ before, path.toList.splitOn '/' = before ++ [name.toList] := by
    rcases h with rfl | ⟨before, hp⟩
    · exact ⟨[], hname⟩
    · rw [hp, List.splitOn_append_cons_self, hname]
      exact ⟨_, rfl⟩
  obtain ⟨before, hlast⟩ := hlast
  apply Route.getLast?_steps
  · rw [Octets.segments, hlast, List.map_append, List.map_append, List.map_singleton,
      List.map_singleton, String.ofList_toList, Step.ofSegment_name hn]
  · intro h
    cases h

namespace Filesystem

variable {fs : Filesystem} {p q : Place} {r : Route} {n : Octets} {c : Octets}

theorem TakesFile.of_noLinks (hl : fs.NoLinks) (hs : r.steps.getLast? = some (.down n))
    (h : fs.locate .create r = .ok p) (hopen : fs.openFault? p = none) :
    fs.TakesFile p ∧ ∃ d, p = n :: d := by
  obtain ⟨hd, hsocket⟩ := openFault?_eq_none.1 hopen
  obtain ⟨-, k, -, hleads⟩ := locate_eq_ok.1 h
  obtain ⟨d, rfl, hshort⟩ := hleads.end_of_noLinks hl hs
  refine ⟨⟨?_, fun hn => ⟨n, d, rfl, hshort hn⟩⟩, d, rfl⟩
  cases hn : fs.node? (n :: d) with
  | none => exact .inl rfl
  | some node =>
    cases node with
    | directory => exact absurd hn hd
    | file c => exact .inr ⟨c, rfl⟩
    | link target => exact absurd hn (hl _ _)
    | socket => exact absurd hn hsocket

theorem writeText_of_noLinks {fs' : Filesystem} {text : String} (hl : fs.NoLinks)
    (hname : Path.IsName name) (hends : Path.EndsIn name path)
    (h : fs.writeText path text = .ok fs') :
    ∃ d, fs.locatePath .create (.text path) = .ok (.text name :: d) ∧
      fs.TakesFile (.text name :: d) ∧ fs' = fs.put (.text name :: d) (.file (.text text)) := by
  obtain ⟨p, hp, hopen, rfl⟩ := write_eq_ok.1 h
  have hlocate := (locatePath_eq_ok.1 hp).2
  obtain ⟨htakes, d, rfl⟩ := TakesFile.of_noLinks hl (hends.getLast?_steps hname) hlocate hopen
  exact ⟨d, hp, htakes, rfl⟩

theorem found?_put_ne (hl : fs.NoLinks) (hp : fs.TakesFile p)
    (hs : r.steps.getLast? = some (.down n)) (hne : p.head? ≠ some n) :
    (fs.put p (.file c)).found? r = fs.found? r := by
  have hend {fs : Filesystem} {purpose : Purpose} {q : Place} (hl : fs.NoLinks)
      (h : fs.locate purpose r = .ok q) : q ≠ p := by
    obtain ⟨-, k, -, hleads⟩ := locate_eq_ok.1 h
    obtain ⟨d, rfl, -⟩ := hleads.end_of_noLinks hl hs
    intro heq
    subst heq
    exact hne rfl
  apply Option.ext
  intro node
  rw [found?_eq_some, found?_eq_some]
  apply Iff.intro
  · intro h
    obtain ⟨q, hq, hn⟩ := h
    have hqp := hend (hp.noLinks_put hl) hq
    rw [hp.node?_put_ne hqp] at hn
    rcases hp.locate_find_put.1 hq with hq | ⟨-, hq, -⟩
    · exact ⟨q, hq, hn⟩
    · exact absurd hq hqp
  · intro h
    obtain ⟨q, hq, hn⟩ := h
    exact ⟨q, hp.locate_put hq, (hp.node?_put_ne (hend hl hq)).trans hn⟩

end Filesystem

end AnalyzerConfig
