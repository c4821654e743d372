import AnalyzerConfig.Proofs.Filesystem.Below
import AnalyzerConfig.Proofs.Octets.Bytes

namespace AnalyzerConfig

variable {fs : Filesystem} {purpose : Purpose} {p q : Place} {r : Route} {root path : String}
variable {c : Octets} {n : Octets}

namespace Filesystem

theorem isShort_text (s : String) : isShort (.text s) ↔ s.utf8ByteSize ≤ maxPathLength := by
  rw [isShort, Octets.length_bytes_text, decide_eq_true_iff]

/-- Nothing that a route leads to lies behind more links than a path may lead through. -/
def FewLinks (fs : Filesystem) (r : Route) : Prop :=
  ∀ purpose k q, Leads fs purpose k (fs.start r) r.steps q → k ≤ maxLinks

theorem FewLinks.locate_eq_ok (h : fs.FewLinks r) (hr : r.steps ≠ []) :
    fs.locate purpose r = .ok q ↔ ∃ k, Leads fs purpose k (fs.start r) r.steps q := by
  rw [Filesystem.locate_eq_ok]
  apply Iff.intro
  · rintro ⟨-, k, -, hl⟩
    exact ⟨k, hl⟩
  · rintro ⟨k, hl⟩
    exact ⟨hr, k, h purpose k q hl, hl⟩

theorem FewLinks.put (hp : fs.TakesFile p) (h : fs.FewLinks r) :
    (fs.put p (.file c)).FewLinks r := by
  intro purpose k q hl
  cases purpose with
  | find =>
    rcases hp.leads_of_put hl with hl | ⟨-, -, hl⟩
    · exact h _ k q hl
    · exact h _ k p hl
  | create => exact h _ k q (hp.leads_create_of_put hl)

theorem Leads.eq_zero_of_noLinks {k : Nat} {steps : List Step} (hl : fs.NoLinks)
    (h : Leads fs purpose k p steps q) : k = 0 := by
  induction h with
  | done => rfl
  | stay _ _ _ ih => exact ih
  | up _ _ ih => exact ih
  | down _ _ _ _ _ ih => exact ih
  | link _ _ hn _ _ => exact absurd hn (hl _ _)
  | fresh _ _ _ _ => rfl

theorem NoLinks.fewLinks (hl : fs.NoLinks) (r : Route) : fs.FewLinks r := by
  intro purpose k q h
  rw [h.eq_zero_of_noLinks hl]
  exact Nat.zero_le maxLinks

theorem RootAt.locate_below (h : fs.RootAt root p) (hpath : Path.isAbsolute path = false)
    (hs : IsNamed purpose (Path.steps path))
    (hfew : fs.FewLinks (Route.ofPath (.text (Path.below root path)))) :
    fs.locate purpose (Route.ofPath (.text (Path.below root path))) = .ok q ↔
      ∃ k, Leads fs purpose k p (Path.steps path) q := by
  rw [Route.ofPath_below h.ne_empty hpath] at hfew ⊢
  rw [hfew.locate_eq_ok (List.append_ne_nil_of_right_ne_nil _ (Path.steps_ne_nil path))]
  exact h.leads_iff hs

theorem RootAt.locate_entry (h : fs.RootAt root p) (hpath : Path.isAbsolute path = false)
    (hfew : fs.FewLinks ((Route.ofPath (.text (Path.below root path))).entry n)) :
    fs.locate .find ((Route.ofPath (.text (Path.below root path))).entry n) = .ok q ↔
      ∃ k, Leads fs .find k p (Path.steps path ++ [.down n]) q := by
  rw [Route.ofPath_below h.ne_empty hpath, Route.entry, List.append_assoc] at hfew ⊢
  rw [hfew.locate_eq_ok (by simp)]
  exact h.leads_iff .find

theorem Leads.of_stays {steps : List Step} (hd : fs.node? p = some .directory)
    (hs : ∀ step ∈ steps, step = .slash ∨ step = .here) : Leads fs purpose 0 p steps p := by
  induction steps with
  | nil => exact .done
  | cons step steps ih =>
    exact .stay hd (hs step List.mem_cons_self) (ih fun s h => hs s (List.mem_cons_of_mem step h))

theorem rootAt_padded {n : Nat} (hd : fs.node? fs.workingDir = some .directory)
    (hn : n < maxPathLength) : fs.RootAt (Path.padded n) fs.workingDir where
  located := by
    have hne : Path.padded n ≠ "" := by
      rintro h
      have hsize := Path.utf8ByteSize_padded n
      rw [h] at hsize
      cases hsize
    have hsteps : Path.steps (Path.padded n) = .here :: List.replicate n .slash := by
      rw [Path.steps, Path.segments_padded, List.map_cons, List.map_replicate]
      rfl
    rw [locatePath_eq_ok, isShort_text, Path.utf8ByteSize_padded, locate_eq_ok,
      Route.ofPath_text hne, Path.isAbsolute_padded, hsteps]
    refine ⟨hn, List.cons_ne_nil _ _, 0, Nat.zero_le maxLinks, .of_stays hd ?_⟩
    intro step hstep
    rcases List.mem_cons.1 hstep with rfl | hstep
    · exact .inr rfl
    · exact .inl (List.eq_of_mem_replicate hstep)
  directory := hd

end Filesystem

end AnalyzerConfig
