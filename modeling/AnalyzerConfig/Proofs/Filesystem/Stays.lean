import AnalyzerConfig.Proofs.Filesystem.Below

namespace AnalyzerConfig

variable {fs : Filesystem} {k : Nat} {p q : Place} {n : Octets} {steps : List Step}
variable {root dir : String}

/-- Whether a step leads away from where it starts. -/
def Step.moves : Step → Bool
  | .slash | .here => false
  | .up | .down _ => true

theorem Step.moves_ofSegment (s : String) : (ofSegment (.text s)).moves = Path.isNaming s := by
  by_cases hempty : s = ""
  · subst hempty
    rfl
  by_cases hdot : s = "."
  · subst hdot
    rfl
  have hnaming : Path.isNaming s = true := by simp [Path.isNaming, hempty, hdot]
  rw [hnaming]
  simp only [ofSegment, Octets.text.injEq, hempty, hdot, if_false]
  split <;> rfl

namespace Filesystem

theorem Leads.directory_of_cons {step : Step} (h : Leads fs .find k p (step :: steps) q) :
    fs.node? p = some .directory := by
  cases h with
  | stay hd | up hd | down hd | link hd | fresh hd => exact hd

/-- A step that stays is no step, if another one comes behind it. -/
theorem leads_cons_stay {step : Step} (hstep : step = .slash ∨ step = .here) (hs : steps ≠ []) :
    Leads fs .find k p (step :: steps) q ↔ Leads fs .find k p steps q := by
  apply Iff.intro
  · intro h
    cases h with
    | stay _ _ h => exact h
    | up | down | link | fresh => rcases hstep with h | h <;> cases h
  · intro h
    obtain ⟨first, rest, rfl⟩ := List.exists_cons_of_ne_nil hs
    exact .stay h.directory_of_cons hstep h

theorem leads_cons {step : Step} :
    Leads fs .find k p (step :: steps) q ↔
      ∃ k₁ k₂ m, k₁ + k₂ = k ∧ Leads fs .find k₁ p [step] m ∧ Leads fs .find k₂ m steps q := by
  apply Iff.intro
  · intro h
    have h : Leads fs .find k p ([step] ++ steps) q := h
    exact h.split .find
  · rintro ⟨k₁, k₂, m, rfl, h₁, h₂⟩
    exact h₁.append .find h₂

theorem leads_filter_moves {last : Step} :
    Leads fs .find k p (steps.filter Step.moves ++ [last]) q ↔
      Leads fs .find k p (steps ++ [last]) q := by
  induction steps generalizing k p with
  | nil => exact Iff.rfl
  | cons step steps ih =>
    -- a step that moves stays in both lists, any other one leads nowhere by itself
    by_cases hmoves : step.moves
    · rw [List.filter_cons_of_pos hmoves, List.cons_append, List.cons_append, leads_cons,
        leads_cons]
      simp only [ih]
    · have hstay : step = .slash ∨ step = .here := by
        cases step with
        | slash => exact .inl rfl
        | here => exact .inr rfl
        | up => exact absurd rfl hmoves
        | down n => exact absurd rfl hmoves
      rw [List.filter_cons_of_neg hmoves, ih, List.cons_append]
      exact (leads_cons_stay hstay (by simp)).symm

end Filesystem

theorem Path.steps_filter_moves (p : String) :
    (Path.steps p).filter Step.moves =
      (namingSegments p).map fun s => Step.ofSegment (.text s) := by
  rw [Path.steps, List.filter_map, namingSegments]
  congr 2
  funext s
  exact Step.moves_ofSegment s

end AnalyzerConfig
