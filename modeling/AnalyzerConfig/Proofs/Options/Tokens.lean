import AnalyzerConfig.CompilerOptions
import AnalyzerConfig.Proofs.Text.Splitting

namespace AnalyzerConfig.OptionGroup

/-- A line without options is empty. The line of some options, split at each space, is each of them
split by itself, and so gives the options back if and only if no option has a space in it. -/
theorem parts_line (groups : List OptionGroup) :
    let options := groups.flatMap fun g => g.values.map fun v => g.flag ++ v
    (options = [] → line groups = "") ∧
    (options ≠ [] →
      Text.parts ' ' (line groups) = options.flatMap (Text.parts ' ') ∧
      (Text.parts ' ' (line groups) = options ↔ ∀ option ∈ options, ' ' ∉ option.toList)) := by
  intro options
  have hline : line groups = (String.singleton ' ').intercalate options := rfl
  apply And.intro
  · intro hnone
    rw [hline, hnone, String.intercalate_nil]
  · intro hsome
    rw [hline]
    exact ⟨Text.parts_intercalate ' ' hsome, Text.parts_intercalate_eq_iff hsome⟩

/-- A value with a space in it makes two options out of one, and a flag without values none. -/
example : Text.parts ' ' (line [⟨"-D", ["A", "B=1 2"]⟩, ⟨"-U", []⟩]) = ["-DA", "-DB=1", "2"] := by
  decide

end AnalyzerConfig.OptionGroup
