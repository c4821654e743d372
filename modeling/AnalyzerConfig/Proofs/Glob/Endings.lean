import AnalyzerConfig.Glob.Matching
import AnalyzerConfig.Octets
import Mathlib.Data.List.Basic

namespace AnalyzerConfig.Glob

variable {cs : List Char} {name ending : Bytes} {lefts : List Bytes}

theorem mem_suffixes : ending ∈ suffixes name ↔ ending <:+ name := by
  induction name with
  | nil => simp [suffixes]
  | cons b bs ih => rw [suffixes, List.mem_cons, ih, List.suffix_cons_iff]

theorem isPrefixOf?_append (bs bs' left : Bytes) :
    (bs ++ bs').isPrefixOf? left = (bs.isPrefixOf? left).bind bs'.isPrefixOf? := by
  induction bs generalizing left with
  | nil => rfl
  | cons b bs ih =>
    cases left with
    | nil => rfl
    | cons b' left =>
      rw [List.cons_append, List.isPrefixOf?, List.isPrefixOf?]
      split
      · exact ih left
      · rfl

theorem after_literals (cs : List Char) (lefts : List Bytes) :
    after (cs.map .literal) lefts =
      lefts.filterMap (cs.flatMap String.utf8EncodeChar).isPrefixOf? := by
  induction cs generalizing lefts with
  | nil => exact List.filterMap_some.symm
  | cons c cs ih =>
    rw [List.map_cons, after, Token.after, ih, List.filterMap_filterMap, List.flatMap_cons]
    exact congrArg (List.filterMap · lefts) (funext fun left => (isPrefixOf?_append _ _ left).symm)

/-- A star before a text accepts the names that end in the text. -/
theorem accepts_star_literals :
    accepts (.many :: cs.map .literal) name ↔ cs.flatMap String.utf8EncodeChar <:+ name := by
  have haccepts : accepts (.many :: cs.map .literal) name =
      (after (cs.map .literal) (suffixes name)).contains [] := rfl
  rw [haccepts, after_literals, List.contains_iff_mem, List.mem_filterMap]
  simp only [List.isPrefixOf?_eq_some_iff_append_eq, List.append_nil, exists_eq_right',
    mem_suffixes]

end AnalyzerConfig.Glob
