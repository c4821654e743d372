namespace AnalyzerConfig

/-- A flag, such as `-D`, with the values that it is given, one option each. -/
structure OptionGroup where
  flag : String
  values : List String
deriving DecidableEq

namespace OptionGroup

def tokens (g : OptionGroup) : List String := g.values.map (g.flag ++ ·)

/-- All options in their order, with one space between neighbours. Nothing is quoted, so a value
with a space in it reads as two. -/
def line (groups : List OptionGroup) : String := " ".intercalate (groups.flatMap tokens)

end OptionGroup

end AnalyzerConfig
