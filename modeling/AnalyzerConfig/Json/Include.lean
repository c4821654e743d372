import AnalyzerConfig.Json.Printer

namespace AnalyzerConfig.Json

def afterUnderscores : List Char → Option (List Char)
  | '_' :: rest => some (rest.dropWhile (· == '_'))
  | _ => none

/-- The placeholder key `include_` at the start of a text, with what comes after its colon. -/
def afterPlaceholder (cs : List Char) : Option (List Char) := do
  let rest ← "\"include".toList.isPrefixOf? cs
  let rest ← afterUnderscores rest
  "\":".toList.isPrefixOf? rest

/-- A line that begins, after its spaces, with a placeholder key loses the underscores. -/
def foldLine (line : List Char) : List Char :=
  match afterPlaceholder (line.dropWhile (· == ' ')) with
  | some rest => line.takeWhile (· == ' ') ++ "\"include\":".toList ++ rest
  | none => line

def foldText (text : List Char) : List Char :=
  ['\n'].intercalate ((text.splitOn '\n').map foldLine)

/-- The text of a configuration file. -/
def render (d : Doc) : String :=
  String.ofList (foldText (print 0 d) ++ ['\n'])

/-- The key that a placeholder key stands for; every other key stands for itself. -/
def foldKey (k : String) : String :=
  match "include".toList.isPrefixOf? k.toList with
  | some rest => if rest ≠ [] ∧ rest.all (· == '_') then "include" else k
  | none => k

end AnalyzerConfig.Json
