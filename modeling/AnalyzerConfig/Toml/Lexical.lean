import AnalyzerConfig.Text.Reader
import AnalyzerConfig.Toml.Basic

namespace AnalyzerConfig.Toml

open Text

def isBlank (c : Char) : Bool := c == ' ' || c == '\t'

/-- Whether a character may stand in a comment or a string. Of the control characters only the tab
may. -/
def isPrintable (c : Char) : Bool := c == '\t' || (0x20 ≤ c.toNat && c.toNat != 0x7F)

def readBlanks : Reader Unit := discard (Reader.run isBlank)

/-- Reads a comment, if there is one, up to the end of its line. -/
def readComment : Reader Unit := do
  if (← Reader.peek?) = some '#' then discard (Reader.run isPrintable)

/-- Reads a line break, which the end of the text can stand for. -/
def readLineBreak : Reader Unit := fun
  | [] => some ((), [])
  | '\n' :: rest | '\r' :: '\n' :: rest => some ((), rest)
  | _ => none

def readLineEnd : Reader Unit := do
  readBlanks
  readComment
  readLineBreak

/-- Skips blanks, comments and line breaks, from inside or outside a comment. -/
def skipLines (inComment : Bool) : List Char → Option (List Char)
  | [] => some []
  | '\n' :: rest | '\r' :: '\n' :: rest => skipLines false rest
  | c :: rest =>
    if inComment then (if isPrintable c then skipLines true rest else none)
    else if isBlank c then skipLines false rest
    else if c = '#' then skipLines true rest
    else some (c :: rest)

def readSpace : Reader Unit := fun cs => (skipLines false cs).map fun rest => ((), rest)

end AnalyzerConfig.Toml
