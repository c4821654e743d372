namespace AnalyzerConfig.Text

/-- Reads something at the start of a text and leaves the rest of it. -/
abbrev Reader := StateT (List Char) Option

namespace Reader

def peek? : Reader (Option Char) := fun cs => some (cs.head?, cs)

def exactly (text : List Char) : Reader Unit := fun cs =>
  (text.isPrefixOf? cs).map fun rest => ((), rest)

/-- Reads the longest run of characters of which `p` holds. -/
def run (p : Char → Bool) : Reader (List Char) := fun cs =>
  some (cs.takeWhile p, cs.dropWhile p)

end Reader

def isHexDigit (c : Char) : Bool :=
  c.isDigit || ('a' ≤ c && c ≤ 'f') || ('A' ≤ c && c ≤ 'F')

/-- The value of a digit in any base up to 16. -/
def digitValue (c : Char) : Nat :=
  if c.isDigit then c.toNat - '0'.toNat
  else if 'a' ≤ c then c.toNat - 'a'.toNat + 10
  else c.toNat - 'A'.toNat + 10

def number (base : Nat) (digits : List Char) : Nat :=
  digits.foldl (fun n c => n * base + digitValue c) 0

end AnalyzerConfig.Text
