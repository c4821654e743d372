import AnalyzerConfig.Octets
import AnalyzerConfig.Text.Unprintable

namespace AnalyzerConfig.Path

def hex (n : Nat) : List Char := Nat.toDigits 16 n

/-- A character inside quotes: escaped if it would end or disturb the line, and by its number if it
cannot be seen. -/
def quotedChar (c : Char) : List Char :=
  if c = '"' ∨ c = '\\' then ['\\', c]
  else if c = '\n' then ['\\', 'n']
  else if c = '\r' then ['\\', 'r']
  else if c = '\t' then ['\\', 't']
  else if c = '\x00' then ['\\', '0']
  else if Text.isUnprintable c then ['\\', 'u', '\x7b'] ++ hex c.toNat ++ ['\x7d']
  else [c]

/-- Two upper-case digits, for a byte that belongs to no character. -/
def quotedByte (b : UInt8) : List Char :=
  let digit (n : Nat) := (Nat.digitChar n).toUpper
  ['\\', 'x', digit (b.toNat / 16), digit (b.toNat % 16)]

def quotedPiece : Octets.Piece → List Char
  | .char c => quotedChar c
  | .broken bs => bs.flatMap quotedByte

def quotedPieces (ps : List Octets.Piece) : String :=
  String.ofList (['"'] ++ ps.flatMap quotedPiece ++ ['"'])

def quoted (p : String) : String := quotedPieces (Octets.text p).pieces

end AnalyzerConfig.Path
