import AnalyzerConfig.Json.Basic

namespace AnalyzerConfig.Json

def fourHex (n : Nat) : List Char :=
  [n / 4096, n / 256, n / 16, n].map fun d => Nat.digitChar (d % 16)

/-- A character inside a string. Quotes, backslashes and everything below the space are escaped,
with the short form where there is one. -/
def escapeChar (c : Char) : List Char :=
  if c = '"' then ['\\', '"']
  else if c = '\\' then ['\\', '\\']
  else if c = '\x08' then ['\\', 'b']
  else if c = '\x0c' then ['\\', 'f']
  else if c = '\n' then ['\\', 'n']
  else if c = '\r' then ['\\', 'r']
  else if c = '\t' then ['\\', 't']
  else if c.toNat < 0x20 then '\\' :: 'u' :: fourHex c.toNat
  else [c]

def printString (s : String) : List Char :=
  '"' :: s.toList.flatMap escapeChar ++ ['"']

def printInt (n : Int) : List Char :=
  (if n < 0 then ['-'] else []) ++ Nat.toDigits 10 n.natAbs

def indent (depth : Nat) : List Char := List.replicate (4 * depth) ' '

mutual

/-- The text of a document that stands at the given depth, from its first character on. -/
def print (depth : Nat) : Doc → List Char
  | .null => ['n', 'u', 'l', 'l']
  | .bool true => ['t', 'r', 'u', 'e']
  | .bool false => ['f', 'a', 'l', 's', 'e']
  | .num n => printInt n
  | .str s => printString s
  | .arr [] => ['[', ']']
  | .arr (d :: ds) =>
    '[' :: '\n' :: indent (depth + 1) ++ print (depth + 1) d ++ printItems (depth + 1) ds
      ++ '\n' :: indent depth ++ [']']
  | .obj [] => ['\x7b', '\x7d']
  | .obj ((k, d) :: ms) =>
    '\x7b' :: '\n' :: indent (depth + 1) ++ printString k ++ [':', ' '] ++ print (depth + 1) d
      ++ printMembers (depth + 1) ms ++ '\n' :: indent depth ++ ['\x7d']

/-- The items after the first. -/
def printItems (depth : Nat) : List Doc → List Char
  | [] => []
  | d :: ds => ',' :: '\n' :: indent depth ++ print depth d ++ printItems depth ds

def printMembers (depth : Nat) : List (String × Doc) → List Char
  | [] => []
  | (k, d) :: ms =>
    ',' :: '\n' :: indent depth ++ printString k ++ [':', ' '] ++ print depth d
      ++ printMembers depth ms

end

end AnalyzerConfig.Json
