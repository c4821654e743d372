import AnalyzerConfig.Json.Basic
import AnalyzerConfig.Text.Reader

namespace AnalyzerConfig.Json

open Text

def isSpace (c : Char) : Bool := c == ' ' || c == '\t' || c == '\n' || c == '\r'

def skipSpace (cs : List Char) : List Char := cs.dropWhile isSpace

def fourHex? (a b c d : Char) : Option Nat :=
  let ds := [a, b, c, d]
  if ds.all isHexDigit then some (number 16 ds) else none

/-- The character that one unit of 16 bits is. Half of a pair is none. -/
def unit? (n : Nat) : Option Char := if n.isValidChar then some (Char.ofNat n) else none

/-- The character that two units of 16 bits are together. -/
def pair? (high low : Nat) : Option Char :=
  if 0xD800 ≤ high ∧ high < 0xDC00 ∧ 0xDC00 ≤ low ∧ low < 0xE000 then
    some (Char.ofNat (0x10000 + (high - 0xD800) * 0x400 + (low - 0xDC00)))
  else none

def escaped? : Char → Option Char
  | '"' => some '"'
  | '\\' => some '\\'
  | '/' => some '/'
  | 'b' => some '\x08'
  | 'f' => some '\x0c'
  | 'n' => some '\n'
  | 'r' => some '\r'
  | 't' => some '\t'
  | _ => none

/-- A string and the text behind it. -/
abbrev StringBody := Option (List Char × List Char)

def StringBody.cons (c : Char) (b : StringBody) : StringBody :=
  b.map fun (s, rest) => (c :: s, rest)

/-- Reads a string from behind its opening quote. -/
def readString : List Char → StringBody
  | '"' :: rest => some ([], rest)
  | '\\' :: 'u' :: a :: b :: c :: d :: '\\' :: 'u' :: e :: f :: g :: h :: rest => do
    let high ← fourHex? a b c d
    match unit? high with
    | some x => (readString ('\\' :: 'u' :: e :: f :: g :: h :: rest)).cons x
    | none => (readString rest).cons (← pair? high (← fourHex? e f g h))
  | '\\' :: 'u' :: a :: b :: c :: d :: rest => do
    (readString rest).cons (← unit? (← fourHex? a b c d))
  | '\\' :: c :: rest => do (readString rest).cons (← escaped? c)
  | c :: rest => if 0x20 ≤ c.toNat ∧ c ≠ '\\' then (readString rest).cons c else none
  | [] => none

def readDigits (cs : List Char) : Option (Nat × List Char) :=
  let ds := cs.takeWhile Char.isDigit
  let rest := cs.dropWhile Char.isDigit
  let fractional := match rest with
    | c :: _ => c == '.' || c == 'e' || c == 'E'
    | [] => false
  match ds with
  | [] => none
  | '0' :: _ :: _ => none
  | _ => if fractional then none else some (number 10 ds, rest)

def readInt : List Char → Option (Int × List Char)
  | '-' :: cs => (readDigits cs).map fun (n, rest) => (-(n : Int), rest)
  | cs => (readDigits cs).map fun (n, rest) => ((n : Int), rest)

def readScalar : List Char → Option (Doc × List Char)
  | '"' :: rest => (readString rest).map fun (s, rest) => (.str (String.ofList s), rest)
  | 'n' :: 'u' :: 'l' :: 'l' :: rest => some (.null, rest)
  | 't' :: 'r' :: 'u' :: 'e' :: rest => some (.bool true, rest)
  | 'f' :: 'a' :: 'l' :: 's' :: 'e' :: rest => some (.bool false, rest)
  | cs => (readInt cs).map fun (n, rest) => (.num n, rest)

mutual

/-- Reads a document behind optional blanks. The fuel bounds the depth of the recursion. -/
def readDoc : Nat → List Char → Option (Doc × List Char)
  | 0, _ => none
  | fuel + 1, cs =>
    match skipSpace cs with
    | '[' :: rest =>
      match skipSpace rest with
      | ']' :: rest => some (.arr [], rest)
      | _ => (readItems fuel rest).map fun (ds, rest) => (.arr ds, rest)
    | '\x7b' :: rest =>
      match skipSpace rest with
      | '\x7d' :: rest => some (.obj [], rest)
      | _ => (readMembers fuel rest).map fun (ms, rest) => (.obj ms, rest)
    | cs => readScalar cs

def readItems : Nat → List Char → Option (List Doc × List Char)
  | 0, _ => none
  | fuel + 1, cs => do
    let (d, rest) ← readDoc fuel cs
    match skipSpace rest with
    | ']' :: rest => return ([d], rest)
    | ',' :: rest =>
      let (ds, rest) ← readItems fuel rest
      return (d :: ds, rest)
    | _ => none

def readMembers : Nat → List Char → Option (List (String × Doc) × List Char)
  | 0, _ => none
  | fuel + 1, cs => do
    match skipSpace cs with
    | '"' :: rest =>
      let (k, rest) ← readString rest
      match skipSpace rest with
      | ':' :: rest =>
        let (d, rest) ← readDoc fuel rest
        match skipSpace rest with
        | '\x7d' :: rest => return ([(String.ofList k, d)], rest)
        | ',' :: rest =>
          let (ms, rest) ← readMembers fuel rest
          return ((String.ofList k, d) :: ms, rest)
        | _ => none
      | _ => none
    | _ => none

end

/-- The document that a whole text is. -/
def read? (text : String) : Option Doc := do
  let cs := text.toList
  let (d, rest) ← readDoc (2 * cs.length + 2) cs
  if skipSpace rest = [] then some d else none

end AnalyzerConfig.Json
