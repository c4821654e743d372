import AnalyzerConfig.Toml.Lexical

namespace AnalyzerConfig.Toml

open Text

/-- What has been read of a string, and the text behind it. -/
abbrev Body := Option (List Char × List Char)

def Body.cons (c : Char) (b : Body) : Body := b.map fun (s, rest) => (c :: s, rest)

def escaped (c : Char) : Option Char :=
  match c with
  | 'b' => some '\x08'
  | 't' => some '\t'
  | 'n' => some '\n'
  | 'f' => some '\x0c'
  | 'r' => some '\r'
  | 'e' => some '\x1b'
  | '"' => some '"'
  | '\\' => some '\\'
  | _ => none

def numbered (digits : List Char) : Option Char :=
  let n := number 16 digits
  if digits.all isHexDigit ∧ n.isValidChar then some (Char.ofNat n) else none

def basicLine : List Char → Body
  | '"' :: rest => some ([], rest)
  | '\\' :: 'x' :: a :: b :: rest => do (basicLine rest).cons (← numbered [a, b])
  | '\\' :: 'u' :: a :: b :: c :: d :: rest => do
    (basicLine rest).cons (← numbered [a, b, c, d])
  | '\\' :: 'U' :: a :: b :: c :: d :: e :: f :: g :: h :: rest => do
    (basicLine rest).cons (← numbered [a, b, c, d, e, f, g, h])
  | '\\' :: c :: rest => do (basicLine rest).cons (← escaped c)
  | c :: rest => if isPrintable c ∧ c ≠ '\\' then (basicLine rest).cons c else none
  | [] => none

def literalLine : List Char → Body
  | '\'' :: rest => some ([], rest)
  | c :: rest => if isPrintable c then (literalLine rest).cons c else none
  | [] => none

def endsLine (cs : List Char) : Bool :=
  match cs.dropWhile isBlank with
  | '\n' :: _ | '\r' :: '\n' :: _ => true
  | _ => false

/-- A basic string of several lines. A backslash at the end of a line takes out the line break and
all blanks and line breaks after it; `joining` says that the text lies behind such a backslash. Up
to two quotes may stand before the closing ones. -/
def basicLines (joining : Bool) : List Char → Body
  | '"' :: '"' :: '"' :: '"' :: '"' :: rest => some (['"', '"'], rest)
  | '"' :: '"' :: '"' :: '"' :: rest => some (['"'], rest)
  | '"' :: '"' :: '"' :: rest => some ([], rest)
  | '\\' :: 'x' :: a :: b :: rest => do (basicLines false rest).cons (← numbered [a, b])
  | '\\' :: 'u' :: a :: b :: c :: d :: rest => do
    (basicLines false rest).cons (← numbered [a, b, c, d])
  | '\\' :: 'U' :: a :: b :: c :: d :: e :: f :: g :: h :: rest => do
    (basicLines false rest).cons (← numbered [a, b, c, d, e, f, g, h])
  | '\\' :: c :: rest =>
    if endsLine (c :: rest) then basicLines true (c :: rest)
    else do (basicLines false rest).cons (← escaped c)
  | '\r' :: '\n' :: rest =>
    if joining then basicLines true rest else ((basicLines false rest).cons '\n').cons '\r'
  | '\n' :: rest => if joining then basicLines true rest else (basicLines false rest).cons '\n'
  | c :: rest =>
    if joining ∧ isBlank c then basicLines true rest
    else if isPrintable c ∧ c ≠ '\\' then (basicLines false rest).cons c
    else none
  | [] => none

def literalLines : List Char → Body
  | '\'' :: '\'' :: '\'' :: '\'' :: '\'' :: rest => some (['\'', '\''], rest)
  | '\'' :: '\'' :: '\'' :: '\'' :: rest => some (['\''], rest)
  | '\'' :: '\'' :: '\'' :: rest => some ([], rest)
  | '\r' :: '\n' :: rest => ((literalLines rest).cons '\n').cons '\r'
  | '\n' :: rest => (literalLines rest).cons '\n'
  | c :: rest => if isPrintable c then (literalLines rest).cons c else none
  | [] => none

/-- Leaves out a line break right behind the opening quotes. -/
def dropFirstBreak : List Char → List Char
  | '\n' :: rest | '\r' :: '\n' :: rest => rest
  | cs => cs

/-- A string on one line, as a key can be. -/
def readLineString : Reader String := fun
  | '"' :: rest => (basicLine rest).map fun (s, rest) => (String.ofList s, rest)
  | '\'' :: rest => (literalLine rest).map fun (s, rest) => (String.ofList s, rest)
  | _ => none

def readString : Reader String := fun
  | '"' :: '"' :: '"' :: rest =>
    (basicLines false (dropFirstBreak rest)).map fun (s, rest) => (String.ofList s, rest)
  | '\'' :: '\'' :: '\'' :: rest =>
    (literalLines (dropFirstBreak rest)).map fun (s, rest) => (String.ofList s, rest)
  | cs => readLineString cs

end AnalyzerConfig.Toml
