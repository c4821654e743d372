import AnalyzerConfig.Toml.Lexical

namespace AnalyzerConfig.Toml

open Text

/-- The digits between underscores, of which each has a digit on both sides. -/
def digitsOf? (isDigit : Char → Bool) (cs : List Char) : Option (List Char) :=
  let groups := cs.splitOn '_'
  if groups.all fun g => !g.isEmpty && g.all isDigit then some groups.flatten else none

/-- Decimal digits of which the first is no idle zero. -/
def decimal? (cs : List Char) : Option (List Char) := do
  let digits ← digitsOf? Char.isDigit cs
  match digits with
  | '0' :: _ :: _ => none
  | _ => some digits

/-- What is left after a sign, and whether it is a minus sign. -/
def unsigned : List Char → Bool × List Char
  | '-' :: cs => (true, cs)
  | '+' :: cs => (false, cs)
  | cs => (false, cs)

/-- An integer in the range of signed words of 64 bits. Only decimal ones have a sign. -/
def integer? (cs : List Char) : Option Int := do
  let n ← match cs with
    | '0' :: 'x' :: ds => (digitsOf? isHexDigit ds).map fun ds => Int.ofNat (number 16 ds)
    | '0' :: 'o' :: ds =>
      (digitsOf? (fun c => '0' ≤ c && c ≤ '7') ds).map fun ds => Int.ofNat (number 8 ds)
    | '0' :: 'b' :: ds =>
      (digitsOf? (fun c => c == '0' || c == '1') ds).map fun ds => Int.ofNat (number 2 ds)
    | _ =>
      let (negative, ds) := unsigned cs
      (decimal? ds).map fun ds => if negative then -(number 10 ds : Int) else number 10 ds
  if -9223372036854775808 ≤ n ∧ n ≤ 9223372036854775807 then some n else none

def isExponent (cs : List Char) : Bool := (digitsOf? Char.isDigit (unsigned cs).2).isSome

def isFraction (cs : List Char) : Bool :=
  match cs.splitOnP (fun c => c == 'e' || c == 'E') with
  | [ds] => (digitsOf? Char.isDigit ds).isSome
  | [ds, ex] => (digitsOf? Char.isDigit ds).isSome && isExponent ex
  | _ => false

def isFloat (cs : List Char) : Bool :=
  let body := (unsigned cs).2
  if body = "inf".toList ∨ body = "nan".toList then true
  else
    match body.splitOn '.' with
    | [whole, fraction] => (decimal? whole).isSome && isFraction fraction
    | [_] =>
      match body.splitOnP (fun c => c == 'e' || c == 'E') with
      | [whole, ex] => (decimal? whole).isSome && isExponent ex
      | _ => false
    | _ => false

def fixed? (n : Nat) (cs : List Char) : Option Nat :=
  if cs.length = n ∧ cs.all Char.isDigit then some (number 10 cs) else none

def isLeapYear (y : Nat) : Bool := (y % 4 == 0 && y % 100 != 0) || y % 400 == 0

def daysIn (year month : Nat) : Nat :=
  if month = 2 then (if isLeapYear year then 29 else 28)
  else if month = 4 ∨ month = 6 ∨ month = 9 ∨ month = 11 then 30
  else 31

def isDate (cs : List Char) : Bool :=
  match cs.splitOn '-' with
  | [y, m, d] =>
    match fixed? 4 y, fixed? 2 m, fixed? 2 d with
    | some y, some m, some d => 1 ≤ m && m ≤ 12 && 1 ≤ d && d ≤ daysIn y m
    | _, _, _ => false
  | _ => false

def isSecond (cs : List Char) : Bool :=
  let upTo60 (s : List Char) := (fixed? 2 s).any (· ≤ 60)
  match cs.splitOn '.' with
  | [s] => upTo60 s
  | [s, fraction] => upTo60 s && !fraction.isEmpty && fraction.all Char.isDigit
  | _ => false

def isClock (cs : List Char) : Bool :=
  let hour (h : List Char) := (fixed? 2 h).any (· ≤ 23)
  let minute (m : List Char) := (fixed? 2 m).any (· ≤ 59)
  match cs.splitOn ':' with
  | [h, m] => hour h && minute m
  | [h, m, s] => hour h && minute m && isSecond s
  | _ => false

def isZonedClock (cs : List Char) : Bool :=
  match cs.getLast? with
  | some 'Z' | some 'z' => isClock cs.dropLast
  | _ =>
    match cs.splitOnP (fun c => c == '+' || c == '-') with
    | [clock] => isClock clock
    | [clock, offset] => isClock clock && offset.length == 5 && isClock offset
    | _ => false

/-- A date, a clock time, or both with a `T` or a blank between them. -/
def isTime (cs : List Char) : Bool :=
  let date := cs.take 10
  match cs.drop 10 with
  | [] => isDate cs || isClock cs
  | c :: clock =>
    (isDate date && (c == 'T' || c == 't' || c == ' ') && isZonedClock clock) || isClock cs

def scalar? (word : List Char) : Option Value :=
  if word = "true".toList then some (.boolean true)
  else if word = "false".toList then some (.boolean false)
  else
    match integer? word with
    | some n => some (.integer n)
    | none =>
      if isFloat word then some (.float (String.ofList word))
      else if isTime word then some (.time (String.ofList word))
      else none

def isWordChar (c : Char) : Bool :=
  c.isAlphanum || c == '_' || c == '-' || c == '+' || c == '.' || c == ':'

/-- A bare word as a value. A blank between a date and a clock time belongs to the word. -/
def readScalar : Reader Value := do
  let word ← Reader.run isWordChar
  let rest ← get
  match isDate word, rest with
  | true, ' ' :: c :: _ =>
    if c.isDigit then
      Reader.exactly [' ']
      let clock ← Reader.run isWordChar
      scalar? (word ++ ' ' :: clock)
    else
      scalar? word
  | _, _ => scalar? word

end AnalyzerConfig.Toml
