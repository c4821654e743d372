import AnalyzerConfig.Glob.Parser

namespace AnalyzerConfig.Glob

abbrev Bytes := List UInt8

/-- What is left of some bytes after any number of them. -/
def suffixes : Bytes → List Bytes
  | [] => [[]]
  | b :: bs => (b :: bs) :: suffixes bs

/-- The closed intervals of bytes that a range of characters covers in a class. Characters beyond
ASCII are spelled by several bytes there, and only the bytes next to the hyphen form an interval. -/
def intervals (range : Char × Char) : List (UInt8 × UInt8) :=
  let single (b : UInt8) := (b, b)
  let first := String.utf8EncodeChar range.1
  let last := String.utf8EncodeChar range.2
  if range.1 = range.2 then first.map single
  else
    match first.getLast?, last.head? with
    | some lo, some hi => first.dropLast.map single ++ [(lo, hi)] ++ last.tail.map single
    | _, _ => []

def inClass (negated : Bool) (ranges : List (Char × Char)) (b : UInt8) : Bool :=
  (ranges.flatMap intervals).any (fun i => i.1 ≤ b && b ≤ i.2) != negated

def afterByte (p : UInt8 → Bool) : Bytes → Option Bytes
  | [] => none
  | b :: bs => if p b then some bs else none

def afterSlash : Bytes → Option Bytes := afterByte (· == 0x2F)

/-- What is left after any number of bytes. The ends of the longest end are those of all. -/
def afterMany : List Bytes → List Bytes
  | [] => []
  | longest :: _ => suffixes longest

/-- Puts an end among others, where `rest` merges the ends after it with what is left of them. -/
def mergeEnd (l : Bytes) (rest : List Bytes → List Bytes) : List Bytes → List Bytes
  | [] => l :: rest []
  | m :: ms =>
    if m.length < l.length then l :: rest (m :: ms)
    else if m.length = l.length then l :: rest ms
    else m :: mergeEnd l rest ms

def merge : List Bytes → List Bytes → List Bytes
  | [], ms => ms
  | l :: ls, ms => mergeEnd l (merge ls) ms

mutual

/-- Whether a pattern has nothing in it that a name would have to match. -/
def isVacuous : List Token → Bool
  | [] => true
  | t :: ts => t.isVacuous && isVacuous ts

def Token.isVacuous : Token → Bool
  | .alternatives branches => areVacuous branches
  | .literal _ | .any | .many | .leadingDirs | .trailingDirs | .innerDirs | .oneOf _ _ => false

def areVacuous : List (List Token) → Bool
  | [] => true
  | b :: bs => isVacuous b && areVacuous bs

end

mutual

/-- What may be left after a token, given what may be left before it. -/
def Token.after : Token → List Bytes → List Bytes
  | .literal c, lefts => lefts.filterMap (String.utf8EncodeChar c).isPrefixOf?
  | .any, lefts => lefts.filterMap (afterByte fun _ => true)
  | .many, lefts => afterMany lefts
  | .leadingDirs, lefts => merge lefts ((afterMany lefts).filterMap afterSlash)
  | .trailingDirs, lefts => afterMany (lefts.filterMap afterSlash)
  | .innerDirs, lefts =>
    let inner := lefts.filterMap afterSlash
    merge inner ((afterMany inner).filterMap afterSlash)
  | .oneOf negated ranges, lefts => lefts.filterMap (afterByte (inClass negated ranges))
  | .alternatives branches, lefts =>
    if areVacuous branches then lefts else afterBranches branches lefts

def after : List Token → List Bytes → List Bytes
  | [], lefts => lefts
  | t :: ts, lefts => after ts (t.after lefts)

/-- What may be left after one of the branches. An empty branch is no choice. -/
def afterBranches : List (List Token) → List Bytes → List Bytes
  | [], _ => []
  | b :: bs, lefts =>
    if isVacuous b then afterBranches bs lefts
    else merge (after b lefts) (afterBranches bs lefts)

end

/-- Whether a pattern accepts a whole name. Two stars alone accept every name. -/
def accepts (p : Pattern) (name : Bytes) : Bool :=
  match p with
  | [.leadingDirs] => true
  | _ => (after p [name]).contains []

end AnalyzerConfig.Glob
