import AnalyzerConfig.Glob.Matching

namespace AnalyzerConfig.Glob

/-- Whether a character means something else than itself in an expression. -/
def isOperator (c : Char) : Bool := "\\.+*?()|[]\x7b\x7d^$#&-~".toList.contains c

/-- A byte in an expression: ASCII as a character, any other by its number. -/
def byteExpression (b : UInt8) : List Char :=
  if b < 0x80 then
    let c := Char.ofNat b.toNat
    if isOperator c then ['\\', c] else [c]
  else ['\\', 'x', Nat.digitChar (b.toNat / 16), Nat.digitChar (b.toNat % 16)]

def charExpression (c : Char) : List Char :=
  (String.utf8EncodeChar c).flatMap byteExpression

/-- A range of a class; one of a single character is written as that character. -/
def rangeExpression (range : Char × Char) : List Char :=
  if range.1 = range.2 then charExpression range.1
  else charExpression range.1 ++ '-' :: charExpression range.2

def classExpression (negated : Bool) (ranges : List (Char × Char)) : List Char :=
  '[' :: (if negated then ['^'] else []) ++ ranges.flatMap rangeExpression ++ [']']

/-- A group of expressions of which one has to match. -/
def groupExpression (parts : List (List Char)) : List Char :=
  if parts = [] then [] else "(?:".toList ++ ['|'].intercalate parts ++ [')']

mutual

def Token.expression : Token → List Char
  | .literal c => charExpression c
  | .any => ['.']
  | .many => ".*".toList
  | .leadingDirs => "(?:/?|.*/)".toList
  | .trailingDirs => "/.*".toList
  | .innerDirs => "(?:/|/.*/)".toList
  | .oneOf negated ranges => classExpression negated ranges
  | .alternatives branches => groupExpression (branchExpressions branches)

def expressionOf : List Token → List Char
  | [] => []
  | t :: ts => t.expression ++ expressionOf ts

/-- The expressions of the branches that are not empty. -/
def branchExpressions : List (List Token) → List (List Char)
  | [] => []
  | b :: bs => (if isVacuous b then [] else [expressionOf b]) ++ branchExpressions bs

end

def expression (p : Pattern) : String :=
  String.ofList ("(?-u)^".toList ++ expressionOf p ++ ['$'])

/-- How many expressions a token puts next to each other. -/
def Token.width : Token → Nat
  | .literal c => c.utf8Size
  | .trailingDirs => 2
  | .alternatives branches => if areVacuous branches then 0 else 1
  | .any | .many | .leadingDirs | .innerDirs | .oneOf _ _ => 1

/-- One level for a sequence of expressions, none for an expression alone. -/
def sequenceLevel (ts : List Token) : Nat :=
  if 1 < (ts.map Token.width).foldr (· + ·) 0 then 1 else 0

/-- One level for the brackets of a class, and one if there are several intervals in it. -/
def classLevels (ranges : List (Char × Char)) : Nat :=
  if 1 < (ranges.flatMap intervals).length then 2 else 1

/-- One level for a group, and one if there is a choice in it. -/
def groupLevels (branches : List (List Token)) : Nat :=
  match (branches.filter fun b => !isVacuous b).length with
  | 0 => 0
  | 1 => 1
  | _ => 2

mutual

/-- How many levels the expression of a token has. A repetition is a level. -/
def Token.nesting : Token → Nat
  | .literal _ | .any => 0
  | .many | .trailingDirs => 1
  | .leadingDirs | .innerDirs => 4
  | .oneOf _ ranges => classLevels ranges
  | .alternatives branches => groupLevels branches + branchNesting branches

def tokenNesting : List Token → Nat
  | [] => 0
  | t :: ts => max t.nesting (tokenNesting ts)

def branchNesting : List (List Token) → Nat
  | [] => 0
  | b :: bs => max (sequenceLevel b + tokenNesting b) (branchNesting bs)

end

/-- How many levels the expression of a pattern has. Its anchors make it a sequence. -/
def nesting (p : Pattern) : Nat := 1 + tokenNesting p

def maxNesting : Nat := 250

/-- Whether tokens, the last one first, begin with the characters of an extension and its dot. -/
def endInExtension : List Token → Bool
  | .literal c :: ts => c = '.' || (c ≠ '/' && endInExtension ts)
  | _ => false

/-- Why a pattern nests too deeply. The expression is shown if the pattern asks for a certain
extension, since names are sorted by their extensions then. -/
def nestingMessage (p : Pattern) : String :=
  let reason := "error parsing pattern 0"
  if endInExtension p.reverse then "error parsing glob '" ++ expression p ++ "': " ++ reason
  else reason

end AnalyzerConfig.Glob
