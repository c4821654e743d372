import AnalyzerConfig.Glob.Pattern

namespace AnalyzerConfig.Glob

/-- A group whose closing brace has not been read. Token lists are kept in reverse while they
grow. -/
structure OpenGroup where
  before : List Token
  branches : List Pattern

structure OpenClass where
  negated : Bool
  /-- The last range comes first. -/
  ranges : List (Char × Char)
  /-- A hyphen was read that the next character makes a range. -/
  inRange : Bool

inductive Mode where
  | plain
  | escaped
  | star (before : Option Char)
  | twoStars (before : Option Char)
  | classStart
  | classFirst (negated : Bool)
  | inClass (c : OpenClass)

structure State where
  tokens : List Token := []
  groups : List OpenGroup := []
  last : Option Char := none
  mode : Mode := .plain

namespace State

def push (s : State) (t : Token) : State := { s with tokens := t :: s.tokens }

def readPlain (s : State) (c : Char) : Except Fault State :=
  if c = '?' then .ok (s.push .any)
  else if c = '*' then .ok { s with mode := .star s.last }
  else if c = '[' then .ok { s with mode := .classStart }
  else if c = '\\' then .ok { s with mode := .escaped }
  else if c = '\x7b' then .ok { s with tokens := [], groups := ⟨s.tokens, []⟩ :: s.groups }
  else if c = '\x7d' then
    match s.groups with
    | [] => .error .unopenedGroup
    | g :: groups =>
      let branches := (s.tokens.reverse :: g.branches).reverse
      .ok { s with tokens := .alternatives branches :: g.before, groups }
  else if c = ',' then
    match s.groups with
    | [] => .ok (s.push (.literal ','))
    | g :: groups =>
      let g := { g with branches := s.tokens.reverse :: g.branches }
      .ok { s with tokens := [], groups := g :: groups }
  else .ok (s.push (.literal c))

def pushTwoStars (s : State) : State := (s.push .many).push .many

/-- Two stars that stand for directories take the place of the slash before them. -/
def pushDirs (s : State) (t : Token) : State :=
  match s.tokens with
  | .leadingDirs :: _ | .trailingDirs :: _ => s
  | _ :: tokens => { s with tokens := t :: tokens }
  | [] => s

/-- Whether two stars behind a token can stand for directories: after a slash, or at the start of a
branch. -/
def opensDirs (s : State) (before : Option Char) : Bool :=
  before == some '/' || (!s.groups.isEmpty && (before == some ',' || before == some '\x7b'))

/-- The character after two stars. A slash that belongs to them is read with them. -/
def readAfterStars (s : State) (before : Option Char) (c : Char) : Except Fault State :=
  let s := { s with mode := .plain }
  match s.tokens with
  | [] => if c = '/' then .ok (s.push .leadingDirs) else s.pushTwoStars.readPlain c
  | _ :: _ =>
    if !s.opensDirs before then s.pushTwoStars.readPlain c
    else if c = '/' then .ok (s.pushDirs .innerDirs)
    else if (c = ',' ∨ c = '\x7d') ∧ s.groups ≠ [] then (s.pushDirs .trailingDirs).readPlain c
    else s.pushTwoStars.readPlain c

def endAfterStars (s : State) (before : Option Char) : State :=
  match s.tokens with
  | [] => s.push .leadingDirs
  | _ :: _ => if s.opensDirs before then s.pushDirs .trailingDirs else s.pushTwoStars

end State

namespace OpenClass

def endRange (k : OpenClass) (c : Char) : Except Fault OpenClass :=
  match k.ranges with
  | (a, _) :: ranges =>
    if c < a then .error (.invalidRange a c)
    else .ok { k with ranges := (a, c) :: ranges, inRange := false }
  | [] => .ok k

def read (k : OpenClass) (c : Char) : Except Fault OpenClass :=
  if k.inRange then k.endRange c
  else if c = '-' then .ok { k with inRange := true }
  else .ok { k with ranges := (c, c) :: k.ranges }

def close (k : OpenClass) : Token :=
  .oneOf k.negated (if k.inRange then ('-', '-') :: k.ranges else k.ranges).reverse

end OpenClass

namespace State

/-- The first character of a class always stands for itself. -/
def readFirst (s : State) (negated : Bool) (c : Char) : State :=
  { s with mode := .inClass ⟨negated, [(c, c)], false⟩ }

def readInMode (s : State) (c : Char) : Except Fault State :=
  match s.mode with
  | .plain => s.readPlain c
  | .escaped => .ok { s.push (.literal c) with mode := .plain }
  | .star before =>
    if c = '*' then .ok { s with mode := .twoStars before }
    else ({ s with mode := .plain }.push .many).readPlain c
  | .twoStars before => s.readAfterStars before c
  | .classStart =>
    if c = '!' ∨ c = '^' then .ok { s with mode := .classFirst true }
    else .ok (s.readFirst false c)
  | .classFirst negated => .ok (s.readFirst negated c)
  | .inClass k =>
    if c = ']' then .ok { s.push k.close with mode := .plain }
    else (k.read c).map fun k => { s with mode := .inClass k }

def read (s : State) (c : Char) : Except Fault State :=
  (s.readInMode c).map fun s => { s with last := some c }

def finish (s : State) : Except Fault Pattern :=
  let closed (s : State) : Except Fault Pattern :=
    if s.groups.isEmpty then .ok s.tokens.reverse else .error .unclosedGroup
  match s.mode with
  | .plain => closed s
  | .escaped => .error .danglingEscape
  | .star _ => closed (s.push .many)
  | .twoStars before => closed (s.endAfterStars before)
  | .classStart | .classFirst _ | .inClass _ => .error .unclosedClass

end State

def parse (text : String) : Except Fault Pattern := do
  (← text.toList.foldlM State.read {}).finish

end AnalyzerConfig.Glob
