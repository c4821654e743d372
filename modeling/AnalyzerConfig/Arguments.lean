namespace AnalyzerConfig

/-- What the arguments ask for. They reach the program as texts, so the paths among them are texts,
as those of a layout file are; only what a directory lists need not be. -/
structure Arguments where
  root : Option String := none
  layout : Option String := none
  excludeTests : Option (List String) := none
deriving DecidableEq

/-- Why the arguments ask for no run. -/
inductive UsageFault where
  | unknownArgument
  /-- An option without a value, or with an empty one. -/
  | invalidValue
  /-- An option that is given a second time. -/
  | argumentConflict
  /-- A value for an option that takes none. -/
  | tooManyValues
  | displayHelp
  | displayVersion
deriving DecidableEq

inductive ValueOption where
  | root
  | layout
  | excludeTest
deriving DecidableEq

namespace ValueOption

def ofName? (name : List Char) : Option ValueOption :=
  if name = "root".toList then some .root
  else if name = "layout".toList then some .layout
  else if name = "exclude-test".toList then some .excludeTest
  else none

/-- Whether an option takes a further value after one. -/
def takesMore : ValueOption → Bool
  | .excludeTest => true
  | .root | .layout => false

end ValueOption

namespace Arguments

def setPath (old : Option String) : List String → Except UsageFault (Option String)
  | [] => .error .invalidValue
  | v :: _ =>
    if old.isSome then .error .argumentConflict
    else if v = "" then .error .invalidValue
    else .ok (some v)

def give (a : Arguments) (o : ValueOption) (values : List String) : Except UsageFault Arguments :=
  match o with
  | .root => (setPath a.root values).map fun root => { a with root }
  | .layout => (setPath a.layout values).map fun layout => { a with layout }
  | .excludeTest =>
    if values = [] then .error .invalidValue
    else .ok { a with excludeTests := some (a.excludeTests.getD [] ++ values) }

end Arguments

/-- An option that still collects values. -/
structure Pending where
  option : ValueOption
  values : List String := []

structure ArgumentReader where
  given : Arguments := {}
  pending : Option Pending := none

namespace ArgumentReader

/-- Hands the collected values to their option. -/
def settle (r : ArgumentReader) : Except UsageFault ArgumentReader :=
  match r.pending with
  | none => .ok r
  | some p => (r.given.give p.option p.values).map fun given => { given }

def readValue (r : ArgumentReader) (v : String) : Except UsageFault ArgumentReader :=
  match r.pending with
  | none => .error .unknownArgument
  | some p =>
    if p.values = [] ∨ p.option.takesMore then
      .ok { r with pending := some { p with values := p.values ++ [v] } }
    else .error .unknownArgument

/-- A request for help or for the version, which stands once everything before it is in order. -/
def request (r : ArgumentReader) (display : UsageFault) : Except UsageFault ArgumentReader := do
  let _ ← r.settle
  .error display

def readLong (r : ArgumentReader) (name : List Char) (value : Option String) :
    Except UsageFault ArgumentReader :=
  match ValueOption.ofName? name, value with
  | some o, some v => do
    let r ← r.settle
    return { given := ← r.given.give o [v] }
  | some o, none => do
    let r ← r.settle
    return { r with pending := some { option := o } }
  | none, value =>
    if name = "help".toList ∨ name = "version".toList then
      if value.isSome then .error .tooManyValues
      else r.request (if name = "help".toList then .displayHelp else .displayVersion)
    else .error .unknownArgument

/-- A group of short options, of which the first already decides. -/
def readShort (r : ArgumentReader) (c : Char) : Except UsageFault ArgumentReader :=
  if c = 'h' then r.request .displayHelp
  else if c = 'V' then r.request .displayVersion
  else .error .unknownArgument

/-- The name of a long option and the value behind its equals sign. -/
def splitLong (cs : List Char) : List Char × Option String :=
  match cs.dropWhile (· ≠ '=') with
  | '=' :: v => (cs.takeWhile (· ≠ '='), some (String.ofList v))
  | _ => (cs, none)

def read (r : ArgumentReader) (arg : String) : Except UsageFault ArgumentReader :=
  match arg.toList with
  | '-' :: '-' :: cs =>
    let (name, value) := splitLong cs
    r.readLong name value
  | '-' :: c :: _ => r.readShort c
  | _ => r.readValue arg

/-- Reads all arguments. Behind `--` only bare words could follow, and there is no use for them. -/
def readAll (r : ArgumentReader) : List String → Except UsageFault ArgumentReader
  | [] => r.settle
  | "--" :: rest => if rest = [] then r.settle else .error .unknownArgument
  | arg :: rest => do (← r.read arg).readAll rest

end ArgumentReader

def Arguments.parse (args : List String) : Except UsageFault Arguments :=
  (ArgumentReader.readAll {} args).map (·.given)

end AnalyzerConfig
