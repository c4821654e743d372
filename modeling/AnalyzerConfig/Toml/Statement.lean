import AnalyzerConfig.Toml.Draft
import AnalyzerConfig.Toml.Scalar
import AnalyzerConfig.Toml.Strings

namespace AnalyzerConfig.Toml

open Text Text.Reader

inductive Statement where
  | header (key : Key)
  /-- Opens a further table of an array of tables. -/
  | itemHeader (key : Key)
  | assign (key : Key) (value : Value)

def isBareChar (c : Char) : Bool := c.isAlphanum || c == '_' || c == '-'

def readKeyPart : Reader String := do
  match ← peek? with
  | some '"' | some '\'' => readLineString
  | _ =>
    let word ← run isBareChar
    if word.isEmpty then failure
    return String.ofList word

/-- The parts of a key after the first. -/
def readKeyRest : Nat → Reader Key
  | 0 => failure
  | fuel + 1 => do
    readBlanks
    if (← peek?) = some '.' then
      exactly ['.']
      readBlanks
      let part ← readKeyPart
      return part :: (← readKeyRest fuel)
    else
      return []

def readKey (fuel : Nat) : Reader Key := do
  let part ← readKeyPart
  return part :: (← readKeyRest fuel)

mutual

/-- A value. The fuel that bounds the recursion does not run out if it exceeds twice the length of
the text. -/
def readValue : Nat → Reader Value
  | 0 => failure
  | fuel + 1 => do
    match ← peek? with
    | some '"' | some '\'' => return .string (← readString)
    | some '[' =>
      exactly ['[']
      return .array (← readItems fuel)
    | some '\x7b' =>
      exactly ['\x7b']
      return .table (← Table.ofAssignments? (← readMembers fuel))
    | _ => readScalar

/-- The items of an array, from behind its opening bracket or a comma on. -/
def readItems : Nat → Reader (List Value)
  | 0 => failure
  | fuel + 1 => do
    readSpace
    if (← peek?) = some ']' then
      exactly [']']
      return []
    let v ← readValue fuel
    readSpace
    if (← peek?) = some ',' then
      exactly [',']
      return v :: (← readItems fuel)
    exactly [']']
    return [v]

/-- The members of an inline table, from behind its opening brace or a comma on. -/
def readMembers : Nat → Reader (List (Key × Value))
  | 0 => failure
  | fuel + 1 => do
    readSpace
    if (← peek?) = some '\x7d' then
      exactly ['\x7d']
      return []
    let m ← readAssignment fuel
    readSpace
    if (← peek?) = some ',' then
      exactly [',']
      return m :: (← readMembers fuel)
    exactly ['\x7d']
    return [m]

def readAssignment : Nat → Reader (Key × Value)
  | 0 => failure
  | fuel + 1 => do
    let k ← readKey fuel
    exactly ['=']
    readBlanks
    return (k, ← readValue fuel)

end

/-- A header or an assignment, with the rest of its line. -/
def readStatement (fuel : Nat) : Reader Statement := do
  let s ← if (← peek?) = some '[' then do
      exactly ['[']
      if (← peek?) = some '[' then
        exactly ['[']
        readBlanks
        let k ← readKey fuel
        exactly [']', ']']
        pure (Statement.itemHeader k)
      else
        readBlanks
        let k ← readKey fuel
        exactly [']']
        pure (Statement.header k)
    else do
      let (k, v) ← readAssignment fuel
      pure (Statement.assign k v)
  readLineEnd
  return s

def readStatements : Nat → Reader (List Statement)
  | 0 => failure
  | fuel + 1 => do
    readSpace
    if (← peek?).isNone then return []
    let s ← readStatement fuel
    return s :: (← readStatements fuel)

end AnalyzerConfig.Toml
