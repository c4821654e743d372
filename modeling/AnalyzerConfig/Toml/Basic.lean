namespace AnalyzerConfig.Toml

/-- A TOML value. Fractional numbers and points in time keep their spelling. -/
inductive Value where
  | string (s : String)
  | integer (n : Int)
  | float (spelling : String)
  | boolean (b : Bool)
  | time (spelling : String)
  | array (items : List Value)
  | table (members : List (String × Value))

/-- The members of a table, in the order of the text and each key once. -/
abbrev Table := List (String × Value)

def Value.string? : Value → Option String
  | .string s => some s
  | _ => none

/-- The strings of an array that holds nothing else. -/
def Value.strings? : Value → Option (List String)
  | .array items => items.mapM Value.string?
  | _ => none

def Value.word? : Value → Option UInt32
  | .integer n => if 0 ≤ n ∧ n < 4294967296 then some (UInt32.ofNat n.toNat) else none
  | _ => none

end AnalyzerConfig.Toml
