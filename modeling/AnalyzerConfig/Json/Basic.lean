namespace AnalyzerConfig.Json

/-- A JSON document without fractional numbers. -/
inductive Doc where
  | null
  | bool (b : Bool)
  | num (n : Int)
  | str (s : String)
  | arr (items : List Doc)
  | obj (members : List (String × Doc))

def Doc.strs (ss : List String) : Doc := .arr (ss.map .str)

mutual

/-- The document with every object key, at every depth, replaced by its image under `f`. -/
def Doc.mapKeys (f : String → String) : Doc → Doc
  | .arr items => .arr (mapKeysItems f items)
  | .obj members => .obj (mapKeysMembers f members)
  | .null => .null
  | .bool b => .bool b
  | .num n => .num n
  | .str s => .str s

def mapKeysItems (f : String → String) : List Doc → List Doc
  | [] => []
  | d :: ds => d.mapKeys f :: mapKeysItems f ds

def mapKeysMembers (f : String → String) : List (String × Doc) → List (String × Doc)
  | [] => []
  | (k, d) :: ms => (f k, d.mapKeys f) :: mapKeysMembers f ms

end

end AnalyzerConfig.Json
