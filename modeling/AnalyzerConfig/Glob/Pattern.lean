namespace AnalyzerConfig.Glob

inductive Token where
  | literal (c : Char)
  /-- Any single byte, written `?`. -/
  | any
  /-- Any bytes at all, written `*`. -/
  | many
  /-- Nothing, or any directories, written as two stars and a slash at the start. -/
  | leadingDirs
  /-- A slash and all after it, written as a slash and two stars at the end. -/
  | trailingDirs
  /-- A slash, or any directories between slashes, written as two stars between slashes. -/
  | innerDirs
  /-- A byte of one of the ranges, or of none of them. -/
  | oneOf (negated : Bool) (ranges : List (Char × Char))
  /-- One of the branches, written between braces. -/
  | alternatives (branches : List (List Token))

abbrev Pattern := List Token

inductive Fault where
  | unclosedClass
  | invalidRange (first last : Char)
  | unopenedGroup
  | unclosedGroup
  | danglingEscape
deriving DecidableEq

def Fault.reason : Fault → String
  | .unclosedClass => "unclosed character class; missing ']'"
  | .invalidRange a b =>
    "invalid range; '" ++ a.toString ++ "' > '" ++ b.toString ++ "'"
  | .unopenedGroup =>
    "unopened alternate group; missing '\x7b' (maybe escape '\x7d' with '[\x7d]'?)"
  | .unclosedGroup =>
    "unclosed alternate group; missing '\x7d' (maybe escape '\x7b' with '[\x7b]'?)"
  | .danglingEscape => "dangling '\\'"

def Fault.message (pattern : String) (f : Fault) : String :=
  "error parsing glob '" ++ pattern ++ "': " ++ f.reason

end AnalyzerConfig.Glob
