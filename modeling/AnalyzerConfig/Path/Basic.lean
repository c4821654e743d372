import AnalyzerConfig.Octets

namespace AnalyzerConfig.Path

/-- The texts between the slashes of a path, the empty ones included. -/
def segments (p : String) : List String :=
  (p.toList.splitOn '/').map String.ofList

def ofSegments (ss : List String) : String := "/".intercalate ss

def isAbsolute (p : String) : Bool := p.toList.head? == some '/'

/-- Whether a segment names something: empty segments and single dots do not. -/
def isNaming (s : String) : Bool := s != "" && s != "."

def namingSegments (p : String) : List String := (segments p).filter isNaming

/-- The path without empty segments, single dots and trailing slashes. The leading slash of an
absolute path stays, unless nothing follows it. -/
def normalize (p : String) : String :=
  ofSegments ((if isAbsolute p then [""] else []) ++ namingSegments p)

def trimSlashes (p : String) : String :=
  String.ofList (p.toList.reverse.dropWhile (· == '/')).reverse

/-- A name below a directory. The empty directory adds nothing, not even a slash. -/
def join (dir name : String) : String :=
  if dir = "" then name else trimSlashes dir ++ "/" ++ name

/-- The last name of a path, or the whole path if it ends in `..` or names nothing. -/
def baseName (p : String) : String :=
  match (namingSegments p).getLast? with
  | some s => if s = ".." then p else s
  | none => p

def separator (dir : String) : String :=
  if dir = "" ∨ dir.toList.getLast? = some '/' then "" else "/"

/-- The path `p` as seen from the directory `dir`: an absolute path stays as it is. -/
def below (dir p : String) : String :=
  if isAbsolute p then p else dir ++ separator dir ++ p

end AnalyzerConfig.Path
