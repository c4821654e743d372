import AnalyzerConfig.Failure
import AnalyzerConfig.Layout.Basic

namespace AnalyzerConfig

/-- Something that has to lie below the root of a project, or the root itself. -/
inductive Requirement where
  | root
  | directory (dir : String)
  | file (file : String)
deriving DecidableEq

namespace Requirement

def failure (root : String) : Requirement → Failure
  | .root => .rootNotDirectory root
  | .directory path => .missingDirectory path
  | .file path => .missingFile path root

/-- The line that confirms a requirement. The root is taken for granted. -/
def confirmation? : Requirement → Option String
  | .root => none
  | .directory path => some ("   > OK! Directory '" ++ path ++ "' exists.")
  | .file path => some ("   > OK! File '" ++ path ++ "' exists.")

/-- The root, the directories and the files, in the order in which they are checked. -/
def list (dirs files : List String) : List Requirement :=
  .root :: dirs.map .directory ++ files.map .file

end Requirement

def Layout.requirements (l : Layout) : List Requirement :=
  Requirement.list l.requiredDirs l.requiredFiles

end AnalyzerConfig
