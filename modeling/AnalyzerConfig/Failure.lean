import AnalyzerConfig.Filesystem.Basic
import AnalyzerConfig.Glob.Pattern
import AnalyzerConfig.Path.Basic
import AnalyzerConfig.Path.Quoted

namespace AnalyzerConfig

inductive Failure where
  | rootNotDirectory (root : String)
  | missingDirectory (dir : String)
  | missingFile (file root : String)
  | badPattern (pattern : String) (fault : Glob.Fault)
  /-- A pattern that nests too deeply, with what the matcher says about it. -/
  | deepPattern (reason : String)
  /-- A directory that is there and cannot be listed. -/
  | unlistable (dir : String) (fault : FileFault)
  /-- An entry of a directory that has no path relative to the root. -/
  | notRelative (dir : String) (name : Octets) (root : String)
  | nameNotText (dir : String) (name : Octets)
  | staleExclusion (name testDir : String)
  | missingLayout (path : String)
  | unreadableLayout (path : String) (fault : FileFault)
  | illFormedLayout (path : String)
  | unwritable (path : String) (fault : FileFault)
deriving DecidableEq

namespace Failure

def entryPieces (dir : String) (name : Octets) : List Octets.Piece :=
  (Octets.text (dir ++ Path.separator dir)).pieces ++ name.pieces

/-- What went wrong, in one line unless a name has line breaks. -/
def message : Failure → String
  | .rootNotDirectory root => "Project root '" ++ root ++ "' is not a directory."
  | .missingDirectory dir => "Directory '" ++ dir ++ "' not found."
  | .missingFile file root =>
    "File '" ++ file ++ "' not found. Is '" ++ root ++ "' the project root?"
  | .badPattern pattern _ => "Invalid glob pattern: " ++ pattern
  | .deepPattern reason => reason
  | .unlistable dir _ => "Failed to walk " ++ dir
  | .notRelative dir name root =>
    "Cannot express " ++ Octets.lossy (entryPieces dir name) ++ " relative to " ++ root
  | .nameNotText dir name =>
    "File name " ++ Path.quotedPieces (entryPieces dir name) ++ " is not valid UTF-8"
  | .staleExclusion name testDir =>
    "Excluded test '" ++ name ++ "' is not present in '" ++ testDir ++ "'; the denylist is stale"
  | .missingLayout path => "Layout file " ++ Path.quoted path ++ " does not exist"
  | .unreadableLayout path _ => "Failed to read layout at " ++ Path.quoted path
  | .illFormedLayout path => "Failed to parse " ++ Path.quoted path
  | .unwritable path _ => "Failed to write " ++ Path.quoted path

/-- What lies behind it, where there is more to say. -/
def cause? : Failure → Option String
  | .badPattern pattern fault => some (fault.message pattern)
  | .unlistable dir fault =>
    some (dir ++ ": IO error for operation on " ++ dir ++ ": " ++ fault.message)
  | .unreadableLayout _ fault | .unwritable _ fault => some fault.message
  | _ => none

def fullMessage (f : Failure) : String :=
  match f.cause? with
  | some cause => f.message ++ ": " ++ cause
  | none => f.message

end Failure

end AnalyzerConfig
