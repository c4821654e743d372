import AnalyzerConfig.Filesystem.Resolve
import AnalyzerConfig.Path.Basic

namespace AnalyzerConfig

/-- An entry of a directory, and whether it is a regular file once links are followed. -/
structure Entry where
  name : Octets
  isFile : Bool
deriving DecidableEq

namespace Filesystem

def pathExists (fs : Filesystem) (path : String) : Bool :=
  (fs.locatePath .find (.text path)).isOk

def isFileAt (fs : Filesystem) (r : Route) : Bool :=
  match fs.found? r with
  | some (.file _) => true
  | _ => false

def isFile (fs : Filesystem) (path : String) : Bool :=
  isShort (.text path) && fs.isFileAt (Route.ofPath (.text path))

def isDirectory (fs : Filesystem) (path : String) : Bool :=
  isShort (.text path) && fs.found? (Route.ofPath (.text path)) = some .directory

/-- Whether the path of an entry of a directory is short enough to be looked up. -/
def isShortBelow (dir : String) (n : Octets) : Bool :=
  dir.utf8ByteSize + (Path.separator dir).utf8ByteSize + n.bytes.length ≤ maxPathLength

/-- The entries of a directory, or nothing if the path leads to none. -/
def entries? (fs : Filesystem) (path : String) : Option (List Entry) :=
  match fs.locatePath .find (.text path) with
  | .error _ => none
  | .ok p =>
    if fs.node? p = some .directory then
      let route := Route.ofPath (.text path)
      some <| (fs.names p).map fun n =>
        ⟨n, isShortBelow path n && fs.isFileAt (route.entry n)⟩
    else none

/-- Why what lies at a place cannot be opened as a file. -/
def openFault? (fs : Filesystem) (p : Place) : Option FileFault :=
  match fs.node? p with
  | some .directory => some .isADirectory
  | some .socket => some .noSuchDevice
  | _ => none

def readText (fs : Filesystem) (path : String) : Except FileFault String :=
  match fs.locatePath .find (.text path) with
  | .error fault => .error fault
  | .ok p =>
    match fs.openFault? p, fs.node? p with
    | some fault, _ => .error fault
    | none, some (.file (.text s)) => .ok s
    | none, _ => .error .notText

/-- The file system after a file got its contents. The file is made if its directory is there, and a
link at the end of the path is written through. -/
def write (fs : Filesystem) (path : Octets) (contents : Octets) : Except FileFault Filesystem :=
  match fs.locatePath .create path with
  | .error fault => .error fault
  | .ok p =>
    match fs.openFault? p with
    | some fault => .error fault
    | none => .ok (fs.put p (.file contents))

def writeText (fs : Filesystem) (path text : String) : Except FileFault Filesystem :=
  fs.write (.text path) (.text text)

end Filesystem

end AnalyzerConfig
