import AnalyzerConfig.Arguments
import AnalyzerConfig.Host
import AnalyzerConfig.Layout.Overrides

namespace AnalyzerConfig

/-- Where a run takes place, and with which layout. -/
structure RunConfig where
  root : String
  layout : Layout
deriving DecidableEq

def LogRecord.resolved (c : RunConfig) : LogRecord :=
  .debug ("Resolved layout for " ++ c.root ++ ": " ++ c.layout.shown)

/-- Some names and then some more, each where it comes first. -/
def mergeNames (names more : List String) : List String := (names ++ more).eraseDups

/-- The layout that a layout file and the arguments give. -/
def Layout.resolved (o : Layout.Overrides) (excludeTests : Option (List String)) : Layout :=
  let l := (o.apply {}).normalized
  { l with excludedTests := mergeNames l.excludedTests (excludeTests.getD []) }

/-- Where the layout file lies, and whether it has to be there. Without an argument it is a file
that a project may have. -/
def Arguments.layoutFile (a : Arguments) (root : String) : String × Bool :=
  match a.layout with
  | some path => (path, true)
  | none => (Path.below root "trustinsoft/regenerate.toml", false)

inductive LayoutSource where
  | missing
  | unreadable (fault : FileFault)
  | text (s : String)
deriving DecidableEq

/-- What a layout file sets. A file that may be missing sets nothing then. -/
def LayoutSource.overrides (path : String) (required : Bool) :
    LayoutSource → Except Failure Layout.Overrides
  | .missing => if required then .error (.missingLayout path) else .ok {}
  | .unreadable fault => .error (.unreadableLayout path fault)
  | .text s =>
    match Layout.Overrides.ofText? s with
    | none => .error (.illFormedLayout path)
    | some o => .ok o

variable {m : Type → Type} [Monad m]

def Host.layoutSource (host : Host m) (path : String) : m LayoutSource := do
  if ← host.pathExists path then
    match ← host.readText path with
    | .error fault => return .unreadable fault
    | .ok s => return .text s
  else
    return .missing

/-- The configuration of a run that is started in `workingDir`. -/
def resolveConfig (host : Host m) (a : Arguments) (workingDir : String) :
    m (Except Failure RunConfig) := do
  let root := a.root.getD workingDir
  let (path, required) := a.layoutFile root
  let source ← host.layoutSource path
  match source.overrides path required with
  | .error e => return .error e
  | .ok o =>
    let config : RunConfig := { root, layout := Layout.resolved o a.excludeTests }
    host.record (.resolved config)
    return .ok config

end AnalyzerConfig
