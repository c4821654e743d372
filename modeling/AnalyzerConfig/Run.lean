import AnalyzerConfig.Host
import AnalyzerConfig.Project.Configs
import AnalyzerConfig.Project.Precheck

namespace AnalyzerConfig

/-- One configuration to generate. -/
structure Stage where
  number : String
  /-- Where the configuration goes, seen from the root. -/
  path : String
  /-- The directories that it looks at. -/
  dirs : List String
  build : Project → Logged Json.Doc

namespace Stage

def common (l : Layout) : Stage where
  number := "2"
  path := l.commonPath
  dirs := [l.normalized.patchDir, l.normalized.inputDir]
  build project := CommonConfig.toDoc <$> project.commonConfig l

def fuzz (l : Layout) : Stage where
  number := "3"
  path := l.fuzzPath
  dirs := [l.normalized.fuzzInputDir]
  build project := FuzzConfig.toDoc <$> project.fuzzConfig l

def tests (l : Layout) : Stage where
  number := "4"
  path := l.testsPath
  dirs := [l.normalized.testDir, l.normalized.fuzzInputDir]
  build project := TestEntry.listDoc <$> project.testEntries l l.commonPath l.fuzzPath

def announcement (s : Stage) : String := s.number ++ ". Generate the '" ++ s.path ++ "' file."

end Stage

def Layout.stages (l : Layout) : List Stage := [.common l, .fuzz l, .tests l]

variable {m : Type → Type} [Monad m]

def Requirement.holds (host : Host m) (root : String) : Requirement → m Bool
  | .root => host.isDirectory root
  | .directory path => host.isDirectory (Path.below root path)
  | .file path => host.isFile (Path.below root path)

/-- Checks requirements in order up to the first that does not hold, and confirms those before. -/
def precheck (host : Host m) (root : String) : List Requirement → m (Except Failure Unit)
  | [] => return .ok ()
  | r :: rs => do
    if ← r.holds host root then
      match r.confirmation? with
      | some line => host.print line
      | none => pure ()
      precheck host root rs
    else
      return .error (r.failure root)

def Host.emit (host : Host m) : List LogRecord → m Unit
  | [] => return ()
  | r :: rs => do
    host.record r
    host.emit rs

def LogRecord.wrote (path text : String) : LogRecord :=
  .debug ("Wrote " ++ toString text.utf8ByteSize ++ " bytes to " ++ path)

/-- Builds a configuration, announces it and writes it. -/
def Stage.run (host : Host m) (root : String) (s : Stage) : m (Except Failure Unit) := do
  let built := s.build (← host.look root s.dirs)
  host.emit built.log
  match built.result with
  | .error e => return .error e
  | .ok doc =>
    host.print s.announcement
    let path := Path.below root s.path
    let text := Json.render doc
    match ← host.writeText path text with
    | .error fault => return .error (.unwritable path fault)
    | .ok () =>
      host.record (.wrote path text)
      return .ok ()

def runStages (host : Host m) (root : String) : List Stage → m (Except Failure Unit)
  | [] => return .ok ()
  | s :: rest => do
    match ← s.run host root with
    | .error e => return .error e
    | .ok () => runStages host root rest

/-- Checks a project and writes its three configurations. -/
def regenerate (host : Host m) (root : String) (l : Layout) : m (Except Failure Unit) := do
  host.print "1. Check if all necessary directories and files exist..."
  match ← precheck host root l.requirements with
  | .error e => return .error e
  | .ok () => runStages host root l.stages

end AnalyzerConfig
