import AnalyzerConfig.Layout.Resolve
import AnalyzerConfig.Run
import AnalyzerConfig.Text.ControlSequence

namespace AnalyzerConfig

variable {m : Type → Type} [Monad m]

/-- Finds out what to do, and does it. -/
def runConfigured (host : Host m) (a : Arguments) (workingDir : String) :
    m (Except Failure Unit) := do
  match ← resolveConfig host a workingDir with
  | .error e => return .error e
  | .ok config => regenerate host config.root config.layout

inductive Ending where
  | success
  | failure (f : Failure)
  | usage (f : UsageFault)
deriving DecidableEq

namespace Ending

def exitCode : Ending → UInt8
  | .success | .usage .displayHelp | .usage .displayVersion => 0
  | .failure _ => 1
  | .usage _ => 2

/-- A text whose lines after the first are set in. -/
def setIn (text : String) : String :=
  String.ofList <| text.toList.flatMap fun c => if c = '\n' then "\n    ".toList else [c]

/-- The message of a failure as the log shows it. -/
def logged (f : Failure) : String := Text.withoutControls (setIn f.fullMessage)

end Ending

def versionLine : String := "tis_regenerate 0.1.0"

def helpLines : List String :=
  ["Regenerate the TrustInSoft CI configuration of a C project",
    "",
    "Usage: tis_regenerate [OPTIONS]",
    "",
    "Options:",
    "      --root <ROOT>                     ",
    "      --layout <LAYOUT>                 ",
    "      --exclude-test <EXCLUDE_TEST>...  ",
    "  -h, --help                            Print help",
    "  -V, --version                         Print version"]

def Host.printAll (host : Host m) : List String → m Unit
  | [] => return ()
  | line :: lines => do
    host.print line
    host.printAll lines

/-- The program with the given arguments, started in `workingDir`. -/
def commandLine (host : Host m) (args : List String) (workingDir : String) : m Ending := do
  match Arguments.parse args with
  | .error fault =>
    match fault with
    | .displayHelp => host.printAll helpLines
    | .displayVersion => host.print versionLine
    | _ => pure ()
    return .usage fault
  | .ok a =>
    match ← runConfigured host a workingDir with
    | .error f => return .failure f
    | .ok () => return .success

end AnalyzerConfig
