import AnalyzerConfig.Json.Include

namespace AnalyzerConfig

open Json

/-- A file that a run of the analyzer sees as `name` and that lies at `source`. -/
structure Mount where
  name : String
  source : String
deriving DecidableEq

/-- What all tests share: the sources, the options they are compiled with, and the files that they
see. -/
structure CommonConfig where
  files : List String
  compilerOptions : String
  recursionDepth : UInt32
  mounts : List Mount
deriving DecidableEq

structure FuzzConfig where
  files : List String
  mounts : List Mount
deriving DecidableEq

/-- What a test runs: source files of its own, or the shared harness on an argument line. -/
inductive TestInput where
  | files (paths : List String)
  | arguments (line : String)
deriving DecidableEq

/-- One test, with the paths of the configurations that it includes. -/
structure TestEntry where
  name : String
  input : TestInput
  config : String
  extraConfig : Option String
deriving DecidableEq

def Mount.toDoc (m : Mount) : Doc :=
  .obj [("name", .str m.name), ("from", .str m.source)]

def Mount.listDoc (ms : List Mount) : Doc :=
  .obj [("files", .arr (ms.map Mount.toDoc))]

def CommonConfig.toDoc (c : CommonConfig) : Doc :=
  .obj [("files", .strs c.files),
    ("compilation_cmd", .str c.compilerOptions),
    ("val-clone-on-recursive-calls-max-depth", .num c.recursionDepth.toNat),
    ("filesystem", Mount.listDoc c.mounts)]

def FuzzConfig.toDoc (c : FuzzConfig) : Doc :=
  .obj [("files", .strs c.files), ("filesystem", Mount.listDoc c.mounts)]

def TestInput.member : TestInput → String × Doc
  | .files paths => ("files", .strs paths)
  | .arguments line => ("val-args", .str line)

/-- A second include is written under a placeholder key. -/
def TestEntry.toDoc (t : TestEntry) : Doc :=
  .obj ([("name", .str t.name), t.input.member, ("include", .str t.config)]
    ++ (t.extraConfig.map fun path => ("include_", Doc.str path)).toList)

def TestEntry.listDoc (ts : List TestEntry) : Doc := .arr (ts.map TestEntry.toDoc)

end AnalyzerConfig
