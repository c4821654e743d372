import AnalyzerConfig.Path.Quoted
import AnalyzerConfig.Path.Basic

namespace AnalyzerConfig

/-- The layout of a project. Paths are relative to its root. -/
structure Layout where
  toolDir : String := "trustinsoft"
  testDir : String := "tests"
  fuzzInputDir : String := "fuzzing/inputs"
  patchFixtureDir : String := "json-patch-tests"
  inputFixtureDir : String := "inputs"
  inputPrefix : String := "test"
  commonSources : List String := ["cJSON_Utils.c", "tests/unity/src/unity.c"]
  includeDirs : List String := []
  defines : List String := ["UNITY_EXCLUDE_SETJMP_H"]
  undefines : List String := []
  recursionDepth : UInt32 := 10000
  fuzzSources : List String := ["cJSON.c"]
  fuzzHarness : String := "fuzzing/afl.c"
  excludedTests : List String := ["unity_setup.c"]
deriving DecidableEq

namespace Layout

def commonPath (l : Layout) : String := Path.join l.toolDir "common.config"

def fuzzPath (l : Layout) : String := Path.join l.toolDir "fuzz.config"

def testsPath (_ : Layout) : String := "tis.config"

/-- The layout with every path in its normal form. The fixture directories are paths below the test
directory; excluded tests are names and stay as they are. -/
def normalized (l : Layout) : Layout :=
  { l with
    toolDir := Path.normalize l.toolDir
    testDir := Path.normalize l.testDir
    fuzzInputDir := Path.normalize l.fuzzInputDir
    patchFixtureDir := Path.normalize l.patchFixtureDir
    inputFixtureDir := Path.normalize l.inputFixtureDir
    commonSources := l.commonSources.map Path.normalize
    fuzzSources := l.fuzzSources.map Path.normalize
    fuzzHarness := Path.normalize l.fuzzHarness }

def shown (l : Layout) : String :=
  let list (names : List String) := "[" ++ ", ".intercalate (names.map Path.quoted) ++ "]"
  let fields := [("tool_dir", Path.quoted l.toolDir), ("test_dir", Path.quoted l.testDir),
    ("fuzz_input_dir", Path.quoted l.fuzzInputDir),
    ("patch_fixture_dir", Path.quoted l.patchFixtureDir),
    ("input_fixture_dir", Path.quoted l.inputFixtureDir),
    ("input_prefix", Path.quoted l.inputPrefix), ("common_sources", list l.commonSources),
    ("include_dirs", list l.includeDirs), ("defines", list l.defines),
    ("undefines", list l.undefines), ("max_recursion_depth", toString l.recursionDepth.toNat),
    ("fuzz_sources", list l.fuzzSources), ("fuzz_harness", Path.quoted l.fuzzHarness),
    ("excluded_tests", list l.excludedTests)]
  "ProjectLayout \x7b " ++ ", ".intercalate (fields.map fun f => f.1 ++ ": " ++ f.2) ++ " \x7d"

def requiredDirs (l : Layout) : List String := [l.toolDir, l.testDir, l.fuzzInputDir]

def requiredFiles (l : Layout) : List String :=
  l.commonSources ++ l.fuzzSources ++ [l.fuzzHarness]

end Layout

end AnalyzerConfig
