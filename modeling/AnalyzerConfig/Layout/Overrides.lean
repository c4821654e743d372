import AnalyzerConfig.Layout.Basic
import AnalyzerConfig.Toml.Document

namespace AnalyzerConfig.Layout

structure Overrides where
  toolDir : Option String := none
  testDir : Option String := none
  fuzzInputDir : Option String := none
  patchFixtureDir : Option String := none
  inputFixtureDir : Option String := none
  inputPrefix : Option String := none
  commonSources : Option (List String) := none
  includeDirs : Option (List String) := none
  defines : Option (List String) := none
  undefines : Option (List String) := none
  recursionDepth : Option UInt32 := none
  fuzzSources : Option (List String) := none
  fuzzHarness : Option String := none
  excludedTests : Option (List String) := none
deriving DecidableEq

namespace Overrides

/-- Sets the field of a key. There is no field for an unknown key, nor for a value of another
type. -/
def set? (o : Overrides) (key : String) (v : Toml.Value) : Option Overrides :=
  match key with
  | "tool_dir" => v.string?.map fun s => { o with toolDir := some s }
  | "test_dir" => v.string?.map fun s => { o with testDir := some s }
  | "fuzz_input_dir" => v.string?.map fun s => { o with fuzzInputDir := some s }
  | "patch_fixture_dir" => v.string?.map fun s => { o with patchFixtureDir := some s }
  | "input_fixture_dir" => v.string?.map fun s => { o with inputFixtureDir := some s }
  | "input_prefix" => v.string?.map fun s => { o with inputPrefix := some s }
  | "common_sources" => v.strings?.map fun ss => { o with commonSources := some ss }
  | "include_dirs" => v.strings?.map fun ss => { o with includeDirs := some ss }
  | "defines" => v.strings?.map fun ss => { o with defines := some ss }
  | "undefines" => v.strings?.map fun ss => { o with undefines := some ss }
  | "max_recursion_depth" => v.word?.map fun n => { o with recursionDepth := some n }
  | "fuzz_sources" => v.strings?.map fun ss => { o with fuzzSources := some ss }
  | "fuzz_harness" => v.string?.map fun s => { o with fuzzHarness := some s }
  | "excluded_tests" => v.strings?.map fun ss => { o with excludedTests := some ss }
  | _ => none

/-- What a table sets, if every key of it is known and has a value of the right type. -/
def ofTable? (t : Toml.Table) : Option Overrides :=
  t.foldlM (fun o member => o.set? member.1 member.2) {}

def ofText? (text : String) : Option Overrides := Toml.parse? text >>= ofTable?

def apply (o : Overrides) (l : Layout) : Layout where
  toolDir := o.toolDir.getD l.toolDir
  testDir := o.testDir.getD l.testDir
  fuzzInputDir := o.fuzzInputDir.getD l.fuzzInputDir
  patchFixtureDir := o.patchFixtureDir.getD l.patchFixtureDir
  inputFixtureDir := o.inputFixtureDir.getD l.inputFixtureDir
  inputPrefix := o.inputPrefix.getD l.inputPrefix
  commonSources := o.commonSources.getD l.commonSources
  includeDirs := o.includeDirs.getD l.includeDirs
  defines := o.defines.getD l.defines
  undefines := o.undefines.getD l.undefines
  recursionDepth := o.recursionDepth.getD l.recursionDepth
  fuzzSources := o.fuzzSources.getD l.fuzzSources
  fuzzHarness := o.fuzzHarness.getD l.fuzzHarness
  excludedTests := o.excludedTests.getD l.excludedTests

end Overrides

end AnalyzerConfig.Layout
