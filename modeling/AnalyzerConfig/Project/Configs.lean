import AnalyzerConfig.CompilerOptions
import AnalyzerConfig.Config
import AnalyzerConfig.Layout.Basic
import AnalyzerConfig.Project.Scan

namespace AnalyzerConfig

namespace Layout

def inputPattern (l : Layout) : String := l.inputPrefix ++ "*"

def patchDir (l : Layout) : String := Path.join l.testDir l.patchFixtureDir

def inputDir (l : Layout) : String := Path.join l.testDir l.inputFixtureDir

def compilerOptions (l : Layout) : String :=
  OptionGroup.line [⟨"-I", l.includeDirs⟩, ⟨"-D", l.defines⟩, ⟨"-U", l.undefines⟩]

end Layout

/-- A path from the root, as seen from a directory of the root. -/
def fromToolDir (path : String) : String := Path.join ".." path

/-- Takes every excluded test out of the files found. Each of them has to be there. -/
def exclude (testDir : String) : List String → List String → Except Failure (List String)
  | [], files => .ok files
  | name :: names, files =>
    let path := Path.join testDir name
    if path ∈ files then exclude testDir names (files.erase path)
    else .error (.staleExclusion name testDir)

namespace Project

/-- The files of a directory that the pattern accepts, each under its own name in `virtualDir`. -/
def mounts (project : Project) (dir pattern virtualDir : String) : Logged (List Mount) := do
  let found ← project.findFiles dir pattern
  if found.isEmpty then
    .record (.warn ("No files match " ++ dir ++ "/" ++ pattern))
  return found.map fun file => ⟨Path.join virtualDir (Path.baseName file), fromToolDir file⟩

def commonConfig (project : Project) (layout : Layout) : Logged CommonConfig := do
  let l := layout.normalized
  let patches ← project.mounts l.patchDir "*.json" l.patchFixtureDir
  let inputs ← project.mounts l.inputDir l.inputPattern l.inputFixtureDir
  return {
    files := l.commonSources.map fromToolDir
    compilerOptions := l.compilerOptions
    recursionDepth := l.recursionDepth
    mounts := patches ++ inputs }

def fuzzConfig (project : Project) (layout : Layout) : Logged FuzzConfig := do
  let l := layout.normalized
  let inputs ← project.mounts l.fuzzInputDir l.inputPattern l.fuzzInputDir
  return {
    files := (l.fuzzSources ++ [l.fuzzHarness]).map fromToolDir
    mounts := inputs }

/-- The C files of the test directory, without the excluded ones. -/
def testFiles (project : Project) (layout : Layout) : Logged (List String) := do
  let l := layout.normalized
  let found ← project.findFiles l.testDir "*.c"
  let files ← .ofExcept (exclude l.testDir l.excludedTests found)
  .record (.info (toString files.length ++ " C test file(s) in " ++ l.testDir))
  return files

def fileTest (commonPath file : String) : TestEntry where
  name := Path.baseName file
  input := .files [file]
  config := commonPath
  extraConfig := none

def fuzzTest (l : Layout) (commonPath fuzzPath input : String) : TestEntry where
  name := Path.baseName l.fuzzHarness ++ " " ++ Path.baseName input
  input := .arguments (" " ++ Path.join l.fuzzInputDir (Path.baseName input))
  config := commonPath
  extraConfig := some fuzzPath

/-- All tests, those of C files first. The two paths are those of the configurations to include. -/
def testEntries (project : Project) (layout : Layout) (commonPath fuzzPath : String) :
    Logged (List TestEntry) := do
  let l := layout.normalized
  let files ← project.testFiles layout
  let inputs ← project.findFiles l.fuzzInputDir l.inputPattern
  if inputs.isEmpty then
    .record (.warn ("No fuzz inputs found in " ++ l.fuzzInputDir))
  return files.map (fileTest commonPath) ++ inputs.map (fuzzTest l commonPath fuzzPath)

end Project

end AnalyzerConfig
