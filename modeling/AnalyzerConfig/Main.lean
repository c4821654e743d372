import AnalyzerConfig.CommandLine

namespace AnalyzerConfig.Main

def faultOf : IO.Error → FileFault
  | .noFileOrDirectory _ _ _ => .notFound
  | .inappropriateType _ code reason =>
    if code = 21 then .isADirectory else if code = 20 then .notADirectory else .other reason
  | .invalidArgument _ 40 _ => .tooManyLinks
  | .invalidArgument _ 36 _ => .nameTooLong
  | .noSuchThing _ 6 _ => .noSuchDevice
  | e => .other e.toString

/-- A path for the system, unless it holds a character that no path of the system holds. -/
def path? (p : String) : Option String := if p.toList.contains '\x00' then none else some p

/-- Runs an action on a path, with a fault in place of an error. -/
def attempt {α : Type} (p : String) (action : String → IO α) : IO (Except FileFault α) := do
  match path? p with
  | none => return .error .notFound
  | some p =>
    match ← (action p).toBaseIO with
    | .ok a => return .ok a
    | .error e => return .error (faultOf e)

def typeOf (p : String) : IO (Option IO.FS.FileType) := do
  let found ← attempt p fun p => do return (← (System.mkFilePath [p]).metadata).type
  return found.toOption

def isDirectory (p : String) : IO Bool := do
  match ← typeOf p with
  | some .dir => return true
  | _ => return false

def isFile (p : String) : IO Bool := do
  match ← typeOf p with
  | some .file => return true
  | _ => return false

def entries? (dir : String) : IO (Option (Except FileFault (List Entry))) := do
  if ← isDirectory dir then
    match ← attempt dir fun dir => (System.mkFilePath [dir]).readDir with
    | .error fault => return some (.error fault)
    | .ok found =>
      let entries ← found.toList.mapM fun e => do
        return { name := .text e.fileName, isFile := ← isFile (Path.below dir e.fileName) }
      return some (.ok entries)
  else
    return none

def readText (p : String) : IO (Except FileFault String) := do
  match ← attempt p fun p => IO.FS.readBinFile p with
  | .error fault => return .error fault
  | .ok bytes =>
    match String.fromUTF8? bytes with
    | some s => return .ok s
    | none => return .error .notText

def look (root : String) (dirs : List String) : IO Project := do
  let seen ← dirs.mapM fun dir => do return (dir, ← entries? (Path.below root dir))
  return { root, entries? := fun dir => (seen.lookup dir).join }

/-- The machine itself. It does not show the log. -/
def host : Host IO where
  pathExists p := return (← typeOf p).isSome
  isDirectory := isDirectory
  isFile := isFile
  readText := readText
  writeText p text := attempt p fun p => IO.FS.writeFile p text
  look := look
  print := IO.println
  record _ := return ()

def usageLines (f : UsageFault) : List String :=
  let reason := match f with
    | .unknownArgument => "unexpected argument found"
    | .invalidValue => "a value is required for an option but none was supplied"
    | .argumentConflict => "an option cannot be used multiple times"
    | .tooManyValues => "unexpected value for an option found"
    | .displayHelp | .displayVersion => ""
  ["error: " ++ reason, "", "Usage: tis_regenerate [OPTIONS]", "",
    "For more information, try '--help'."]

end AnalyzerConfig.Main

def main (args : List String) : IO UInt32 := do
  let workingDir := (← IO.currentDir).toString
  let ending ← AnalyzerConfig.commandLine AnalyzerConfig.Main.host args workingDir
  match ending with
  | .failure f => IO.eprintln ("[ERROR tis_regenerate] " ++ AnalyzerConfig.Ending.logged f)
  | .usage .displayHelp | .usage .displayVersion | .success => pure ()
  | .usage f => (AnalyzerConfig.Main.usageLines f).forM IO.eprintln
  return ending.exitCode.toUInt32
