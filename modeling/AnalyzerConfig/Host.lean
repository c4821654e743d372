import AnalyzerConfig.Layout.Basic
import AnalyzerConfig.Project.Scan

namespace AnalyzerConfig

/-- The machine that a run works on. -/
structure Host (m : Type → Type) where
  pathExists : String → m Bool
  isDirectory : String → m Bool
  isFile : String → m Bool
  readText : String → m (Except FileFault String)
  writeText : String → String → m (Except FileFault Unit)
  /-- The project below a root, as far as the given directories of it show. -/
  look : String → List String → m Project
  print : String → m Unit
  record : LogRecord → m Unit

/-- A machine as a value: its files, the lines printed on it, and its log. -/
structure World where
  files : Filesystem
  printed : List String := []
  log : List LogRecord := []

namespace World

def host : Host (StateM World) where
  pathExists path w := (w.files.pathExists path, w)
  isDirectory path w := (w.files.isDirectory path, w)
  isFile path w := (w.files.isFile path, w)
  readText path w := (w.files.readText path, w)
  writeText path text w :=
    match w.files.writeText path text with
    | .ok files => (.ok (), { w with files })
    | .error fault => (.error fault, w)
  look root _ w := (w.files.project root, w)
  print line w := ((), { w with printed := w.printed ++ [line] })
  record r w := ((), { w with log := w.log ++ [r] })

end World

end AnalyzerConfig
