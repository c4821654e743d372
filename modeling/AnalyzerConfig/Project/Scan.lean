import AnalyzerConfig.Filesystem.Access
import AnalyzerConfig.Glob.Expression
import AnalyzerConfig.Logged
import AnalyzerConfig.Path.Relative

namespace AnalyzerConfig

/-- A project as a scan sees it: the path of its root, and what lies in the directories below it,
with nothing for a path that leads to no directory. -/
structure Project where
  root : String
  entries? : String → Option (Except FileFault (List Entry))

def Filesystem.project (fs : Filesystem) (root : String) : Project where
  root := root
  entries? dir := (fs.entries? (Path.below root dir)).map .ok

def insertInOrder (p : String) : List String → List String
  | [] => [p]
  | q :: qs => if p ≤ q then p :: q :: qs else q :: insertInOrder p qs

/-- The paths in the order of their characters, which is also that of their bytes. -/
def inOrder (ps : List String) : List String := ps.foldr insertInOrder []

theorem insertInOrder_perm (p : String) (ps : List String) :
    (insertInOrder p ps).Perm (p :: ps) := by
  induction ps with
  | nil => exact .refl _
  | cons q qs ih =>
    unfold insertInOrder
    split
    · exact .refl _
    · exact (ih.cons q).trans (.swap p q qs)

theorem insertInOrder_pairwise {ps : List String} (h : ps.Pairwise (· ≤ ·)) (p : String) :
    (insertInOrder p ps).Pairwise (· ≤ ·) := by
  induction h with
  | nil => simp [insertInOrder]
  | @cons q qs hq h ih =>
    unfold insertInOrder
    split
    · next hle =>
      refine .cons (fun r hr => ?_) (.cons hq h)
      cases hr with
      | head => exact hle
      | tail _ hr => exact String.le_trans hle (hq r hr)
    · next hle =>
      refine .cons (fun r hr => ?_) ih
      cases (insertInOrder_perm p qs).mem_iff.1 hr with
      | head => exact (String.le_total p q).resolve_left hle
      | tail _ hr => exact hq r hr

theorem inOrder_perm (ps : List String) : (inOrder ps).Perm ps := by
  induction ps with
  | nil => exact .refl _
  | cons p ps ih => exact (insertInOrder_perm p _).trans (ih.cons p)

theorem inOrder_pairwise (ps : List String) : (inOrder ps).Pairwise (· ≤ ·) := by
  induction ps with
  | nil => exact .nil
  | cons p ps ih => exact insertInOrder_pairwise ih p

namespace Project

def isVisibleFile (e : Entry) : Bool := e.isFile && !e.name.startsWithDot

/-- Whether a path is a single hyphen, without a dot segment before it. It stands for the standard
input, which holds no files. -/
def isStandardInput (dir : String) : Bool :=
  (Path.segments dir).head? = some "-" ∧ Path.namingSegments dir = ["-"]

/-- The path of an entry from the root, with backslashes read as slashes. -/
def entryPath (root dir : String) (name : Octets) : Except Failure String :=
  match Path.entryFrom root dir name with
  | none => .error (.notRelative dir name root)
  | some none => .error (.nameNotText dir name)
  | some (some p) => .ok (p.map fun c => if c = '\\' then '/' else c)

def selected (p : Glob.Pattern) (entries : List Entry) : List Octets :=
  (entries.filter fun e => isVisibleFile e && Glob.accepts p e.name.bytes).map (·.name)

/-- The files in a directory, not below it, whose names the pattern accepts, as paths from the root
in order. -/
def findFiles (project : Project) (dir pattern : String) : Logged (List String) :=
  match Glob.parse pattern with
  | .error fault => .fail (.badPattern pattern fault)
  | .ok p =>
    if Glob.maxNesting < Glob.nesting p then .fail (.deepPattern (Glob.nestingMessage p))
    else
      match project.entries? dir with
      | none => do
        .record (.warn (dir ++ " is not a directory, nothing to match"))
        return []
      | some (.error fault) => .fail (.unlistable (Path.below project.root dir) fault)
      | some (.ok entries) => do
        let base := Path.below project.root dir
        let names := if isStandardInput base then [] else selected p entries
        let paths ← .ofExcept (names.mapM (entryPath project.root base))
        .record (.debug (dir ++ "/" ++ pattern ++ ": " ++ toString paths.length ++ " match(es)"))
        return inOrder paths

end Project

end AnalyzerConfig
