import AnalyzerConfig.Octets

namespace AnalyzerConfig

/-- Where something lies: the names that lead to it from the top directory, the last one first. -/
abbrev Place := List Octets

inductive Node where
  | directory
  | file (contents : Octets)
  | link (target : Octets)
  /-- Something that is there and cannot be opened as a file. -/
  | socket
deriving DecidableEq

/-- The nodes below the top directory. A place holds the node that the list gives for it first, and
a node whose parent is no directory is out of reach. -/
structure Filesystem where
  nodes : List (Place × Node) := []
  workingDir : Place := []

/-- Why a path could not be read or written. -/
inductive FileFault where
  | notFound
  | notADirectory
  | isADirectory
  | tooManyLinks
  | nameTooLong
  | notText
  | noSuchDevice
  /-- Anything else, in the words of the system. -/
  | other (reason : String)
deriving DecidableEq

def FileFault.message : FileFault → String
  | .notFound => "No such file or directory (os error 2)"
  | .notADirectory => "Not a directory (os error 20)"
  | .isADirectory => "Is a directory (os error 21)"
  | .tooManyLinks => "Too many levels of symbolic links (os error 40)"
  | .nameTooLong => "File name too long (os error 36)"
  | .notText => "stream did not contain valid UTF-8"
  | .noSuchDevice => "No such device or address (os error 6)"
  | .other reason => reason

namespace Filesystem

/-- What lies at a place. The top directory is always there. -/
def node? (fs : Filesystem) : Place → Option Node
  | [] => some .directory
  | p => fs.nodes.lookup p

/-- The last name of a place, if the rest of it is the directory `dir`. -/
def nameIn (dir : Place) : Place → Option Octets
  | [] => none
  | n :: parent => if parent = dir then some n else none

/-- The names in a directory, each once and in no order that means anything. -/
def names (fs : Filesystem) (dir : Place) : List Octets :=
  (fs.nodes.filterMap fun entry => nameIn dir entry.1).eraseDups

def put (fs : Filesystem) (p : Place) (node : Node) : Filesystem :=
  { fs with nodes := (p, node) :: fs.nodes.filter (·.1 ≠ p) }

theorem lookup_filter_ne {p q : Place} (h : q ≠ p) (nodes : List (Place × Node)) :
    (nodes.filter (·.1 ≠ p)).lookup q = nodes.lookup q := by
  induction nodes with
  | nil => rfl
  | cons entry nodes ih =>
    obtain ⟨r, node⟩ := entry
    by_cases hr : r = p
    · have hq : (q == r) = false := by simpa [hr] using h
      rw [List.filter_cons_of_neg (by simpa using hr), ih, List.lookup_cons, hq]
    · rw [List.filter_cons_of_pos (by simpa using hr), List.lookup_cons, List.lookup_cons, ih]

theorem node?_put (fs : Filesystem) {p : Place} (hp : p ≠ []) (node : Node) (q : Place) :
    (fs.put p node).node? q = if q = p then some node else fs.node? q := by
  cases q with
  | nil => simp [node?, Ne.symm hp]
  | cons n q =>
    by_cases h : n :: q = p
    · simp [node?, put, h]
    · have hb : (n :: q == p) = false := by simpa using h
      simp only [node?, put, List.lookup_cons, hb, if_neg h]
      exact lookup_filter_ne h fs.nodes

end Filesystem

end AnalyzerConfig
