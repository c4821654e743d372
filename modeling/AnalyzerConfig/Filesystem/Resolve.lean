import AnalyzerConfig.Filesystem.Basic

namespace AnalyzerConfig

/-- One step along a path. An empty segment, as at a double or trailing slash, stays where it is,
like a dot. -/
inductive Step where
  | slash
  | here
  | up
  | down (n : Octets)
deriving DecidableEq

def Step.ofSegment (s : Octets) : Step :=
  if s = .text "" then .slash
  else if s = .text "." then .here
  else if s = .text ".." then .up
  else .down s

/-- A path as the steps that it takes, from the top directory or from the working directory. -/
structure Route where
  fromTop : Bool
  steps : List Step
deriving DecidableEq

/-- The route that a path takes; the empty path takes no step at all. -/
def Route.ofPath (path : Octets) : Route :=
  match path.segments.map Step.ofSegment with
  | [.slash] => ⟨false, []⟩
  | .slash :: steps => ⟨true, steps⟩
  | steps => ⟨false, steps⟩

def Route.entry (r : Route) (n : Octets) : Route := { r with steps := r.steps ++ [.down n] }

/-- Whether a path has to name something that is there, or may name a file yet to be made. -/
inductive Purpose where
  | find
  | create
deriving DecidableEq

def maxLinks : Nat := 40

def maxPathLength : Nat := 4095

def maxNameLength : Nat := 255

namespace Filesystem

/-- Walks along the steps from a place. At a link, `follow` goes on with the steps of its target
and those that are left. A file yet to be made may be missing, but not with a slash after it, and
not if its name is too long. -/
def walk (fs : Filesystem) (purpose : Purpose)
    (follow : Place → List Step → Except FileFault Place) :
    List Step → Place → Except FileFault Place
  | [], p => .ok p
  | step :: rest, p =>
    match fs.node? p with
    | some .directory =>
      match step with
      | .slash | .here => fs.walk purpose follow rest p
      | .up => fs.walk purpose follow rest p.tail
      | .down n =>
        if purpose = .create ∧ rest ≠ [] ∧ rest.all (· == .slash) then .error .isADirectory
        else
          match fs.node? (n :: p) with
          | none =>
            if maxNameLength < n.bytes.length then .error .nameTooLong
            else if purpose = .create ∧ rest = [] then .ok (n :: p)
            else .error .notFound
          | some (.link target) =>
            let route := Route.ofPath target
            follow (if route.fromTop then [] else p) (route.steps ++ rest)
          | some _ => fs.walk purpose follow rest (n :: p)
    | _ => .error .notADirectory

/-- Walks along the steps from a place, through as many links as `links` says. -/
def walkThrough (fs : Filesystem) (purpose : Purpose) :
    Nat → Place → List Step → Except FileFault Place
  | 0, p, steps => fs.walk purpose (fun _ _ => .error .tooManyLinks) steps p
  | links + 1, p, steps => fs.walk purpose (fs.walkThrough purpose links) steps p

def locate (fs : Filesystem) (purpose : Purpose) (r : Route) : Except FileFault Place :=
  if r.steps = [] then .error .notFound
  else fs.walkThrough purpose maxLinks (if r.fromTop then [] else fs.workingDir) r.steps

/-- What a route leads to, never a link. -/
def found? (fs : Filesystem) (r : Route) : Option Node :=
  match fs.locate .find r with
  | .ok p => fs.node? p
  | .error _ => none

/-- Whether a path is short enough to be looked up. The targets of the links on its way do not add
to its length. -/
def isShort (path : Octets) : Bool := path.bytes.length ≤ maxPathLength

def locatePath (fs : Filesystem) (purpose : Purpose) (path : Octets) : Except FileFault Place :=
  if isShort path then fs.locate purpose (Route.ofPath path) else .error .nameTooLong

end Filesystem

end AnalyzerConfig
