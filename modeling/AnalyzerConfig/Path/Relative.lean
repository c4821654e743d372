import AnalyzerConfig.Path.Basic

namespace AnalyzerConfig.Path

/-- What a path is made of once everything that names nothing is dropped. A dot counts only at the
start of a relative path. -/
inductive Component where
  | root
  | here
  | up
  | name (n : Octets)
deriving DecidableEq

def Component.ofSegment (s : String) : Component :=
  if s = ".." then .up else .name (.text s)

/-- What a path says about where it starts. -/
def start (p : String) : List Component :=
  if isAbsolute p then [.root] else if (segments p).head? = some "." then [.here] else []

def components (p : String) : List Component :=
  start p ++ (namingSegments p).map Component.ofSegment

/-- What is left of both paths after the components that they share. -/
def dropShared : List Component → List Component → List Component × List Component
  | a :: as, b :: bs => if a = b then dropShared as bs else (a :: as, b :: bs)
  | as, bs => (as, bs)

def upFrom (cs : List Component) : List Component := cs.map fun _ => .up

/-- The steps from the end of the second path to the end of the first, which share no first
component. There are none if the second path goes up first, since its text does not say out of
what. -/
def stepsFrom : List Component → List Component → Option (List Component)
  | as, [] => some as
  | [], bs => some (upFrom bs)
  | _ :: _, .up :: _ => none
  | as, bs => some (upFrom bs ++ as)

/-- The components that lead from the directory `base` to `path`, of which both are absolute or
neither is. -/
def relativeComponents (path base : List Component) : Option (List Component) :=
  let (p, b) := dropShared path base
  stepsFrom p b

def Component.text? : Component → Option String
  | .root => some ""
  | .here => some "."
  | .up => some ".."
  | .name n => n.text?

/-- The path of the entry `name` of the directory `dir`, as seen from `base`. The outer option is
`none` if there is no such path, the inner one if it is not text. An absolute directory seen from a
relative base keeps its text. -/
def entryFrom (base dir : String) (name : Octets) : Option (Option String) :=
  if isAbsolute dir != isAbsolute base then
    if isAbsolute dir then some (name.text?.map (below dir)) else none
  else
    (relativeComponents (components dir ++ [.name name]) (components base)).map fun cs =>
      (cs.mapM Component.text?).map ofSegments

end AnalyzerConfig.Path
