import AnalyzerConfig.Toml.Basic

namespace AnalyzerConfig.Toml

abbrev Key := List String

inductive Opening where
  /-- A longer header names it on the way. -/
  | implied
  /-- A dotted key names it on the way. -/
  | dotted
  | header
deriving DecidableEq

/-- A member of a table while the table grows. -/
inductive Draft where
  | value (v : Value)
  | table (opening : Opening) (members : List (String × Draft))
  /-- An array of tables, the last of them first. -/
  | tables (items : List (List (String × Draft)))

abbrev DraftTable := List (String × Draft)

namespace DraftTable

def add (t : DraftTable) (k : String) (d : Draft) : DraftTable := t ++ [(k, d)]

def replace (t : DraftTable) (k : String) (d : Draft) : DraftTable :=
  t.map fun member => if member.1 = k then (k, d) else member

/-- Assigns a value to a key that has none. Tables on the way must come from dotted keys. -/
def assign (v : Value) : Key → DraftTable → Option DraftTable
  | [], _ => none
  | [k], t => if (t.lookup k).isSome then none else some (add t k (.value v))
  | k :: ks, t =>
    match t.lookup k with
    | none => (assign v ks []).map fun inner => add t k (.table .dotted inner)
    | some (.table .dotted inner) =>
      (assign v ks inner).map fun inner => replace t k (.table .dotted inner)
    | some _ => none

def openTable (k : String) (t : DraftTable) : Option DraftTable :=
  match t.lookup k with
  | none => some (add t k (.table .header []))
  | some (.table .implied inner) => some (replace t k (.table .header inner))
  | some _ => none

def openItem (k : String) (t : DraftTable) : Option DraftTable :=
  match t.lookup k with
  | none => some (add t k (.tables [[]]))
  | some (.tables items) => some (replace t k (.tables ([] :: items)))
  | some _ => none

/-- Changes the table at the end of a key, and makes the tables on the way. -/
def change (f : DraftTable → Option DraftTable) : Key → DraftTable → Option DraftTable
  | [], t => f t
  | k :: ks, t =>
    match t.lookup k with
    | none => (change f ks []).map fun inner => add t k (.table .implied inner)
    | some (.table opening inner) =>
      (change f ks inner).map fun inner => replace t k (.table opening inner)
    | some (.tables (item :: items)) =>
      (change f ks item).map fun item => replace t k (.tables (item :: items))
    | some _ => none

end DraftTable

mutual

def Draft.finish : Draft → Value
  | .value v => v
  | .table _ members => .table (finishMembers members)
  | .tables items => .array (finishItems items).reverse

def finishMembers : List (String × Draft) → Table
  | [] => []
  | (k, d) :: ms => (k, d.finish) :: finishMembers ms

def finishItems : List (List (String × Draft)) → List Value
  | [] => []
  | t :: ts => .table (finishMembers t) :: finishItems ts

end

/-- The table with the given keys and values, none of them twice. -/
def Table.ofAssignments? (assignments : List (Key × Value)) : Option Table :=
  (assignments.foldlM (fun t a => DraftTable.assign a.2 a.1 t) []).map finishMembers

end AnalyzerConfig.Toml
