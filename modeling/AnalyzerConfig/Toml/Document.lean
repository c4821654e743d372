import AnalyzerConfig.Toml.Statement

namespace AnalyzerConfig.Toml

/-- The table at the root of a document, and the key of the table that is open. -/
structure Document where
  root : DraftTable := []
  opened : Key := []

namespace Document

/-- Opens the table of a header, where `open?` says how its last key is entered. -/
def enter (d : Document) (k : Key) (open? : String → DraftTable → Option DraftTable) :
    Option Document := do
  let last ← k.getLast?
  return { root := ← DraftTable.change (open? last) k.dropLast d.root, opened := k }

def add (d : Document) : Statement → Option Document
  | .header k => d.enter k DraftTable.openTable
  | .itemHeader k => d.enter k DraftTable.openItem
  | .assign k v => do
    return { d with root := ← DraftTable.change (DraftTable.assign v k) d.opened d.root }

end Document

def dropMark : List Char → List Char
  | '\uFEFF' :: cs => cs
  | cs => cs

/-- The root table of a document, or nothing if the text is no TOML. -/
def parse? (text : String) : Option Table := do
  let cs := dropMark text.toList
  let (statements, _) ← readStatements (2 * cs.length + 2) cs
  let d ← statements.foldlM Document.add {}
  return finishMembers d.root

end AnalyzerConfig.Toml
