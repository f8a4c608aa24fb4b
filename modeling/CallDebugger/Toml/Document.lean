import CallDebugger.Toml.Statement

/-!
# TOML documents

The table that the statements of a document amount to. A setting goes into the table of the last
header before it.
-/

namespace CallDebugger.Toml

/-- A document as far as its statements were carried out. -/
structure Document where
  root : Table
  /-- The last header; empty before the first one. -/
  current : List String
deriving Repr, Inhabited

namespace Document

/-- A document without statements. -/
def empty : Document := ⟨[], []⟩

/-- Carries out a statement; `none` if it defines something again. -/
def carryOut? (d : Document) : Statement → Option Document
  | .header path => do return ⟨← Table.openTable? path d.root, path⟩
  | .element path => do return ⟨← Table.openElement? path d.root, path⟩
  | .setting path value => do
    let (_, root) ← Table.change? false (Table.define? path value) d.current .header d.root
    return { d with root }

end Document

/-- The table that a text amounts to; `none` if it is no TOML. -/
def read? (text : String) : Option Table := do
  let d ← (← Statement.all? text).foldlM Document.carryOut? .empty
  return d.root

end CallDebugger.Toml
