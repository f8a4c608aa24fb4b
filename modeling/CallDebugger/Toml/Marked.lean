import CallDebugger.Toml.Document
import CallDebugger.Toml.Moment

/-!
# Marked tables

Below the root of a document that is read as a layer, a table whose first key is `momentMark` does
not stand for itself but for the moment that the string under this key gives. What else the table
holds does not matter. A table whose first key is another one is a table as usual, and so is the
root.
-/

namespace CallDebugger.Toml

/-- The key that makes a table stand for a moment. -/
def momentMark : String := "$__toml_private_datetime"

/-- The moment that the value under the mark gives. -/
def marked? : Toml → Option Toml
  | .string text => momentOfText? text
  | _ => none

mutual

/-- The value with its marked tables replaced; `none` if one of them gives no moment. -/
def unmark? : Toml → Option Toml
  | .array ofTables items => (unmarkItems? items).map (.array ofTables)
  | .table standing entries =>
    match entries.head? with
    | some (key, v) =>
      if key = momentMark then marked? v else (unmarkEntries? entries).map (.table standing)
    | none => some (.table standing [])
  | v => some v

/-- The items with their marked tables replaced. -/
def unmarkItems? : List Toml → Option (List Toml)
  | [] => some []
  | v :: rest => do return (← unmark? v) :: (← unmarkItems? rest)

/-- The values under some keys with their marked tables replaced. -/
def unmarkEntries? : List (String × Toml) → Option (List (String × Toml))
  | [] => some []
  | (key, v) :: rest => do return (key, ← unmark? v) :: (← unmarkEntries? rest)

end

/-- The table that a text amounts to as a layer; `none` if it is no TOML, or a marked table gives no
moment. -/
def readLayer? (text : String) : Option Table := (read? text).bind unmarkEntries?

end CallDebugger.Toml
