import CallDebugger.Config.Table
import CallDebugger.Toml.Marked

/-!
# Layers of configuration

A layer is a document laid over a configuration; marked tables in it stand for moments. Tables are
merged key by key; any other value, arrays included, replaces what is below it.
-/

namespace CallDebugger

namespace Toml

mutual

/-- What is left where a value is laid over what is there. -/
def laidOver (below : Option Toml) : Toml → Toml
  | .table s t =>
    match below with
    | some (.table s' base) => .table s' (overlay base t)
    | _ => .table s t
  | v => v

/-- What is left where a table is laid over another one. -/
def overlay (base : Table) : List (String × Toml) → Table
  | [] => base
  | (key, v) :: rest => overlay (Table.set base key (laidOver (base.lookup key) v)) rest

end

end Toml

/-- Why a layer cannot be laid over a configuration. -/
inductive LayerFault where
  /-- The layer is no TOML, or a value does not fit its setting. -/
  | layer
  /-- The configuration below has a number that is too large for a table. -/
  | base
deriving Repr, DecidableEq

/-- The configuration that is left where a layer is laid over another one. -/
def Config.merge (base : Config) (text : String) : Except LayerFault Config :=
  match Toml.readLayer? text with
  | none => .error .layer
  | some layer =>
    match base.toTable? with
    | none => .error .base
    | some table =>
      match Config.ofTable? .layered (Toml.overlay table layer) with
      | none => .error .layer
      | some c => .ok c

end CallDebugger
