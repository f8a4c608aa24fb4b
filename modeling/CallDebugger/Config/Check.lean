import CallDebugger.Config.Basic
import CallDebugger.Text.Blank

/-!
# Checking configurations

`Config.violations` lists what is wrong with a configuration, in the order of its settings. An
endpoint is only looked at as far as it may turn out empty.
-/

namespace CallDebugger

/-- A setting whose value is not allowed, and why. -/
structure Violation where
  /-- The setting, after its section and a point. -/
  setting : String
  reason : String
deriving Repr, DecidableEq

/-- The wording of a violation. -/
def Violation.message (v : Violation) : String := "invalid " ++ v.setting ++ ": " ++ v.reason

namespace Config

/-- What is wrong with the text of an endpoint. -/
def endpointViolation? (text : String) : Option Violation :=
  let cs := Blank.trim text.toList
  let mark := "unix:".toList
  if cs.isEmpty then some ⟨"connection.endpoint", "must not be empty"⟩
  else if mark.isPrefixOf cs && (Blank.trim (cs.drop mark.length)).isEmpty then
    some ⟨"connection.endpoint", "unix: endpoint needs a socket path"⟩
  else none

/-- What is wrong with a number that has to be between one and a bound. -/
def rangeViolation? (setting : String) (high : Nat) (n : UInt64) : Option Violation :=
  if 1 ≤ n.toNat && n.toNat ≤ high then none
  else some ⟨setting, "must be 1..=" ++ toString high ++ ", got " ++ toString n.toNat⟩

/-- What is wrong with the length of the history. -/
def historyViolation? (n : UInt64) : Option Violation :=
  if n = 0 then some ⟨"peer.history_len", "must be at least 1"⟩ else none

/-- Everything that is wrong with a configuration. -/
def violations (c : Config) : List Violation :=
  (endpointViolation? c.endpoint).toList ++
    (rangeViolation? "connection.tick_interval_ms" 1000 c.tick).toList ++
    (rangeViolation? "trace.page_size" 10000 c.pageSize).toList ++
    (historyViolation? c.historyLength).toList

end Config

end CallDebugger
