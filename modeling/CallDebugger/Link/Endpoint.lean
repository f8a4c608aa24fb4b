import CallDebugger.Text.Blank
import CallDebugger.Text.Numeral

/-!
# Endpoints

Where a link goes: a host and a port, or the path of a local socket. `Endpoint.read` takes the text
of an endpoint, `Endpoint.render` writes it.
-/

namespace CallDebugger

/-- Where a link connects to or listens on. -/
inductive Endpoint where
  | tcp (host : String) (port : UInt16)
  | unix (path : String)
deriving Repr, DecidableEq, Inhabited

/-- Why a text is no endpoint. -/
inductive EndpointFault where
  | emptySocketPath
  | missingPort
  | missingHost
  | badPort
deriving Repr, DecidableEq

/-- A text that is no endpoint, and why. -/
structure EndpointError where
  input : String
  fault : EndpointFault
deriving Repr, DecidableEq

/-- The wording of the fault. -/
def EndpointFault.message : EndpointFault → String
  | emptySocketPath => "empty socket path"
  | missingPort => "missing port"
  | missingHost => "missing host"
  | badPort => "port is not a number in 0-65535"

/-- The wording of the error. -/
def EndpointError.message (e : EndpointError) : String :=
  "invalid endpoint '" ++ e.input ++ "': " ++ e.fault.message

namespace Endpoint

/-- What stands before the path of a local socket. -/
def socketMark : List Char := "unix:".toList

/-- The host of a bare port. -/
def loopback : String := "127.0.0.1"

/-- The port that a numeral gives. -/
def port? (cs : List Char) : Option UInt16 := (Numeral.read? 10 65536 cs).map UInt16.ofNat

/-- What stands before and after the last character that is `c`. -/
def splitLast? (c : Char) (cs : List Char) : Option (List Char × List Char) :=
  let after := (cs.reverse.takeWhile (· != c)).reverse
  if after.length = cs.length then none
  else some (cs.take (cs.length - after.length - 1), after)

/-- A host without the brackets around it. -/
def stripBrackets (cs : List Char) : List Char :=
  ((cs.dropWhile (· == '[')).reverse.dropWhile (· == ']')).reverse

/-- The endpoint that a text without blanks at its ends stands for: the path after the mark of a
local socket, a bare port, or a host and a port parted by the last colon. -/
def ofChars (cs : List Char) : Except EndpointFault Endpoint :=
  if socketMark.isPrefixOf cs then
    match cs.drop socketMark.length with
    | [] => .error .emptySocketPath
    | path => .ok (.unix (String.ofList path))
  else
    match port? cs with
    | some port => .ok (.tcp loopback port)
    | none =>
      match splitLast? ':' cs with
      | none => .error .missingPort
      | some (host, digits) =>
        match stripBrackets host with
        | [] => .error .missingHost
        | host =>
          match port? digits with
          | none => .error .badPort
          | some port => .ok (.tcp (String.ofList host) port)

/-- The endpoint that a text stands for, blanks at its ends apart. -/
def read (input : String) : Except EndpointError Endpoint :=
  match ofChars (Blank.trim input.toList) with
  | .ok e => .ok e
  | .error fault => .error ⟨input, fault⟩

/-- The text of an endpoint: a host with a colon in it stands in brackets. -/
def render : Endpoint → String
  | tcp host port =>
    let host := if host.toList.contains ':' then "[" ++ host ++ "]" else host
    host ++ ":" ++ toString port.toNat
  | unix path => "unix:" ++ path

end Endpoint

end CallDebugger
