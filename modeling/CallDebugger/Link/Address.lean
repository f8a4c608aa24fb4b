import CallDebugger.Link.Endpoint
import CallDebugger.Link.SocketError
import CallDebugger.Text.Numeral

/-!
# Addresses

What an endpoint comes to on a machine without a network: whether the path of a local socket can be
the address of a socket, and what a host turns out to be. Only the hosts in numbers and the machine
itself are known; the name of any other host is looked up in vain.
-/

namespace CallDebugger

/-- Why a path cannot be the address of a local socket. -/
inductive SocketPathFault where
  | holdsNull
  | tooLong
deriving Repr, DecidableEq

/-- The wording of the fault. -/
def SocketPathFault.message : SocketPathFault → String
  | holdsNull => "paths must not contain interior null bytes"
  | tooLong => "path must be shorter than SUN_LEN"

/-- The bytes of the longest path of a local socket, and one more. -/
def socketPathLimit : Nat := 108

/-- What is wrong with the path of a local socket, if anything is. -/
def socketPathFault? (path : String) : Option SocketPathFault :=
  if path.toList.contains '\x00' then some .holdsNull
  else if socketPathLimit ≤ path.utf8ByteSize then some .tooLong
  else none

/-- What a host turns out to be. -/
inductive HostKind where
  /-- An address of the machine itself, where it can listen. -/
  | own
  /-- An address of four bytes elsewhere. -/
  | elsewhere
  /-- An address of sixteen bytes. -/
  | long
  /-- A name that nobody answers for. -/
  | unanswered
  /-- A text that is no name. -/
  | nameless
deriving Repr, DecidableEq

namespace HostKind

/-- The value of a row of digits, of which there is at least one. -/
def number? (base : Nat) : List Char → Option Nat
  | [] => none
  | cs => Numeral.digits? base 0 cs

/-- The value of one part of an address in numbers, in the base that its first digits tell. -/
def part? : List Char → Option Nat
  | '0' :: 'x' :: cs => number? 16 cs
  | '0' :: 'X' :: cs => number? 16 cs
  | '0' :: c :: cs => number? 8 (c :: cs)
  | cs => number? 10 cs

/-- The value of an address in numbers. Up to four parts that dots part give it: all but the last
stand for one byte each, and the last one, below `bound`, for the bytes that are left. -/
def valueFrom? (acc bound : Nat) : List Nat → Option Nat
  | [] => none
  | [last] => if last < bound then some (acc * bound + last) else none
  | part :: rest =>
    if part < 256 && 256 < bound then valueFrom? (acc * 256 + part) (bound / 256) rest else none

/-- The value of a host in numbers. -/
def value? (host : List Char) : Option Nat :=
  ((Blank.splitOn (· == '.') host).mapM part?).bind (valueFrom? 0 UInt32.size)

/-- Whether a text looks like an address of sixteen bytes. -/
def isLong (host : List Char) : Bool :=
  2 ≤ host.count ':' && host.all fun c => (Numeral.digit? 16 c).isSome || c = ':' || c = '.'

/-- A character of a name. -/
def isNamePart (c : Char) : Bool := c.isAlphanum || c = '-' || c = '_' || c = '.'

/-- What a host turns out to be. -/
def ofHost (host : String) : HostKind :=
  let cs := host.toList
  if cs.map Char.toLower = "localhost".toList then .own
  else
    match value? cs with
    | some n => if n = 0 || n / 16777216 = 127 then .own else .elsewhere
    | none =>
      if isLong cs then .long
      else if cs.all isNamePart && cs.head? ≠ some '-' then .unanswered
      else .nameless

/-- What is said when the name of a host is looked up and not found. -/
def notLookedUp (cause : String) : String := "failed to lookup address information: " ++ cause

/-- Why nobody connects to a host. -/
def connectFailure : HostKind → String
  | own | elsewhere => SocketError.unreachable.message
  | long => SocketError.notAvailable.message
  | unanswered => notLookedUp "Temporary failure in name resolution"
  | nameless => notLookedUp "Name or service not known"

/-- Why nobody can listen at a host, if that is so. -/
def listenFailure? : HostKind → Option String
  | own => none
  | elsewhere => some SocketError.notAvailable.message
  | kind => some kind.connectFailure

end HostKind

end CallDebugger
