/-!
# Socket errors

The causes for which a socket fails that the system numbers, with their wording.
-/

namespace CallDebugger

/-- Why a socket fails. -/
inductive SocketError where
  | permissionDenied
  | brokenPipe
  | inUse
  | notAvailable
  | unreachable
  | reset
  | timedOut
  | refused
  | noRoute
deriving Repr, DecidableEq, Inhabited

namespace SocketError

/-- Every cause. -/
def all : List SocketError :=
  [permissionDenied, brokenPipe, inUse, notAvailable, unreachable, reset, timedOut, refused,
    noRoute]

/-- The number that the system gives a cause. -/
def code : SocketError → Nat
  | permissionDenied => 13
  | brokenPipe => 32
  | inUse => 98
  | notAvailable => 99
  | unreachable => 101
  | reset => 104
  | timedOut => 110
  | refused => 111
  | noRoute => 113

/-- What the system says about a cause. -/
def text : SocketError → String
  | permissionDenied => "Permission denied"
  | brokenPipe => "Broken pipe"
  | inUse => "Address already in use"
  | notAvailable => "Cannot assign requested address"
  | unreachable => "Network is unreachable"
  | reset => "Connection reset by peer"
  | timedOut => "Connection timed out"
  | refused => "Connection refused"
  | noRoute => "No route to host"

/-- The wording of a cause. -/
def message (e : SocketError) : String := e.text ++ " (os error " ++ toString e.code ++ ")"

/-- The cause that the system means by a number. -/
def ofCode? (n : Nat) : Option SocketError := all.find? fun e => e.code == n

end SocketError

end CallDebugger
