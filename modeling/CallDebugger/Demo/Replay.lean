import CallDebugger.Demo.Scene
import CallDebugger.Traced.Peer

/-!
# Replaying calls

An `Application` makes the calls of a script one after the other, each between the two hooks of its
debug server. While a hook waits for the controller the script stands still.
-/

namespace CallDebugger.Demo

/-- A process that replays scripts under a debug server. -/
structure Application (σ : Type) where
  peer : Peer σ
  linker : Linker
  /-- The calls of the script that are not done; the first one is under way. -/
  todo : List Call

namespace Application

variable {σ : Type}

/-- A process that has made no call. -/
def start (peer : Peer σ) : Application σ := ⟨peer, [], []⟩

/-- Stops replaying. -/
def stop (a : Application σ) (r : Except PeerError Unit) : Peer.Outcome × Application σ :=
  (some r, { a with todo := [] })

/-- A call that the debug server has permitted is made and returns. -/
def complete (a : Application σ) (c : Call) : Except PeerError Unit × Application σ :=
  let result := if c.entrypoint = getError then some (Value.symbol 0) else none
  let (linked, linker) := a.linker.apply c
  match a.peer.afterCall result 0 none with
  | (.error e, peer) => (.error e, { a with peer, linker })
  | (.ok (), peer) =>
    (.ok (), { a with peer := if linked then peer else peer.reportCompilerError, linker })

/-- Replays calls until a hook waits or fails. -/
def replay (a : Application σ) : List Call → Peer.Outcome × Application σ
  | [] => a.stop (.ok ())
  | c :: rest =>
    match a.peer.beforeCall c with
    | (none, peer) => (none, { a with peer, todo := c :: rest })
    | (some (.error e), peer) => { a with peer }.stop (.error e)
    | (some (.ok ()), peer) =>
      match { a with peer }.complete c with
      | (.error e, a) => a.stop (.error e)
      | (.ok (), a) => a.replay rest

/-- The hook that waits goes on with the events that have arrived, and with it the script. -/
def wake (a : Application σ) : Peer.Outcome × Application σ :=
  match a.peer.wake with
  | (none, peer) => (none, { a with peer })
  | (some (.error e), peer) => { a with peer }.stop (.error e)
  | (some (.ok ()), peer) =>
    match a.todo with
    | [] => (some (.ok ()), { a with peer })
    | c :: rest =>
      match { a with peer }.complete c with
      | (.error e, a) => a.stop (.error e)
      | (.ok (), a) => a.replay rest

end Application

end CallDebugger.Demo
