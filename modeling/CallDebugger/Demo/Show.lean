import CallDebugger.Demo.Replay

/-!
# The demonstration as a program

A `Show` waits for a controller, makes the calls of the setup, and then draws frames until it has
drawn enough or a hook fails. It stands still while a hook waits.
-/

namespace CallDebugger.Demo

/-- What a demonstration does one after the other. -/
inductive Act where
  /-- It waits for a controller. -/
  | attach
  | setup
  /-- It draws a frame; so many came before. -/
  | frame (drawn : Nat)
deriving Repr, DecidableEq, Inhabited

/-- What comes after an act. -/
def Act.next : Act → Act
  | attach => setup
  | setup => frame 0
  | frame drawn => frame (drawn + 1)

/-- A demonstration under way. -/
structure Show where
  app : Application Scene
  /-- How many frames are drawn; without a limit, as many as the controller lets it. -/
  limit : Option Nat
  act : Act
  /-- How the demonstration came to an end. -/
  ended : Option (Except PeerError Unit)

namespace Show

/-- A demonstration that listens on a link and keeps a history of the given capacity. -/
def start (link : Link) (capacity : Nat) (limit : Option Nat) : Show where
  app := .start (.listen link Scene.inspector Scene.start capacity)
  limit := limit
  act := .attach
  ended := none

/-- Goes on after an act has come to something. -/
def after (s : Show) : Peer.Outcome × Application Scene → Show
  | (none, app) => { s with app }
  | (some (.error e), app) => { s with app, ended := some (.error e) }
  | (some (.ok ()), app) => { s with app, act := s.act.next }

/-- Performs the act from its beginning. -/
def perform (s : Show) : Show :=
  match s.act with
  | .attach =>
    let (r, peer) := s.app.peer.waitForController
    s.after (r, { s.app with peer })
  | .setup => s.after (s.app.replay setupCalls)
  | .frame drawn =>
    if s.limit.any fun limit => limit ≤ drawn then { s with ended := some (.ok ()) }
    else s.after (s.app.replay frameCalls)

/-- Goes on with the act, or performs it. -/
def step (s : Show) : Show :=
  if s.ended.isSome then s
  else if s.app.peer.inside.isSome then s.after s.app.wake
  else s.perform

end Show

end CallDebugger.Demo
