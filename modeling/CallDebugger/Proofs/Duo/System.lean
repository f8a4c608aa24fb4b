import CallDebugger.Proofs.Session.Consistency
import CallDebugger.Traced.Peer

/-!
# A controller and a traced process

A `Duo` is a session and the debug server of a process, joined by two queues of messages. The
session takes turns, the process performs what it has to do, messages arrive in order, and all of
this in any order (`Duo.Step`). No link of a duo refuses anything, and neither side gives its link
up. What the process has done is kept in `Duo.deeds`, which nothing reads.
-/

namespace CallDebugger

variable {ι σ : Type}

/-! ## What travels -/

/-- The message that arrives by an event. -/
def LinkEvent.message? : LinkEvent → Option Message
  | .message m => some m
  | _ => none

/-- An event that a link makes by itself while it is up. -/
def LinkEvent.isSignal : LinkEvent → Bool
  | .connected | .sendingStarted | .sendingStopped => true
  | .message _ | .disconnected _ => false

/-- The messages that arrive by events. -/
def messages (es : List LinkEvent) : List Message := es.filterMap LinkEvent.message?

namespace Message

/-- A message by which the process answers orders. -/
def isAnswer : Message → Bool
  | .trace _ | .reply _ => true
  | _ => false

/-- The pause that a message announces. -/
def pause? : Message → Option Pause
  | .paused pause => some pause
  | _ => none

end Message

/-! ## What the process does -/

/-- What a traced process can do about its debug server. -/
inductive Activity where
  /-- It waits for a controller. -/
  | attach
  | before (c : Call)
  | after (result : Option Value) (error : UInt32) (output : Option String)
  | compilerError
  /-- The hook that waits goes on. -/
  | wake

/-- An activity by which a process reports something, and handles nothing. -/
def Activity.isReport : Activity → Bool
  | .after .. | .compilerError => true
  | .attach | .before _ | .wake => false

/-- Something that a process has done. -/
inductive Deed where
  | handled (m : Message)
  | sent (m : Message)
  /-- It was let through to the call. -/
  | ran (c : Call)

/-- The pause that is announced and not ended after a deed. -/
def Deed.next (announced : Option Pause) : Deed → Option Pause
  | .sent (.paused pause) => some pause
  | .handled m => if m.releases then none else announced
  | _ => announced

/-- The pause that a process has announced, if it was not let go on since. -/
def outstanding (deeds : List Deed) : Option Pause := deeds.foldl Deed.next none

namespace Peer

/-- The process does something. -/
def perform (p : Peer σ) : Activity → Outcome × Peer σ
  | .attach => p.waitForController
  | .before c => p.beforeCall c
  | .after result error output =>
    let (r, p) := p.afterCall result error output
    (some r, p)
  | .compilerError => (none, p.reportCompilerError)
  | .wake => p.wake

/-- The call that an activity may let through. -/
def awaited (p : Peer σ) : Activity → List Call
  | .before c => [c]
  | .wake =>
    match p.inside with
    | some (.call c) => [c]
    | _ => []
  | _ => []

/-- The call that is let through by a hook with a result. -/
def through (awaited : List Call) : Outcome → List Call
  | some (.ok ()) => awaited
  | _ => []

/-- What an activity comes to: the messages that it takes from the link, those that it sends, and
the call that it lets through. -/
def deeds (p : Peer σ) (a : Activity) : List Deed :=
  let (r, p') := p.perform a
  let gone := p.link.inbox.take (p.link.inbox.length - p'.link.inbox.length)
  let sent := p'.link.sent.drop p.link.sent.length
  (messages gone).map .handled ++ sent.map .sent ++ (through (p.awaited a) r).map .ran

end Peer

/-! ## The system -/

/-- The turns that leave it to the system what link a session has, and what arrives on it. -/
def Turn.isOwn : Turn ι → Bool
  | .connect .. | .connectWith _ | .disconnect | .arrive _ => false
  | _ => true

/-- A session and the debug server of a process. -/
structure Duo (ι σ : Type) where
  session : Session ι
  peer : Peer σ
  /-- What was sent to the process and has not arrived. -/
  outward : List Message
  /-- What was sent to the session and has not arrived. -/
  inward : List Message
  /-- The process has begun to wait for a controller. -/
  begun : Bool
  deeds : List Deed

namespace Duo

/-- The session takes a turn. What it sends goes out. -/
def take (d : Duo ι σ) (t : Turn ι) : Duo ι σ :=
  let sent := match d.session.link, (d.session.after t).link with
    | some l, some l' => l'.sent.drop l.sent.length
    | _, _ => []
  { d with session := d.session.after t, outward := d.outward ++ sent }

/-- The process does something. What it sends goes out. -/
def act (d : Duo ι σ) (a : Activity) : Duo ι σ :=
  let p := (d.peer.perform a).2
  { d with
    peer := p
    inward := d.inward ++ p.link.sent.drop d.peer.link.sent.length
    begun := true
    deeds := d.deeds ++ d.peer.deeds a }

/-- A process first waits for a controller. From then on it does one thing after the other. -/
def Allows (d : Duo ι σ) : Activity → Prop
  | .attach => d.begun = false
  | .wake => d.peer.inside.isSome = true
  | _ => d.begun = true ∧ d.peer.inside = none

/-- One step of a duo. -/
inductive Step (d : Duo ι σ) : Duo ι σ → Prop where
  | take (t : Turn ι) (own : t.isOwn = true) : Step d (d.take t)
  | act (a : Activity) (allowed : d.Allows a) : Step d (d.act a)
  | outward {m : Message} {rest : List Message} (next : d.outward = m :: rest) :
      Step d { d with peer := d.peer.arrive [.message m], outward := rest }
  | inward {m : Message} {rest : List Message} (next : d.inward = m :: rest) :
      Step d { d with session := d.session.arrive [.message m], inward := rest }
  | peerSignal (e : LinkEvent) (signal : e.isSignal = true) :
      Step d { d with peer := d.peer.arrive [e] }
  | sessionSignal (e : LinkEvent) (signal : e.isSignal = true) :
      Step d { d with session := d.session.arrive [e] }

/-- The duos that come about once a session, whatever it did before, has adopted a link to a
process. -/
inductive Reachable : Duo ι σ → Prop where
  | start {adopted : List Link} {s : Session ι} (h : Session.Reached adopted s) {t : Turn ι}
      {l k : Link} (adopts : t.adopts = [l]) (ours : l.Open) (theirs : k.Open)
      (fresh : l.inbox = []) (fresh' : k.inbox = []) (inspector : Inspector σ) (objects : σ)
      (capacity : Nat) :
      Reachable ⟨s.after t, .listen k inspector objects capacity, [], [], false, []⟩
  | step {d d' : Duo ι σ} (h : Reachable d) (step : Step d d') : Reachable d'

/-- What was sent to the process and not handled, the first one first. -/
def toPeer (d : Duo ι σ) : List Message := messages d.peer.link.inbox ++ d.outward

/-- What was sent to the session and not handled, the first one first. -/
def toSession (d : Duo ι σ) : List Message :=
  messages ((d.session.link.map Link.inbox).getD []) ++ d.inward

end Duo

end CallDebugger
