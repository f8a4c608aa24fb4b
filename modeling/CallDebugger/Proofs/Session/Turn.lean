import CallDebugger.Proofs.Link.Offer
import CallDebugger.Session.Controller

/-!
# Turns of a session

A `Turn` is one thing that happens to a session: a command of its owner, events that arrive on its
link, or the next of them being handled. `Session.run` is a run of turns, `Session.Reached` the
sessions that come about, and pumping is a run of turns, too (`Session.pump_eq_run`).
-/

namespace CallDebugger

/-- One thing that happens to a session. -/
inductive Turn (ι : Type) where
  | connect (endpoint : Endpoint) (link : Link)
  | connectWith (link : Link)
  | disconnect
  | goOn
  | step (mode : StepMode)
  | interrupt
  | terminate
  | setBreakpoints (es : List Entrypoint)
  | configure (settings : BreakSettings)
  | queryTrace (window : TraceWindow)
  | register
  | unregister (handler : HandlerId)
  | request (handler : HandlerId) (errand : Errand) (label : ι)
  | subscribe (name : ObjectName) (kind : ObjectKind) (label : ι)
  | unsubscribe (id : WatchId)
  /-- Events arrive on the link. -/
  | arrive (events : List LinkEvent)
  /-- The next event that waits is handled. -/
  | next

variable {ι : Type}

/-- The link that a turn adopts. -/
def Turn.adopts : Turn ι → List Link
  | .connect _ link | .connectWith link => [link]
  | _ => []

namespace Session

/-- Events arrive on the link, if there is one. -/
def arrive (s : Session ι) (events : List LinkEvent) : Session ι :=
  { s with link := s.link.map fun link => link.push events }

/-- Handles the next event, if one waits. -/
def handleNext (s : Session ι) : Session ι :=
  match s.poll with
  | none => s
  | some (e, s) => s.handle e

/-- The session after a turn. -/
def after (s : Session ι) : Turn ι → Session ι
  | .connect endpoint link => s.connect endpoint link
  | .connectWith link => s.connectWith link
  | .disconnect => s.disconnect
  | .goOn => s.goOn.2
  | .step mode => (s.step mode).2
  | .interrupt => s.interrupt.2
  | .terminate => s.terminate.2
  | .setBreakpoints es => (s.setBreakpoints es).2
  | .configure settings => (s.configure settings).2
  | .queryTrace window => (s.queryTrace window).2
  | .register => s.register.2
  | .unregister handler => s.unregister handler
  | .request handler errand label => (s.request handler errand label).2
  | .subscribe name kind label => (s.subscribe name kind label).2
  | .unsubscribe id => (s.unsubscribe id).2
  | .arrive events => s.arrive events
  | .next => s.handleNext

/-- The session after turns, the first one first. -/
def run (s : Session ι) (ts : List (Turn ι)) : Session ι := ts.foldl after s

@[simp] theorem run_cons (s : Session ι) (t : Turn ι) (ts : List (Turn ι)) :
    s.run (t :: ts) = (s.after t).run ts := rfl

/-- Pumping handles so many events, one after the other. -/
theorem pumpUpTo_eq_run (limit : Nat) (s : Session ι) :
    (pumpUpTo limit s).2 = s.run (.replicate (pumpUpTo limit s).1 .next) := by
  induction limit generalizing s with
  | zero => rfl
  | succ limit ih =>
    rw [pumpUpTo]
    cases h : s.poll with
    | none => rfl
    | some polled =>
      obtain ⟨e, s'⟩ := polled
      have first : s.after .next = s'.handle e := by
        rw [after, handleNext, h]
      simp only
      rw [List.replicate_succ, run_cons, first]
      exact ih (s'.handle e)

/-- Pumping is a run of turns. -/
theorem pump_eq_run (s : Session ι) : s.pump.2 = s.run (.replicate s.pump.1 .next) :=
  pumpUpTo_eq_run s.waiting s

/-- The sessions that come about by turns and pumps, with the links that were adopted, the first
one first. -/
inductive Reached : List Link → Session ι → Prop where
  | new : Reached [] new
  | turn {adopted : List Link} {s : Session ι} (h : Reached adopted s) (t : Turn ι) :
      Reached (adopted ++ t.adopts) (s.after t)
  | pump {adopted : List Link} {s : Session ι} (h : Reached adopted s) : Reached adopted s.pump.2

/-- Every link that was adopted and not lost sight of: those given up, then the one in use. -/
def links (s : Session ι) : List Link := s.retired ++ s.link.toList

/-- What every turn keeps, pumping keeps. -/
theorem pump_induction {P : Session ι → Prop} (step : ∀ s, P s → P (s.after .next))
    {s : Session ι} (h : P s) : P s.pump.2 := by
  rw [pump_eq_run]
  generalize s.pump.1 = n
  induction n generalizing s with
  | zero => exact h
  | succ n ih => exact ih (step s h)

end Session

end CallDebugger
