import CallDebugger.Link.Basic

/-!
# Pending requests

`Requests` numbers the requests of a controller and keeps, for each that was sent and not answered,
on whose behalf it was sent and what is to be done with its reply. A number is used once, also if
the link refuses the request.
-/

namespace CallDebugger

/-- The number of a group of requests that are forgotten together. -/
abbrev HandlerId := Nat

/-- A request that was sent and not answered. `κ` tells what is to be done with the reply. -/
structure PendingRequest (κ : Type) where
  id : Nat
  handler : HandlerId
  callback : κ

/-- The requests of a controller. -/
structure Requests (κ : Type) where
  nextRequest : Nat
  nextHandler : HandlerId
  pending : List (PendingRequest κ)

namespace Requests

variable {κ : Type}

/-- Nothing was asked yet. -/
def empty : Requests κ := ⟨1, 1, []⟩

instance : Inhabited (Requests κ) := ⟨empty⟩

/-- A new group. -/
def register (r : Requests κ) : HandlerId × Requests κ :=
  (r.nextHandler, { r with nextHandler := r.nextHandler + 1 })

/-- Notes a new request, which waits from now on. -/
def note (r : Requests κ) (handler : HandlerId) (callback : κ) : Requests κ :=
  { r with
    nextRequest := r.nextRequest + 1
    pending := r.pending ++ [⟨r.nextRequest, handler, callback⟩] }

/-- Strikes out the request of a number. -/
def strike (r : Requests κ) (id : Nat) : Requests κ :=
  { r with pending := r.pending.filter fun p => p.id != id }

/-- Sends an errand as a new request. It is noted before it is offered, and a request that the link
refuses is struck out again; its number is used up. -/
def issue (r : Requests κ) (link : Link) (handler : HandlerId) (errand : Errand) (callback : κ) :
    Except LinkError Nat × Requests κ × Link :=
  let id := r.nextRequest
  let r := r.note handler callback
  match link.send (.request ⟨UInt64.ofNat id, errand⟩) with
  | (.error e, link) => (.error e, r.strike id, link)
  | (.ok (), link) => (.ok id, r, link)

/-- Whether the request of a number waits for its reply. -/
def isPending (r : Requests κ) (id : Nat) : Bool := r.pending.any fun p => p.id == id

/-- A reply arrives: what is to be done with it, if a request of its number waits. -/
def answer (r : Requests κ) (reply : Reply) : Option κ × Requests κ :=
  match r.pending.find? fun p => p.id == reply.id.toNat with
  | none => (none, r)
  | some p => (some p.callback, r.strike reply.id.toNat)

/-- Forgets the requests of a group; tells how many. -/
def unregister (r : Requests κ) (handler : HandlerId) : Nat × Requests κ :=
  let kept := r.pending.filter fun p => p.handler != handler
  (r.pending.length - kept.length, { r with pending := kept })

/-- Forgets every request. -/
def clear (r : Requests κ) : Requests κ := { r with pending := [] }

/-- Striking out what was just noted leaves nothing new. -/
theorem pending_strike_note (r : Requests κ) (handler : HandlerId) (callback : κ) :
    ((r.note handler callback).strike r.nextRequest).pending =
      r.pending.filter fun p => p.id != r.nextRequest := by
  simp [note, strike]

/-- A reply finds a request of its number, or there is none. -/
theorem answer_cases (r : Requests κ) (reply : Reply) :
    (r.answer reply = (none, r) ∧ ∀ p ∈ r.pending, p.id ≠ reply.id.toNat) ∨
    ∃ p ∈ r.pending, p.id = reply.id.toNat ∧
      r.answer reply = (some p.callback, r.strike reply.id.toNat) := by
  unfold answer
  cases found : r.pending.find? fun p => p.id == reply.id.toNat with
  | none =>
    refine .inl ⟨rfl, ?_⟩
    intro p mem
    simpa using List.find?_eq_none.1 found p mem
  | some p => exact .inr ⟨p, List.mem_of_find?_eq_some found, by simpa using List.find?_some found, rfl⟩

theorem nextRequest_answer (r : Requests κ) (reply : Reply) :
    (r.answer reply).2.nextRequest = r.nextRequest := by
  obtain ⟨eq, -⟩ | ⟨p, -, -, eq⟩ := r.answer_cases reply <;> rw [eq]
  rfl

/-- No request of the number of a reply waits after it. -/
theorem pending_answer (r : Requests κ) (reply : Reply) :
    (r.answer reply).2.pending = r.pending.filter fun p => p.id != reply.id.toNat := by
  obtain ⟨eq, absent⟩ | ⟨p, -, -, eq⟩ := r.answer_cases reply
  · rw [eq]
    symm
    rw [List.filter_eq_self]
    intro p mem
    exact bne_iff_ne.2 (absent p mem)
  · rw [eq]
    rfl

theorem pending_unregister (r : Requests κ) (handler : HandlerId) :
    (r.unregister handler).2.pending = r.pending.filter fun p => p.handler != handler := rfl

end Requests

end CallDebugger
