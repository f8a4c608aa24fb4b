import CallDebugger.Proofs.Session.Endings

/-!
# The order of notices

Every notice goes back to one connection, if to any: the owner asks for the connection, something
happens on it, or it ends (`Cause`). `Play.tale` tells the notices of a play with their causes, and
the notices of a run are the tales of its plays, one after the other (`chronicle`).

A connection is over before the next one begins, and so are its notices, with one exception. A
session that is asked to connect while it has a link says so first, and gives up the link then: the
end of the old connection is told right behind the first notice of the new one
(`Session.notices_by_connection`).
-/

namespace CallDebugger

variable {ι : Type}

/-- What a notice goes back to. Connections are told apart by the places of their links. -/
inductive Cause where
  /-- The owner asks for a connection. -/
  | opening (place : Nat)
  /-- Something happens on a connection. -/
  | course (place : Nat)
  /-- A connection ends. -/
  | ending (place : Nat)
  /-- The owner gives up a link where there is none. -/
  | nothing
deriving Repr, DecidableEq

/-- The place of the connection that a notice is about. -/
def Cause.place? : Cause → Option Nat
  | opening place | course place | ending place => some place
  | nothing => none

namespace Session

/-- What the owner is told who asks for a connection. -/
def announces (endpoint : Endpoint) : Notice ι :=
  .status ("Connecting to " ++ endpoint.render ++ "...")

/-- What the owner is told who gives up the link in use, if there is one. -/
def farewell (s : Session ι) : List (Cause × Notice ι) :=
  if s.link.isSome then [(.ending s.retired.length, .status "Disconnected.")] else []

end Session

/-- The notices of a play with their causes. A link that is lost is told by a notice of its own; all
other notices of a play in which the owner neither adopts a link nor gives one up are about what
happens on the link in use. -/
def Play.tale (p : Play ι) : List (Cause × Notice ι) :=
  match p.turn with
  | .connect endpoint _ =>
    (.opening p.before.links.length, Session.announces endpoint) :: p.before.farewell
  | .connectWith _ => p.before.farewell
  | .disconnect =>
    if p.before.link.isSome then p.before.farewell else [(.nothing, .status "Disconnected.")]
  | _ => p.told.map fun n =>
    (if n.loss?.isSome then .ending p.before.retired.length else .course p.before.retired.length, n)

/-- The notices of plays with their causes. -/
def chronicle (ps : List (Play ι)) : List (Cause × Notice ι) := ps.flatMap Play.tale

namespace Session

variable {s s' : Session ι} {t : Turn ι}

/-! ## Connecting and giving up -/

theorem log_disconnect (s : Session ι) :
    s.disconnect.log = s.log ++ [.status "Disconnected."] := by
  rw [disconnect, dropLink_eq]
  rfl

theorem log_connectWith (s : Session ι) (link : Link) :
    (s.connectWith link).log = s.log ++ s.farewell.map Prod.snd := by
  unfold connectWith farewell
  split
  · exact s.log_disconnect
  · exact (List.append_nil _).symm

/-- A session says that it connects, and only then that the link it had is given up. -/
theorem log_connect (s : Session ι) (endpoint : Endpoint) (link : Link) :
    (s.connect endpoint link).log =
      s.log ++ announces endpoint :: s.farewell.map Prod.snd := by
  have later := log_connectWith (s.status ("Connecting to " ++ endpoint.render ++ "...")) link
  rw [connect, later, List.append_cons]
  rfl

/-- No endpoint makes the announcement of a connection a farewell. -/
theorem announces_ne_farewell (endpoint : Endpoint) :
    (announces endpoint : Notice ι) ≠ .status "Disconnected." := by
  intro same
  have texts := congrArg String.toList (Notice.status.inj same)
  rw [String.toList_append, String.toList_append] at texts
  simp at texts

/-- A link that is adopted comes after all others. -/
theorem uses_of_adopts (s : Session ι) (adopts : t.adopts ≠ []) :
    (s.after t).Uses s.links.length := by
  have places (s : Session ι) (link : Link) : (s.connectWith link).Uses s.links.length := by
    obtain ⟨linked, retired⟩ := link_connectWith s link
    refine ⟨by rw [linked]; rfl, ?_⟩
    rw [retired, links, List.length_append, List.length_append]
    cases s.link <;> rfl
  cases t with
  | connect endpoint link => exact places (s.status _) link
  | connectWith link => exact places s link
  | _ => exact absurd rfl adopts

/-- Where there is no link, nothing is told but that one is adopted or given up. -/
theorem Effect.log_of_none (effect : Effect s t s') (gone : s.link = none)
    (kind : t ≠ .disconnect ∧ t.adopts = []) : s'.log = s.log := by
  have apart {l : Link} (linked : s.link = some l) : s'.log = s.log := by
    rw [gone] at linked
    nomatch linked
  cases effect with
  | connect | connectWith => exact absurd kind.2 (List.cons_ne_nil _ _)
  | disconnect => exact absurd rfl kind.1
  | register | unregister | subscribe | unsubscribe | arrive | idle => rfl
  | declined => cases t <;> rfl
  | refused linked | granted linked | noticed linked | ended linked | rejected linked
  | greeted linked | unsynced linked | unqueried linked | paused linked | traced linked
  | replied linked => exact apart linked

end Session

/-! ## The tale of a play -/

namespace Play

open Session

variable {p : Play ι} {i : Nat} {c : Cause} {n : Notice ι}

/-- What is the case in a play that has a cause for a notice. -/
def Bears (p : Play ι) : Cause → Prop
  | .opening i => p.turn.adopts ≠ [] ∧ p.after.Uses i
  | .course i => p.before.Uses i
  | .ending i => p.Ends i
  | .nothing => p.turn = .disconnect ∧ p.before.link = none

theorem told_of_log {told : List (Notice ι)} (log : p.after.log = p.before.log ++ told) :
    p.told = told := by
  rw [Play.told, log, List.drop_left]

theorem tale_of_other (kind : p.turn ≠ .disconnect ∧ p.turn.adopts = []) :
    p.tale = p.told.map fun n =>
      (if n.loss?.isSome then .ending p.before.retired.length
        else .course p.before.retired.length, n) := by
  obtain ⟨s, t⟩ := p
  cases t with
  | disconnect => exact absurd rfl kind.1
  | connect | connectWith => exact absurd kind.2 (List.cons_ne_nil _ _)
  | _ => rfl

/-- The owner is told the tale of the play, and nothing else. -/
theorem told_eq_tale (p : Play ι) : p.told = p.tale.map Prod.snd := by
  by_cases kind : p.turn ≠ .disconnect ∧ p.turn.adopts = []
  · rw [tale_of_other kind, List.map_map]
    exact (List.map_id _).symm
  · obtain ⟨s, t⟩ := p
    cases t with
    | connect endpoint link => exact told_of_log (s.log_connect endpoint link)
    | connectWith link => exact told_of_log (s.log_connectWith link)
    | disconnect =>
      rw [told_of_log (p := ⟨s, .disconnect⟩) s.log_disconnect]
      simp only [tale, farewell]
      split <;> rfl
    | _ => exact absurd ⟨nofun, rfl⟩ kind

/-- A link in use that the owner gives up ends. -/
theorem bears_farewell (h : p.before.Consistent) (gives : p.before.GivesUp p.turn)
    (mem : (c, n) ∈ p.before.farewell) : p.Bears c := by
  unfold farewell at mem
  split at mem
  · obtain ⟨rfl, -⟩ := Prod.mk.inj (List.mem_singleton.1 mem)
    exact (ends_iff h).2 ⟨⟨‹_›, rfl⟩, gives⟩
  · exact absurd mem List.not_mem_nil

/-- The cause of a notice is the case in its play. -/
theorem bears_of_mem_tale (h : p.before.Consistent) (mem : (c, n) ∈ p.tale) : p.Bears c := by
  by_cases kind : p.turn ≠ .disconnect ∧ p.turn.adopts = []
  · rw [tale_of_other kind, List.mem_map] at mem
    obtain ⟨m, told, same⟩ := mem
    have account := account h
    have linked : p.before.link.isSome = true := by
      refine Option.isSome_iff_ne_none.2 fun gone => ?_
      have silent := (effect h.tied p.turn).log_of_none gone kind
      rw [told_of_log (silent.trans (List.append_nil _).symm)] at told
      exact List.not_mem_nil told
    split at same
    · obtain ⟨rfl, rfl⟩ := Prod.mk.inj same
      -- The loss that is told is the one that the play suffers.
      have lost : (p.before.loss? p.turn).isSome = true := by
        obtain ⟨reason, isLoss⟩ := Option.isSome_iff_exists.1 ‹m.loss?.isSome = true›
        have listed := List.mem_filterMap.2 ⟨m, told, isLoss⟩
        rw [account.losses, Option.mem_toList] at listed
        exact Option.isSome_iff_exists.2 ⟨reason, listed⟩
      exact (ends_iff h).2 ⟨⟨linked, rfl⟩, .inr (.inr lost)⟩
    · obtain ⟨rfl, rfl⟩ := Prod.mk.inj same
      exact ⟨linked, rfl⟩
  · obtain ⟨s, t⟩ := p
    cases t with
    | connect endpoint link =>
      have gives : s.GivesUp (.connect endpoint link) := .inr (.inl (List.cons_ne_nil _ _))
      rcases List.mem_cons.1 mem with same | mem
      · obtain ⟨rfl, -⟩ := Prod.mk.inj same
        exact ⟨List.cons_ne_nil _ _, uses_of_adopts s (List.cons_ne_nil _ _)⟩
      · exact bears_farewell h gives mem
    | connectWith link => exact bears_farewell h (.inr (.inl (List.cons_ne_nil _ _))) mem
    | disconnect =>
      simp only [tale] at mem
      split at mem
      · exact bears_farewell h (.inl rfl) mem
      · obtain ⟨rfl, -⟩ := Prod.mk.inj (List.mem_singleton.1 mem)
        exact ⟨rfl, Option.not_isSome_iff_eq_none.1 ‹_›⟩
    | _ => exact absurd ⟨nofun, rfl⟩ kind

/-- The end of a link is told in the play that ends it. -/
theorem exists_of_ends (h : p.before.Consistent) (ends : p.Ends i) :
    ∃ n, (.ending i, n) ∈ p.tale := by
  obtain ⟨⟨linked, place⟩, gives⟩ := (ends_iff h).1 ends
  have farewell : (.ending i, .status "Disconnected.") ∈ p.before.farewell := by
    rw [Session.farewell, if_pos linked, place]
    exact List.mem_singleton_self _
  by_cases kind : p.turn ≠ .disconnect ∧ p.turn.adopts = []
  · have lost : p.loss?.isSome = true := gives.elim (absurd · kind.1) (·.elim (absurd kind.2) id)
    obtain ⟨reason, loss⟩ := Option.isSome_iff_exists.1 lost
    have listed : reason ∈ p.told.filterMap Notice.loss? := by
      rw [(account h).losses, Option.mem_toList]
      exact loss
    obtain ⟨n, told, isLoss⟩ := List.mem_filterMap.1 listed
    refine ⟨n, ?_⟩
    rw [tale_of_other kind, List.mem_map]
    exact ⟨n, told, by rw [isLoss, place]; rfl⟩
  · refine ⟨.status "Disconnected.", ?_⟩
    obtain ⟨s, t⟩ := p
    cases t with
    | connect => exact List.mem_cons_of_mem _ farewell
    | connectWith => exact farewell
    | disconnect =>
      have linked : s.link.isSome = true := linked
      simp only [tale, if_pos linked]
      exact farewell
    | _ => exact absurd ⟨nofun, rfl⟩ kind

/-- Notices are about the connection in use, or about the one that replaces it. -/
theorem place_of_mem_tale (h : p.before.Consistent) (mem : (c, n) ∈ p.tale)
    (place : c.place? = some i) :
    p.before.retired.length ≤ i ∧ i ≤ p.after.retired.length := by
  have kept : p.before.retired.length ≤ p.after.retired.length := (h.retired_after p.turn).length_le
  have bears := bears_of_mem_tale h mem
  cases c with
  | opening j =>
    cases place
    exact ⟨bears.2.2 ▸ kept, Nat.le_of_eq bears.2.2⟩
  | course j =>
    cases place
    exact ⟨Nat.le_of_eq bears.2.symm, bears.2 ▸ kept⟩
  | ending j =>
    cases place
    exact ⟨Nat.le_of_eq bears.1.2.symm, bears.1.2 ▸ kept⟩
  | nothing => nomatch place

end Play

namespace Session

/-! ## Runs -/

variable {s : Session ι} {ts : List (Turn ι)}

/-- What the owner is told in a run is the chronicle of its plays. -/
theorem Consistent.log_eq_chronicle (h : s.Consistent) (ts : List (Turn ι)) :
    (s.run ts).log = s.log ++ (chronicle (s.plays ts)).map Prod.snd := by
  rw [h.log_run, chronicle, List.map_flatMap, funext Play.told_eq_tale]

/-- No notice of a run is about a connection that was given up before. -/
theorem Consistent.place_le (h : s.Consistent) {c : Cause} {n : Notice ι} {i : Nat}
    (mem : (c, n) ∈ chronicle (s.plays ts)) (place : c.place? = some i) :
    s.retired.length ≤ i := by
  obtain ⟨p, played, mem⟩ := List.mem_flatMap.1 mem
  obtain ⟨us, before⟩ := before_of_mem_plays played
  have kept : s.retired.length ≤ p.before.retired.length :=
    before ▸ (h.retired_run us).length_le
  exact Nat.le_trans kept (Play.place_of_mem_tale (h.of_mem_plays played) mem place).1

/-- The end of the connection at a place is told after something about a later connection. -/
def Belated (ns : List (Cause × Notice ι)) (i : Nat) (x y : Cause × Notice ι) : Prop :=
  [x, y].Sublist ns ∧ y.1 = .ending i ∧ ∃ j ∈ x.1.place?, i < j

/-- In a play, a session that has the link at a place is asked to connect, says so, and tells of the
end of that link after it. -/
def Swaps (p : Play ι) (i : Nat) (x y : Cause × Notice ι) : Prop :=
  p.before.Uses i ∧ ∃ endpoint link, p.turn = .connect endpoint link ∧
    x = (.opening (i + 1), announces endpoint) ∧ y = (.ending i, .status "Disconnected.")

variable {i : Nat} {x y : Cause × Notice ι} {p : Play ι}

theorem tale_of_swaps (h : Swaps p i x y) : p.tale = [x, y] := by
  obtain ⟨s, t⟩ := p
  obtain ⟨⟨linked, place⟩, endpoint, link, turn, rfl, rfl⟩ := h
  have linked : s.link.isSome = true := linked
  have place : i = s.retired.length := place
  have next : s.links.length = i + 1 := by
    obtain ⟨l, isLink⟩ := Option.isSome_iff_exists.1 linked
    rw [links, isLink, List.length_append, place]
    rfl
  cases turn
  simp only [Play.tale, farewell, if_pos linked, next, place]

/-- Within a play, the end of a connection is told too late only by a session that is asked to
connect while it has a link. -/
theorem swaps_of_belated (h : p.before.Consistent) (belated : Belated p.tale i x y) :
    Swaps p i x y := by
  obtain ⟨order, ending, j, place, later⟩ := belated
  have mem : x ∈ p.tale ∧ y ∈ p.tale :=
    ⟨order.subset List.mem_cons_self, order.subset (List.mem_cons_of_mem _ List.mem_cons_self)⟩
  have ends : p.Ends i := by
    have bears := Play.bears_of_mem_tale h (c := y.1) (n := y.2) mem.2
    rw [ending] at bears
    exact bears
  obtain ⟨⟨linked, here⟩, -⟩ := ends
  -- Only the first notice of a connection is about a place behind the link in use.
  obtain ⟨c, n⟩ := x
  have bears := Play.bears_of_mem_tale h mem.1
  cases c with
  | nothing => nomatch place
  | course k | ending k =>
    cases place
    have there : j = p.before.retired.length := by first | exact bears.2 | exact bears.1.2
    omega
  | opening k =>
    obtain ⟨adopts, -⟩ := bears
    obtain ⟨s, t⟩ := p
    cases t with
    | connect endpoint link =>
      refine ⟨⟨linked, here⟩, endpoint, link, rfl, ?_⟩
      have tale := tale_of_swaps (p := ⟨s, .connect endpoint link⟩)
        ⟨⟨linked, here⟩, endpoint, link, rfl, rfl, rfl⟩
      rw [tale] at order
      have same := order.eq_of_length rfl
      exact ⟨List.head_eq_of_cons_eq same,
        List.head_eq_of_cons_eq (List.tail_eq_of_cons_eq same)⟩
    | connectWith link =>
      have linked : s.link.isSome = true := linked
      have first := mem.1
      simp only [Play.tale, farewell, if_pos linked, List.mem_singleton, Prod.mk.injEq,
        reduceCtorEq, false_and] at first
    | _ => exact absurd rfl adopts

/-- Notices of different plays are never belated: a play tells of no connection behind the one in
use after it, and later plays tell of no end before that one. -/
theorem Consistent.swaps_of_belated (h : s.Consistent)
    (belated : Belated (chronicle (s.plays ts)) i x y) : ∃ p ∈ s.plays ts, Swaps p i x y := by
  induction ts generalizing s with
  | nil => nomatch belated.1
  | cons t ts ih =>
    obtain ⟨order, ending, j, place, later⟩ := belated
    obtain ⟨front, back, split, inFirst, inRest⟩ := List.sublist_append_iff.1 order
    rcases front with _ | ⟨z, _ | ⟨w, front⟩⟩
    · cases split
      obtain ⟨p, mem, swaps⟩ := ih (h.after t) ⟨inRest, ending, j, place, later⟩
      exact ⟨p, List.mem_cons_of_mem _ mem, swaps⟩
    · cases split
      have told : (x.1, x.2) ∈ (Play.mk s t).tale := inFirst.subset List.mem_cons_self
      have toldLater : (y.1, y.2) ∈ chronicle ((s.after t).plays ts) :=
        inRest.subset List.mem_cons_self
      have upTo := (Play.place_of_mem_tale (p := ⟨s, t⟩) h told place).2
      have upTo : j ≤ (s.after t).retired.length := upTo
      have since := (h.after t).place_le toldLater (by rw [ending]; rfl)
      omega
    · obtain ⟨rfl, rfl, rest⟩ : x = z ∧ y = w ∧ [] = front ++ back := by
        simpa only [List.cons_append, List.cons.injEq] using split
      obtain ⟨rfl, -⟩ := List.append_eq_nil_iff.1 rest.symm
      have whole : [x, y].Sublist (Play.mk s t).tale := inFirst
      exact ⟨⟨s, t⟩, List.mem_cons_self, Session.swaps_of_belated h ⟨whole, ending, j, place, later⟩⟩

/-- A session that is asked to connect while it has a link tells of the end of that link too
late. -/
theorem belated_of_swaps {ps : List (Play ι)} (mem : p ∈ ps) (h : Swaps p i x y) :
    Belated (chronicle ps) i x y := by
  have part : p.tale.Sublist (chronicle ps) :=
    List.sublist_flatten_of_mem (List.mem_map_of_mem mem)
  rw [tale_of_swaps h] at part
  obtain ⟨-, endpoint, link, -, rfl, rfl⟩ := h
  exact ⟨part, rfl, i + 1, rfl, Nat.lt_succ_self i⟩

/-- **The order of notices.** A session that is asked to connect says so, and then takes leave of the
link that it had, if any. So that it connects, as it does, is the last that its owner is told just if
there was no link.

In a run, the owner is told the tales of the plays, in order. What they give as causes is the case,
and the end of every link is among them. The end of a connection is told after something about a
later one just in the plays that find a link in use and are to connect. -/
theorem notices_by_connection (ts : List (Turn ι)) :
    (∀ (s : Session ι) endpoint link,
      (s.connect endpoint link).phase = .connecting ∧
      (s.connect endpoint link).log = s.log ++ announces endpoint :: s.farewell.map Prod.snd ∧
      ((s.connect endpoint link).log = s.log ++ s.farewell.map Prod.snd ++ [announces endpoint] ↔
        s.link = none) ∧
      ((s.connect endpoint link).log.getLast? = some (announces endpoint) ↔ s.link = none)) ∧
    ((new : Session ι).run ts).log = (chronicle ((new : Session ι).plays ts)).map Prod.snd ∧
    (∀ p ∈ (new : Session ι).plays ts, (∀ c n, (c, n) ∈ p.tale → p.Bears c) ∧
      ∀ i, p.Ends i → ∃ n, (.ending i, n) ∈ p.tale) ∧
    ∀ i x y, Belated (chronicle ((new : Session ι).plays ts)) i x y ↔
      ∃ p ∈ (new : Session ι).plays ts, Swaps p i x y := by
  have start : (new : Session ι).Consistent := consistent_new
  refine ⟨fun s endpoint link => ?_, start.log_eq_chronicle ts, fun p mem => ?_, fun i x y => ?_⟩
  · have log := s.log_connect endpoint link
    have apart := announces_ne_farewell (ι := ι) endpoint
    refine ⟨s.phase_of_adopts (t := .connect endpoint link) rfl, log, ?_, ?_⟩
    all_goals
      rw [log]
      cases linked : s.link with
      | none => simp [farewell, linked]
      | some l => simp [farewell, linked, apart, apart.symm]
  · have consistent := start.of_mem_plays mem
    exact ⟨fun c n => Play.bears_of_mem_tale consistent,
      fun i => Play.exists_of_ends consistent⟩
  · exact ⟨start.swaps_of_belated, fun ⟨p, mem, swaps⟩ => belated_of_swaps mem swaps⟩

/-- A session with a link is to connect to another process. -/
theorem notices_by_connection_second_link :
    let ts : List (Turn Unit) :=
      [.connectWith (.withBudget none), .connect (.tcp "h" 1) (.withBudget none)]
    (new.run ts).log = [.status "Connecting to h:1...", .status "Disconnected."] ∧
      Belated (chronicle (new.plays ts)) 0 (.opening 1, announces (.tcp "h" 1))
        (.ending 0, .status "Disconnected.") := by
  intro ts
  obtain ⟨-, log, -, belated⟩ := notices_by_connection ts
  have mem : ⟨new.run (ts.take 1), .connect (.tcp "h" 1) (.withBudget none)⟩ ∈ new.plays ts :=
    List.mem_cons_of_mem _ List.mem_cons_self
  have text : (announces (.tcp "h" 1) : Notice Unit) = .status "Connecting to h:1..." :=
    congrArg Notice.status (by decide +kernel)
  refine ⟨text ▸ log, (belated 0 _ _).2 ⟨_, mem, ⟨rfl, rfl⟩, _, _, rfl, rfl, rfl⟩⟩

end Session

end CallDebugger
