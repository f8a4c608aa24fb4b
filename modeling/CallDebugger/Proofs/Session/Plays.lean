import CallDebugger.Proofs.Session.Consistency

/-!
# Runs, turn by turn

A `Play` is a turn in a run together with the session that it meets, and `Session.plays` are the
plays of a run. Links are told apart by their place among those that a session has adopted, and
`Play.sentOn` is what a play sends on the link at a place: what it offers to the link in use, as far
as that link takes it (`Play.sentOn_of_uses`), and nothing on any other link.
-/

namespace CallDebugger

variable {ι : Type}

/-- A turn in a run, and the session that it meets. -/
structure Play (ι : Type) where
  before : Session ι
  turn : Turn ι

namespace Play

/-- The session that a play leaves. -/
def after (p : Play ι) : Session ι := p.before.after p.turn

/-- What a play sends on the link at a place. -/
def sentOn (p : Play ι) (i : Nat) : List Message :=
  match (p.before.links ++ p.turn.adopts)[i]?, p.after.links[i]? with
  | some l, some l' => l'.sent.drop l.sent.length
  | _, _ => []

/-- How many messages the link at a place is offered in a play, if it is up. -/
def offersOn (p : Play ι) (i : Nat) : Nat :=
  match (p.before.links ++ p.turn.adopts)[i]?, p.after.links[i]? with
  | some l, some l' => l'.attempts - l.attempts
  | _, _ => 0

/-- In a play, the link at a place refuses a message: it does not take all that it is offered. -/
def Refused (p : Play ι) (i : Nat) : Prop := p.offersOn i ≠ (p.sentOn i).length

instance (p : Play ι) (i : Nat) : Decidable (p.Refused i) :=
  inferInstanceAs (Decidable (p.offersOn i ≠ (p.sentOn i).length))

end Play

namespace Session

/-- The link in use has the given place. -/
def Uses (s : Session ι) (i : Nat) : Prop := s.link.isSome = true ∧ i = s.retired.length

/-- The plays of a run. -/
def plays (s : Session ι) : List (Turn ι) → List (Play ι)
  | [] => []
  | t :: ts => ⟨s, t⟩ :: (s.after t).plays ts

@[simp] theorem plays_nil (s : Session ι) : s.plays [] = [] := rfl

/-- The plays before a play are those of the run that leads to it. -/
theorem plays_split {s : Session ι} {ts : List (Turn ι)} {earlier later : List (Play ι)}
    {p : Play ι} (h : s.plays ts = earlier ++ p :: later) :
    ∃ us, earlier = s.plays us ∧ p.before = s.run us := by
  induction ts generalizing s earlier with
  | nil => cases earlier <;> nomatch h
  | cons t ts ih =>
    cases earlier with
    | nil =>
      cases h
      exact ⟨[], rfl, rfl⟩
    | cons q earlier =>
      rw [plays, List.cons_append, List.cons.injEq] at h
      obtain ⟨rfl, rest⟩ := h
      obtain ⟨us, rfl, eq⟩ := ih rest
      exact ⟨t :: us, rfl, eq⟩

theorem Consistent.run {s : Session ι} (h : s.Consistent) (ts : List (Turn ι)) :
    (s.run ts).Consistent := by
  induction ts generalizing s with
  | nil => exact h
  | cons t ts ih => exact ih (h.after t)

end Session

namespace Play

open Session

variable {p : Play ι} {i : Nat} {l : Link}

/-- What has become of the link at a place. -/
theorem grown (h : p.before.Consistent) (place : (p.before.links ++ p.turn.adopts)[i]? = some l) :
    ∃ l', p.after.links[i]? = some l' ∧
      l.Grown (if i = p.before.retired.length then p.before.offered p.turn else []) l' := by
  obtain ⟨g, grown, links⟩ := (fate h.tied p.turn).links
  have links : p.after.links = _ := links
  have same : l.Grown [] l := l.served_nil.toGrown
  rw [links]
  rw [Session.links] at place
  cases linked : p.before.link with
  | none =>
    rw [linked] at place
    refine ⟨l, place, ?_⟩
    rw [offered_of_none h.tied linked, ite_self]
    exact same
  | some k =>
    rw [linked] at place
    simp only [Option.toList, Option.map_some, List.append_assoc, List.singleton_append] at place ⊢
    rcases Nat.lt_trichotomy i p.before.retired.length with early | now | late
    · rw [List.getElem?_append_left early] at place ⊢
      rw [if_neg (Nat.ne_of_lt early)]
      exact ⟨l, place, same⟩
    · subst now
      rw [List.getElem?_append_right (Nat.le_refl _), Nat.sub_self] at place ⊢
      cases place
      rw [if_pos rfl]
      exact ⟨g l, rfl, grown l linked⟩
    · obtain ⟨n, rfl⟩ := Nat.exists_eq_add_of_lt late
      have offset : p.before.retired.length + n + 1 - p.before.retired.length = n + 1 := by omega
      rw [List.getElem?_append_right (by omega), offset, List.getElem?_cons_succ] at place ⊢
      rw [if_neg (by omega)]
      exact ⟨l, place, same⟩

/-- What a play sends on a link is added to what was sent on it. -/
theorem sent_after (h : p.before.Consistent)
    (place : (p.before.links ++ p.turn.adopts)[i]? = some l) :
    ∃ l', p.after.links[i]? = some l' ∧ l'.sent = l.sent ++ p.sentOn i := by
  obtain ⟨l', place', grown⟩ := grown h place
  refine ⟨l', place', ?_⟩
  simp only [sentOn, place, place', grown.sent, List.drop_left]

/-- A play sends what it offers to the link in use, as far as that link takes it. -/
theorem sentOn_of_uses (h : p.before.Consistent) (linked : p.before.link = some l) :
    p.sentOn p.before.retired.length = l.taken (p.before.offered p.turn) := by
  have place : (p.before.links ++ p.turn.adopts)[p.before.retired.length]? = some l := by
    simp [Session.links, linked]
  obtain ⟨l', place', grown⟩ := grown h place
  rw [if_pos rfl] at grown
  simp only [sentOn, place, place', grown.sent, List.drop_left]

/-- A play sends nothing on other links. -/
theorem sentOn_of_not_uses (h : p.before.Consistent) (apart : ¬ p.before.Uses i) :
    p.sentOn i = [] := by
  unfold sentOn
  cases place : (p.before.links ++ p.turn.adopts)[i]? with
  | none => rfl
  | some l =>
    obtain ⟨l', place', grown⟩ := grown h place
    have silent : (if i = p.before.retired.length then p.before.offered p.turn else []) = [] := by
      split
      · have gone : p.before.link = none := Option.not_isSome_iff_eq_none.1 fun there =>
          apart ⟨there, ‹_›⟩
        exact offered_of_none h.tied gone p.turn
      · rfl
    rw [silent] at grown
    simp only [place', grown.sent, Link.taken, List.drop_left]

/-- A play that sends is offered something by the session, on the link in use. -/
theorem uses_of_sent (h : p.before.Consistent) {m : Message} (sent : m ∈ p.sentOn i) :
    p.before.Uses i ∧ m ∈ p.before.offered p.turn := by
  by_cases uses : p.before.Uses i
  · obtain ⟨l, linked⟩ := Option.isSome_iff_exists.1 uses.1
    have place := uses.2
    subst place
    rw [sentOn_of_uses h linked] at sent
    exact ⟨uses, Link.mem_of_mem_taken sent⟩
  · rw [sentOn_of_not_uses h uses] at sent
    nomatch sent

/-- A link in use that is up refuses nothing just if it takes all that it is offered. -/
theorem refused_iff (h : p.before.Consistent) (linked : p.before.link = some l)
    (up : l.aborted = false) :
    p.Refused p.before.retired.length ↔ (l.offer (p.before.offered p.turn)).1.isSome = true := by
  have place : (p.before.links ++ p.turn.adopts)[p.before.retired.length]? = some l := by
    simp [Session.links, linked]
  obtain ⟨l', place', grown⟩ := grown h place
  rw [if_pos rfl] at grown
  have offers : p.offersOn p.before.retired.length = l'.attempts - l.attempts := by
    simp only [offersOn, place, place']
  rw [Refused, offers, grown.attempts up, sentOn_of_uses h linked]
  cases (l.offer (p.before.offered p.turn)).1 with
  | none => simp
  | some e =>
    simp only [Option.isSome_some, if_true, iff_true]
    omega

end Play

namespace Session

/-- What is sent on the link at a place in plays. -/
def history (ps : List (Play ι)) (i : Nat) : List Message := ps.flatMap fun p => p.sentOn i

/-- What is sent on a link in a run is what the plays of the run send on it. -/
theorem sent_run {s : Session ι} (h : s.Consistent) {ts : List (Turn ι)} {i : Nat} {l : Link}
    (place : (s.links ++ ts.flatMap Turn.adopts)[i]? = some l) :
    ∃ l', (s.run ts).links[i]? = some l' ∧
      l'.sent = l.sent ++ history (s.plays ts) i := by
  induction ts generalizing s l with
  | nil =>
    rw [List.flatMap_nil, List.append_nil] at place
    exact ⟨l, place, (List.append_nil _).symm⟩
  | cons t ts ih =>
    have size : (s.after t).links.length = (s.links ++ t.adopts).length := by
      have same := congrArg List.length (h.links_after t)
      rwa [List.length_map, List.length_map] at same
    rw [List.flatMap_cons, ← List.append_assoc] at place
    rw [run_cons, plays, history, List.flatMap_cons]
    by_cases there : i < (s.links ++ t.adopts).length
    · rw [List.getElem?_append_left there] at place
      obtain ⟨l₁, place₁, sent₁⟩ := Play.sent_after (p := ⟨s, t⟩) h place
      have place₁ : (s.after t).links[i]? = some l₁ := place₁
      obtain ⟨l', place', sent⟩ := ih (h.after t) (l := l₁)
        (by rw [List.getElem?_append_left (size ▸ there), place₁])
      exact ⟨l', place', by rw [sent, sent₁, List.append_assoc]; rfl⟩
    · have beyond := Nat.le_of_not_lt there
      rw [List.getElem?_append_right beyond] at place
      obtain ⟨l', place', sent⟩ := ih (h.after t) (l := l)
        (by rw [List.getElem?_append_right (size ▸ beyond), size, place])
      -- The link is adopted later in the run.
      have silent : (⟨s, t⟩ : Play ι).sentOn i = [] := by
        rw [Play.sentOn, List.getElem?_eq_none beyond]
      exact ⟨l', place', by rw [sent, silent, List.nil_append]; rfl⟩

end Session

end CallDebugger
