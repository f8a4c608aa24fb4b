import CallDebugger.Link.Basic

/-!
# Offering messages to a link

`Link.offer` offers messages one after the other up to the first that is refused, and `Link.taken`
is what the link takes of them. A link that takes everything (`Link.Open`) refuses nothing of what
it is offered. Where only the ends of some traffic are known, the count of attempts tells whether
anything was refused in between (`Link.Grows`).
-/

namespace CallDebugger

namespace Link

/-- Offers messages in order, up to the first that is refused: the refusal, and the link. -/
def offer (l : Link) : List Message → Option LinkError × Link
  | [] => (none, l)
  | m :: ms =>
    match l.send m with
    | (.error e, l) => (some e, l)
    | (.ok (), l) => l.offer ms

/-- The messages that the link takes when they are offered in order. -/
def taken (l : Link) : List Message → List Message
  | [] => []
  | m :: ms =>
    match l.send m with
    | (.error _, _) => []
    | (.ok (), l) => m :: l.taken ms

/-- A link that takes everything. -/
structure Open (l : Link) : Prop where
  takes : ∀ n m, l.verdict n m = none
  up : l.aborted = false

/-! ## One message -/

/-- What an offer can come to. -/
theorem send_cases (l : Link) (m : Message) :
    (l.aborted = true ∧ l.send m = (.error .closed, l)) ∨
    (∃ e, l.aborted = false ∧ l.verdict l.attempts m = some e ∧
      l.send m = (.error e, { l with attempts := l.attempts + 1 })) ∨
    (l.aborted = false ∧ l.verdict l.attempts m = none ∧
      l.send m = (.ok (), { l with attempts := l.attempts + 1, sent := l.sent ++ [m] })) := by
  unfold send
  split
  · exact .inl ⟨‹_›, rfl⟩
  · have up : l.aborted = false := Bool.eq_false_iff.2 ‹_›
    split
    · exact .inr (.inl ⟨_, up, ‹_›, rfl⟩)
    · exact .inr (.inr ⟨up, ‹_›, rfl⟩)

/-- A link that is up counts every offer. -/
theorem attempts_send {l : Link} (up : l.aborted = false) (m : Message) :
    (l.send m).2.attempts = l.attempts + 1 := by
  obtain ⟨down, _⟩ | ⟨_, _, _, eq⟩ | ⟨_, _, eq⟩ := l.send_cases m
  · rw [up] at down
    nomatch down
  · rw [eq]
  · rw [eq]

theorem send_of_open {l : Link} (h : l.Open) (m : Message) :
    l.send m = (.ok (), { l with attempts := l.attempts + 1, sent := l.sent ++ [m] }) := by
  simp only [send, h.up, Bool.false_eq_true, if_false, h.takes]

theorem send_ne_error_of_open {l l' : Link} {m : Message} {e : LinkError} (h : l.Open) :
    l.send m ≠ (.error e, l') := by
  rw [send_of_open h]
  rintro ⟨⟩

theorem sent_send_ok {l l' : Link} {m : Message} (h : l.send m = (.ok (), l')) :
    l'.sent = l.sent ++ [m] ∧ l'.attempts = l.attempts + 1 := by
  obtain ⟨_, eq⟩ | ⟨e, _, _, eq⟩ | ⟨_, _, eq⟩ := l.send_cases m <;> rw [eq] at h <;> cases h
  exact ⟨rfl, rfl⟩

theorem sent_send_error {l l' : Link} {m : Message} {e : LinkError}
    (h : l.send m = (.error e, l')) : l'.sent = l.sent := by
  obtain ⟨_, eq⟩ | ⟨e, _, _, eq⟩ | ⟨_, _, eq⟩ := l.send_cases m <;> rw [eq] at h <;> cases h <;> rfl

/-- What an offer leaves alone. -/
theorem send_frame (l : Link) (m : Message) :
    (l.send m).2.verdict = l.verdict ∧ (l.send m).2.inbox = l.inbox ∧
      (l.send m).2.aborted = l.aborted := by
  obtain ⟨_, eq⟩ | ⟨e, _, _, eq⟩ | ⟨_, _, eq⟩ := l.send_cases m <;> rw [eq] <;>
    exact ⟨rfl, rfl, rfl⟩

/-! ## Several messages -/

@[simp] theorem offer_nil (l : Link) : l.offer [] = (none, l) := rfl

theorem offer_singleton (l : Link) (m : Message) :
    l.offer [m] =
      (match (l.send m).1 with | .ok () => none | .error e => some e, (l.send m).2) := by
  unfold offer
  rcases l.send m with ⟨_ | _, _⟩ <;> rfl

/-- What follows is offered only if everything before is taken. -/
theorem offer_append (l : Link) (ms ns : List Message) :
    l.offer (ms ++ ns) =
      match l.offer ms with
      | (some e, l') => (some e, l')
      | (none, l') => l'.offer ns := by
  induction ms generalizing l with
  | nil => rfl
  | cons m ms ih =>
    rw [List.cons_append, offer, offer]
    rcases l.send m with ⟨_ | _, l'⟩
    · rfl
    · exact ih l'

/-- What offers leave alone. -/
theorem offer_frame (l : Link) (ms : List Message) :
    (l.offer ms).2.verdict = l.verdict ∧ (l.offer ms).2.inbox = l.inbox ∧
      (l.offer ms).2.aborted = l.aborted := by
  induction ms generalizing l with
  | nil => exact ⟨rfl, rfl, rfl⟩
  | cons m ms ih =>
    have first := l.send_frame m
    rw [offer]
    rcases h : l.send m with ⟨_ | _, l'⟩ <;> rw [h] at first
    · exact first
    · obtain ⟨hv, hi, ha⟩ := ih l'
      exact ⟨hv.trans first.1, hi.trans first.2.1, ha.trans first.2.2⟩

theorem sent_offer (l : Link) (ms : List Message) :
    (l.offer ms).2.sent = l.sent ++ l.taken ms := by
  induction ms generalizing l with
  | nil => simp [offer, taken]
  | cons m ms ih =>
    rw [offer, taken]
    rcases h : l.send m with ⟨_ | _, l'⟩
    · simp [sent_send_error h]
    · simp [ih l', (sent_send_ok h).1]

/-- What is taken is a first part of what is offered. -/
theorem taken_prefix (l : Link) (ms : List Message) : l.taken ms <+: ms := by
  induction ms generalizing l with
  | nil => exact List.nil_prefix
  | cons m ms ih =>
    rw [taken]
    rcases l.send m with ⟨_ | _, l'⟩
    · exact List.nil_prefix
    · exact (List.cons_prefix_cons).2 ⟨rfl, ih l'⟩

theorem mem_of_mem_taken {l : Link} {ms : List Message} {m : Message} (h : m ∈ l.taken ms) :
    m ∈ ms :=
  (l.taken_prefix ms).subset h

/-- Nothing is refused of what is taken in full. -/
theorem taken_of_offer {l l' : Link} {ms : List Message} (h : l.offer ms = (none, l')) :
    l.taken ms = ms := by
  induction ms generalizing l with
  | nil => rfl
  | cons m ms ih =>
    rw [offer] at h
    rw [taken]
    rcases first : l.send m with ⟨_ | _, l₁⟩ <;> rw [first] at h
    · nomatch h
    · exact congrArg (m :: ·) (ih h)

/-- Something is left of what is refused. -/
theorem length_taken_lt {l : Link} {e : LinkError} {ms : List Message}
    (h : (l.offer ms).1 = some e) : (l.taken ms).length < ms.length := by
  induction ms generalizing l with
  | nil => cases h
  | cons m ms ih =>
    rw [offer] at h
    rw [taken]
    rcases first : l.send m with ⟨_ | _, l₁⟩ <;> rw [first] at h
    · exact Nat.succ_pos _
    · exact Nat.succ_lt_succ (ih h)

/-- Everything is taken just when nothing is refused. -/
theorem taken_eq_self {l : Link} {ms : List Message} : l.taken ms = ms ↔ (l.offer ms).1 = none := by
  constructor
  · intro all
    cases refused : (l.offer ms).1 with
    | none => rfl
    | some e => exact absurd (congrArg List.length all) (Nat.ne_of_lt (length_taken_lt refused))
  · intro none
    exact taken_of_offer (Prod.ext none rfl)

/-- What follows is taken after all that comes before. -/
theorem taken_append {l l' : Link} {ms : List Message} (h : l.offer ms = (none, l'))
    (ns : List Message) : l.taken (ms ++ ns) = l.taken ms ++ l'.taken ns := by
  have first : l'.sent = l.sent ++ l.taken ms := by rw [← l.sent_offer ms, h]
  have sent := l.sent_offer (ms ++ ns)
  rw [offer_append, h] at sent
  simp only [sent_offer, first, List.append_assoc] at sent
  exact (List.append_cancel_left sent).symm

/-- Nothing is taken after a refusal. -/
theorem taken_append_of_error {l l' : Link} {e : LinkError} {ms : List Message}
    (h : l.offer ms = (some e, l')) (ns : List Message) : l.taken (ms ++ ns) = l.taken ms := by
  have first : l'.sent = l.sent ++ l.taken ms := by rw [← l.sent_offer ms, h]
  have sent := l.sent_offer (ms ++ ns)
  rw [offer_append, h] at sent
  simp only [first] at sent
  exact (List.append_cancel_left sent).symm

/-- A link that is up counts each offer: those it takes, and the one it refuses. -/
theorem attempts_offer {l : Link} (up : l.aborted = false) (ms : List Message) :
    (l.offer ms).2.attempts =
      l.attempts + (l.taken ms).length + (if (l.offer ms).1.isSome then 1 else 0) := by
  induction ms generalizing l with
  | nil => rfl
  | cons m ms ih =>
    have frame := l.send_frame m
    rw [offer, taken]
    rcases first : l.send m with ⟨e | _, l'⟩ <;> rw [first] at frame
    · have one := attempts_send up m
      rw [first] at one
      exact one
    · have later := ih (frame.2.2.trans up)
      have one := (sent_send_ok first).2
      simp only [List.length_cons, later, one]
      omega

/-! What waits on a link does not matter to what is offered to it. -/

theorem send_inbox (l : Link) (inbox : List LinkEvent) (m : Message) :
    ({ l with inbox := inbox } : Link).send m = ((l.send m).1, { (l.send m).2 with inbox }) := by
  unfold send
  by_cases down : l.aborted = true
  · simp only [down, if_true]
  · simp only [down, if_false, Bool.false_eq_true]
    cases l.verdict l.attempts m <;> rfl

theorem offer_inbox (l : Link) (inbox : List LinkEvent) (ms : List Message) :
    ({ l with inbox := inbox } : Link).offer ms =
      ((l.offer ms).1, { (l.offer ms).2 with inbox }) := by
  induction ms generalizing l with
  | nil => rfl
  | cons m ms ih =>
    simp only [offer, send_inbox]
    rcases l.send m with ⟨_ | _, l'⟩
    · rfl
    · exact ih l'

theorem taken_inbox (l : Link) (inbox : List LinkEvent) (ms : List Message) :
    ({ l with inbox := inbox } : Link).taken ms = l.taken ms := by
  have counted := ({ l with inbox := inbox } : Link).sent_offer ms
  rw [l.offer_inbox inbox ms, l.sent_offer ms] at counted
  exact (List.append_cancel_left counted).symm

theorem offer_of_open {l : Link} (h : l.Open) (ms : List Message) :
    l.offer ms = (none, { l with attempts := l.attempts + ms.length, sent := l.sent ++ ms }) := by
  induction ms generalizing l with
  | nil => simp
  | cons m ms ih =>
    have later := ih (l := { l with attempts := l.attempts + 1, sent := l.sent ++ [m] })
      ⟨h.takes, h.up⟩
    rw [offer, send_of_open h]
    simp only [later, List.length_cons, List.append_assoc, List.singleton_append]
    congr 2
    omega

/-! ## Events -/

theorem poll_eq_some {l l' : Link} {e : LinkEvent} (h : l.poll = some (e, l')) :
    l.aborted = false ∧ ∃ rest, l.inbox = e :: rest ∧ l' = { l with inbox := rest } := by
  unfold poll at h
  split at h
  · nomatch h
  · refine ⟨Bool.eq_false_iff.2 ‹_›, ?_⟩
    split at h
    · nomatch h
    · cases h
      exact ⟨_, ‹_›, rfl⟩

theorem push_of_up {l : Link} (up : l.aborted = false) (events : List LinkEvent) :
    l.push events = { l with inbox := l.inbox ++ events } := by
  simp only [push, up, Bool.false_eq_true, if_false]

/-! ## What is refused -/

/-- A link has been offered messages in between, and has taken the given ones if it has refused
nothing. -/
structure Grows (l l' : Link) (ms : List Message) : Prop where
  attempts : l.attempts + l'.sent.length ≤ l'.attempts + l.sent.length
  sent : l'.attempts + l.sent.length = l.attempts + l'.sent.length → l'.sent = l.sent ++ ms

variable {l l' l₁ : Link} {ms ns : List Message}

theorem grows_of_eq (attempts : l'.attempts = l.attempts) (sent : l'.sent = l.sent) :
    l.Grows l' [] := by
  constructor
  · have length : l'.sent.length = l.sent.length := congrArg List.length sent
    omega
  · intro _
    rw [sent, List.append_nil]

theorem Grows.trans (first : l.Grows l₁ ms) (second : l₁.Grows l' ns) :
    l.Grows l' (ms ++ ns) := by
  have start := first.attempts
  have later := second.attempts
  constructor
  · omega
  · intro taken
    rw [second.sent (by omega), first.sent (by omega), List.append_assoc]

/-- A link that is up refuses something, or takes all that it is offered. -/
theorem grows_offer (up : l.aborted = false) (ms : List Message) : l.Grows (l.offer ms).2 ms := by
  have counted := attempts_offer up ms
  have sent := l.sent_offer ms
  have length : (l.offer ms).2.sent.length = l.sent.length + (l.taken ms).length := by
    rw [sent, List.length_append]
  constructor
  · omega
  · intro taken
    rcases offered : l.offer ms with ⟨_ | e, l'⟩
    · rw [offered] at sent
      rw [sent, taken_of_offer offered]
    · simp only [offered, Option.isSome_some, if_true] at counted length taken
      omega

/-- So with one message; what is said of a refusal does not matter. -/
theorem grows_send (up : l.aborted = false) (m : Message) {ms : List Message}
    (told : (l.send m).1 = .ok () → ms = [m]) : l.Grows (l.send m).2 ms := by
  obtain ⟨down, -⟩ | ⟨e, -, -, refused⟩ | ⟨-, -, accepted⟩ := l.send_cases m
  · rw [up] at down
    nomatch down
  · rw [refused]
    constructor
    · show l.attempts + l.sent.length ≤ l.attempts + 1 + l.sent.length
      omega
    · intro taken
      have : l.attempts + 1 + l.sent.length = l.attempts + l.sent.length := taken
      omega
  · rw [accepted] at told ⊢
    rw [told rfl]
    constructor
    · simp only [List.length_append, List.length_singleton]
      omega
    · intro _
      rfl

end Link

end CallDebugger
