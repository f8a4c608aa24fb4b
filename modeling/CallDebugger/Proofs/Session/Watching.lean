import CallDebugger.Proofs.Session.Ahead
import CallDebugger.Proofs.Session.Dealings
import Mathlib.Data.List.Induction

/-!
# What becomes of watches

A `Lookout` is the watches of an owner with the requests that are made for them, and a `Watching` is
one thing that the owner does with them. Who is watched, and which queries wait, is told by the
history alone: a watch lives from when it was made until it is ended (`Lookout.Watched`), and a
query waits from when a link has taken it until it is answered or forgotten, or its watch is ended
(`Lookout.Asked`). So a reply reaches the watch that asked, once, and no watch that was ended
(`Lookout.watches_answered`).
-/

namespace CallDebugger

variable {ι : Type}

/-- What an owner does with its watches. -/
inductive Watching (ι : Type) where
  | register
  | subscribe (name : ObjectName) (kind : ObjectKind) (label : ι)
  | unsubscribe (id : WatchId)
  | refresh (link : Link)
  | answer (reply : Reply)
  | clear

namespace Watching

/-- A watch is made. -/
def subscribes : Watching ι → Bool
  | subscribe .. => true
  | _ => false

/-- The number of a group is used up. -/
def groups : Watching ι → Bool
  | register | subscribe .. => true
  | _ => false

/-- The wait of a query of a number, made for a watch, is ended. -/
def Ends (w : Watch ι) (id : Nat) : Watching ι → Prop
  | unsubscribe i => w.id = i
  | answer reply => id = reply.id.toNat
  | clear => True
  | register | subscribe .. | refresh _ => False

end Watching

/-- The watches of an owner, and the requests that are made for them. -/
structure Lookout (ι : Type) where
  watches : Watches ι
  requests : Requests (Callback ι)

namespace Lookout

/-- Nothing is watched. -/
def empty : Lookout ι := ⟨.empty, .empty⟩

/-- The watches after something was done with them. -/
def step (s : Lookout ι) : Watching ι → Lookout ι
  | .register => { s with requests := s.requests.register.2 }
  | .subscribe name kind label =>
    let (_, watches, requests) := s.watches.subscribe s.requests name kind label
    ⟨watches, requests⟩
  | .unsubscribe id =>
    let (_, watches, requests) := s.watches.unsubscribe s.requests id
    ⟨watches, requests⟩
  | .refresh link => { s with requests := (s.watches.refresh s.requests link).2.1 }
  | .answer reply => { s with requests := (s.requests.answer reply).2 }
  | .clear => { s with requests := s.requests.clear }

/-- The watches after a history. -/
def after (xs : List (Watching ι)) : Lookout ι := xs.foldl step empty

/-- The queries of all watches. -/
def queries (s : Lookout ι) : List Message :=
  Watches.queries s.watches.live s.requests.nextRequest

/-- The callbacks that are run, each with the reply for which it is. -/
def tells (s : Lookout ι) : Watching ι → List (Callback ι × Reply)
  | .answer reply => (s.requests.answer reply).1.toList.map fun callback => (callback, reply)
  | _ => []

/-- All callbacks that are run in a history, in order. -/
def told : Lookout ι → List (Watching ι) → List (Callback ι × Reply)
  | _, [] => []
  | s, x :: xs => s.tells x ++ (s.step x).told xs

/-- A watch lives after a history: it was made, under the next number and for a new group, and it
was not ended. -/
def Watched (xs : List (Watching ι)) (w : Watch ι) : Prop :=
  Since
    (fun earlier x => x = .subscribe w.name w.kind w.label ∧
      w.id = earlier.countP Watching.subscribes + 1 ∧ w.handler = earlier.countP Watching.groups + 1)
    (fun x => x = .unsubscribe w.id) xs

/-- A query for a watch waits after a history: it was made when all were queried, the link took it,
and nothing has ended its wait. -/
def Asked (xs : List (Watching ι)) (p : PendingRequest (Callback ι)) (w : Watch ι) : Prop :=
  Since
    (fun earlier x => ∃ link k, x = .refresh link ∧ (after earlier).watches.live[k]? = some w ∧
      k < (link.taken (after earlier).queries).length ∧
      p = ⟨(after earlier).requests.nextRequest + k, w.handler, .snapshot w.kind w.label⟩)
    (fun x => x.Ends w p.id) xs

theorem after_concat (xs : List (Watching ι)) (x : Watching ι) :
    after (xs ++ [x]) = (after xs).step x := by
  rw [after, List.foldl_append]
  rfl

end Lookout

/-! ## Queries -/

namespace Watches

variable {r : Requests (Callback ι)} {ws : List (Watch ι)} {next : Nat}

/-- The query of the watch at a place. -/
theorem getElem?_queries (ws : List (Watch ι)) (next k : Nat) :
    (queries ws next)[k]? =
      ws[k]?.map fun w => .request ⟨.ofNat (next + k), .query w.kind w.name⟩ := by
  induction ws generalizing next k with
  | nil => rfl
  | cons w ws ih =>
    cases k with
    | zero => rfl
    | succ k =>
      have shift : next + 1 + k = next + (k + 1) := by omega
      rw [queries, List.getElem?_cons_succ, List.getElem?_cons_succ, ih, shift]

/-- What is noted for watches is noted for one of them. -/
theorem mem_entries_iff {p : PendingRequest (Callback ι)} :
    p ∈ entries ws next ↔
      ∃ k w, ws[k]? = some w ∧ p = ⟨next + k, w.handler, .snapshot w.kind w.label⟩ := by
  constructor
  · intro mem
    obtain ⟨k, w, -, live, same, -⟩ := mem_entries mem
    exact ⟨k, w, live, same⟩
  · rintro ⟨k, w, live, rfl⟩
    induction ws generalizing next k with
    | nil => nomatch live
    | cons v ws ih =>
      cases k with
      | zero =>
        cases live
        exact List.mem_cons_self
      | succ k =>
        have later : ⟨next + 1 + k, w.handler, .snapshot w.kind w.label⟩ ∈ entries ws (next + 1) :=
          ih k live
        rw [Nat.add_right_comm] at later
        exact List.mem_cons_of_mem _ later

/-- The queries that a link takes wait, and no others are added. -/
theorem pending_query (ahead : r.Ahead) (ws : List (Watch ι)) (l : Link) :
    (query ws r l).2.1.pending =
      r.pending ++ entries (ws.take (l.taken (queries ws r.nextRequest)).length) r.nextRequest := by
  induction ws generalizing r l with
  | nil => exact (List.append_nil _).symm
  | cons w ws ih =>
    simp only [query, Requests.issue, queries, Link.taken]
    rcases l.send (.request ⟨.ofNat r.nextRequest, .query w.kind w.name⟩) with ⟨e | ⟨⟨⟩⟩, l'⟩
    · show ((r.note w.handler _).strike r.nextRequest).pending = _
      rw [ahead.strike_note]
      exact (List.append_nil _).symm
    · have later := ih (ahead.note w.handler (.snapshot w.kind w.label)) l'
      simp only [Requests.note, List.append_assoc, List.singleton_append] at later ⊢
      exact later

/-- The dealings of querying watches one by one, up to the first that the link refuses. -/
def asks : List (Watch ι) → Requests (Callback ι) → Link → List (Dealing (Callback ι))
  | [], _, _ => []
  | w :: ws, r, l =>
    .issue l w.handler (.query w.kind w.name) (.snapshot w.kind w.label) ::
      match r.issue l w.handler (.query w.kind w.name) (.snapshot w.kind w.label) with
      | (.error _, _, _) => []
      | (.ok _, r, l) => asks ws r l

theorem foldl_asks (ws : List (Watch ι)) (r : Requests (Callback ι)) (l : Link) :
    (asks ws r l).foldl Requests.deal r = (query ws r l).2.1 := by
  induction ws generalizing r l with
  | nil => rfl
  | cons w ws ih =>
    rw [asks, query, List.foldl_cons, Requests.deal]
    rcases r.issue l w.handler (.query w.kind w.name) (.snapshot w.kind w.label) with
      ⟨e | n, r', l'⟩
    · rfl
    · exact ih r' l'

/-- Nothing is done with replies while watches are queried. -/
theorem told_asks (ws : List (Watch ι)) (r : Requests (Callback ι)) (l : Link) :
    r.told (asks ws r l) = [] := by
  induction ws generalizing r l with
  | nil => rfl
  | cons w ws ih =>
    rw [asks, Requests.told, Requests.deal]
    rcases r.issue l w.handler (.query w.kind w.name) (.snapshot w.kind w.label) with
      ⟨e | n, r', l'⟩
    · rfl
    · exact ih r' l'

theorem nextHandler_query (ws : List (Watch ι)) (r : Requests (Callback ι)) (l : Link) :
    (query ws r l).2.1.nextHandler = r.nextHandler := by
  induction ws generalizing r l with
  | nil => rfl
  | cons w ws ih =>
    simp only [query, Requests.issue]
    rcases l.send (.request ⟨.ofNat r.nextRequest, .query w.kind w.name⟩) with ⟨e | ⟨⟨⟩⟩, l'⟩
    · rfl
    · exact ih _ l'

theorem refresh_eq (w : Watches ι) (r : Requests (Callback ι)) (l : Link) :
    ∃ r', query w.live r l = ((l.offer (queries w.live r.nextRequest)).1.elim (.ok ()) .error, r',
        (l.offer (queries w.live r.nextRequest)).2) ∧
      w.refresh r l =
        ((l.offer (queries w.live r.nextRequest)).1.elim (.ok w.live.length) .error, r',
          (l.offer (queries w.live r.nextRequest)).2) := by
  obtain ⟨r', queried⟩ := query_eq_offer w.live r l
  refine ⟨r', ?_, ?_⟩
  · rw [queried]
    cases (l.offer (queries w.live r.nextRequest)).1 <;> rfl
  · rw [refresh, queried]
    cases (l.offer (queries w.live r.nextRequest)).1 <;> rfl

end Watches

namespace Lookout

variable {xs : List (Watching ι)} {x : Watching ι} {s : Lookout ι} {w v : Watch ι}
  {p : PendingRequest (Callback ι)}

/-- The dealings with requests of something that is done with watches. -/
def dealings (s : Lookout ι) : Watching ι → List (Dealing (Callback ι))
  | .register | .subscribe .. => [.register]
  | .unsubscribe id =>
    match s.watches.find? id with
    | none => []
    | some w => [.unregister w.handler]
  | .refresh link => Watches.asks s.watches.live s.requests link
  | .answer reply => [.answer reply]
  | .clear => [.clear]

/-- The dealings of a history. -/
def course : Lookout ι → List (Watching ι) → List (Dealing (Callback ι))
  | _, [] => []
  | s, x :: xs => s.dealings x ++ (s.step x).course xs

theorem requests_refresh (s : Lookout ι) (l : Link) :
    (s.watches.refresh s.requests l).2.1 = (Watches.query s.watches.live s.requests l).2.1 := by
  obtain ⟨r', queried, refreshed⟩ := s.watches.refresh_eq s.requests l
  rw [queried, refreshed]

theorem requests_step (s : Lookout ι) (x : Watching ι) :
    (s.step x).requests = (s.dealings x).foldl Requests.deal s.requests := by
  cases x with
  | register | subscribe | answer | clear => rfl
  | unsubscribe id =>
    show (s.watches.unsubscribe s.requests id).2.2 = _
    simp only [Watches.unsubscribe, dealings]
    cases s.watches.find? id <;> rfl
  | refresh l =>
    rw [dealings, Watches.foldl_asks]
    exact s.requests_refresh l

theorem told_dealings (s : Lookout ι) (x : Watching ι) :
    s.requests.told (s.dealings x) = s.tells x := by
  cases x with
  | register | subscribe | clear => rfl
  | answer => exact List.append_nil _
  | unsubscribe id =>
    simp only [dealings]
    cases s.watches.find? id <;> rfl
  | refresh l => exact Watches.told_asks _ _ l

theorem requests_foldl (s : Lookout ι) (xs : List (Watching ι)) :
    (xs.foldl step s).requests = (s.course xs).foldl Requests.deal s.requests := by
  induction xs generalizing s with
  | nil => rfl
  | cons x xs ih => rw [List.foldl_cons, ih, course, List.foldl_append, requests_step]

theorem told_course (s : Lookout ι) (xs : List (Watching ι)) :
    s.requests.told (s.course xs) = s.told xs := by
  induction xs generalizing s with
  | nil => rfl
  | cons x xs ih => rw [course, Requests.told_append, told_dealings, ← requests_step, ih, told]

/-- The requests are kept as any requests are. -/
theorem kept_course (xs : List (Watching ι)) :
    Requests.Kept (empty.course xs) (after xs).requests := by
  rw [after, requests_foldl]
  exact Requests.kept_empty.foldl _

theorem ahead_after (xs : List (Watching ι)) : (after xs).requests.Ahead := by
  intro p mem
  have kept := kept_course xs
  have le := ((kept.waits p).1 mem).le
  rw [kept.next]
  omega

/-! ## Who is watched -/

theorem watched_concat :
    Watched (xs ++ [x]) w ↔ (Watched xs w ∧ ¬ x = .unsubscribe w.id) ∨
      (x = .subscribe w.name w.kind w.label ∧ w.id = xs.countP Watching.subscribes + 1 ∧
        w.handler = xs.countP Watching.groups + 1) :=
  since_concat

/-- The watches are what a history makes of them. -/
structure Keeps (xs : List (Watching ι)) (s : Lookout ι) : Prop where
  made : s.watches.lastId = xs.countP Watching.subscribes
  grouped : s.requests.nextHandler = xs.countP Watching.groups + 1
  live : ∀ w, w ∈ s.watches.live ↔ Watched xs w
  ordered : s.watches.Ordered
  apart : s.watches.live.Pairwise fun u v => u.handler < v.handler
  given : ∀ v ∈ s.watches.live, v.handler < s.requests.nextHandler

theorem keeps_empty : Keeps [] (empty : Lookout ι) where
  made := rfl
  grouped := rfl
  live w := by
    constructor
    · nofun
    · rintro ⟨earlier, x, later, split, -⟩
      nomatch List.append_eq_nil_iff.1 split.symm
  ordered := Watches.ordered_empty
  apart := List.Pairwise.nil
  given := List.forall_mem_nil _

/-- The watches stay as they are. -/
theorem Keeps.still (h : Keeps xs s) {requests : Requests (Callback ι)}
    (subscribes : x.subscribes = false) (unending : ∀ id, x ≠ .unsubscribe id)
    (grouped : requests.nextHandler = (xs ++ [x]).countP Watching.groups + 1)
    (le : s.requests.nextHandler ≤ requests.nextHandler) :
    Keeps (xs ++ [x]) ⟨s.watches, requests⟩ where
  made := by
    rw [List.countP_append, List.countP_singleton, if_neg (by rw [subscribes]; nofun)]
    exact h.made
  grouped := grouped
  live w := by
    rw [watched_concat, ← h.live]
    constructor
    · intro mem
      exact .inl ⟨mem, unending w.id⟩
    · rintro (⟨mem, -⟩ | ⟨rfl, -⟩)
      · exact mem
      · nomatch subscribes
  ordered := h.ordered
  apart := h.apart
  given v mem := Nat.lt_of_lt_of_le (h.given v mem) le

theorem Keeps.subscribe (h : Keeps xs s) (name : ObjectName) (kind : ObjectKind) (label : ι) :
    Keeps (xs ++ [.subscribe name kind label]) (s.step (.subscribe name kind label)) where
  made := by
    rw [List.countP_append]
    exact congrArg (· + 1) h.made
  grouped := by
    rw [List.countP_append]
    exact congrArg (· + 1) h.grouped
  live w := by
    show w ∈ s.watches.live ++ [_] ↔ _
    rw [watched_concat, ← h.live, List.mem_append, List.mem_singleton, ← h.made, ← h.grouped]
    constructor
    · rintro (mem | rfl)
      · exact .inl ⟨mem, nofun⟩
      · exact .inr ⟨rfl, rfl, rfl⟩
    · rintro (⟨mem, -⟩ | ⟨same, number, group⟩)
      · exact .inl mem
      · right
        cases w
        cases same
        cases number
        cases group
        rfl
  ordered := h.ordered.subscribe s.requests name kind label
  apart := by
    show (s.watches.live ++ [_]).Pairwise _
    rw [List.pairwise_append]
    refine ⟨h.apart, List.pairwise_singleton _ _, ?_⟩
    intro v live new single
    rw [List.mem_singleton.1 single]
    exact h.given v live
  given v mem := by
    show v.handler < s.requests.nextHandler + 1
    rcases List.mem_append.1 mem with mem | mem
    · exact Nat.lt_succ_of_lt (h.given v mem)
    · rw [List.mem_singleton.1 mem]
      exact Nat.lt_succ_self _

theorem Keeps.unsubscribe (h : Keeps xs s) (id : WatchId) :
    Keeps (xs ++ [.unsubscribe id]) (s.step (.unsubscribe id)) := by
  have watches : (s.step (.unsubscribe id)).watches =
      { s.watches with live := s.watches.live.filter fun v => v.id != id } :=
    s.watches.unsubscribe_eq s.requests id
  have handler : (s.step (.unsubscribe id)).requests.nextHandler = s.requests.nextHandler := by
    show (s.watches.unsubscribe s.requests id).2.2.nextHandler = _
    unfold Watches.unsubscribe
    cases s.watches.find? id <;> rfl
  have fewer : (s.step (.unsubscribe id)).watches.live.Sublist s.watches.live := by
    rw [watches]
    exact List.filter_sublist
  constructor
  · rw [watches, List.countP_append]
    exact h.made
  · rw [handler, List.countP_append]
    exact h.grouped
  · intro w
    rw [watched_concat, ← h.live, watches, List.mem_filter, bne_iff_ne]
    constructor
    · rintro ⟨mem, other⟩
      refine .inl ⟨mem, ?_⟩
      rintro ⟨⟩
      exact other rfl
    · rintro (⟨mem, other⟩ | ⟨subscribed, -⟩)
      · refine ⟨mem, ?_⟩
        rintro rfl
        exact other rfl
      · nomatch subscribed
  · exact h.ordered.unsubscribe s.requests id
  · exact h.apart.sublist fewer
  · intro v mem
    rw [handler]
    exact h.given v (fewer.subset mem)

theorem Keeps.step (h : Keeps xs s) (x : Watching ι) : Keeps (xs ++ [x]) (s.step x) := by
  have silent : ∀ y : Watching ι, y.groups = false →
      s.requests.nextHandler = (xs ++ [y]).countP Watching.groups + 1 := by
    intro y none
    rw [List.countP_append, List.countP_singleton, if_neg (by rw [none]; nofun)]
    exact h.grouped
  cases x with
  | register =>
    refine h.still rfl nofun ?_ (Nat.le_succ _)
    rw [List.countP_append]
    exact congrArg (· + 1) h.grouped
  | subscribe name kind label => exact h.subscribe name kind label
  | unsubscribe id => exact h.unsubscribe id
  | clear => exact h.still rfl nofun (silent _ rfl) (Nat.le_refl _)
  | refresh l =>
    have handler : (s.watches.refresh s.requests l).2.1.nextHandler = s.requests.nextHandler := by
      rw [requests_refresh, Watches.nextHandler_query]
    exact h.still rfl nofun (handler.trans (silent _ rfl)) (Nat.le_of_eq handler.symm)
  | answer reply =>
    have handler : (s.requests.answer reply).2.nextHandler = s.requests.nextHandler := by
      obtain ⟨eq, -⟩ | ⟨p, -, -, eq⟩ := s.requests.answer_cases reply <;> rw [eq]
      rfl
    exact h.still rfl nofun (handler.trans (silent _ rfl)) (Nat.le_of_eq handler.symm)

theorem keeps_after (xs : List (Watching ι)) : Keeps xs (after xs) := by
  induction xs using List.reverseRecOn with
  | nil => exact keeps_empty
  | append_singleton xs x ih =>
    rw [after_concat]
    exact ih.step x

theorem Keeps.eq_of_id (h : Keeps xs s) (memW : w ∈ s.watches.live) (memV : v ∈ s.watches.live)
    (same : w.id = v.id) : w = v :=
  List.inj_on_of_nodup_map (List.pairwise_map.2 (h.ordered.ascending.imp Nat.ne_of_lt)) memW memV
    same

theorem Keeps.eq_of_handler (h : Keeps xs s) (memW : w ∈ s.watches.live)
    (memV : v ∈ s.watches.live) (same : w.handler = v.handler) : w = v :=
  List.inj_on_of_nodup_map (List.pairwise_map.2 (h.apart.imp Nat.ne_of_lt)) memW memV same

/-- The number of a watch that was ended is not given again. -/
theorem not_watched_of_ended (ended : w ∈ (after xs).watches.live) (same : v.id = w.id)
    (more : List (Watching ι)) : ¬ Watched (xs ++ .unsubscribe w.id :: more) v := by
  rintro ⟨earlier, x, later, split, ⟨rfl, number, -⟩, lasting⟩
  have given := (keeps_after xs).ordered.given w ended
  rw [(keeps_after xs).made] at given
  rcases List.append_eq_append_iff.1 split with ⟨between, rfl, -⟩ | ⟨between, rfl, rest⟩
  · rw [same, List.countP_append] at number
    exact absurd given (Nat.not_le_of_lt (number ▸ by omega))
  · cases between with
    | nil => nomatch rest
    | cons y between =>
      obtain ⟨-, rfl⟩ := List.cons.inj rest
      apply lasting (.unsubscribe w.id)
      · exact List.mem_append_right _ List.mem_cons_self
      · rw [same]

/-! ## What waits -/

theorem asked_concat :
    Asked (xs ++ [x]) p w ↔ (Asked xs p w ∧ ¬ x.Ends w p.id) ∨
      ∃ link k, x = .refresh link ∧ (after xs).watches.live[k]? = some w ∧
        k < (link.taken (after xs).queries).length ∧
        p = ⟨(after xs).requests.nextRequest + k, w.handler, .snapshot w.kind w.label⟩ :=
  since_concat

/-- What waits is for a watch that lives. -/
theorem Asked.live (h : Asked xs p w) : w ∈ (after xs).watches.live := by
  obtain ⟨earlier, x, later, rfl, ⟨link, k, rfl, place, -, same⟩, lasting⟩ := h
  rw [(keeps_after _).live]
  apply Since.append (((keeps_after earlier).live w).1 (List.mem_of_getElem? place))
  intro d mem
  rcases List.mem_cons.1 mem with rfl | mem
  · nofun
  · rintro rfl
    exact lasting _ mem rfl

theorem Asked.eq (h : Asked xs p w) :
    p.handler = w.handler ∧ p.callback = .snapshot w.kind w.label := by
  obtain ⟨earlier, x, later, -, ⟨link, k, -, -, -, rfl⟩, -⟩ := h
  exact ⟨rfl, rfl⟩

/-- Where nothing is asked, what waits is what is not ended. -/
theorem waits_less (x : Watching ι) {pending : List (PendingRequest (Callback ι))}
    (waits : ∀ p, p ∈ (after xs).requests.pending ↔ ∃ w, Asked xs p w)
    (quiet : ∀ link, x ≠ .refresh link) (fewer : pending ⊆ (after xs).requests.pending)
    (lasts : ∀ p w, Asked xs p w → (p ∈ pending ↔ ¬ x.Ends w p.id))
    (p : PendingRequest (Callback ι)) :
    p ∈ pending ↔ ∃ w, Asked (xs ++ [x]) p w := by
  constructor
  · intro mem
    obtain ⟨w, asked⟩ := (waits p).1 (fewer mem)
    exact ⟨w, asked_concat.2 (.inl ⟨asked, (lasts p w asked).1 mem⟩)⟩
  · rintro ⟨w, asked⟩
    rcases asked_concat.1 asked with ⟨asked, unended⟩ | ⟨link, k, refresh, -⟩
    · exact (lasts p w asked).2 unended
    · exact absurd refresh (quiet link)

/-- A watch that ends takes its own queries along, and no others. -/
theorem mem_pending_unsubscribe (asked : Asked xs p w)
    (mem : p ∈ (after xs).requests.pending) (id : WatchId) :
    p ∈ ((after xs).watches.unsubscribe (after xs).requests id).2.2.pending ↔ w.id ≠ id := by
  have keeps := keeps_after xs
  unfold Watches.unsubscribe
  cases found : (after xs).watches.find? id with
  | none =>
    refine ⟨fun _ => ?_, fun _ => mem⟩
    simpa using List.find?_eq_none.1 found w asked.live
  | some v =>
    have live : v ∈ (after xs).watches.live := List.mem_of_find?_eq_some found
    have named : v.id = id := by simpa using List.find?_some found
    show p ∈ ((after xs).requests.unregister v.handler).2.pending ↔ _
    rw [Requests.pending_unregister, List.mem_filter, bne_iff_ne, asked.eq.1, ← named]
    constructor
    · rintro ⟨-, other⟩ same
      exact other (congrArg Watch.handler (keeps.eq_of_id asked.live live same))
    · intro other
      refine ⟨mem, ?_⟩
      intro same
      exact other (congrArg Watch.id (keeps.eq_of_handler asked.live live same))

theorem waits_after (xs : List (Watching ι)) (p : PendingRequest (Callback ι)) :
    p ∈ (after xs).requests.pending ↔ ∃ w, Asked xs p w := by
  induction xs using List.reverseRecOn generalizing p with
  | nil =>
    constructor
    · nofun
    · rintro ⟨w, earlier, x, later, split, -⟩
      nomatch List.append_eq_nil_iff.1 split.symm
  | append_singleton xs x ih =>
    rw [after_concat]
    have still : ∀ p w, Asked xs p w → (p ∈ (after xs).requests.pending ↔ ¬ False) := by
      intro p w asked
      exact iff_of_true ((ih p).2 ⟨w, asked⟩) not_false
    cases x with
    | register => exact waits_less .register ih nofun (List.Subset.refl _) still p
    | subscribe name kind label =>
      exact waits_less (.subscribe name kind label) ih nofun (List.Subset.refl _) still p
    | clear =>
      refine waits_less .clear ih nofun (List.nil_subset _) ?_ p
      intro p w _
      exact iff_of_false List.not_mem_nil (not_not.2 trivial)
    | answer reply =>
      show p ∈ ((after xs).requests.answer reply).2.pending ↔ _
      rw [Requests.pending_answer]
      refine waits_less (.answer reply) ih nofun List.filter_sublist.subset ?_ p
      intro p w asked
      rw [List.mem_filter, bne_iff_ne]
      exact and_iff_right ((ih p).2 ⟨w, asked⟩)
    | unsubscribe id =>
      refine waits_less (.unsubscribe id) ih nofun ?_ ?_ p
      · show ((after xs).watches.unsubscribe (after xs).requests id).2.2.pending ⊆ _
        unfold Watches.unsubscribe
        cases (after xs).watches.find? id with
        | none => exact List.Subset.refl _
        | some v => exact List.filter_sublist.subset
      · intro p w asked
        exact mem_pending_unsubscribe asked ((ih p).2 ⟨w, asked⟩) id
    | refresh l =>
      show p ∈ ((after xs).watches.refresh (after xs).requests l).2.1.pending ↔ _
      rw [requests_refresh, Watches.pending_query (ahead_after xs), List.mem_append, ih,
        Watches.mem_entries_iff]
      constructor
      · rintro (⟨w, asked⟩ | ⟨k, w, place, rfl⟩)
        · exact ⟨w, asked_concat.2 (.inl ⟨asked, not_false⟩)⟩
        · rw [List.getElem?_take, Option.ite_none_right_eq_some] at place
          exact ⟨w, asked_concat.2 (.inr ⟨l, k, rfl, place.2, place.1, rfl⟩)⟩
      · rintro ⟨w, asked⟩
        rcases asked_concat.1 asked with ⟨asked, -⟩ | ⟨link, k, same, place, small, rfl⟩
        · exact .inl ⟨w, asked⟩
        · cases same
          exact .inr ⟨k, w, (List.getElem?_take_of_lt small).trans place, rfl⟩

/-! ## Who is told -/

/-- A query waits for one watch. -/
theorem Asked.unique (h : Asked xs p w) (h' : Asked xs p v) : w = v :=
  (keeps_after xs).eq_of_handler h.live h'.live (h.eq.1.symm.trans h'.eq.1)

/-- A reply is for the watch for which its query waits. -/
theorem answer_eq_some {reply : Reply} {callback : Callback ι} :
    ((after xs).requests.answer reply).1 = some callback ↔
      ∃ w, callback = .snapshot w.kind w.label ∧
        Asked xs ⟨reply.id.toNat, w.handler, .snapshot w.kind w.label⟩ w := by
  rw [(kept_course xs).answer_eq_some]
  simp only [← (kept_course xs).waits, waits_after]
  constructor
  · rintro ⟨handler, w, asked⟩
    obtain ⟨rfl, rfl⟩ := asked.eq
    exact ⟨w, rfl, asked⟩
  · rintro ⟨w, rfl, asked⟩
    exact ⟨w.handler, w, asked⟩

theorem told_concat (s : Lookout ι) (xs : List (Watching ι)) (x : Watching ι) :
    s.told (xs ++ [x]) = s.told xs ++ (xs.foldl step s).tells x := by
  induction xs generalizing s with
  | nil => exact List.append_nil _
  | cons y xs ih => rw [List.cons_append, told, told, ih, List.append_assoc, List.foldl_cons]

/-- Callbacks are run by what tells them, and that is not undone. -/
theorem mem_told {told : Callback ι × Reply} :
    told ∈ empty.told xs ↔
      Since (fun earlier x => told ∈ (after earlier).tells x) (fun _ => False) xs := by
  induction xs using List.reverseRecOn with
  | nil =>
    constructor
    · nofun
    · rintro ⟨earlier, x, later, split, -⟩
      nomatch List.append_eq_nil_iff.1 split.symm
  | append_singleton xs x ih =>
    rw [told_concat, List.mem_append, ih, since_concat]
    exact or_congr_left (and_iff_left not_false).symm

/-- Callbacks are run by the replies to queries that wait. -/
theorem mem_told_iff {callback : Callback ι} {reply : Reply} :
    (callback, reply) ∈ empty.told xs ↔
      ∃ earlier later w, xs = earlier ++ .answer reply :: later ∧
        callback = .snapshot w.kind w.label ∧
        Asked earlier ⟨reply.id.toNat, w.handler, .snapshot w.kind w.label⟩ w := by
  rw [mem_told]
  constructor
  · rintro ⟨earlier, x, later, rfl, run, -⟩
    cases x with
    | answer reply' =>
      simp only [tells, List.mem_map, Option.mem_toList, Prod.mk.injEq] at run
      obtain ⟨callback', found, rfl, rfl⟩ := run
      obtain ⟨w, same, asked⟩ := answer_eq_some.1 found
      exact ⟨earlier, later, w, rfl, same, asked⟩
    | _ => nomatch run
  · rintro ⟨earlier, later, w, rfl, same, asked⟩
    refine ⟨earlier, _, later, rfl, ?_, fun _ _ => not_false⟩
    simp only [tells, answer_eq_some.2 ⟨w, same, asked⟩, Option.toList_some, List.map_cons,
      List.mem_cons, true_or]

/-- What a watch is told for a reply. -/
theorem notice_snapshot (kind : ObjectKind) (label : ι) (reply : Reply) :
    (∀ resource, (Callback.snapshot kind label).notice reply = .update label resource ↔
      reply.ok = true ∧ reply.resource = some resource ∧ resource.kind = kind) ∧
    (reply.ok = false →
      (Callback.snapshot kind label).notice reply = .refused label (reply.error.getD "")) ∧
    (reply.ok = true → reply.resource = none →
      (Callback.snapshot kind label).notice reply = .refused label "reply carried no resource") ∧
    ∀ resource, reply.ok = true → reply.resource = some resource → resource.kind ≠ kind →
      (Callback.snapshot kind label).notice reply =
        .refused label ("expected a " ++ kind.name ++ " snapshot, got " ++ resource.kind.name) := by
  obtain ⟨id, ok, error, resource⟩ := reply
  cases ok with
  | false => simp [Callback.notice, Reply.snapshot, Reply.result]
  | true =>
    cases resource with
    | none => simp [Callback.notice, Reply.snapshot, Reply.result, emptyReply]
    | some resource =>
      by_cases same : resource.kind = kind
      · simp [Callback.notice, Reply.snapshot, Reply.result, same]
      · simp [Callback.notice, Reply.snapshot, Reply.result, same]

/-- Ending a watch tells whether there was one of the number. -/
theorem unsubscribe_found (s : Lookout ι) (id : WatchId) :
    (s.watches.unsubscribe s.requests id).1 = true ↔ ∃ w ∈ s.watches.live, w.id = id := by
  unfold Watches.unsubscribe Watches.find?
  cases found : s.watches.live.find? fun w => w.id == id with
  | none =>
    refine iff_of_false nofun ?_
    rintro ⟨w, live, named⟩
    exact List.find?_eq_none.1 found w live (beq_iff_eq.2 named)
  | some w =>
    have named : w.id = id := by simpa using List.find?_some found
    exact iff_of_true rfl ⟨w, List.mem_of_find?_eq_some found, named⟩

/-- What querying all watches comes to. -/
theorem refresh_cases (xs : List (Watching ι)) (link : Link) :
    ∃ result requests link', (after xs).watches.refresh (after xs).requests link =
        (result, requests, link') ∧
      (∀ n, result = .ok n ↔
        n = (after xs).watches.live.length ∧ link.taken (after xs).queries = (after xs).queries) ∧
      link'.sent = link.sent ++ link.taken (after xs).queries ∧
      requests.pending = (after xs).requests.pending ++ Watches.entries
        ((after xs).watches.live.take (link.taken (after xs).queries).length)
        (after xs).requests.nextRequest := by
  obtain ⟨r', queried, refreshed⟩ := (after xs).watches.refresh_eq (after xs).requests link
  refine ⟨_, _, _, refreshed, ?_, link.sent_offer _, ?_⟩
  · intro n
    rw [queries, Link.taken_eq_self]
    cases (link.offer (Watches.queries (after xs).watches.live (after xs).requests.nextRequest)).1 with
    | none => simp [eq_comm]
    | some e => simp
  · have pending := Watches.pending_query (ahead_after xs) (after xs).watches.live link
    rw [queried] at pending
    exact pending

/-- **A reply reaches the watch that asked, once.** Take any history of what an owner does with its
watches.

* The watches are those that were made and not ended, in the order in which they were made, and what
  waits are the queries that were made for them, taken by a link, and not answered or forgotten
  since. Each waits for one watch, under a number of its own.
* Querying all sends one query for each watch, in that order and under new numbers, up to the first
  that the link refuses; tells the number of the watches just when none is refused; and leaves
  waiting what waited before and what was sent.
* A reply runs the callback of the watch for which the query of its number waits, if there is one,
  and no other; and no two replies that run a callback have one number.
* The watch gets the snapshot if the reply brings one of its kind, and otherwise what is wrong.
* Ending a watch forgets its queries and no others, and nothing waits for it ever after. -/
theorem watches_answered (xs : List (Watching ι)) :
    let s := after xs
    ((∀ w, w ∈ s.watches.live ↔ Watched xs w) ∧ s.watches.live.Pairwise (fun v w => v.id < w.id) ∧
      (∀ p, p ∈ s.requests.pending ↔ ∃ w, Asked xs p w) ∧
      (∀ p v w, Asked xs p v → Asked xs p w → v = w) ∧ (s.requests.pending.map (·.id)).Nodup ∧
      ∀ p ∈ s.requests.pending, p.id < s.requests.nextRequest) ∧
    ((∀ k : Nat, s.queries[k]? = s.watches.live[k]?.map fun w =>
        Message.request ⟨.ofNat (s.requests.nextRequest + k), .query w.kind w.name⟩) ∧
      ∀ link : Link, link.taken s.queries <+: s.queries ∧
        ∃ result requests link', s.watches.refresh s.requests link = (result, requests, link') ∧
          (∀ n, result = .ok n ↔ n = s.watches.live.length ∧ link.taken s.queries = s.queries) ∧
          link'.sent = link.sent ++ link.taken s.queries ∧
          ∀ p, p ∈ requests.pending ↔ p ∈ s.requests.pending ∨
            ∃ k w, k < (link.taken s.queries).length ∧ s.watches.live[k]? = some w ∧
              p = ⟨s.requests.nextRequest + k, w.handler, .snapshot w.kind w.label⟩) ∧
    ((∀ reply callback, (s.requests.answer reply).1 = some callback ↔
        ∃ w, callback = .snapshot w.kind w.label ∧
          Asked xs ⟨reply.id.toNat, w.handler, .snapshot w.kind w.label⟩ w) ∧
      (∀ reply, empty.told (xs ++ [.answer reply]) =
        empty.told xs ++ (s.requests.answer reply).1.toList.map fun callback => (callback, reply)) ∧
      (∀ reply callback, (callback, reply) ∈ empty.told xs ↔
        ∃ earlier later w, xs = earlier ++ .answer reply :: later ∧
          callback = .snapshot w.kind w.label ∧
          Asked earlier ⟨reply.id.toNat, w.handler, .snapshot w.kind w.label⟩ w) ∧
      ((empty.told xs).map (·.2.id)).Nodup) ∧
    (∀ kind (label : ι) (reply : Reply),
      (∀ resource, (Callback.snapshot kind label).notice reply = .update label resource ↔
        reply.ok = true ∧ reply.resource = some resource ∧ resource.kind = kind) ∧
      (reply.ok = false →
        (Callback.snapshot kind label).notice reply = .refused label (reply.error.getD "")) ∧
      (reply.ok = true → reply.resource = none →
        (Callback.snapshot kind label).notice reply = .refused label "reply carried no resource") ∧
      ∀ resource, reply.ok = true → reply.resource = some resource → resource.kind ≠ kind →
        (Callback.snapshot kind label).notice reply =
          .refused label ("expected a " ++ kind.name ++ " snapshot, got " ++ resource.kind.name)) ∧
    (∀ id, ((s.watches.unsubscribe s.requests id).1 = true ↔ ∃ w ∈ s.watches.live, w.id = id) ∧
      ∀ p, p ∈ (s.step (.unsubscribe id)).requests.pending ↔ ∃ w, Asked xs p w ∧ w.id ≠ id) ∧
    ∀ w ∈ s.watches.live, ∀ more p v,
      Asked (xs ++ .unsubscribe w.id :: more) p v → v.id ≠ w.id := by
  intro s
  have keeps : Keeps xs s := keeps_after xs
  have kept := kept_course xs
  refine ⟨⟨keeps.live, keeps.ordered.ascending, waits_after xs, fun _ _ _ h h' => h.unique h',
      kept.distinct, ahead_after xs⟩,
    ⟨Watches.getElem?_queries _ _, fun link => ⟨link.taken_prefix _, ?refresh⟩⟩,
    ⟨fun _ _ => answer_eq_some, fun reply => told_concat _ _ _, fun _ _ => mem_told_iff, ?once⟩,
    notice_snapshot, fun id => ⟨s.unsubscribe_found id, ?ends⟩, ?never⟩
  case refresh =>
    obtain ⟨result, requests, link', refreshed, counts, sent, pending⟩ := refresh_cases xs link
    refine ⟨result, requests, link', refreshed, counts, sent, ?_⟩
    intro p
    rw [pending, List.mem_append, Watches.mem_entries_iff]
    simp only [List.getElem?_take, Option.ite_none_right_eq_some, and_assoc]
    rfl
  case once =>
    rw [← told_course]
    exact Requests.kept_empty.nodup_told _
  case ends =>
    intro p
    have waits := waits_after (xs ++ [.unsubscribe id]) p
    rw [after_concat] at waits
    rw [waits]
    simp only [asked_concat, Watching.Ends, reduceCtorEq, false_and, exists_false, or_false]
  case never =>
    intro w live more p v asked same
    exact not_watched_of_ended live same more (((keeps_after _).live v).1 asked.live)

/-- Two watches on one object are queried, one is ended, and the reply to each comes twice. -/
example :
    empty.told [.subscribe default .texture "first", .subscribe default .texture "second",
      .refresh (.withBudget none), .unsubscribe 1, .answer (.success 1 none),
      .answer (.success 2 none), .answer (.success 1 none), .answer (.success 2 none)] =
    [(.snapshot .texture "second", .success 2 none)] := rfl

end Lookout

end CallDebugger
