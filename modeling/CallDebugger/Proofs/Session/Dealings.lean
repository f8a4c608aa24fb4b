import CallDebugger.Session.Requests
import CallDebugger.Proofs.Link.Offer
import Mathlib.Data.List.Nodup

/-!
# What becomes of requests

A `Dealing` is one thing that an owner does with its requests, and `Requests.after` is what they
have come to after a course of dealings. Which requests wait is told by the dealings alone: those
that a link took and that nothing has ended since (`Requests.Awaits`). The requests keep to this
(`Requests.Kept`, `Requests.kept_after`), so numbers are never used twice, a refused request leaves
no trace, and what is to be done with a reply is done once (`Requests.course_of_dealings`).
-/

namespace CallDebugger

/-- Something has happened in a course of events, and nothing has ended it since. -/
def Since {α : Type} (happens : List α → α → Prop) (ends : α → Prop) (course : List α) : Prop :=
  ∃ earlier e later, course = earlier ++ e :: later ∧ happens earlier e ∧ ∀ d ∈ later, ¬ ends d

/-- It has happened after one more event: it had happened before and is not ended, or it happens. -/
theorem since_concat {α : Type} {happens : List α → α → Prop} {ends : α → Prop} {course : List α}
    {a : α} :
    Since happens ends (course ++ [a]) ↔ (Since happens ends course ∧ ¬ ends a) ∨ happens course a := by
  constructor
  · rintro ⟨earlier, e, later, split, happened, lasting⟩
    rcases List.eq_nil_or_concat later with rfl | ⟨later, d, rfl⟩
    · obtain ⟨rfl, rfl⟩ := List.append_singleton_inj.1 split
      exact .inr happened
    · rw [List.concat_eq_append, ← List.cons_append, ← List.append_assoc] at split
      obtain ⟨rfl, rfl⟩ := List.append_singleton_inj.1 split
      simp only [List.concat_eq_append, List.mem_append, List.mem_singleton] at lasting
      refine .inl ⟨⟨earlier, e, later, rfl, happened, ?_⟩, lasting a (.inr rfl)⟩
      intro d mem
      exact lasting d (.inl mem)
  · rintro (⟨⟨earlier, e, later, rfl, happened, lasting⟩, lasts⟩ | happens)
    · refine ⟨earlier, e, later ++ [a], ?_, happened, ?_⟩
      · simp only [List.append_assoc, List.cons_append]
      · intro d mem
        rcases List.mem_append.1 mem with mem | mem
        · exact lasting d mem
        · rw [List.mem_singleton.1 mem]
          exact lasts
    · exact ⟨course, a, [], rfl, happens, nofun⟩

/-- What has happened lasts while nothing ends it. -/
theorem Since.append {α : Type} {happens : List α → α → Prop} {ends : α → Prop} {course : List α}
    (h : Since happens ends course) {more : List α} (lasting : ∀ d ∈ more, ¬ ends d) :
    Since happens ends (course ++ more) := by
  obtain ⟨earlier, e, later, rfl, happened, since⟩ := h
  refine ⟨earlier, e, later ++ more, ?_, happened, ?_⟩
  · rw [List.append_assoc, List.cons_append]
  · intro d mem
    exact (List.mem_append.1 mem).elim (since d) (lasting d)

variable {κ : Type}

/-- What an owner does with its requests. -/
inductive Dealing (κ : Type) where
  | register
  | issue (link : Link) (handler : HandlerId) (errand : Errand) (callback : κ)
  | answer (reply : Reply)
  | unregister (handler : HandlerId)
  | clear

namespace Dealing

/-- A number is used up, also if the link refuses the request. -/
def issues : Dealing κ → Bool
  | issue .. => true
  | _ => false

/-- The dealing ends the wait of a request. -/
def Ends (p : PendingRequest κ) : Dealing κ → Prop
  | answer reply => p.id = reply.id.toNat
  | unregister handler => p.handler = handler
  | clear => True
  | register | issue .. => False

end Dealing

namespace Requests

/-- The requests after a dealing. -/
def deal (r : Requests κ) : Dealing κ → Requests κ
  | .register => r.register.2
  | .issue link handler errand callback => (r.issue link handler errand callback).2.1
  | .answer reply => (r.answer reply).2
  | .unregister handler => (r.unregister handler).2
  | .clear => r.clear

/-- The requests after a course of dealings. -/
def after (ds : List (Dealing κ)) : Requests κ := ds.foldl deal empty

/-- What a dealing has done with a reply. -/
def tells (r : Requests κ) : Dealing κ → List (κ × Reply)
  | .answer reply => (r.answer reply).1.toList.map fun callback => (callback, reply)
  | _ => []

/-- All that is done with replies in a course of dealings, in order. -/
def told (r : Requests κ) : List (Dealing κ) → List (κ × Reply)
  | [] => []
  | d :: ds => r.tells d ++ (r.deal d).told ds

/-- How many requests were issued, taken or not. -/
def issued (ds : List (Dealing κ)) : Nat := ds.countP Dealing.issues

/-- A request waits after a course of dealings: it was issued, the link took it, and nothing has
ended its wait. -/
def Awaits (ds : List (Dealing κ)) (p : PendingRequest κ) : Prop :=
  ∃ earlier link errand later,
    ds = earlier ++ .issue link p.handler errand p.callback :: later ∧
    p.id = issued earlier + 1 ∧
    (link.send (.request ⟨.ofNat p.id, errand⟩)).1 = .ok () ∧
    ∀ d ∈ later, ¬ d.Ends p

/-! ## One dealing -/

theorem issued_append (ds es : List (Dealing κ)) : issued (ds ++ es) = issued ds + issued es :=
  List.countP_append

theorem told_append (r : Requests κ) (ds es : List (Dealing κ)) :
    r.told (ds ++ es) = r.told ds ++ (ds.foldl deal r).told es := by
  induction ds generalizing r with
  | nil => rfl
  | cons d ds ih =>
    simp only [List.cons_append, told, ih, List.append_assoc, List.foldl_cons]

/-- A request waits since it was issued. -/
theorem awaits_iff {ds : List (Dealing κ)} {p : PendingRequest κ} :
    Awaits ds p ↔
      Since (fun earlier d => ∃ link errand, d = .issue link p.handler errand p.callback ∧
          p.id = issued earlier + 1 ∧ (link.send (.request ⟨.ofNat p.id, errand⟩)).1 = .ok ())
        (fun d => d.Ends p) ds := by
  constructor
  · rintro ⟨earlier, link, errand, later, split, number, taken, lasting⟩
    exact ⟨earlier, _, later, split, ⟨link, errand, rfl, number, taken⟩, lasting⟩
  · rintro ⟨earlier, d, later, split, ⟨link, errand, rfl, number, taken⟩, lasting⟩
    exact ⟨earlier, link, errand, later, split, number, taken, lasting⟩

/-- What waits after one more dealing waited before it, or was issued by it. -/
theorem awaits_append {ds : List (Dealing κ)} {d : Dealing κ} {p : PendingRequest κ} :
    Awaits (ds ++ [d]) p ↔
      (Awaits ds p ∧ ¬ d.Ends p) ∨
      ∃ link errand, d = .issue link p.handler errand p.callback ∧ p.id = issued ds + 1 ∧
        (link.send (.request ⟨.ofNat p.id, errand⟩)).1 = .ok () := by
  simp only [awaits_iff]
  exact since_concat

/-- Only what was issued waits. -/
theorem Awaits.le {ds : List (Dealing κ)} {p : PendingRequest κ} (h : Awaits ds p) :
    1 ≤ p.id ∧ p.id ≤ issued ds := by
  obtain ⟨earlier, link, errand, later, rfl, number, -, -⟩ := h
  rw [issued_append]
  have this : 0 < issued (.issue link p.handler errand p.callback :: later) :=
    List.countP_pos_iff.2 ⟨_, List.mem_cons_self, rfl⟩
  omega

/-! ## What the requests keep to -/

/-- The requests are what a course of dealings makes of them. -/
structure Kept (ds : List (Dealing κ)) (r : Requests κ) : Prop where
  next : r.nextRequest = issued ds + 1
  waits : ∀ p, p ∈ r.pending ↔ Awaits ds p
  distinct : (r.pending.map (·.id)).Nodup

/-- A number that was not given yet is not pending. -/
theorem Kept.fresh {ds : List (Dealing κ)} {r : Requests κ} (h : Kept ds r)
    {p : PendingRequest κ} (mem : p ∈ r.pending) : p.id ≠ r.nextRequest := by
  have le := ((h.waits p).1 mem).le
  rw [h.next]
  omega

/-- A request that is struck out again leaves what was there. -/
theorem Kept.strike_note {ds : List (Dealing κ)} {r : Requests κ} (h : Kept ds r)
    (handler : HandlerId) (callback : κ) :
    ((r.note handler callback).strike r.nextRequest).pending = r.pending := by
  rw [pending_strike_note, List.filter_eq_self]
  intro p mem
  exact bne_iff_ne.2 (h.fresh mem)

/-- A dealing that issues nothing keeps what it does not end. -/
theorem Kept.less {ds : List (Dealing κ)} {r r' : Requests κ} {d : Dealing κ} (h : Kept ds r)
    (silent : d.issues = false) (next : r'.nextRequest = r.nextRequest)
    (fewer : r'.pending.Sublist r.pending)
    (lasts : ∀ p ∈ r.pending, p ∈ r'.pending ↔ ¬ d.Ends p) : Kept (ds ++ [d]) r' where
  next := by
    have none : issued [d] = 0 := by simp only [issued, List.countP_singleton, silent]; rfl
    rw [next, h.next, issued_append, none]
  waits p := by
    rw [awaits_append]
    constructor
    · intro mem
      have before := fewer.subset mem
      exact .inl ⟨(h.waits p).1 before, (lasts p before).1 mem⟩
    · rintro (⟨before, unended⟩ | ⟨link, errand, rfl, -, -⟩)
      · exact (lasts p ((h.waits p).2 before)).2 unended
      · nomatch silent
  distinct := h.distinct.sublist (fewer.map _)

/-- A request that the link takes waits. -/
theorem Kept.note {ds : List (Dealing κ)} {r : Requests κ} (h : Kept ds r) {link : Link}
    (handler : HandlerId) {errand : Errand} (callback : κ)
    (taken : (link.send (.request ⟨.ofNat r.nextRequest, errand⟩)).1 = .ok ()) :
    Kept (ds ++ [.issue link handler errand callback]) (r.note handler callback) where
  next := by
    rw [issued_append]
    show r.nextRequest + 1 = issued ds + 1 + 1
    rw [h.next]
  waits p := by
    rw [awaits_append, ← h.waits p, ← h.next]
    rw [Requests.note, List.mem_append, List.mem_singleton]
    constructor
    · rintro (mem | rfl)
      · exact .inl ⟨mem, not_false⟩
      · exact .inr ⟨link, errand, rfl, rfl, taken⟩
    · rintro (⟨mem, -⟩ | ⟨link', errand', same, number, -⟩)
      · exact .inl mem
      · right
        cases same
        rw [← number]
  distinct := by
    rw [Requests.note, List.map_append, List.nodup_append]
    refine ⟨h.distinct, List.nodup_singleton _, ?_⟩
    intro id mem id' mem'
    obtain ⟨p, waits, rfl⟩ := List.mem_map.1 mem
    rw [List.mem_singleton.1 mem']
    exact h.fresh waits

/-- A request that the link refuses leaves what waits, and uses up its number. -/
theorem Kept.refuse {ds : List (Dealing κ)} {r : Requests κ} (h : Kept ds r) {link : Link}
    (handler : HandlerId) {errand : Errand} (callback : κ) {e : LinkError}
    (refused : (link.send (.request ⟨.ofNat r.nextRequest, errand⟩)).1 = .error e) :
    Kept (ds ++ [.issue link handler errand callback])
      ((r.note handler callback).strike r.nextRequest) where
  next := by
    rw [issued_append]
    show r.nextRequest + 1 = issued ds + 1 + 1
    rw [h.next]
  waits p := by
    rw [h.strike_note, awaits_append, ← h.waits p, ← h.next]
    constructor
    · intro mem
      exact .inl ⟨mem, not_false⟩
    · rintro (⟨mem, -⟩ | ⟨link', errand', same, number, taken⟩)
      · exact mem
      · cases same
        rw [number, refused] at taken
        nomatch taken
  distinct := by
    rw [h.strike_note]
    exact h.distinct

/-- What issuing comes to. -/
theorem issue_eq (r : Requests κ) (link : Link) (handler : HandlerId) (errand : Errand)
    (callback : κ) :
    r.issue link handler errand callback =
      match link.send (.request ⟨.ofNat r.nextRequest, errand⟩) with
      | (.error e, link) => (.error e, (r.note handler callback).strike r.nextRequest, link)
      | (.ok (), link) => (.ok r.nextRequest, r.note handler callback, link) := rfl

theorem Kept.deal {ds : List (Dealing κ)} {r : Requests κ} (h : Kept ds r) (d : Dealing κ) :
    Kept (ds ++ [d]) (r.deal d) := by
  cases d with
  | register => exact h.less rfl rfl (.refl _) fun p mem => ⟨fun _ => not_false, fun _ => mem⟩
  | issue link handler errand callback =>
    show Kept _ (r.issue link handler errand callback).2.1
    rw [issue_eq]
    rcases sent : link.send (.request ⟨.ofNat r.nextRequest, errand⟩) with ⟨e | _, link'⟩
    · exact h.refuse handler callback (congrArg Prod.fst sent)
    · exact h.note handler callback (congrArg Prod.fst sent)
  | answer reply =>
    show Kept _ (r.answer reply).2
    apply h.less rfl (r.nextRequest_answer reply)
    · rw [pending_answer]
      exact List.filter_sublist
    · intro p mem
      rw [pending_answer, List.mem_filter, bne_iff_ne]
      exact and_iff_right mem
  | unregister handler =>
    show Kept _ (r.unregister handler).2
    refine h.less rfl rfl List.filter_sublist ?_
    intro p mem
    rw [pending_unregister, List.mem_filter, bne_iff_ne]
    exact and_iff_right mem
  | clear =>
    show Kept _ r.clear
    refine h.less rfl rfl (List.nil_sublist _) ?_
    intro p _
    exact ⟨nofun, fun lasts => absurd trivial lasts⟩

theorem kept_empty : Kept [] (empty : Requests κ) where
  next := rfl
  waits p := by
    constructor
    · nofun
    · rintro ⟨earlier, link, errand, later, split, -⟩
      nomatch List.append_eq_nil_iff.1 split.symm
  distinct := List.nodup_nil

/-- The requests stay told by the dealings. -/
theorem Kept.foldl {es : List (Dealing κ)} {r : Requests κ} (h : Kept es r)
    (ds : List (Dealing κ)) : Kept (es ++ ds) (ds.foldl Requests.deal r) := by
  induction ds generalizing es r with
  | nil =>
    rw [List.append_nil]
    exact h
  | cons d ds ih =>
    rw [List.append_cons]
    exact ih (h.deal d)

theorem kept_after (ds : List (Dealing κ)) : Kept ds (after ds) := kept_empty.foldl ds

/-! ## What is done with replies -/

/-- A reply finds the request of its number. -/
theorem Kept.answer_eq_some {ds : List (Dealing κ)} {r : Requests κ} (h : Kept ds r) {reply : Reply}
    {callback : κ} :
    (r.answer reply).1 = some callback ↔
      ∃ handler, Awaits ds ⟨reply.id.toNat, handler, callback⟩ := by
  simp only [← h.waits]
  obtain ⟨eq, absent⟩ | ⟨p, here, number, eq⟩ := r.answer_cases reply
  · rw [eq]
    refine ⟨nofun, ?_⟩
    rintro ⟨handler, mem⟩
    exact absurd rfl (absent _ mem)
  · rw [eq]
    constructor
    · rintro ⟨⟩
      refine ⟨p.handler, ?_⟩
      rw [← number]
      exact here
    · rintro ⟨handler, mem⟩
      have same : p = ⟨reply.id.toNat, handler, callback⟩ :=
        List.inj_on_of_nodup_map h.distinct here mem number
      rw [same]

/-- What is done with replies is done by the dealings that bring them. -/
theorem mem_told {r : Requests κ} {ds : List (Dealing κ)} {callback : κ} {reply : Reply} :
    (callback, reply) ∈ r.told ds ↔
      ∃ earlier later, ds = earlier ++ .answer reply :: later ∧
        ((earlier.foldl deal r).answer reply).1 = some callback := by
  induction ds generalizing r with
  | nil => simp [told]
  | cons d ds ih =>
    rw [told, List.mem_append, ih]
    constructor
    · rintro (first | ⟨earlier, later, rfl, found⟩)
      · cases d with
        | answer reply' =>
          simp only [tells, List.mem_map, Option.mem_toList, Prod.mk.injEq] at first
          obtain ⟨callback', found, rfl, rfl⟩ := first
          exact ⟨[], ds, rfl, found⟩
        | _ => nomatch first
      · exact ⟨d :: earlier, later, rfl, found⟩
    · rintro ⟨earlier, later, split, found⟩
      cases earlier with
      | nil =>
        left
        cases split
        rw [List.foldl_nil] at found
        simp only [tells, found, Option.toList_some, List.map_cons, List.mem_cons, true_or]
      | cons e earlier =>
        obtain ⟨rfl, rfl⟩ := List.cons.inj split
        exact .inr ⟨earlier, later, rfl, found⟩

/-- A number is not given again: what waits under one was issued when the number was given. -/
theorem Awaits.of_append {es ds : List (Dealing κ)} {p : PendingRequest κ}
    (h : Awaits (es ++ ds) p) (given : p.id ≤ issued es) : Awaits es p := by
  obtain ⟨earlier, link, errand, later, split, number, taken, lasting⟩ := h
  rcases List.append_eq_append_iff.1 split with ⟨between, rfl, -⟩ | ⟨between, rfl, rest⟩
  · rw [issued_append] at number
    omega
  · cases between with
    | nil =>
      rw [List.append_nil] at given
      omega
    | cons d between =>
      obtain ⟨rfl, rfl⟩ := List.cons.inj rest
      refine ⟨earlier, link, errand, between, rfl, number, taken, ?_⟩
      intro d mem
      exact lasting d (List.mem_append_left _ mem)

/-- What is done with replies is done for requests that waited. -/
theorem Kept.mem_told {es : List (Dealing κ)} {r : Requests κ} (h : Kept es r)
    {ds : List (Dealing κ)} {callback : κ} {reply : Reply} :
    (callback, reply) ∈ r.told ds ↔
      ∃ earlier later handler, ds = earlier ++ .answer reply :: later ∧
        Awaits (es ++ earlier) ⟨reply.id.toNat, handler, callback⟩ := by
  rw [Requests.mem_told]
  constructor
  · rintro ⟨earlier, later, split, found⟩
    obtain ⟨handler, waits⟩ := (h.foldl earlier).answer_eq_some.1 found
    exact ⟨earlier, later, handler, split, waits⟩
  · rintro ⟨earlier, later, handler, split, waits⟩
    exact ⟨earlier, later, split, (h.foldl earlier).answer_eq_some.2 ⟨handler, waits⟩⟩

/-- A request is answered once. -/
theorem Kept.nodup_told {es : List (Dealing κ)} {r : Requests κ} (h : Kept es r)
    (ds : List (Dealing κ)) : ((r.told ds).map (·.2.id)).Nodup := by
  induction ds generalizing es r with
  | nil => exact List.nodup_nil
  | cons d ds ih =>
    have rest := ih (h.deal d)
    cases d with
    | answer reply =>
      rw [told, List.map_append, tells]
      cases found : (r.answer reply).1 with
      | none => exact rest
      | some callback =>
        refine List.nodup_cons.2 ⟨?_, rest⟩
        intro again
        obtain ⟨⟨callback', reply'⟩, mem, same⟩ := List.mem_map.1 again
        have same : reply'.id = reply.id := same
        obtain ⟨earlier, later, handler', -, waits⟩ := (h.deal (.answer reply)).mem_told.1 mem
        obtain ⟨handler, before⟩ := h.answer_eq_some.1 found
        -- The request of the number waited before the reply, so it does not wait after it.
        rw [same] at waits
        have old : reply.id.toNat ≤ issued (es ++ [.answer reply]) := by
          rw [issued_append]
          exact Nat.le_add_right_of_le before.le.2
        rcases awaits_append.1 (waits.of_append old) with ⟨-, lasts⟩ | ⟨link, errand, other, -⟩
        · exact lasts rfl
        · nomatch other
    | _ => exact rest

/-! ## The whole course -/

/-- Forgetting a group counts what it forgets. -/
theorem unregister_eq (r : Requests κ) (handler : HandlerId) :
    (r.unregister handler).1 = (r.pending.filter fun p => p.handler == handler).length := by
  have parts := r.pending.length_eq_length_filter_add fun p => p.handler == handler
  have rest : (fun p : PendingRequest κ => p.handler != handler) =
      fun p => !(p.handler == handler) := rfl
  simp only [unregister, rest]
  omega

/-- What a course of dealings comes to: what waits; what the next request comes to, whose number is
the next one whatever became of those before; what a reply comes to, and all that was done with
replies; and what is forgotten with a group. -/
theorem course_of_dealings (ds : List (Dealing κ)) :
    ((∀ p, p ∈ (after ds).pending ↔ Awaits ds p) ∧ ((after ds).pending.map (·.id)).Nodup) ∧
    (∀ (link : Link) handler errand callback, ∃ word : UInt64,
      (issued ds + 1 < UInt64.size → word.toNat = issued ds + 1) ∧
      match link.send (.request ⟨word, errand⟩) with
      | (.ok (), link') => ∃ r',
        (after ds).issue link handler errand callback = (.ok (issued ds + 1), r', link') ∧
        link'.sent = link.sent ++ [.request ⟨word, errand⟩] ∧
        r'.pending = (after ds).pending ++ [⟨issued ds + 1, handler, callback⟩]
      | (.error e, link') => ∃ r',
        (after ds).issue link handler errand callback = (.error e, r', link') ∧
        link'.sent = link.sent ∧ r'.pending = (after ds).pending) ∧
    (∀ reply callback, ((after ds).answer reply).1 = some callback ↔
      ∃ handler, Awaits ds ⟨reply.id.toNat, handler, callback⟩) ∧
    (∀ reply, empty.told (ds ++ [.answer reply]) =
      empty.told ds ++ ((after ds).answer reply).1.toList.map fun callback => (callback, reply)) ∧
    ((∀ reply callback, (callback, reply) ∈ empty.told ds ↔ ∃ earlier later handler,
        ds = earlier ++ .answer reply :: later ∧
        Awaits earlier ⟨reply.id.toNat, handler, callback⟩) ∧
      ((empty.told ds).map (·.2.id)).Nodup) ∧
    (∀ handler,
      ((after ds).unregister handler).1 =
        ((after ds).pending.filter fun p => p.handler == handler).length ∧
      ∀ p, p ∈ ((after ds).unregister handler).2.pending ↔
        p ∈ (after ds).pending ∧ p.handler ≠ handler) := by
  have kept := kept_after ds
  refine ⟨⟨kept.waits, kept.distinct⟩, ?issue, fun _ _ => kept.answer_eq_some, ?reply,
    ⟨fun _ _ => kept_empty.mem_told, kept_empty.nodup_told ds⟩, ?group⟩
  case issue =>
    intro link handler errand callback
    refine ⟨.ofNat (issued ds + 1), fun small => UInt64.toNat_ofNat_of_lt' small, ?_⟩
    rw [issue_eq, kept.next]
    rcases sent : link.send (.request ⟨.ofNat (issued ds + 1), errand⟩) with ⟨e | ⟨⟨⟩⟩, link'⟩
    · refine ⟨_, rfl, Link.sent_send_error sent, ?_⟩
      rw [← kept.next]
      exact kept.strike_note handler callback
    · refine ⟨_, rfl, (Link.sent_send_ok sent).1, ?_⟩
      rw [← kept.next]
      rfl
  case reply =>
    intro reply
    rw [told_append]
    simp only [told, tells, List.append_nil]
    rfl
  case group =>
    intro handler
    refine ⟨unregister_eq _ handler, ?_⟩
    intro p
    rw [pending_unregister, List.mem_filter, bne_iff_ne]

/-- The last of three requests is answered first, and again; in between comes a reply to the one
that was refused. -/
theorem course_of_dealings_out_of_order :
    let errand : Errand := .relink 1 10
    let reply (id : UInt64) : Reply := ⟨id, true, none, none⟩
    let ds : List (Dealing String) :=
      [.register, .register,
        .issue (.withBudget none) 1 errand "first",
        .issue (.withBudget (some 0)) 1 errand "refused",
        .issue (.withBudget none) 2 errand "last",
        .answer (reply 3), .answer (reply 2), .answer (reply 3)]
    (∃ handler, Awaits ds ⟨1, handler, "first"⟩) ∧
    (∀ handler, ¬ Awaits ds ⟨2, handler, "refused"⟩) ∧
    (∃ earlier later handler, ds = earlier ++ .answer (reply 3) :: later ∧
      Awaits earlier ⟨3, handler, "last"⟩) ∧
    issued ds + 1 < UInt64.size ∧
    ∃ (word : UInt64) (r' : Requests String) (link' : Link), word.toNat = 4 ∧
      (after ds).issue (.withBudget none) 2 errand "next" = (.ok 4, r', link') ∧
      link'.sent = [.request ⟨word, errand⟩] := by
  intro errand reply ds
  obtain ⟨⟨waits, -⟩, issue, answer, -, ⟨told, -⟩, -⟩ := course_of_dealings ds
  have small : issued ds + 1 < UInt64.size := by decide
  have pending : (after ds).pending = [⟨1, 1, "first"⟩] := rfl
  have found : ((after ds).answer (reply 1)).1 = some "first" := rfl
  have once : empty.told ds = [("last", reply 3)] := rfl
  refine ⟨(answer (reply 1) "first").1 found, ?_, (told (reply 3) "last").1 ?_, small, ?_⟩
  · intro handler awaits
    have mem := (waits _).2 awaits
    rw [pending, List.mem_singleton] at mem
    nomatch mem
  · rw [once]
    exact List.mem_singleton_self _
  · have four : issued ds + 1 = 4 := rfl
    obtain ⟨word, number, taken⟩ := issue (.withBudget none) 2 errand "next"
    rw [four] at number small taken
    obtain ⟨r', issued, sent, -⟩ := taken
    exact ⟨word, r', _, number small, issued, sent⟩

end Requests

end CallDebugger
