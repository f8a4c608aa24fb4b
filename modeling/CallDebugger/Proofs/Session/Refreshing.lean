import CallDebugger.Proofs.Session.Ahead
import CallDebugger.Proofs.Session.Settings

/-!
# What a pause sets off

When the process pauses, the session sends what the first pause on a link is due, and then queries
everything that is watched. Either the link takes all of it, and the session is paused with these
requests added to those that wait (`Session.Refreshed`); or it refuses one of the messages, and
whichever that is, nothing is left of the connection (`Session.TornDown`). No other outcome is
possible (`Session.pause_refreshes`).
-/

namespace CallDebugger

variable {ι : Type}

namespace Session

/-- What the session sends when the process pauses: what the first pause on a link is due, and then
a query for each watch. -/
def asks (s : Session ι) : List Message :=
  s.announcement ++ Watches.queries s.watches.live s.requests.nextRequest

/-- A session `s` has accepted a pause, and its link, now `l`, has taken all that it sent. -/
structure Refreshed (s : Session ι) (pause : Pause) (l : Link) (s' : Session ι) : Prop where
  phase : s'.phase = .breaked
  lastBreak : s'.lastBreak = some pause
  link : s'.link = some l
  retired : s'.retired = s.retired
  pending : s'.requests.pending =
    s.requests.pending ++ Watches.entries s.watches.live s.requests.nextRequest
  nextRequest : s'.requests.nextRequest = s.requests.nextRequest + s.watches.live.length
  log : s'.log = s.log ++ [.breaked pause, .status "Breaked execution."]
  peerName : s'.peerName = s.peerName
  watches : s'.watches = s.watches
  breakpoints : s'.breakpoints = s.breakpoints
  settings : s'.settings = s.settings

/-- A session `s` has lost its link, last seen as `l`, for a reason, having told its owner some
things. -/
structure TornDown (s : Session ι) (reason : String) (l : Link) (told : List (Notice ι))
    (s' : Session ι) : Prop where
  phase : s'.phase = .disconnected
  link : s'.link = none
  retired : s'.retired = s.retired ++ [l.abort]
  pending : s'.requests.pending = []
  lastBreak : s'.lastBreak = none
  peerName : s'.peerName = none
  synced : s'.synced = false
  log : s'.log = s.log ++ told ++ [.disconnected reason]
  watches : s'.watches = s.watches
  breakpoints : s'.breakpoints = s.breakpoints
  settings : s'.settings = s.settings

variable {s s' : Session ι} {l l' : Link} {pause : Pause}

/-- A session that loses its link, whatever requests it has made before. -/
theorem tornDown_lose {told : List (Notice ι)} (linked : s'.link = some l)
    (retired : s'.retired = s.retired) (log : s'.log = s.log ++ told)
    (watches : s'.watches = s.watches) (keeps : s.KeepsSettings s') (reason : String) :
    s.TornDown reason l told (s'.lose reason) := by
  rw [lose_of_link linked]
  constructor
  · rfl
  · rfl
  · show s'.retired ++ [l.abort] = _
    rw [retired]
  · rfl
  · rfl
  · rfl
  · rfl
  · show s'.log ++ [_] = _
    rw [log]
  · exact watches
  · exact keeps.2
  · exact keeps.1

/-- A link that takes the announcement is offered the queries next, and its answer is theirs. -/
theorem query_of_asks {l₁ : Link} {r : Option LinkError}
    (announced : l.offer s.announcement = (none, l₁)) (asked : l.offer s.asks = (r, l')) :
    ∃ requests, Watches.query s.watches.live s.requests l₁ =
      (r.elim (.ok ()) .error, requests, l') := by
  rw [asks, Link.offer_append, announced] at asked
  have asked : l₁.offer (Watches.queries s.watches.live s.requests.nextRequest) = (r, l') := asked
  obtain ⟨requests, queried⟩ := Watches.query_eq_offer s.watches.live s.requests l₁
  rw [asked] at queried
  refine ⟨requests, queried.trans ?_⟩
  cases r <;> rfl

/-- A link that refuses the announcement is not offered the queries. -/
theorem asks_of_refused {l₁ : Link} {e : LinkError}
    (announced : l.offer s.announcement = (some e, l₁)) : l.offer s.asks = (some e, l₁) := by
  rw [asks, Link.offer_append, announced]

/-- The link takes all that the session sends. -/
theorem refreshed_of_offer (connected : s.isConnected = true)
    (taken : l.offer s.asks = (none, l')) :
    s.Refreshed pause l' ({ s with link := some l }.handle (.message (.paused pause))) := by
  rcases announced : l.offer s.announcement with ⟨_ | e, l₁⟩
  · obtain ⟨requests, queried⟩ := query_of_asks announced taken
    obtain ⟨rfl, -⟩ := Watches.noted_of_query queried
    rw [handle_of_synced connected announced queried]
    refine ⟨rfl, rfl, rfl, rfl, rfl, rfl, ?_, rfl, rfl, rfl, rfl⟩
    exact List.append_assoc s.log [_] [_]
  · rw [asks_of_refused announced] at taken
    nomatch taken

/-- The link refuses something that the session sends. -/
theorem tornDown_of_offer (connected : s.isConnected = true) {e : LinkError}
    (refused : l.offer s.asks = (some e, l')) :
    s.TornDown e.message l' (if (l.offer s.announcement).1.isSome then [] else [.breaked pause])
      ({ s with link := some l }.handle (.message (.paused pause))) := by
  rcases announced : l.offer s.announcement with ⟨_ | e, l₁⟩
  · obtain ⟨requests, queried⟩ := query_of_asks announced refused
    rw [handle_of_synced connected announced queried]
    apply tornDown_lose
    · rfl
    · rfl
    · rfl
    · rfl
    · exact ⟨rfl, rfl⟩
  · rw [asks_of_refused announced] at refused
    cases refused
    rw [handle_of_unsynced connected announced]
    apply tornDown_lose
    · rfl
    · rfl
    · exact (List.append_nil s.log).symm
    · rfl
    · exact ⟨rfl, rfl⟩

/-- **What a pause sets off.** Take any session that comes about in which the process has said
hello, and let the next event be a pause.

* The session sends the settings and the breakpoints if this is the first pause on the link, and
  then one query for each watch, in the order in which they were made, with the numbers from the
  next one on. None of these has been given out before.
* If the link takes all of that, the queries wait for their replies, the owner is told of the pause
  and then how things stand, and the session is paused.
* If the link refuses any of it, the session is left without a link, a request or a trace of the
  process, the link is torn down, and the owner is told of the loss once, with the wording of the
  refusal. What the owner has asked for beforehand is kept. -/
theorem pause_refreshes (ts : List (Turn ι))
    (connected : ((new : Session ι).run ts).isConnected = true)
    (polled : ((new : Session ι).run ts).poll = some (.message (.paused pause), s')) :
    let s := (new : Session ι).run ts
    let queries := Watches.queries s.watches.live s.requests.nextRequest
    ∃ l, s' = { s with link := some l } ∧ l.aborted = false ∧
      ((∀ p ∈ new.plays ts, ¬ p.Pauses s.retired.length) →
        s.asks = .configuration s.settings :: .breakpoints s.breakpoints :: queries) ∧
      ((∃ p ∈ new.plays ts, p.Pauses s.retired.length) → s.asks = queries) ∧
      s.watches.live.Pairwise (fun v w => v.id < w.id) ∧
      (∀ e ∈ s.requests.pending, e.id < s.requests.nextRequest) ∧
      (∃ ns : List Nat, numbers (new.plays ts) = ns.map UInt64.ofNat ∧
        ∀ n ∈ ns, n < s.requests.nextRequest) ∧
      (∀ l', l.offer s.asks = (none, l') →
        l'.sent = l.sent ++ s.asks ∧ s.Refreshed pause l' (s.after .next)) ∧
      ∀ e l', l.offer s.asks = (some e, l') →
        l'.sent = l.sent ++ l.taken s.asks ∧
        s.TornDown e.message l'
          (if (l.offer s.announcement).1.isSome then [] else [.breaked pause]) (s.after .next) := by
  intro s queries
  have start : (new : Session ι).Consistent := consistent_new
  have heard : Heard (new.plays ts) s := heard_run ts
  have ahead : s.Ahead := ahead_new.run start ts
  obtain ⟨ns, given, -, among, -⟩ := start.numbered_run ts
  have handled : s.after .next = s'.handle (.message (.paused pause)) := by
    rw [after, handleNext, polled]
  obtain ⟨l₀, l, linked, next, rfl⟩ := poll_eq_some polled
  have up : l.aborted = false := by
    obtain ⟨up, rest, -, rfl⟩ := Link.poll_eq_some next
    exact up
  refine ⟨l, rfl, up, ?_, ?_, ahead.watches.ascending, ahead.requests,
    ⟨ns, given, fun n mem => (among n mem).2⟩, ?_, ?_⟩
  · intro first
    have unsynced : ¬ s.synced = true := by
      intro synced
      obtain ⟨p, mem, pauses⟩ := heard.paused synced
      exact first p mem pauses
    rw [asks, announcement, if_neg unsynced]
    rfl
  · rintro ⟨p, mem, pauses⟩
    have synced : s.synced = true := by
      rcases heard.synced p mem _ pauses with early | ⟨-, synced⟩
      · exact absurd early (Nat.lt_irrefl _)
      · exact synced
    rw [asks, announcement, if_pos synced]
    rfl
  · intro l' taken
    have sent := l.sent_offer s.asks
    rw [taken, Link.taken_of_offer taken] at sent
    exact ⟨sent, handled ▸ refreshed_of_offer connected taken⟩
  · intro e l' refused
    have sent := l.sent_offer s.asks
    rw [refused] at sent
    exact ⟨sent, handled ▸ tornDown_of_offer connected refused⟩

/-- A link that takes the settings and the breakpoints and then refuses the query of what is watched
leaves nothing of the connection. -/
theorem pause_refreshes_refused :
    ∃ ts : List (Turn Unit),
      ts = [.connectWith (.withBudget (some 2)), .subscribe default .texture (),
        .arrive [.message (.hello "demo"), .message (.paused default)], .next] ∧
      (new.run ts).isConnected = true ∧
      ∃ l l', (new.run ts).poll =
          some (.message (.paused default), { new.run ts with link := some l }) ∧
        l.offer (new.run ts).asks = (some .closed, l') ∧
        l'.sent = [.configuration .standard, .breakpoints .empty] ∧
        (new.run ts).TornDown LinkError.closed.message l' [.breaked default]
          ((new.run ts).after .next) := by
  refine ⟨_, rfl, rfl, _, _, rfl, rfl, rfl, ?_⟩
  obtain ⟨l, same, -, -, -, -, -, -, -, refused⟩ :=
    pause_refreshes [.connectWith (.withBudget (some 2)), .subscribe default .texture (),
      .arrive [.message (.hello "demo"), .message (.paused default)], (.next : Turn Unit)] rfl rfl
  cases same
  exact (refused .closed _ rfl).2

end Session

end CallDebugger
