import CallDebugger.Proofs.Trace.Kept
import CallDebugger.Proofs.Traced.Recording

/-!
# Calls of several threads

The threads of a process share one server, and each runs its hooks as a whole: while a hook waits,
no other thread has its turn. A call is two hooks, though, and the one after it attaches what came
back to the newest record, whoever made that call (`gathered`). So calls keep their own results as
long as no thread has its turn between the two hooks of another thread's call (`Apart`), and not
otherwise (`Peer.records_gather_results`).
-/

namespace CallDebugger

variable {σ : Type}

/-- What comes back from a call. -/
structure CallResult where
  value : Option Value
  error : UInt32
  output : Option String
deriving Inhabited

/-- The call with what came back. Nothing is attached where nothing came back. -/
def Call.finished (c : Call) (r : CallResult) : Call :=
  { c with
    result := r.value.or c.result
    error := if r.error = 0 then c.error else r.error
    debugOutput := r.output.or c.debugOutput }

/-- What a thread does to a server in one go, or what happens beside the threads. -/
inductive Stint where
  /-- The hook before a call, with the batches of events that arrive while it waits. -/
  | before (thread : Nat) (c : Call) (script : List (List LinkEvent))
  /-- The hook after a call. -/
  | after (thread : Nat) (r : CallResult)
  /-- The hook that waits for a controller, with the batches of events that arrive meanwhile. -/
  | attach (script : List (List LinkEvent))
  | compilerError
  | arrives (events : List LinkEvent)

namespace Stint

/-- Whether a call is begun. -/
def begins : Stint → Bool
  | before .. => true
  | _ => false

/-- What comes back from a call to any thread. -/
def result? : Stint → Option CallResult
  | after _ r => some r
  | _ => none

/-- What comes back from a call to a thread. -/
def resultOf? (thread : Nat) : Stint → Option CallResult
  | after t r => if t = thread then some r else none
  | _ => none

/-- Whether a call is begun or comes back. -/
def isHook : Stint → Bool
  | before .. | after .. => true
  | _ => false

end Stint

/-- The calls that were begun, each with what came back to whatever thread before the next call was
begun. -/
def gathered : List Stint → List Call
  | [] => []
  | .before _ c _ :: ds =>
    ((ds.takeWhile (!·.begins)).filterMap Stint.result?).foldl Call.finished c :: gathered ds
  | _ :: ds => gathered ds

/-- The calls that were begun, each with what next came back to the thread that had begun it. -/
def owned : List Stint → List Call
  | [] => []
  | .before t c _ :: ds =>
    ((ds.findSome? (Stint.resultOf? t)).toList.foldl Call.finished c) :: owned ds
  | _ :: ds => owned ds

/-- Between the two hooks of a call, no thread begins a call and nothing comes back to one. -/
inductive Apart : List Stint → Prop where
  | nil : Apart []
  | beside {d : Stint} {ds : List Stint} (beside : d.isHook = false) (later : Apart ds) :
      Apart (d :: ds)
  | call {thread : Nat} {c : Call} {script : List (List LinkEvent)} {between : List Stint}
      {r : CallResult} {ds : List Stint} (beside : ∀ d ∈ between, d.isHook = false)
      (later : Apart ds) : Apart (.before thread c script :: (between ++ .after thread r :: ds))

namespace History

/-- What a result changes. -/
def changesOf (r : CallResult) : List Change :=
  (r.value.map .result).toList ++ (if r.error = 0 then [] else [.error r.error]) ++
    (r.output.map .debugOutput).toList

theorem returned_eq (h : History) (r : CallResult) :
    h.returned r.value r.error r.output = h.run (changesOf r) := by
  obtain ⟨value, error, output⟩ := r
  by_cases silent : error = 0 <;> cases value <;> cases output <;>
    simp [returned, changesOf, run, after, silent]

theorem not_added_of_mem_changesOf {r : CallResult} {x : Change} (mem : x ∈ changesOf r) :
    x.added? = none := by
  obtain ⟨value, error, output⟩ := r
  rcases List.mem_append.1 mem with mem | mem
  · rcases List.mem_append.1 mem with mem | mem
    · cases value with
      | none => nomatch mem
      | some v => rw [List.mem_singleton.1 mem]; rfl
    · split at mem
      · nomatch mem
      · rw [List.mem_singleton.1 mem]; rfl
  · cases output with
    | none => nomatch mem
    | some text => rw [List.mem_singleton.1 mem]; rfl

theorem amendedBy_changesOf (c : Call) (r : CallResult) :
    c.amendedBy (changesOf r) = c.finished r := by
  obtain ⟨value, error, output⟩ := r
  by_cases silent : error = 0 <;> cases value <;> cases output <;>
    simp [Call.amendedBy, Call.finished, changesOf, silent, Change.result?, Change.error?,
      Change.debugOutput?, List.filterMap_cons]

end History

/-- What a stint changes in the history. -/
def Stint.changes : Stint → List History.Change
  | before _ c _ => [.add c]
  | after _ r => History.changesOf r
  | _ => []

/-! ## What is gathered -/

/-- What comes back before the next call is begun is attached in turn. -/
theorem amendedBy_changes {ds : List Stint} (c : Call) (none : ∀ d ∈ ds, d.begins = false) :
    c.amendedBy (ds.flatMap Stint.changes) =
      (ds.filterMap Stint.result?).foldl Call.finished c := by
  induction ds generalizing c with
  | nil => rfl
  | cons d ds ih =>
    have later := fun c => ih c fun d mem => none d (List.mem_cons_of_mem _ mem)
    have first := none d List.mem_cons_self
    rw [List.flatMap_cons, History.amendedBy_append]
    cases d with
    | before => nomatch first
    | after t r => exact (History.amendedBy_changesOf c r).symm ▸ later _
    | attach | compilerError | arrives => exact later c

theorem not_added_of_mem_changes {d : Stint} (none : d.begins = false) {x : History.Change}
    (mem : x ∈ d.changes) : x.added? = .none := by
  cases d with
  | before => nomatch none
  | after t r => exact History.not_added_of_mem_changesOf mem
  | attach | compilerError | arrives => nomatch mem

theorem History.records_append_of_not_added {xs : List Change} (none : ∀ x ∈ xs, x.added? = .none)
    (ys : List Change) : records (xs ++ ys) = records ys := by
  induction xs with
  | nil => rfl
  | cons x xs ih =>
    have later := ih fun x mem => none x (List.mem_cons_of_mem _ mem)
    have first := none x List.mem_cons_self
    cases x with
    | add c => nomatch first
    | result | error | debugOutput => exact later

/-- What changes before the next call is added comes from what happens before it is begun. -/
theorem takeWhile_changes (ds : List Stint) :
    (ds.flatMap Stint.changes).takeWhile (fun x => x.added?.isNone) =
      (ds.takeWhile (!·.begins)).flatMap Stint.changes := by
  induction ds with
  | nil => rfl
  | cons d ds ih =>
    cases begins : d.begins with
    | true =>
      cases d with
      | before => rfl
      | _ => nomatch begins
    | false =>
      have none : ∀ x ∈ d.changes, x.added?.isNone = true := fun x mem => by
        rw [not_added_of_mem_changes begins mem]
        rfl
      rw [List.flatMap_cons, List.takeWhile_append_of_pos none, ih,
        List.takeWhile_cons_of_pos (by rw [begins]; rfl), List.flatMap_cons]

/-- The records of what the stints change are what is gathered. -/
theorem records_changes (ds : List Stint) :
    History.records (ds.flatMap Stint.changes) = gathered ds := by
  induction ds with
  | nil => rfl
  | cons d ds ih =>
    have skipped (none : d.begins = false) :
        History.records ((d :: ds).flatMap Stint.changes) = gathered ds := by
      rw [List.flatMap_cons, History.records_append_of_not_added
        (fun x => not_added_of_mem_changes none), ih]
    cases d with
    | before t c script =>
      have none : ∀ d ∈ ds.takeWhile (!·.begins), d.begins = false := fun d mem => by
        simpa using List.mem_takeWhile_imp mem
      have changes : (Stint.before t c script :: ds).flatMap Stint.changes =
          .add c :: ds.flatMap Stint.changes := rfl
      rw [changes, History.records, gathered, ih, takeWhile_changes, amendedBy_changes c none]
    | after | attach | compilerError | arrives => exact skipped rfl

/-! ## Calls apart -/

/-- Nothing that happens beside the calls makes a difference to them. -/
theorem gathered_of_beside {between : List Stint} (beside : ∀ d ∈ between, d.isHook = false)
    (ds : List Stint) :
    gathered (between ++ ds) = gathered ds ∧ owned (between ++ ds) = owned ds := by
  induction between with
  | nil => exact ⟨rfl, rfl⟩
  | cons d between ih =>
    have later := ih fun d mem => beside d (List.mem_cons_of_mem _ mem)
    have first := beside d List.mem_cons_self
    cases d with
    | before | after => nomatch first
    | attach | compilerError | arrives => exact later

theorem results_of_beside {between : List Stint} (beside : ∀ d ∈ between, d.isHook = false)
    (ds : List Stint) :
    ((between ++ ds).takeWhile (!·.begins)).filterMap Stint.result? =
        (ds.takeWhile (!·.begins)).filterMap Stint.result? ∧
      ∀ t, (between ++ ds).findSome? (Stint.resultOf? t) = ds.findSome? (Stint.resultOf? t) := by
  induction between with
  | nil => exact ⟨rfl, fun _ => rfl⟩
  | cons d between ih =>
    have later := ih fun d mem => beside d (List.mem_cons_of_mem _ mem)
    have first := beside d List.mem_cons_self
    cases d with
    | before | after => nomatch first
    | attach | compilerError | arrives => exact later

/-- Nothing comes back before a call is begun. -/
theorem Apart.none_before {ds : List Stint} (h : Apart ds) :
    (ds.takeWhile (!·.begins)).filterMap Stint.result? = [] := by
  induction h with
  | nil => rfl
  | @beside d ds beside _ ih =>
    cases d with
    | before | after => nomatch beside
    | attach | compilerError | arrives => exact ih
  | call => rfl

/-- Calls that are apart keep their own results. -/
theorem Apart.gathered_eq {ds : List Stint} (h : Apart ds) : gathered ds = owned ds := by
  induction h with
  | nil => rfl
  | @beside d ds beside _ ih =>
    cases d with
    | before | after => nomatch beside
    | attach | compilerError | arrives => exact ih
  | @call t c script between r ds beside later ih =>
    obtain ⟨skipped, skipped'⟩ := gathered_of_beside beside (.after t r :: ds)
    obtain ⟨results, own⟩ := results_of_beside beside (.after t r :: ds)
    have all : ((Stint.after t r :: ds).takeWhile (!·.begins)).filterMap Stint.result? = [r] :=
      congrArg (r :: ·) later.none_before
    have first : (Stint.after t r :: ds).findSome? (Stint.resultOf? t) = some r := by
      simp [Stint.resultOf?]
    rw [gathered, owned, skipped, skipped', results, own, all, first]
    exact congrArg _ ih

/-! ## Servers -/

namespace Peer

variable {p₀ p q : Peer σ}

/-- The hook that waits for a controller, and the batches of events that arrive while it waits. -/
def runAttach (p : Peer σ) (script : List (List LinkEvent)) : Outcome × Peer σ :=
  match p.waitForController with
  | (none, q) => q.await script
  | (some r, q) => (some r, q)

/-- The server after a stint that has come to its end, if the process may make the call that it
begins. -/
def stint? (p : Peer σ) : Stint → Option (Peer σ)
  | .before _ c script =>
    match p.runBefore c script with
    | (some (.ok ()), q) => some q
    | _ => none
  | .after _ r => some (p.afterCall r.value r.error r.output).2
  | .attach script =>
    match p.runAttach script with
    | (some _, q) => some q
    | (none, _) => none
  | .compilerError => some p.reportCompilerError
  | .arrives events => some (p.arrive events)

/-- The server after stints of any threads, one after the other. -/
def stints? : Peer σ → List Stint → Option (Peer σ)
  | p, [] => some p
  | p, d :: ds => do stints? (← p.stint? d) ds

theorem Steady.await (h : Steady p₀ p) (script : List (List LinkEvent)) :
    Steady p₀ (p.await script).2 := by
  induction script generalizing p with
  | nil => exact h
  | cons es script ih =>
    have steady := (h.arrive es).wake
    rw [Peer.await]
    rcases performs : (p.arrive es).wake with ⟨_ | r, q⟩ <;> rw [performs] at steady
    · exact ih steady
    · exact steady

/-- A wait for a controller leaves the history as it is. -/
theorem Resumes.history {r : Outcome} {p' : Peer σ} (resumes : q.Resumes .attach r p') :
    p'.history = q.history ∧ (r = none → p'.inside = q.inside) := by
  cases resumes with
  | barred barred => exact ⟨barred.frame.1, nofun⟩
  | waits => exact ⟨rfl, fun _ => rfl⟩
  | ungreeted | greets => exact ⟨rfl, nofun⟩

theorem Steady.history_wake (h : Steady p₀ p) (inside : p.inside = some .attach) :
    p.wake.2.history = p.history ∧ (p.wake.1 = none → p.wake.2.inside = some .attach) := by
  have pumped := h.pumped
  obtain ⟨r, p', performs, continues⟩ := p.continues_wake
  rw [performs]
  cases continues with
  | idle => exact ⟨rfl, fun _ => inside⟩
  | torn => exact ⟨rfl, nofun⟩
  | unanswered _ _ pump =>
    rw [pump] at pumped
    exact ⟨pumped.history, nofun⟩
  | resumes place _ pump resumes =>
    cases inside.symm.trans place
    rw [pump] at pumped
    obtain ⟨history, waits⟩ := resumes.history
    have inside := pumped.inside.trans inside
    exact ⟨history.trans pumped.history, fun none => (waits none).trans inside⟩

theorem Steady.history_await (h : Steady p₀ p) (inside : p.inside = some .attach)
    (script : List (List LinkEvent)) : (p.await script).2.history = p.history := by
  induction script generalizing p with
  | nil => rfl
  | cons es script ih =>
    have steady := (h.arrive es).wake
    obtain ⟨history, waits⟩ := (h.arrive es).history_wake inside
    rw [Peer.await]
    rcases performs : (p.arrive es).wake with ⟨_ | r, q⟩ <;> rw [performs] at steady history waits
    · exact (ih steady (waits rfl)).trans history
    · exact history

theorem Steady.runAttach (h : Steady p₀ p) (script : List (List LinkEvent)) :
    Steady p₀ (p.runAttach script).2 ∧ (p.runAttach script).2.history = p.history := by
  obtain ⟨r, q, performs, resumes⟩ := p.resumes_waitForController
  have steady := resumes.steady (h.still p.breaks (some .attach))
  obtain ⟨history, waits⟩ := resumes.history
  rw [Peer.runAttach, performs]
  cases r with
  | none => exact ⟨steady.await script, (steady.history_await (waits rfl) script).trans history⟩
  | some r => exact ⟨steady, history⟩

/-- A hook that lets the process make a call records it. -/
theorem Steady.runBefore (h : Steady p₀ p) {c : Call} {script : List (List LinkEvent)}
    (ok : p.runBefore c script = (some (.ok ()), q)) :
    Steady p₀ q ∧ q.history = p.history.add c := by
  have starts := h.starts c
  have steady := h.beforeCall c
  unfold Peer.runBefore at ok
  generalize p.beforeCall c = performed at starts steady ok
  obtain ⟨r, q'⟩ := performed
  cases starts with
  | returns history =>
    cases ok
    exact ⟨steady, history⟩
  | announces inside history =>
    have held := steady.held_await inside script
    have later := steady.await script
    have waited : q'.await script = (some (.ok ()), q) := ok
    rw [waited] at held later
    refine ⟨later, ?_⟩
    rw [held.history, history]
    rfl

/-- What a stint makes of the history. -/
theorem Steady.stint (h : Steady p₀ p) {d : Stint} (ran : p.stint? d = some q) :
    Steady p₀ q ∧ q.history = p.history.run d.changes := by
  cases d with
  | before t c script =>
    simp only [stint?] at ran
    split at ran
    · next performs =>
      cases ran
      exact h.runBefore performs
    · nomatch ran
  | after t r =>
    obtain ⟨breaks, _, p', -, performs, checked⟩ := p.checked_afterCall r.value r.error r.output
    have steady : Steady p₀ (p.afterCall r.value r.error r.output).2 :=
      h.occur (.does (.after r.value r.error r.output))
    cases ran
    refine ⟨steady, ?_⟩
    rw [performs, checked.frame.1, Stint.changes, ← History.returned_eq]
  | attach script =>
    obtain ⟨steady, history⟩ := h.runAttach script
    simp only [stint?] at ran
    split at ran
    · next performs =>
      cases ran
      rw [performs] at steady history
      exact ⟨steady, history⟩
    · nomatch ran
  | compilerError =>
    cases ran
    exact ⟨h.still _ p.inside, rfl⟩
  | arrives events =>
    cases ran
    exact ⟨h.arrive events, rfl⟩

/-- What stints make of the history. -/
theorem Steady.stints (h : Steady p₀ p) {ds : List Stint} (ran : p.stints? ds = some q) :
    q.history = p.history.run (ds.flatMap Stint.changes) := by
  induction ds generalizing p with
  | nil =>
    cases ran
    rfl
  | cons d ds ih =>
    obtain ⟨p', first, later⟩ := Option.bind_eq_some_iff.1 ran
    obtain ⟨steady, history⟩ := h.stint first
    rw [ih steady later, history, List.flatMap_cons, History.run, History.run, History.run,
      List.foldl_append]

/-- **Calls of several threads.** Let threads take turns at a server that has come to listen, each
hook as a whole, and let every hook before a call permit it. The history keeps the last of the calls
that were begun, each with all that came back to whatever thread before the next call was begun. So
if no thread has its turn between the two hooks of a call, every call that is kept has what came
back to the thread that made it. -/
theorem records_gather_results (verdict : Nat → Message → Option LinkError)
    (inspector : Inspector σ) (objects : σ) (capacity : Nat) (ds : List Stint) (p : Peer σ)
    (ran : (listen (.fresh verdict) inspector objects capacity).stints? ds = some p) :
    p.history.contents = (gathered ds).rtake (max capacity 1) ∧
      (Apart ds → p.history.contents = (owned ds).rtake (max capacity 1)) := by
  have history : p.history = (History.new capacity).run (ds.flatMap Stint.changes) :=
    (steady_listen verdict inspector objects capacity).stints ran
  have kept : p.history.contents = (gathered ds).rtake (max capacity 1) := by
    rw [history, History.contents, History.newestFirst_run, records_changes,
      List.rtake_eq_reverse_take_reverse]
  refine ⟨kept, fun apart => ?_⟩
  rw [kept, apart.gathered_eq]

/-- Two threads make a call each. If the first one comes back before the second one has begun, both
records have their own results; if both have begun, both results go to the second record. -/
theorem records_gather_results_two_threads :
    let server := listen (.fresh Link.upVerdict) Exhibition.inspector default 4
    let one (n : UInt32) : CallResult := ⟨some (.uint32 n), 0, none⟩
    let first : List Stint := [.attach [[.connected]],
      .before 1 (.start 1 []) [[.message (.proceed .resume)]]]
    let apart := first ++ [.after 1 (one 10), .before 2 (.start 2 []) [], .after 2 (one 20)]
    let overlapped := first ++ [.before 2 (.start 2 []) [], .after 1 (one 10), .after 2 (one 20)]
    owned overlapped = owned apart ∧
      (∃ p, server.stints? apart = some p ∧
        p.history.contents =
          [(Call.start 1 []).finished (one 10), (Call.start 2 []).finished (one 20)]) ∧
      ∃ p, server.stints? overlapped = some p ∧
        p.history.contents = [.start 1 [], (Call.start 2 []).finished (one 20)] := by
  intro server one first apart overlapped
  refine ⟨rfl, ⟨_, rfl, ?_⟩, ⟨_, rfl, ?_⟩⟩
  · have none : ∀ d ∈ ([] : List Stint), d.isHook = false := List.forall_mem_nil _
    have separate : Apart apart := .beside rfl <| .call none <| .call none .nil
    have law := records_gather_results Link.upVerdict Exhibition.inspector default 4 apart _ rfl
    exact law.2 separate
  · exact (records_gather_results Link.upVerdict Exhibition.inspector default 4 overlapped _ rfl).1

end Peer

end CallDebugger
