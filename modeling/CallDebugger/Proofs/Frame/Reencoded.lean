import CallDebugger.Proofs.Format.Collected
import CallDebugger.Proofs.Frame.RoundTrip

/-!
# Accepted bodies are encoded again

A body that is accepted is the encoding of its message, but for the bytes after it and for its sets,
which may be written in any order and with members that occur more than once. The draft of a message
(`Message.Draft`) is the message with these lists in place of its sets. Encoding the message again
never takes more bytes than the body, and takes the bytes of the body if the lists are in strictly
ascending order (`Frame.reencoded`).
-/

namespace CallDebugger

open Codec (Built Collects collects_self collects_keySet)

/-! ## Drafts -/

namespace ContextReport

/-- A report as it is written, with lists of names in place of its sets. -/
abbrev Draft := ContextId × List ObjectName × List ObjectName × List ObjectName × List ObjectName ×
  List ObjectName × List ObjectName × List ObjectName × List (List ObjectName)

def draftCodec : Codec Draft :=
  let names := ObjectName.codec.list
  Codec.uint64.pair <| names.pair <| names.pair <| names.pair <| names.pair <| names.pair <|
    names.pair <| names.pair names.list

/-- The lists that are written for the sets of a report. -/
def Draft.sets : Draft → List (List ObjectName)
  | (_, textures, buffers, shaders, programs, fbos, framebuffers, renderbuffers, textureUnits) =>
    [textures, buffers, shaders, programs, fbos, framebuffers, renderbuffers] ++ textureUnits

end ContextReport

namespace Pause

/-- A pause as it is written. -/
abbrev Draft := Call × UInt64 × ContextId × List ContextReport.Draft

def draftCodec : Codec Draft :=
  Call.codec.pair <| Codec.uint64.pair <| Codec.uint64.pair ContextReport.draftCodec.list

/-- The lists that are written for the sets of its reports. -/
def Draft.sets (p : Draft) : List (List ObjectName) := p.2.2.2.flatMap ContextReport.Draft.sets

end Pause

namespace Message

/-- What a message of a kind carries, as it is written. -/
abbrev Kind.Draft : Kind → Type
  | paused => Pause.Draft
  | breakpoints => List Entrypoint
  | kind => kind.Body

def Kind.draftCodec : (kind : Kind) → Codec kind.Draft
  | paused => Pause.draftCodec
  | breakpoints => Codec.uint32.list
  | hello => hello.bodyCodec
  | configuration => configuration.bodyCodec
  | proceed => proceed.bodyCodec
  | terminate => terminate.bodyCodec
  | queryTrace => queryTrace.bodyCodec
  | trace => trace.bodyCodec
  | request => request.bodyCodec
  | reply => reply.bodyCodec

/-- A message as it is written. -/
abbrev Draft := (kind : Kind) × kind.Draft

def Draft.codec : Codec Draft := Codec.tagged (.keyword Kind.all Kind.tag) Kind.draftCodec

/-- The lists that are written for the sets of a message, each element by its key. -/
def Draft.sets : Draft → List (List Nat)
  | ⟨.paused, p⟩ => p.sets.map fun names => names.map key
  | ⟨.breakpoints, entrypoints⟩ => [entrypoints.map key]
  | _ => []

/-- Every set is written in strictly ascending order. -/
def Draft.Ascending (d : Draft) : Prop := ∀ keys ∈ d.sets, keys.Pairwise (· < ·)

instance (d : Draft) : Decidable d.Ascending :=
  inferInstanceAs (Decidable (∀ keys ∈ d.sets, keys.Pairwise (· < ·)))

end Message

/-! ## The formats of drafts -/

theorem ContextReport.built_draft : Built False draftCodec := by
  have solid := ((Codec.solid_uint64.pair (Codec.uint32.pair .uint32)).record ObjectName.fields)
  have names : Built False ObjectName.codec.list := .list ObjectName.built solid
  exact .pair Codec.built_uint64 <| .pair names <| .pair names <| .pair names <| .pair names <|
    .pair names <| .pair names <| .pair names <| .list names (Codec.solid_list _)

theorem Pause.built_draft : Built False draftCodec :=
  .pair Call.built <| .pair Codec.built_uint64 <| .pair Codec.built_uint64 <|
    .list ContextReport.built_draft (Codec.solid_uint64.pair _)

theorem Message.Kind.built_draft (kind : Kind) : Built False kind.draftCodec := by
  have plain (kind : Kind) (none : ¬ kind.HasSets) : Built False kind.bodyCodec :=
    (built_body kind).mono none
  cases kind with
  | paused => exact Pause.built_draft
  | breakpoints => exact .list Codec.built_uint32 Codec.solid_uint32
  | hello => exact plain hello (by simp [HasSets])
  | configuration => exact plain configuration (by simp [HasSets])
  | proceed => exact plain proceed (by simp [HasSets])
  | terminate => exact plain terminate (by simp [HasSets])
  | queryTrace => exact plain queryTrace (by simp [HasSets])
  | trace => exact plain trace (by simp [HasSets])
  | request => exact plain request (by simp [HasSets])
  | reply => exact plain reply (by simp [HasSets])

theorem Message.Draft.built : Built False codec :=
  .tagged (.keyword listing Kind.tag_injective) Kind.built_draft

theorem ContextReport.collects :
    Collects codec draftCodec fun w => ∀ names ∈ w.sets, (names.map key).Pairwise (· < ·) := by
  have names := collects_keySet ObjectName.codec
  have fields := (collects_self Codec.uint64).pair <| names.pair <| names.pair <| names.pair <|
    names.pair <| names.pair <| names.pair <| names.pair names.list
  have report := fields.record (f := ContextReport.fields) ⟨fun _ => rfl, fun _ => rfl⟩
  apply report.mono
  intro w ascending
  simpa [Draft.sets, List.pairwise_map, or_imp, forall_and] using ascending

theorem Pause.collects :
    Collects codec draftCodec fun w => ∀ names ∈ w.sets, (names.map key).Pairwise (· < ·) := by
  have fields := (collects_self Call.codec).pair <| (collects_self Codec.uint64).pair <|
    (collects_self Codec.uint64).pair ContextReport.collects.list
  have pause := fields.record (f := Pause.fields) ⟨fun _ => rfl, fun _ => rfl⟩
  apply pause.mono
  intro w ascending
  refine ⟨trivial, trivial, trivial, ?_⟩
  intro report mem names inside
  exact ascending names (List.mem_flatMap.2 ⟨report, mem, inside⟩)

theorem Message.Kind.collects (kind : Kind) :
    Collects kind.bodyCodec kind.draftCodec fun w => Draft.Ascending ⟨kind, w⟩ := by
  cases kind with
  | paused =>
    apply Pause.collects.mono
    intro w ascending names mem
    exact ascending _ (List.mem_map.2 ⟨names, mem, rfl⟩)
  | breakpoints =>
    apply (collects_keySet Codec.uint32).mono
    intro w ascending
    exact List.pairwise_map.1 (ascending _ List.mem_cons_self)
  | hello | configuration | proceed | terminate | queryTrace | trace | request | reply =>
    exact (collects_self _).mono fun _ _ => trivial

theorem Message.collects : Collects codec Draft.codec Draft.Ascending :=
  (Collects.tagged _ Kind.collects).record exact

/-- Only messages of two kinds have sets. -/
theorem Message.Draft.sets_of_plain {d : Draft} (none : ¬ d.1.HasSets) : d.sets = [] := by
  obtain ⟨kind, w⟩ := d
  cases kind <;> simp_all [Kind.HasSets, Draft.sets]

/-- A message is of the kind whose tag comes first. -/
theorem Message.decode_tag {bytes rest : Bytes} {m : Message}
    (h : codec.decode bytes = .ok (m, rest)) :
    ∃ middle, (Codec.keyword Kind.all Kind.tag).decode bytes = .ok (m.kind, middle) := by
  obtain ⟨p, read, rfl⟩ := Codec.decode_imap h
  obtain ⟨middle, first, -⟩ := Codec.decode_tagged read
  have same : (alternatives.build p).kind = p.1 := by
    obtain ⟨kind, w⟩ := p
    cases kind <;> rfl
  exact ⟨middle, by rw [first, same]⟩

namespace Frame

/-- A body is accepted: the message that it holds, the draft of that message, the bytes of the body
that were used and those that were not. -/
structure Accepted (used rest : Bytes) (draft : Message.Draft) (m : Message) : Prop where
  accepted : decodeBody (used ++ rest) = .ok m
  read : Message.codec.decode (used ++ rest) = .ok (m, rest)
  written : Message.Draft.codec.decode (used ++ rest) = .ok (draft, rest)

theorem decode_of_decodeBody {body : Bytes} {m : Message} (h : decodeBody body = .ok m) :
    ∃ rest, Message.codec.decode body = .ok (m, rest) := by
  unfold decodeBody at h
  split at h
  · simp at h
  split at h
  · simp at h
  split at h
  · simp at h
  · cases h
    exact ⟨_, by assumption⟩

/-- What is accepted is a draft and what follows it. -/
theorem accepted_of_decodeBody {body : Bytes} {m : Message} (h : decodeBody body = .ok m) :
    ∃ used rest draft, body = used ++ rest ∧ Accepted used rest draft m := by
  obtain ⟨rest, read⟩ := decode_of_decodeBody h
  obtain ⟨draft, written, -, -⟩ := Message.collects body m rest read
  have spelled := Message.Draft.built.canonical body draft rest written
  exact ⟨Message.Draft.codec.encode draft, rest, draft, spelled,
    by rwa [← spelled], by rwa [← spelled], by rwa [← spelled]⟩

variable {used rest : Bytes} {draft : Message.Draft} {m : Message}

theorem Accepted.used_eq (h : Accepted used rest draft m) :
    used = Message.Draft.codec.encode draft :=
  List.append_cancel_right (Message.Draft.built.canonical _ _ _ h.written)

theorem Accepted.kind_eq (h : Accepted used rest draft m) : draft.1 = m.kind := by
  obtain ⟨middle, tag⟩ := Message.decode_tag h.read
  obtain ⟨middle', tag', -⟩ := Codec.decode_tagged h.written
  rw [tag] at tag'
  simp only [Except.ok.injEq, Prod.mk.injEq] at tag'
  exact tag'.1.symm

/-- The encoding of an accepted message is no longer than what was used of its body, and is just
that if its sets are in order. -/
theorem Accepted.collected (h : Accepted used rest draft m) :
    (Message.codec.encode m).length ≤ used.length ∧
      (draft.Ascending → Message.codec.encode m = used) := by
  obtain ⟨draft', written, shorter, same⟩ := Message.collects _ _ _ h.read
  rw [h.written] at written
  simp only [Except.ok.injEq, Prod.mk.injEq, and_true] at written
  subst written
  rw [h.used_eq]
  exact ⟨shorter, same⟩

/-- Without sets there is nothing to order. -/
theorem Accepted.ascending (h : Accepted used rest draft m)
    (ordered : m.kind.HasSets → draft.Ascending) : draft.Ascending := by
  by_cases has : m.kind.HasSets
  · exact ordered has
  · intro keys mem
    rw [← h.kind_eq] at has
    rw [Message.Draft.sets_of_plain has] at mem
    simp at mem

/-- **Accepted bodies are encoded again.** A message that was read from a body that fits a frame
fits a frame as well: its own body is no longer, and is read back as the message. The new body is
the part of the old one that was used if each set was written there in strictly ascending order,
which need only be asked of the kinds of messages that have sets. So two bodies with their sets in
order, of which different bytes are used, hold different messages. -/
theorem reencoded :
    (∀ (body : Bytes) (m : Message), decodeBody body = .ok m → body.length ≤ limit →
      ∃ (used rest : Bytes) (draft : Message.Draft),
        body = used ++ rest ∧ Accepted used rest draft m ∧
        (∃ front, front.length = headerLength ∧
          encode m = .ok (front ++ Message.codec.encode m)) ∧
        (Message.codec.encode m).length ≤ body.length ∧
        decodeBody (Message.codec.encode m) = .ok m ∧
        ((m.kind.HasSets → draft.Ascending) → Message.codec.encode m = used)) ∧
    ∀ (used rest used' rest' : Bytes) (draft draft' : Message.Draft) (m m' : Message),
      Accepted used rest draft m → Accepted used' rest' draft' m' →
        (m.kind.HasSets → draft.Ascending) → (m'.kind.HasSets → draft'.Ascending) →
          used ≠ used' → m ≠ m' := by
  constructor
  · intro body m decoded fits
    obtain ⟨used, rest, draft, rfl, accepted⟩ := accepted_of_decodeBody decoded
    obtain ⟨shorter, same⟩ := accepted.collected
    have shorter' : (Message.codec.encode m).length ≤ (used ++ rest).length := by
      rw [List.length_append]
      omega
    have small : Message.codec.size m ≤ limit := by
      rw [← m.length_encode]
      omega
    refine ⟨used, rest, draft, rfl, accepted, ?_, shorter', ?_, ?_⟩
    · exact ⟨_, length_littleEndian _ _, encode_of_le small⟩
    · exact decodeBody_encode (Nat.lt_of_le_of_lt small limit_lt)
    · intro ordered
      exact same (accepted.ascending ordered)
  · rintro used rest used' rest' draft draft' m m' accepted accepted' ordered ordered' different rfl
    apply different
    rw [← accepted.collected.2 (accepted.ascending ordered),
      ← accepted'.collected.2 (accepted'.ascending ordered')]

/-- A message is accepted from its own bytes. -/
theorem accepted_encode {m : Message} {draft : Message.Draft} (small : Message.codec.size m ≤ limit)
    (same : Message.codec.encode m = Message.Draft.codec.encode draft) :
    Accepted (Message.codec.encode m) [] draft m := by
  have fits : Message.codec.size m < UInt64.size := Nat.lt_of_le_of_lt small limit_lt
  have fits' : Message.Draft.codec.size draft < UInt64.size := by
    rw [← Message.Draft.built.faithful.length_encode, ← same, m.length_encode]
    exact fits
  constructor
  · rw [List.append_nil]
    exact decodeBody_encode fits
  · rw [List.append_nil]
    exact Message.built.faithful.decode_encode_self fits
  · rw [List.append_nil, same]
    exact Message.Draft.built.faithful.decode_encode_self fits'

/-- Three breakpoints out of order, one of them twice, and a byte that belongs to no message; and
two bodies that differ in a breakpoint. -/
theorem reencoded_breakpoints :
    let body := Message.Draft.codec.encode ⟨.breakpoints, [3, 1, 3]⟩ ++ [7]
    let one : Message := .breakpoints (.ofList [1, 2])
    let other : Message := .breakpoints (.ofList [1, 3])
    (∃ m, decodeBody body = .ok m ∧ (Message.codec.encode m).length ≤ body.length ∧
      decodeBody (Message.codec.encode m) = .ok m) ∧
    one ≠ other := by
  intro body one other
  constructor
  · have made : (decodeBody body).isOk := by decide +kernel
    cases h : decodeBody body with
    | error e => simp [h, Except.isOk, Except.toBool] at made
    | ok m =>
      have fits : body.length ≤ limit := by decide +kernel
      obtain ⟨used, rest, draft, -, -, -, shorter, again, -⟩ := reencoded.1 body m h fits
      exact ⟨m, rfl, shorter, again⟩
  · have ordered : Message.Draft.Ascending ⟨.breakpoints, [1, 2]⟩ := by decide
    have ordered' : Message.Draft.Ascending ⟨.breakpoints, [1, 3]⟩ := by decide
    exact reencoded.2 _ _ _ _ ⟨.breakpoints, [1, 2]⟩ ⟨.breakpoints, [1, 3]⟩ one other
      (accepted_encode (by decide) rfl) (accepted_encode (by decide) rfl) (fun _ => ordered)
      (fun _ => ordered') (by decide +kernel)

end Frame

end CallDebugger
