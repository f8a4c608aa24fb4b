import CallDebugger.Proofs.Frame.Growing

/-!
# Bodies are told by the tag that leads them

A body that begins with a text (`Begins`) is looked at twice: once for the tag alone, and once for
the message, which has tags of its own inside. The two readings agree: a body is of an unknown kind
just if the text that leads it is no tag, it is decoded as nothing but the kind that its tag names,
and what is wrong with it is told under its tag (`Frame.told_by_tag`). A tag that is unknown further
inside (`Nests`) makes a body malformed.
-/

namespace CallDebugger

/-- The bytes begin with the text `t`, counted and spelled in full, and go on with `rest`. -/
inductive Begins (t : String) (rest : Bytes) : Bytes → Prop where
  | intro {count : Bytes} (width : count.length = 8)
      (counts : ofLittleEndian count = t.utf8ByteSize) :
      Begins t rest (count ++ Utf8.encode t ++ rest)

/-- The text `t` leads the bytes, whatever follows it. -/
def Leads (t : String) (bytes : Bytes) : Prop := ∃ rest, Begins t rest bytes

/-- A message of the kind holds `t` where one of the tags `known` has to stand: the tag of the
errand of a request, or of the resource of a reply, before which there may be an error. -/
inductive Nests (t : String) : Message.Kind → List String → Bytes → Prop where
  | errand {body id inside : Bytes} (outer : Begins Message.Kind.request.tag (id ++ inside) body)
      (width : id.length = 8) (inner : Leads t inside) :
      Nests t .request (Errand.Kind.all.map Errand.Kind.tag) body
  | resource {body id inside : Bytes} {ok : UInt8}
      (outer : Begins Message.Kind.reply.tag (id ++ ok :: 0 :: 1 :: inside) body)
      (width : id.length = 8) (flag : ok = 0 ∨ ok = 1) (inner : Leads t inside) :
      Nests t .reply (ObjectKind.all.map ObjectKind.tag) body
  | resourceAfter {body id reason inside : Bytes} {ok : UInt8} {error : String}
      (outer : Begins Message.Kind.reply.tag (id ++ ok :: 1 :: reason) body)
      (width : id.length = 8) (flag : ok = 0 ∨ ok = 1)
      (failure : Begins error (1 :: inside) reason) (inner : Leads t inside) :
      Nests t .reply (ObjectKind.all.map ObjectKind.tag) body

namespace Codec

/-- Eight bytes are read as the number that they spell. -/
theorem decode_uint64 {count : Bytes} (width : count.length = 8) (rest : Bytes) :
    uint64.decode (count ++ rest) = .ok (UInt64.ofNat (ofLittleEndian count), rest) := by
  have split := splitBytes?_append_of_length width rest
  simp only [uint64, Codec.imap, word, split]
  rfl

/-- A text is read just where one begins. -/
theorem decode_text_iff {bytes rest : Bytes} {t : String} :
    text.decode bytes = .ok (t, rest) ↔ Begins t rest bytes := by
  constructor
  · intro h
    obtain ⟨front, counted, spelled⟩ := decode_text h
    obtain ⟨count, middle, first, split⟩ := counts_of_decode counted
    obtain ⟨rfl, length⟩ := splitBytes?_eq_some split
    have same : Utf8.encode t = front := Utf8.encode_of_decode spelled
    have size : t.utf8ByteSize = count.toNat := by rw [← Utf8.length_encode, same, length]
    have back : ofLittleEndian (uint64.encode count) = t.utf8ByteSize := by
      rw [size]
      exact ofLittleEndian_littleEndian count.toNat_lt
    rw [canonical_uint64 _ _ _ first, ← same, ← List.append_assoc]
    exact .intro (length_encode_uint64 count) back
  · rintro ⟨width, counts⟩
    rename_i count
    have small : t.utf8ByteSize < UInt64.size := by
      have below := ofLittleEndian_lt count
      rw [width] at below
      rw [← counts]
      exact below
    have first := decode_uint64 width (Utf8.encode t ++ rest)
    have split := splitBytes?_append_of_length (Utf8.length_encode t) rest
    simp only [text, counted, List.append_assoc, first, counts, toNat_count small, split,
      Utf8.decode_encode]

end Codec

theorem begins_encode {t : String} (small : Codec.text.size t < UInt64.size) (rest : Bytes) :
    Begins t rest (Codec.text.encode t ++ rest) :=
  Codec.decode_text_iff.1 (Codec.faithful_text.decode_encode t rest small)

/-- No two texts lead the same bytes. -/
theorem Leads.unique {t t' : String} {bytes : Bytes} (h : Leads t bytes) (h' : Leads t' bytes) :
    t = t' := by
  obtain ⟨rest, begins⟩ := h
  obtain ⟨rest', begins'⟩ := h'
  have read := Codec.decode_text_iff.2 begins
  rw [Codec.decode_text_iff.2 begins'] at read
  cases read
  rfl

/-- A text that cannot be read is cut off or no UTF-8. -/
theorem Codec.fault_of_text {bytes : Bytes} {fault : Fault} (h : text.decode bytes = .error fault) :
    fault = .endOfInput ∨ fault = .textCutOff ∨ ∃ wrong, fault = .notUtf8 wrong := by
  cases first : uint64.decode bytes with
  | error cut =>
    have short : cut = .endOfInput := by
      simp only [uint64, Codec.imap, word] at first
      cases split : splitBytes? 8 bytes with
      | none => simpa [split] using first.symm
      | some p => simp [split] at first
    simp only [text, counted, first] at h
    cases h
    exact .inl short
  | ok p =>
    cases split : splitBytes? p.1.toNat p.2 with
    | none =>
      simp only [text, counted, first, split] at h
      cases h
      exact .inr (.inl rfl)
    | some q =>
      simp only [text, counted, first, split] at h
      cases spelled : Utf8.decode q.1 with
      | error wrong =>
        rw [spelled] at h
        cases h
        exact .inr (.inr ⟨wrong, rfl⟩)
      | ok t =>
        rw [spelled] at h
        cases h

/-! ## What stands before the colon -/

/-- A text begins with only one word and a colon. -/
theorem word_unique {word word' : String} {text : List Char} (clear : ':' ∉ word.toList)
    (clear' : ':' ∉ word'.toList) (h : (word ++ ": ").toList <+: text)
    (h' : (word' ++ ": ").toList <+: text) : word = word' := by
  have before {w : String} (clear : ':' ∉ w.toList) (h : (w ++ ": ").toList <+: text) :
      text.takeWhile (· ≠ ':') = w.toList := by
    obtain ⟨rest, rfl⟩ := h
    have all : ∀ c ∈ w.toList, decide (c ≠ ':') = true := by
      intro c mem
      rw [decide_eq_true_iff]
      rintro rfl
      exact clear mem
    rw [String.toList_append, List.append_assoc, List.takeWhile_append_of_pos all]
    simp
  apply String.toList_inj.1
  rw [← before clear h, before clear' h']

namespace Message.Kind

theorem find?_eq_none_iff {t : String} :
    all.find? (fun kind => kind.tag == t) = none ↔ t ∉ all.map tag := by
  simp

theorem tag_mem (kind : Kind) : kind.tag ∈ all.map tag := by
  cases kind <;> decide

/-- A kind is found by its own tag only. -/
theorem tag_of_find? {t : String} {kind : Kind}
    (h : all.find? (fun kind => kind.tag == t) = some kind) : kind.tag = t := by
  simpa using List.find?_some h

theorem clear_tag (kind : Kind) : ':' ∉ kind.tag.toList := by
  cases kind <;> decide

end Message.Kind

namespace Frame

/-- What looking at a body comes to, told by the text that leads it. -/
inductive Told (body : Bytes) : Except ProtocolError Message → Prop where
  | unled {fault : Fault} (nothing : ∀ t, ¬ Leads t body)
      (refused : Codec.text.decode body = .error fault) : Told body (.error (.decode none fault))
  | unknown {t : String} (leads : Leads t body)
      (unknown : t ∉ Message.Kind.all.map Message.Kind.tag) : Told body (.error (.unknownTag t))
  | malformed {kind : Message.Kind} {fault : Fault} (leads : Leads kind.tag body)
      (refused : Message.codec.decode body = .error fault) :
      Told body (.error (.decode (some kind) fault))
  | read {m : Message} {rest : Bytes} (leads : Leads m.kind.tag body)
      (accepted : Message.codec.decode body = .ok (m, rest)) : Told body (.ok m)

/-- The tag inside a message is the one that was looked at first. -/
theorem told (body : Bytes) : Told body (decodeBody body) := by
  cases word : Codec.text.decode body with
  | error fault =>
    have nothing : ∀ t, ¬ Leads t body := by
      rintro t ⟨rest, begins⟩
      rw [Codec.decode_text_iff.2 begins] at word
      cases word
    simp only [decodeBody, word]
    exact .unled nothing word
  | ok p =>
    have leads : Leads p.1 body := ⟨p.2, Codec.decode_text_iff.1 word⟩
    cases found : Message.Kind.all.find? fun kind => kind.tag == p.1 with
    | none =>
      simp only [decodeBody, word, found]
      exact .unknown leads (Message.Kind.find?_eq_none_iff.1 found)
    | some kind =>
      rw [← Message.Kind.tag_of_find? found] at leads
      cases whole : Message.codec.decode body with
      | error fault =>
        simp only [decodeBody, word, found, whole]
        exact .malformed leads whole
      | ok q =>
        simp only [decodeBody, word, found, whole]
        obtain ⟨middle, inner⟩ := Message.decode_tag whole
        obtain ⟨t, again, same⟩ := Codec.decode_keyword inner
        rw [← Message.Kind.tag_of_find? same] at again
        exact .read ⟨middle, Codec.decode_text_iff.1 again⟩ whole

/-- What is wrong with the text that should lead is told under a word that is no tag. -/
theorem word_of_text {bytes : Bytes} {fault : Fault} (h : Codec.text.decode bytes = .error fault) :
    ∃ word rest, fault.message = word ++ ": " ++ rest ∧ ':' ∉ word.toList ∧
      word ∉ Message.Kind.all.map Message.Kind.tag := by
  rcases Codec.fault_of_text h with rfl | rfl | ⟨wrong, rfl⟩
  · exact ⟨"io error", "unexpected end of file", by decide, by decide, by decide⟩
  · exact ⟨"io error", "", by decide, by decide, by decide⟩
  · exact ⟨"string is not valid utf8", wrong.message, rfl, by decide, by decide⟩

theorem prefix_of_eq {word rest text : String} (h : text = word ++ ": " ++ rest) :
    (word ++ ": ").toList <+: text.toList := by
  rw [h, String.toList_append (s := word ++ ": ")]
  exact List.prefix_append _ _

/-- The wording of a malformed body is under the tag that leads it, if that is the tag of a kind. -/
theorem wording {body : Bytes} {tag : Option Message.Kind} {fault : Fault}
    (h : decodeBody body = .error (.decode tag fault)) :
    ∃ text, (ProtocolError.decode tag fault).message = "failed to decode message: " ++ text ∧
      ∀ kind : Message.Kind, (kind.tag ++ ": ").toList <+: text.toList ↔ Leads kind.tag body := by
  have told := told body
  rw [h] at told
  cases told with
  | unled nothing refused =>
    obtain ⟨word, rest, shape, clear, other⟩ := word_of_text refused
    refine ⟨fault.message, rfl, fun kind => ⟨fun under => ?_, fun leads => ?_⟩⟩
    · have same := word_unique clear kind.clear_tag (prefix_of_eq shape) under
      exact absurd (same ▸ kind.tag_mem) other
    · exact absurd leads (nothing _)
  | @malformed kind fault leads refused =>
    have under : (kind.tag ++ ": ").toList <+: (kind.tag ++ ": " ++ fault.message).toList :=
      prefix_of_eq rfl
    refine ⟨kind.tag ++ ": " ++ fault.message, ?_, fun kind' =>
      ⟨fun under' => ?_, fun leads' => ?_⟩⟩
    · have whole : (ProtocolError.decode (some kind) fault).message =
          "failed to decode message: " ++ kind.tag ++ ": " ++ fault.message := rfl
      rw [whole, String.append_assoc, String.append_assoc, String.append_assoc]
    · rw [word_unique kind'.clear_tag kind.clear_tag under' under]
      exact leads
    · rw [leads'.unique leads]
      exact under

/-! ## Tags inside -/

/-- What is wrong with the content of a message is told under its tag. -/
theorem refused_of_content {body content : Bytes} {kind : Message.Kind} {fault : Fault}
    (outer : Begins kind.tag content body) (inside : kind.bodyCodec.decode content = .error fault) :
    decodeBody body = .error (.decode (some kind) fault) := by
  have word := Codec.decode_text_iff.2 outer
  simp only [decodeBody, word, find?_tag, Message.codec, Codec.record, Codec.imap, Codec.tagged,
    Codec.keyword, inside]

/-- A tag that is unknown where one has to stand is refused there. -/
theorem refused_of_tag {κ : Type} {all : List κ} {tag : κ → String} {body : κ → Type}
    (format : (k : κ) → Codec (body k)) {t : String} {bytes : Bytes} (leads : Leads t bytes)
    (unknown : t ∉ all.map tag) :
    (Codec.tagged (.keyword all tag) format).decode bytes =
      .error (.unknownTag t (all.map tag)) := by
  obtain ⟨rest, begins⟩ := leads
  have word := Codec.decode_text_iff.2 begins
  have found : all.find? (fun k => tag k == t) = none := by simpa using unknown
  simp only [Codec.tagged, Codec.keyword, word, found]

theorem refused_of_nests {t : String} {kind : Message.Kind} {known : List String} {body : Bytes}
    (h : Nests t kind known body) (unknown : t ∉ known) :
    decodeBody body = .error (.decode (some kind) (.unknownTag t known)) := by
  cases h with
  | errand outer width inner =>
    apply refused_of_content outer
    have tag := refused_of_tag Errand.Kind.bodyCodec inner unknown
    simp only [Message.Kind.bodyCodec, Request.codec, Codec.record, Codec.imap, Codec.pair,
      Codec.decode_uint64 width, Errand.codec, tag]
  | resource outer width flag inner =>
    apply refused_of_content outer
    have tag := refused_of_tag ObjectKind.bodyCodec inner unknown
    rcases flag with rfl | rfl <;>
    simp [Message.Kind.bodyCodec, Reply.codec, Codec.record, Codec.imap, Codec.pair,
      Codec.decode_uint64 width, Codec.bool, Codec.option, Resource.codec, tag]
  | resourceAfter outer width flag failure inner =>
    apply refused_of_content outer
    have tag := refused_of_tag ObjectKind.bodyCodec inner unknown
    have reason := Codec.decode_text_iff.2 failure
    rcases flag with rfl | rfl <;>
    simp [Message.Kind.bodyCodec, Reply.codec, Codec.record, Codec.imap, Codec.pair,
      Codec.decode_uint64 width, Codec.bool, Codec.option, Resource.codec, tag, reason]

/-- **Bodies are told by their tag.** Reading a body comes to one of three things. The kind is
unknown just if the body begins with a text that is the tag of no kind, whatever follows. A message
is of the kind whose tag leads the body. Otherwise the body is malformed, and what is wrong is told
under the tag of a kind just if that tag leads the body. A tag inside a request or a reply that is
none of those known there makes the body malformed, and never one of an unknown kind. -/
theorem told_by_tag (body : Bytes) :
    ((∃ t, decodeBody body = .error (.unknownTag t)) ∨ (∃ m, decodeBody body = .ok m) ∨
      ∃ tag fault, decodeBody body = .error (.decode tag fault)) ∧
    (∀ t, decodeBody body = .error (.unknownTag t) ↔
      Leads t body ∧ t ∉ Message.Kind.all.map Message.Kind.tag) ∧
    (∀ m, decodeBody body = .ok m → ∀ t, Leads t body ↔ t = m.kind.tag) ∧
    (∀ tag fault, decodeBody body = .error (.decode tag fault) →
      ∃ text, (ProtocolError.decode tag fault).message = "failed to decode message: " ++ text ∧
        ∀ kind : Message.Kind, (kind.tag ++ ": ").toList <+: text.toList ↔ Leads kind.tag body) ∧
    (∀ t kind known, Nests t kind known body → t ∉ known →
      decodeBody body = .error (.decode (some kind) (.unknownTag t known))) := by
  have told := told body
  refine ⟨?_, fun t => ⟨fun h => ?_, fun ⟨leads, unknown⟩ => ?_⟩, fun m h t => ?_,
    fun tag fault => wording, fun t kind known => refused_of_nests⟩
  · generalize decodeBody body = r at told
    cases told with
    | unled => exact .inr (.inr ⟨_, _, rfl⟩)
    | unknown => exact .inl ⟨_, rfl⟩
    | malformed => exact .inr (.inr ⟨_, _, rfl⟩)
    | read => exact .inr (.inl ⟨_, rfl⟩)
  · rw [h] at told
    cases told with
    | unknown leads unknown => exact ⟨leads, unknown⟩
  · generalize decodeBody body = r at told
    cases told with
    | unled nothing => exact absurd leads (nothing t)
    | unknown leads' => rw [leads.unique leads']
    | malformed leads' => exact absurd (leads.unique leads' ▸ Message.Kind.tag_mem _) unknown
    | read leads' => exact absurd (leads.unique leads' ▸ Message.Kind.tag_mem _) unknown
  · rw [h] at told
    cases told with
    | read leads => exact ⟨fun leads' => leads'.unique leads, fun same => same ▸ leads⟩

/-- A tag that is unknown in front, and one that is unknown inside a request. -/
theorem told_by_tag_teleport :
    decodeBody (Codec.text.encode "msg.teleport" ++ [1, 0, 0, 0]) =
        .error (.unknownTag "msg.teleport") ∧
      decodeBody (Codec.text.encode "msg.req" ++
          ([7, 0, 0, 0, 0, 0, 0, 0] ++ Codec.text.encode "req.teleport" ++ [])) =
        .error (.decode (some .request)
          (.unknownTag "req.teleport" ["req.query", "req.edit_shader", "req.link_program"])) := by
  constructor
  · have leads : Leads "msg.teleport" _ := ⟨_, begins_encode (by decide) [1, 0, 0, 0]⟩
    exact ((told_by_tag _).2.1 _).2 ⟨leads, by decide⟩
  · have inner : Leads "req.teleport" _ := ⟨_, begins_encode (by decide) []⟩
    have outer := begins_encode (t := "msg.req") (by decide)
      ([7, 0, 0, 0, 0, 0, 0, 0] ++ (Codec.text.encode "req.teleport" ++ []))
    rw [List.append_assoc]
    exact (told_by_tag _).2.2.2.2 _ _ _ (.errand outer rfl inner) (by decide)

end Frame

end CallDebugger
