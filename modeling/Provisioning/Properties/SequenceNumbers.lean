import Provisioning.Model.Delivery
import Provisioning.Model.Effects
import Provisioning.Model.System

/-!
# The sequence number of a delivery

Two readers look for the stream sequence in a reply subject. The client library counts the tokens
and then goes by their place from the front. The adapter takes the fourth token from the end, and
the long form has one more token there: what it takes is the consumer sequence, which is how many
deliveries the consumer has had.

The number is handed to the consumer, which sends it back with the status of the message. So in the
long form the status deletes whatever message has that number, or none, and leaves the delivered one
where it is (`delivered_kept`). `identifies_iff` says when the number is right all the same.

## The subject as data

A reply subject is given by its parts (`AckReply`), each of which is known not to contain a dot, and
the text is what JetStream makes of them. So reading it begins with the fact that splitting the text
gives the parts back. From there on both readers work on a list, one from the front and one from the
end, and the result is about places in that list.

The library that finds the metadata is not part of the repository. It is a parameter, with the
assumption that it finds what JetStream wrote (`Understands`).
-/

namespace Provisioning

open Await Store Prog Subject

/-! ## The law -/

/-- The libraries understand the subject: the client library finds in it what JetStream wrote there,
and pydantic takes both sequences for the numbers they are. -/
structure Understands (lib : Libraries) (r : AckReply) : Prop where
  metadata : lib.metadata r.text =
    .ok ⟨⟨r.consumerSeq.value, r.streamSeq.value⟩, r.delivered.value⟩
  streamSeq : lib.int r.streamSeq.text = some r.streamSeq.value
  consumerSeq : lib.int r.consumerSeq.text = some r.consumerSeq.value

/-- The status `ok` for `seqNum` deletes the message numbered `target` from any stream that has it,
and no other. -/
def Deletes (seqNum target : Nat) : Prop :=
  ∀ (env : Env) (tid : Nat) (name : String) (w : World) (s : Store.Stream Payload)
    (m : Stored Payload),
    w.streams (streamKey name) = some s → m ∈ s.msgs → m.seq = target →
    ∃ left : Store.Stream Payload,
      (postMessageStatus name seqNum .ok).finish (serve env) tid w =
        (.ok (), w.setStream (streamKey name) (some left)) ∧
      left.durables = s.durables ∧ ∀ n, n ∈ left.msgs ↔ n ∈ s.msgs ∧ n ≠ m

/-- **The law**: of a delivery with that reply subject, both readers return the stream sequence of
the metadata that they take the number of deliveries from, and with it the status deletes the
message that was delivered. -/
structure Identifies (lib : Libraries) (r : AckReply) : Prop where
  provisioning : ∀ (subject : String) (headers : Option (List (String × String))) (m : Message),
    ∃ metadata out, lib.metadata r.text = .ok metadata ∧
      NatsMQAdapter.provisioningMessageFrom lib ⟨subject, r.text, .message m, headers⟩ = .ok out ∧
      out.numDelivered = metadata.numDelivered ∧
      out.sequenceNumber = metadata.sequence.stream ∧
      Deletes out.sequenceNumber r.streamSeq.value
  mq : ∀ (D α : Type) (binaryDecoder : D → Except ReadError (Decoded α)) (subject : String)
    (headers : Option (List (String × String))) (data : D) (d : α),
    binaryDecoder data = .ok (.dict d) →
    ∃ metadata out, lib.metadata r.text = .ok metadata ∧
      NatsMQAdapter.mqMessageFrom lib binaryDecoder ⟨subject, r.text, data, headers⟩ = .ok out ∧
      out.numDelivered = metadata.numDelivered ∧
      out.sequenceNumber = metadata.sequence.stream ∧
      Deletes out.sequenceNumber r.streamSeq.value

/-! ## The fourth token from the end -/

namespace AckReply

theorem tokens_ne_nil (r : AckReply) : r.tokens ≠ [] := by
  unfold tokens
  rw [List.append_assoc]
  exact List.append_ne_nil_of_right_ne_nil _
    (List.append_ne_nil_of_left_ne_nil (List.cons_ne_nil _ _) _)

/-- No token contains a dot. -/
theorem tokens_whole (r : AckReply) : ∀ token ∈ r.tokens, '.' ∉ token.toList := by
  -- The middle is the same for both forms; the longer one has more at the two ends.
  have hmiddle : ∀ token ∈ [r.stream.text, r.consumer.text, r.delivered.text, r.streamSeq.text,
      r.consumerSeq.text, r.timestamp.text, r.pending.text], '.' ∉ token.toList := by
    simp only [List.forall_mem_cons]
    exact ⟨r.stream.whole, r.consumer.whole, r.delivered.whole rfl, r.streamSeq.whole rfl,
      r.consumerSeq.whole rfl, r.timestamp.whole rfl, r.pending.whole rfl, nofun⟩
  have hopening : ∀ token ∈ r.opening, '.' ∉ token.toList := by
    unfold opening
    cases r.extension with
    | none =>
      simp only [List.forall_mem_cons]
      exact ⟨by decide, by decide, nofun⟩
    | some e =>
      simp only [List.forall_mem_cons]
      exact ⟨by decide, by decide, e.domain.whole, e.account.whole, nofun⟩
  have hclosing : ∀ token ∈ r.closing, '.' ∉ token.toList := by
    unfold closing
    cases r.extension with
    | none => exact nofun
    | some e =>
      simp only [List.forall_mem_cons]
      exact ⟨e.random.whole, nofun⟩
  intro token htoken
  rcases List.mem_append.mp htoken with htoken | htoken
  · rcases List.mem_append.mp htoken with htoken | htoken
    · exact hopening token htoken
    · exact hmiddle token htoken
  · exact hclosing token htoken

theorem split_text (r : AckReply) : split '.' r.text = r.tokens :=
  split_join r.tokens_ne_nil r.tokens_whole

/-- Only the random token of the long form comes after the pending count. -/
def fourthFromEnd (r : AckReply) : Numeral :=
  match r.extension with
  | none => r.streamSeq
  | some _ => r.consumerSeq

theorem item?_tokens (r : AckReply) : item? r.tokens (-4) = some r.fourthFromEnd.text := by
  unfold tokens opening closing fourthFromEnd
  cases r.extension with
  | none =>
    exact item?_append_cons ["$JS", "ACK", r.stream.text, r.consumer.text, r.delivered.text]
      r.streamSeq.text [r.consumerSeq.text, r.timestamp.text, r.pending.text]
  | some e =>
    exact item?_append_cons ["$JS", "ACK", e.domain.text, e.account.text, r.stream.text,
        r.consumer.text, r.delivered.text, r.streamSeq.text]
      r.consumerSeq.text [r.timestamp.text, r.pending.text, e.random.text]

theorem fourthFromEnd_long {r : AckReply} (h : r.extension ≠ none) :
    r.fourthFromEnd = r.consumerSeq := by
  unfold fourthFromEnd
  cases hext : r.extension with
  | none => exact absurd hext h
  | some e => rfl

theorem fourthFromEnd_eq_iff (r : AckReply) : r.fourthFromEnd.value = r.streamSeq.value ↔
    r.extension = none ∨ r.streamSeq.value = r.consumerSeq.value := by
  unfold fourthFromEnd
  cases r.extension with
  | none => exact iff_of_true rfl (Or.inl rfl)
  | some e => exact ⟨fun h => Or.inr h.symm, fun h => (h.resolve_left nofun).symm⟩

end AckReply

/-! ## What the two readers return -/

section Readers

variable {D α : Type} {lib : Libraries} {r : AckReply} {subject : String}
  {headers : Option (List (String × String))}

theorem sequenceNumberOf_text (data : D) :
    NatsMQAdapter.sequenceNumberOf ⟨subject, r.text, data, headers⟩ = .ok r.fourthFromEnd.text := by
  unfold NatsMQAdapter.sequenceNumberOf
  rw [r.split_text, r.item?_tokens]

theorem intField_fourthFromEnd (h : Understands lib r) :
    NatsMQAdapter.intField lib r.fourthFromEnd.text = .ok r.fourthFromEnd.value := by
  have hint : lib.int r.fourthFromEnd.text = some r.fourthFromEnd.value := by
    unfold AckReply.fourthFromEnd
    cases r.extension with
    | none => exact h.streamSeq
    | some e => exact h.consumerSeq
  unfold NatsMQAdapter.intField
  rw [hint]

theorem provisioningMessageFrom_text (h : Understands lib r) (m : Message) :
    NatsMQAdapter.provisioningMessageFrom lib ⟨subject, r.text, .message m, headers⟩ =
      .ok ⟨m, r.fourthFromEnd.value, r.delivered.value⟩ := by
  unfold NatsMQAdapter.provisioningMessageFrom
  rw [sequenceNumberOf_text, h.metadata]
  show (NatsMQAdapter.intField lib r.fourthFromEnd.text).bind
    (fun k => .ok (ProvisioningMessage.mk m k r.delivered.value)) = _
  rw [intField_fourthFromEnd h]
  rfl

theorem mqMessageFrom_text (h : Understands lib r)
    {binaryDecoder : D → Except ReadError (Decoded α)} {data : D} {d : α}
    (hdata : binaryDecoder data = .ok (.dict d)) :
    NatsMQAdapter.mqMessageFrom lib binaryDecoder ⟨subject, r.text, data, headers⟩ =
      .ok ⟨subject, r.text, d, r.delivered.value, r.fourthFromEnd.value, headers⟩ := by
  unfold NatsMQAdapter.mqMessageFrom
  rw [sequenceNumberOf_text, h.metadata, hdata]
  show (NatsMQAdapter.intField lib r.fourthFromEnd.text).bind
    (fun k => .ok (MQMessage.mk subject r.text d r.delivered.value k headers)) = _
  rw [intField_fourthFromEnd h]
  rfl

end Readers

/-! ## The deliveries the services see -/

/-- The reply subject says of a delivery what the services see of it. -/
structure AckReply.Describes (r : AckReply) (msg : Msg) : Prop where
  stream : r.stream.text = msg.stream
  consumer : r.consumer.text = msg.durable
  streamSeq : r.streamSeq.value = msg.streamSeq
  numDelivered : r.delivered.value = msg.numDelivered

/-- The same delivery, with the reply subject unread. -/
def Msg.unread (msg : Msg) (r : AckReply) : NatsMsg Payload :=
  ⟨msg.subject, r.text, msg.payload, none⟩

/-- **In the short form the services see what the adapter reads.** -/
theorem provisioningMessageFrom_unread {lib : Libraries} {r : AckReply} (h : Understands lib r)
    (hshort : r.extension = none) {msg : Msg} (hmsg : r.Describes msg) (env : Env) (tid : Nat)
    (w : World) :
    NatsMQAdapter.provisioningMessageFrom lib (msg.unread r) =
      ((provisioningMessageFrom msg).finish (serve env) tid w).1.mapError .exc := by
  have hnumber : r.fourthFromEnd.value = msg.streamSeq :=
    (r.fourthFromEnd_eq_iff.mpr (Or.inl hshort)).trans hmsg.streamSeq
  unfold Msg.unread provisioningMessageFrom
  cases hpayload : msg.payload with
  | message m =>
    rw [provisioningMessageFrom_text h, hnumber, hmsg.numDelivered]
    rfl
  | prefill m =>
    unfold NatsMQAdapter.provisioningMessageFrom
    rw [sequenceNumberOf_text, h.metadata]
    rfl
  | simple publisherName body =>
    unfold NatsMQAdapter.provisioningMessageFrom
    rw [sequenceNumberOf_text, h.metadata]
    rfl

/-! ## A client library -/

/-- The numbers from a place on. -/
def metadataAt (tokens : List String) (i : Nat) : Option Metadata := do
  let delivered ← Numeral.read? (← tokens[i]?)
  let streamSeq ← Numeral.read? (← tokens[i + 1]?)
  let consumerSeq ← Numeral.read? (← tokens[i + 2]?)
  return ⟨⟨consumerSeq, streamSeq⟩, delivered⟩

/-- Count the tokens, and read from the front. -/
def readMetadata (reply : String) : Except ReadError Metadata :=
  let tokens := split '.' reply
  if tokens[0]? = some "$JS" ∧ tokens[1]? = some "ACK" ∧
      (tokens.length = 9 ∨ tokens.length = 12) then
    match metadataAt tokens (if tokens.length = 9 then 4 else 6) with
    | some metadata => .ok metadata
    | none => .error (.exc (.valueError "invalid literal for int() with base 10"))
  else .error .notJSMessageError

def Libraries.sample : Libraries := ⟨readMetadata, Numeral.read?⟩

@[simp] theorem metadata_sample : Libraries.sample.metadata = readMetadata := rfl

theorem readMetadata_text (r : AckReply) : readMetadata r.text =
    .ok ⟨⟨r.consumerSeq.value, r.streamSeq.value⟩, r.delivered.value⟩ := by
  unfold readMetadata
  rw [r.split_text]
  unfold AckReply.tokens AckReply.opening AckReply.closing
  cases r.extension with
  | none => simp [metadataAt, Numeral.read?_text]
  | some e => simp [metadataAt, Numeral.read?_text]

theorem understands_sample (r : AckReply) : Understands .sample r where
  metadata := by rw [metadata_sample, readMetadata_text]
  streamSeq := r.streamSeq.read?_text
  consumerSeq := r.consumerSeq.read?_text

/-- The first delivery of message 7, which is the second that the consumer is handed. -/
def AckReply.sample (extension : Option Extension) : AckReply where
  extension := extension
  stream := ⟨"stream:s", by decide⟩
  consumer := ⟨"durable_name:s", by decide⟩
  delivered := .ofNat 1
  streamSeq := .ofNat 7
  consumerSeq := .ofNat 2
  timestamp := .ofNat 1699615014739091916
  pending := .ofNat 0

def Extension.sample : Extension where
  domain := ⟨"hub", by decide⟩
  account := ⟨"ACC", by decide⟩
  random := ⟨"r4nd", by decide⟩

example : (AckReply.sample (some .sample)).text =
    "$JS.ACK.hub.ACC.stream:s.durable_name:s.1.7.2.1699615014739091916.0.r4nd" := by
  decide

/-! ## What the status deletes -/

/-- A number deletes the message that has it. -/
theorem deletes_self (seqNum : Nat) : Deletes seqNum seqNum := by
  intro env tid name w s m hs hm hseq
  subst hseq
  have hstored : s.stored m.seq = true := List.any_eq_true.mpr ⟨m, hm, beq_self_eq_true _⟩
  exact ⟨_, finish_postMessageStatus hs hstored, rfl, fun n => Stream.mem_keep_seq_ne hm⟩

/-- Whether or not there is a message with that number, any other one stays. -/
theorem kept_of_ne {env : Env} {tid seqNum : Nat} {name : String} {w : World}
    {s : Store.Stream Payload} {m : Stored Payload} (hs : w.streams (streamKey name) = some s)
    (hm : m ∈ s.msgs) (hne : m.seq ≠ seqNum) :
    ∃ left, ((postMessageStatus name seqNum .ok).finish (serve env) tid w).2.streams
      (streamKey name) = some left ∧ m ∈ left.msgs := by
  cases hstored : s.stored seqNum with
  | false =>
    rw [finish_postMessageStatus_gone hs hstored]
    exact ⟨s, hs, hm⟩
  | true =>
    rw [finish_postMessageStatus hs hstored]
    exact ⟨_, World.streams_setStream_self .., List.mem_filter.mpr ⟨hm, bne_iff_ne.mpr hne⟩⟩

/-- **The wrong message.** In the long form the status leaves the delivered message in the stream,
unless the two sequences are the same number, and deletes the one numbered by the consumer. -/
theorem delivered_kept {lib : Libraries} {r : AckReply} (h : Understands lib r)
    (hlong : r.extension ≠ none) (hne : r.streamSeq.value ≠ r.consumerSeq.value)
    {subject : String} {headers : Option (List (String × String))} {m : Message}
    {out : ProvisioningMessage}
    (hout : NatsMQAdapter.provisioningMessageFrom lib ⟨subject, r.text, .message m, headers⟩ =
      .ok out) :
    Deletes out.sequenceNumber r.consumerSeq.value ∧
    ∀ (env : Env) (tid : Nat) (name : String) (w : World) (s : Store.Stream Payload)
      (delivered : Stored Payload), w.streams (streamKey name) = some s → delivered ∈ s.msgs →
      delivered.seq = r.streamSeq.value →
      ∃ left, ((postMessageStatus name out.sequenceNumber .ok).finish (serve env) tid w).2.streams
        (streamKey name) = some left ∧ delivered ∈ left.msgs := by
  have hnumber : out.sequenceNumber = r.consumerSeq.value := by
    rw [provisioningMessageFrom_text h] at hout
    cases hout
    exact congrArg Numeral.value (AckReply.fourthFromEnd_long hlong)
  rw [hnumber]
  refine ⟨deletes_self _, fun env tid name w s delivered hs hdelivered hseq => ?_⟩
  exact kept_of_ne hs hdelivered (hseq ▸ hne)

/-- **The number identifies the delivered message** exactly if the reply subject has the short form
or the message has the same number in the stream and with the consumer. -/
theorem identifies_iff {lib : Libraries} {r : AckReply} (h : Understands lib r) :
    Identifies lib r ↔ r.extension = none ∨ r.streamSeq.value = r.consumerSeq.value := by
  rw [← r.fourthFromEnd_eq_iff]
  constructor
  · intro hid
    obtain ⟨metadata, out, hmetadata, hout, -, hseq, -⟩ :=
      hid.mq (Decoded Unit) Unit .ok "" none (.dict ()) () rfl
    rw [h.metadata] at hmetadata
    rw [mqMessageFrom_text h rfl] at hout
    cases hmetadata
    cases hout
    exact hseq
  · intro hvalue
    refine ⟨fun subject headers m => ?_, fun D α binaryDecoder subject headers data d hdata => ?_⟩
    · refine ⟨_, _, h.metadata, provisioningMessageFrom_text h m, rfl, hvalue, ?_⟩
      show Deletes r.fourthFromEnd.value r.streamSeq.value
      rw [hvalue]
      exact deletes_self _
    · refine ⟨_, _, h.metadata, mqMessageFrom_text h hdata, rfl, hvalue, ?_⟩
      show Deletes r.fourthFromEnd.value r.streamSeq.value
      rw [hvalue]
      exact deletes_self _

theorem identifies_short : Identifies .sample (.sample none) :=
  (identifies_iff (understands_sample _)).mpr (Or.inl rfl)

/-- The adapter hands out 2, the library says 7. -/
theorem not_identifies : Understands .sample (.sample (some .sample)) ∧
    (∀ m : Message, NatsMQAdapter.provisioningMessageFrom .sample
      ⟨"s.main", (AckReply.sample (some .sample)).text, .message m, none⟩ = .ok ⟨m, 2, 1⟩) ∧
    Libraries.sample.metadata (AckReply.sample (some .sample)).text = .ok ⟨⟨2, 7⟩, 1⟩ ∧
    ¬ Identifies .sample (.sample (some .sample)) := by
  have hunderstands := understands_sample (.sample (some .sample))
  have hnumber : (AckReply.sample (some .sample)).fourthFromEnd.value = 2 :=
    Numeral.value_ofNat 2
  have hconsumer : (AckReply.sample (some .sample)).consumerSeq.value = 2 := Numeral.value_ofNat 2
  have hstream : (AckReply.sample (some .sample)).streamSeq.value = 7 := Numeral.value_ofNat 7
  have hdelivered : (AckReply.sample (some .sample)).delivered.value = 1 := Numeral.value_ofNat 1
  have hread : ∀ m : Message, NatsMQAdapter.provisioningMessageFrom .sample
      ⟨"s.main", (AckReply.sample (some .sample)).text, .message m, none⟩ = .ok ⟨m, 2, 1⟩ := by
    intro m
    rw [provisioningMessageFrom_text hunderstands m, hnumber, hdelivered]
  have hmetadata : Libraries.sample.metadata (AckReply.sample (some .sample)).text =
      .ok ⟨⟨2, 7⟩, 1⟩ := by
    rw [hunderstands.metadata, hconsumer, hstream, hdelivered]
  refine ⟨hunderstands, hread, hmetadata, fun hid => ?_⟩
  obtain ⟨metadata, out, hmetadata', hout, -, hseq, -⟩ := hid.provisioning "s.main" none .sample
  rw [hmetadata] at hmetadata'
  rw [hread] at hout
  cases hmetadata'
  cases hout
  cases hseq

end Provisioning
