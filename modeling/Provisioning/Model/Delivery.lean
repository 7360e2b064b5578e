import Provisioning.Lib.Subject
import Provisioning.Model.Messages

/-!
# What a delivery says of itself

`provisioning_message_from` and `mq_message_from` of `server/adapters/nats_adapter.py`. JetStream
tells in the reply subject of a delivery which message of which stream it is and how often it has
been delivered. The services above see a `Msg`, in which that has been read already; here it is a
text still.

The client library reads the same text for its `metadata`. What it finds there, and which texts
pydantic takes for integers, is a parameter (`Libraries`).
-/

namespace Provisioning

open Subject

/-! ## Reply subjects -/

/-- What the long form of a reply subject adds: three tokens, the last of them at the end. -/
structure Extension where
  domain : Token '.'
  account : Token '.'
  random : Token '.'

/-- What JetStream writes into the reply subject of a delivery. -/
structure AckReply where
  extension : Option Extension
  stream : Token '.'
  consumer : Token '.'
  delivered : Numeral
  streamSeq : Numeral
  consumerSeq : Numeral
  timestamp : Numeral
  pending : Numeral

namespace AckReply

def opening (r : AckReply) : List String :=
  match r.extension with
  | none => ["$JS", "ACK"]
  | some e => ["$JS", "ACK", e.domain.text, e.account.text]

def closing (r : AckReply) : List String :=
  match r.extension with
  | none => []
  | some e => [e.random.text]

/-- `$JS.ACK.<stream>.<consumer>.<delivered>.<stream seq>.<consumer seq>.<timestamp>.<pending>`, or
`$JS.ACK.<domain>.<account>.` … `.<random>` around the same seven tokens. -/
def tokens (r : AckReply) : List String :=
  r.opening ++ [r.stream.text, r.consumer.text, r.delivered.text, r.streamSeq.text,
    r.consumerSeq.text, r.timestamp.text, r.pending.text] ++ r.closing

def text (r : AckReply) : String := join '.' r.tokens

end AckReply

/-! ## The libraries -/

structure SequencePair where
  consumer : Nat
  stream : Nat
deriving DecidableEq, Repr

structure Metadata where
  sequence : SequencePair
  numDelivered : Nat
deriving DecidableEq, Repr

/-- What reading a delivery can raise. -/
inductive ReadError where
  | exc (e : Exc)
  | indexError
  /-- The reply subject is not JetStream's. -/
  | notJSMessageError
deriving DecidableEq, Repr

structure Libraries where
  /-- `msg.metadata`, read from `msg.reply`. -/
  metadata : String → Except ReadError Metadata
  /-- The integer that pydantic takes a text for in an `int` field. A sequence has no sign. -/
  int : String → Option Nat

/-- `nats.aio.msg.Msg`. Its data are bytes of some encoding. -/
structure NatsMsg (D : Type) where
  subject : String
  reply : String
  data : D
  headers : Option (List (String × String))

/-- What a decoder makes of the data. -/
inductive Decoded (α : Type) where
  | dict (d : α)
  | other
deriving DecidableEq, Repr

structure MQMessage (α : Type) where
  subject : String
  reply : String
  data : α
  numDelivered : Nat
  sequenceNumber : Nat
  headers : Option (List (String × String))
deriving DecidableEq, Repr

/-! ## `NatsMQAdapter` -/

namespace NatsMQAdapter

variable {D α : Type} (lib : Libraries)

/-- `msg.reply.split(".")[-4]`. -/
def sequenceNumberOf (msg : NatsMsg D) : Except ReadError String :=
  match item? (split '.' msg.reply) (-4) with
  | some token => .ok token
  | none => .error .indexError

/-- A field of type `int` that is given a text. -/
def intField (text : String) : Except ReadError Nat :=
  match lib.int text with
  | some k => .ok k
  | none => .error (.exc .validationError)

/-- The data are the JSON dump of what was published. Only a `Message` has a realm. -/
def provisioningMessageFrom (msg : NatsMsg Payload) : Except ReadError ProvisioningMessage := do
  let sequenceNumber ← sequenceNumberOf msg
  let metadata ← lib.metadata msg.reply
  match msg.data with
  | .message m => return ⟨m, ← intField lib sequenceNumber, metadata.numDelivered⟩
  | .prefill _ => throw (.exc (.keyError "realm"))
  | .simple .. => throw (.exc (.keyError "realm"))

def mqMessageFrom (binaryDecoder : D → Except ReadError (Decoded α)) (msg : NatsMsg D) :
    Except ReadError (MQMessage α) := do
  let data ← binaryDecoder msg.data
  let sequenceNumber ← sequenceNumberOf msg
  let metadata ← lib.metadata msg.reply
  match data with
  | .dict d =>
    return {
      subject := msg.subject
      reply := msg.reply
      data := d
      headers := msg.headers
      numDelivered := metadata.numDelivered
      sequenceNumber := ← intField lib sequenceNumber }
  | .other => throw (.exc .validationError)

end NatsMQAdapter

end Provisioning
