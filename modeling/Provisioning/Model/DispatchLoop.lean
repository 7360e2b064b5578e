import Provisioning.Lib.Machine
import Provisioning.Model.Effects
import Provisioning.Model.Messages
import Provisioning.Model.Dispatcher

/-!
# The dispatcher as a process

`server/core/dispatcher/service/dispatcher.py`, `dispatch_events`, with what it stands on in the
adapter: NATS pushes the events, `cb` puts each into a queue in memory, and the loop takes one
after the other out of it and handles it to its end. An exception out of the handler goes through
both task groups, and the process is over; the next one starts with an empty queue.

The subscriptions are fixed here. The mapping is rebuilt when the process starts and whenever the
watch calls, so it names the same subscriptions at all times, but a set has no order: a rebuilt
mapping may walk the same subscriptions in another one.
-/

namespace Provisioning

open Await

/-- Subscriptions as the bucket has them, one for each name. -/
structure Subscribers where
  list : List Subscription
  names : ∀ s ∈ list, ∀ t ∈ list, s.name = t.name → s = t

/-- A mapping of these subscriptions, in any order. -/
structure MappingOf (subs : Subscribers) where
  mapping : Mapping
  agrees : ∀ realm topic sub, sub ∈ mapping.subscribers realm topic ↔
    sub ∈ subs.list ∧ ⟨realm, topic⟩ ∈ sub.realmsTopics

structure DispatcherProcess where
  /-- `_message_queue`. -/
  messageQueue : List Msg
  /-- The event that `handle_message` is at, and what is left to do about it. -/
  handling : Option (Msg × Coro Unit)

/-- What was published, and the event it was published for. No program reads it. -/
structure Publication where
  stream : String
  subject : String
  payload : Payload
  event : Nat

structure Dispatcher where
  world : World
  process : Option DispatcherProcess
  /-- All events of the incoming stream, with their sequence numbers. No program reads it. -/
  incoming : List (Nat × Payload)
  published : List Publication

/-- The call has nothing to do with the incoming stream, nor with the memory of the dispatcher. -/
def Op.apart : Op → Bool
  | .mappingSet _ => false
  | op => op.spares eventQueue

/-- Everything that can happen. -/
inductive DispatcherStep (subs : Subscribers) where
  /-- An event comes in. -/
  | post (payload : Payload)
  /-- Another service, or a consumer, has a call served. -/
  | elsewhere (tid : Nat) (op : Op)
  /-- NATS pushes the next event; `cb` puts it into the queue, unless it gets lost on the way. -/
  | deliver (arrives : Bool)
  | ackWaitExpires
  /-- A process subscribes to the stream and fills the mapping. -/
  | start (mapping : MappingOf subs)
  /-- The watch callback has rebuilt the mapping. -/
  | refresh (mapping : MappingOf subs)
  /-- `wait_for_event` returns the next message of the queue. -/
  | take
  /-- The handler's call is served, or not, and answered, or not. -/
  | call (f : Fault Outage)
  /-- The process dies. -/
  | crash

namespace Dispatcher

/-- The handler goes on, returns, or raises, which ends the process. -/
def goOn (s : Dispatcher) (messageQueue : List Msg) (msg : Msg) : Coro Unit → Dispatcher
  | .pure _ => { s with process := some ⟨messageQueue, none⟩ }
  | .throw _ => { s with process := none }
  | .await op k => { s with process := some ⟨messageQueue, some (msg, .await op k)⟩ }

/-- What a call for the event adds to what was published: nothing, unless it is carried out. -/
def publication (env : Env) (event : Nat) (op : Op) (w : World) (f : Fault Outage) :
    List Publication :=
  match op with
  | .publish subject payload stream =>
    match (answer env event (.publish subject payload stream) w).1 with
    | .ok _ => if f.Lands then [⟨stream, subject, payload, event⟩] else []
    | .error _ => []
  | _ => []

def step (env : Env) {subs : Subscribers} (s : Dispatcher) :
    DispatcherStep subs → Option Dispatcher
  | .post payload =>
    match answer env 0 (.publish DISPATCHER_STREAM payload eventQueue) s.world with
    | (.ok seq, w) => some { s with world := w, incoming := s.incoming ++ [(seq, payload)] }
    | (.error _, _) => none
  | .elsewhere tid op =>
    if op.apart then some { s with world := (answer env tid op s.world).2 } else none
  | .deliver arrives =>
    match s.process with
    | none => none
    | some p =>
      match answer env 0 (.fetch eventQueue eventWorker) s.world with
      | (.ok msg, w) =>
        if arrives then
          some { s with world := w, process := some ⟨p.messageQueue ++ [msg], p.handling⟩ }
        else some { s with world := w }
      | (.error _, _) => none
  | .ackWaitExpires =>
    some { s with world := (answer env 0 (.ackWaitExpires eventQueue eventWorker) s.world).2 }
  | .start mapping =>
    match s.process with
    | none =>
      some { s with
        world := { s.world with mapping := mapping.mapping }, process := some ⟨[], none⟩ }
    | some _ => none
  | .refresh mapping =>
    match s.process with
    | none => none
    | some _ => some { s with world := { s.world with mapping := mapping.mapping } }
  | .take =>
    match s.process with
    | some ⟨msg :: messageQueue, none⟩ => some (s.goOn messageQueue msg (handleEvent msg))
    | _ => none
  | .call f =>
    match s.process with
    | some ⟨messageQueue, some (msg, .await op k)⟩ =>
      let published := s.published ++ publication env msg.streamSeq op s.world f
      let world := (serve env).left msg.streamSeq op s.world f
      let left := k ((serve env).heard msg.streamSeq op s.world f)
      some ({ s with world := world, published := published }.goOn messageQueue msg left)
    | _ => none
  | .crash => some { s with process := none }

/-- What a step does, and when it can be taken. -/
inductive StepsTo (env : Env) {subs : Subscribers} (s : Dispatcher) :
    DispatcherStep subs → Dispatcher → Prop where
  | post {payload : Payload} {seq : Nat} {w : World}
      (hanswer : answer env 0 (.publish DISPATCHER_STREAM payload eventQueue) s.world =
        (.ok seq, w)) :
      StepsTo env s (.post payload)
        { s with world := w, incoming := s.incoming ++ [(seq, payload)] }
  | elsewhere {op : Op} (hop : op.apart = true) (tid : Nat) :
      StepsTo env s (.elsewhere tid op) { s with world := (answer env tid op s.world).2 }
  | deliver {p : DispatcherProcess} {msg : Msg} {w : World} (hp : s.process = some p)
      (hanswer : answer env 0 (.fetch eventQueue eventWorker) s.world = (.ok msg, w)) :
      StepsTo env s (.deliver true)
        { s with world := w, process := some ⟨p.messageQueue ++ [msg], p.handling⟩ }
  /-- The push gets lost, but the server has counted it as a delivery. -/
  | loses {p : DispatcherProcess} {msg : Msg} {w : World} (hp : s.process = some p)
      (hanswer : answer env 0 (.fetch eventQueue eventWorker) s.world = (.ok msg, w)) :
      StepsTo env s (.deliver false) { s with world := w }
  | ackWaitExpires : StepsTo env s .ackWaitExpires
      { s with world := (answer env 0 (.ackWaitExpires eventQueue eventWorker) s.world).2 }
  | start (hp : s.process = none) (mapping : MappingOf subs) : StepsTo env s (.start mapping)
      { s with world := { s.world with mapping := mapping.mapping }, process := some ⟨[], none⟩ }
  | refresh (hp : s.process ≠ none) (mapping : MappingOf subs) :
      StepsTo env s (.refresh mapping)
        { s with world := { s.world with mapping := mapping.mapping } }
  | take {msg : Msg} {queue : List Msg} (hp : s.process = some ⟨msg :: queue, none⟩) :
      StepsTo env s .take (s.goOn queue msg (handleEvent msg))
  | call {queue : List Msg} {msg : Msg} {op : Op} {k : Except CallError op.Res → Coro Unit}
      (hp : s.process = some ⟨queue, some (msg, .await op k)⟩) (f : Fault Outage) :
      StepsTo env s (.call f)
        ({ s with
          world := (serve env).left msg.streamSeq op s.world f
          published := s.published ++ publication env msg.streamSeq op s.world f }.goOn queue msg
            (k ((serve env).heard msg.streamSeq op s.world f)))
  | crash : StepsTo env s .crash { s with process := none }

theorem stepsTo_of_step {env : Env} {subs : Subscribers} {s t : Dispatcher}
    {l : DispatcherStep subs} (hs : s.step env l = some t) : StepsTo env s l t := by
  cases l with
  | post payload =>
    dsimp only [step] at hs
    split at hs
    · next hanswer => exact Option.some.inj hs ▸ .post hanswer
    · cases hs
  | elsewhere tid op =>
    dsimp only [step] at hs
    split at hs
    · next hop => exact Option.some.inj hs ▸ .elsewhere hop tid
    · cases hs
  | deliver arrives =>
    dsimp only [step] at hs
    split at hs
    · cases hs
    · next hp =>
      split at hs
      · next hanswer =>
        cases arrives with
        | true => exact Option.some.inj hs ▸ .deliver hp hanswer
        | false => exact Option.some.inj hs ▸ .loses hp hanswer
      · cases hs
  | ackWaitExpires => exact Option.some.inj hs ▸ .ackWaitExpires
  | start mapping =>
    dsimp only [step] at hs
    split at hs
    · next hp => exact Option.some.inj hs ▸ .start hp mapping
    · cases hs
  | refresh mapping =>
    dsimp only [step] at hs
    split at hs
    · cases hs
    · next p hp =>
      exact Option.some.inj hs ▸ .refresh (fun hnone => nomatch hp.symm.trans hnone) mapping
  | take =>
    dsimp only [step] at hs
    split at hs
    · next hp => exact Option.some.inj hs ▸ .take hp
    · cases hs
  | call f =>
    dsimp only [step] at hs
    split at hs
    · next hp => exact Option.some.inj hs ▸ .call hp f
    · cases hs
  | crash => exact Option.some.inj hs ▸ .crash

/-- What was published to the subscription's live subject: the events, in this order. -/
def publishedTo (s : Dispatcher) (name : String) : List (Nat × Payload) :=
  (s.published.filter fun p => p.stream == streamKey name && p.subject == mainSubject name).map
    fun p => (p.event, p.payload)

end Dispatcher

/-- The subscription has subscribed to the realm and topic of the event. -/
def Subscription.wants (sub : Subscription) (event : Nat × Payload) : Bool :=
  match event.2 with
  | .message m => sub.realmsTopics.contains ⟨m.realm, m.topic⟩
  | .prefill _ => false
  | .simple .. => false

end Provisioning
