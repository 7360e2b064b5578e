import Provisioning.Lib.Machine
import Provisioning.Lib.TaskGroup
import Provisioning.Model.Prefill

/-!
# A prefill request and its acknowledgements

`MessageAckManager.process_message_with_ack_wait_extension` of `server/utils/message_ack_manager.py`
and the `except` clauses around it in `UDMPreFill.handle_requests_to_prefill`. `Prefill` has the
handler in all detail and nothing beside it; here the handler is any coroutine, which may end in any
way at any time, and the task that extends the wait of NATS runs beside it.

The two tasks and the body that awaits one of them are a machine: a tick is the end of the handler,
something the extender does, or the moment at which the body is resumed.
-/

namespace Provisioning

open TaskGroup

/-! ## Exceptions and the clauses that catch them -/

inductive PyError where
  | prefillFailedError
  /-- Any other `Exception`. -/
  | exception (e : Exc)
  | cancelledError
  /-- `KeyboardInterrupt` or `SystemExit`. -/
  | exit
  /-- Any other `BaseException`. -/
  | baseException
deriving DecidableEq, Repr

inductive ExceptClause where
  | prefillFailedError
  | validationError
  | exception
deriving DecidableEq, Repr

/-- `isinstance(e, Exception)`. -/
def PyError.isException : PyError → Bool
  | .prefillFailedError => true
  | .exception _ => true
  | _ => false

def PyError.isInstance : PyError → ExceptClause → Bool
  | .prefillFailedError, .prefillFailedError => true
  | .exception e, .validationError => e == .validationError
  | e, .exception => e.isException
  | _, _ => false

/-- `asyncio.TaskGroup` asks for `CancelledError`, and for what is to end the process. -/
def asyncioClasses : Classes PyError where
  cancelled e := e == .cancelledError
  exiting e := e == .exit

/-- A group of nothing but `Exception`s is an `ExceptionGroup`, which is an `Exception` itself. -/
def catches (c : ExceptClause) : Raised PyError → Bool
  | .bare e => e.isInstance c
  | .group es => c == .exception && es.all PyError.isException

/-! ## The task group -/

inductive Child where
  | ackExtender
  | messageHandlerTask
deriving DecidableEq, Repr

structure Processing where
  group : Group Child PyError
  /-- `extend_ack_wait` awaits an acknowledgement in progress, and not the end of its sleep. -/
  calling : Bool

inductive Tick where
  /-- The handler returns or raises. -/
  | handlerEnds (how : Except PyError Unit)
  /-- The extender has slept, and calls `acknowledge_message_in_progress`. -/
  | sleepEnds
  | ackWaitExtended
  | inProgressRaises (e : PyError)
  /-- The extender is cancelled in whatever it awaits. -/
  | extenderCancelled
  /-- The body is resumed, by the end of the handler or by a cancellation. -/
  | bodyResumes (cancelled : Bool)

def Processing.start : Processing := ⟨.start, false⟩

/-- What remains of the body when `await message_handler_task` is over. -/
def Processing.resumeBody (p : Processing) : Except PyError Unit → Processing
  | .ok () =>
    { p with group := (p.group.cancelTask .ackExtender).bodyEnds asyncioClasses (.ok ()) }
  | .error e => { p with group := p.group.bodyEnds asyncioClasses (.error e) }

def Processing.step (p : Processing) : Tick → Option Processing
  | .handlerEnds how =>
    match p.group.task .messageHandlerTask with
    | .running _ =>
      some { p with group := p.group.taskEnds asyncioClasses .messageHandlerTask how }
    | .ended _ => none
  | .sleepEnds =>
    match p.group.task .ackExtender with
    | .running _ => if p.calling then none else some { p with calling := true }
    | .ended _ => none
  | .ackWaitExtended =>
    match p.group.task .ackExtender with
    | .running _ => if p.calling then some { p with calling := false } else none
    | .ended _ => none
  | .inProgressRaises e =>
    match p.group.task .ackExtender with
    | .running cancelling =>
      -- A `CancelledError` that was asked for is the cancellation.
      if p.calling && !(cancelling && e == .cancelledError) then
        some { p with group := p.group.taskEnds asyncioClasses .ackExtender (.error e) }
      else none
    | .ended _ => none
  | .extenderCancelled =>
    match p.group.task .ackExtender with
    | .running true =>
      some { p with group := p.group.taskEnds asyncioClasses .ackExtender (.error .cancelledError) }
    | _ => none
  | .bodyResumes cancelled =>
    match p.group.body with
    | some _ => none
    | none =>
      if cancelled then
        -- The group cancels its body when a child has failed.
        if p.group.errors.isEmpty then none else some (p.resumeBody (.error .cancelledError))
      else
        match p.group.task .messageHandlerTask with
        | .ended how => some (p.resumeBody how)
        | .running _ => none

/-- The `async with` block can be left. -/
def Processing.over (p : Processing) : Bool :=
  p.group.body.isSome && (p.group.task .ackExtender).ended?.isSome &&
    (p.group.task .messageHandlerTask).ended?.isSome

/-! ## A round of `handle_requests_to_prefill` -/

inductive Settlement where
  | ack
  | nak
deriving DecidableEq, Repr

inductive RoundEnd where
  | nextRequest
  | raised
deriving DecidableEq, Repr

/-- What is sent after the task group, and what then comes, by the clause that applies. -/
def settlement : Except (Raised PyError) Unit → Option Settlement × RoundEnd
  | .ok () => (some .ack, .nextRequest)
  | .error e =>
    if catches .prefillFailedError e then (some .nak, .nextRequest)
    else if catches .validationError e then (some .nak, .raised)
    else if catches .exception e then (some .nak, .raised)
    else (none, .raised)

/-- The round of a request that was fetched. -/
structure Round where
  processing : Processing
  sent : List Settlement
  ended : Option RoundEnd

def Round.start : Round := ⟨.start, [], none⟩

inductive RoundStep where
  | tick (t : Tick)
  /-- The task group is left and the message settled; the sending succeeds or raises. -/
  | settles (answer : Except PyError Unit)

/-- What is left of the round once the task group is. -/
def Round.settle (r : Round) (answer : Except PyError Unit) : Round :=
  match settlement (r.processing.group.result asyncioClasses) with
  | (none, ended) => { r with ended := some ended }
  | (some s, ended) =>
    { r with
      sent := r.sent ++ [s]
      ended := some (match answer with | .ok () => ended | .error _ => .raised) }

def Round.step (r : Round) : RoundStep → Option Round
  | .tick t =>
    match r.ended with
    | some _ => none
    | none => (r.processing.step t).map fun p => { r with processing := p }
  | .settles answer =>
    match r.ended with
    | some _ => none
    | none => if r.processing.over then some (r.settle answer) else none

end Provisioning
