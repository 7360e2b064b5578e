import Provisioning.Model.DispatchLoop
import Provisioning.Model.Pipeline

/-!
# From the directory to the subscriptions

The listener, the transformer and the dispatcher, over one server. The transformer goes through its
rounds as in `Pipeline`, and what happens between its calls is now also what the dispatcher does, as
in `DispatchLoop`, step by step. All other services may call the server as well; only they do not
send events about the directory, and leave the transformer's own queue and cache alone.
-/

namespace Provisioning

open Await

/-- What an event says about the directory: the transformer's events are in a realm of their own. -/
def Payload.event? : Payload → Option Body
  | .message m => if m.realm = "udm" then some m.body else none
  | .prefill _ => none
  | .simple .. => none

/-- The step is not taken in the transformer's place. -/
def DispatcherStep.Beside {subs : Subscribers} : DispatcherStep subs → Prop
  | .post payload => payload.event? = none
  | .elsewhere _ op => op.Elsewhere
  | _ => True

/-- What happens that is no call of the transformer. -/
inductive RelayAction (subs : Subscribers) where
  | change (change : Change)
  | dispatcher (l : DispatcherStep subs) (h : l.Beside)

structure Relay (subs : Subscribers) (start : Directory) where
  dispatcher : Dispatcher
  chronicle : Chronicle start
  /-- What happens before each of the transformer's next calls is answered. -/
  script : List (List (RelayAction subs))

variable (env : Env) {subs : Subscribers} {start : Directory}

/-- What a call adds to the incoming stream. -/
def posted (tid : Nat) (op : Op) (w : World) : List (Nat × Payload) :=
  match op with
  | .publish subject payload stream =>
    match (answer env tid (.publish subject payload stream) w).1 with
    | .ok seq => if stream = eventQueue then [(seq, payload)] else []
    | .error _ => []
  | _ => []

/-- Somebody else's call is carried out. -/
def Dispatcher.served (s : Dispatcher) (tid : Nat) (op : Op) : Dispatcher :=
  { s with
    world := (answer env tid op s.world).2
    incoming := s.incoming ++ posted env tid op s.world }

namespace Relay

/-- A change that cannot take place does not, and neither does a step of the dispatcher. -/
def act (r : Relay subs start) : RelayAction subs → Relay subs start
  | .change change =>
    if h : change.Valid r.chronicle.directory then
      { r with
        dispatcher := { r.dispatcher with
          world := (change.listen.alone (serve env) Scene.listener r.dispatcher.world).world }
        chronicle := r.chronicle.extend change h }
    else r
  | .dispatcher l _ =>
    match r.dispatcher.step env l with
    | some d => { r with dispatcher := d }
    | none => r

/-- Up to the next call of the transformer. -/
def meanwhile (r : Relay subs start) : Relay subs start :=
  (r.script.headD []).foldl (act env) { r with script := r.script.tail }

end Relay

/-- The server as the transformer meets it, the dispatcher being at work too. -/
def relaying (subs : Subscribers) (start : Directory) :
    Server Op Op.Res CallError Outage (Relay subs start) where
  answer tid op r :=
    ((answer env tid op (r.meanwhile env).dispatcher.world).1,
      { r.meanwhile env with dispatcher := (r.meanwhile env).dispatcher.served env tid op })
  lost := Outage.error

namespace Relay

inductive Step (subs : Subscribers) where
  | act (action : RelayAction subs)
  | round (plan : List (Fault Outage)) (script : List (List (RelayAction subs)))

def step (r : Relay subs start) : Step subs → Relay subs start
  | .act action => r.act env action
  | .round plan script =>
    ((transformOnce env).attempt (relaying env subs start) 0 plan
      { r with script := script }).world

def begin (d : Dispatcher) : Relay subs start := ⟨d, .begin, []⟩

def run (r : Relay subs start) (steps : List (Step subs)) : Relay subs start :=
  steps.foldl (step env) r

/-- What the transformer has sent. -/
def events (r : Relay subs start) : List Body := r.dispatcher.incoming.filterMap (·.2.event?)

end Relay

/-- What a consumer takes from a message. -/
def Payload.assignment (payload : Payload) : Option (Replica.Assignment String Obj) :=
  payload.event?.bind Body.assignment

end Provisioning
