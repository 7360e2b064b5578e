import Provisioning.Model.Effects
import Provisioning.Model.Listener

/-!
# From the directory to the events

The listener, its queue and the transformer at work, with all others around them. The transformer
goes through its rounds one after the other; a round may fail at any call and may be cut anywhere,
and before each of its calls any number of things may have happened elsewhere: the directory has
changed and the listener has published the change, other services have called the server, or the ack
wait of the change in hand has passed.
-/

namespace Provisioning

open Await

deriving instance DecidableEq for LdapEntry

instance Change.decidableValid (directory : Directory) :
    (change : Change) → Decidable (change.Valid directory)
  | .create new => inferInstanceAs (Decidable (directory new.uuid = none))
  | .modify old _ => inferInstanceAs (Decidable (directory old.uuid = some old ∧ _))
  | .remove old => inferInstanceAs (Decidable (directory old.uuid = some old))

/-! ## The history of the directory -/

/-- The changes that a directory has gone through since `start`. -/
structure Chronicle (start : Directory) where
  changes : List Change
  allowed : start.Allows changes

namespace Chronicle

variable {start : Directory}

def begin : Chronicle start where
  changes := []
  allowed := by
    intro k change h
    cases h

/-- The directory as it is now. -/
def directory (c : Chronicle start) : Directory := start.after c.changes

def extend (c : Chronicle start) (change : Change) (h : change.Valid c.directory) :
    Chronicle start where
  changes := c.changes ++ [change]
  allowed := by
    intro k later hlater
    rcases Nat.lt_trichotomy k c.changes.length with hlt | heq | hgt
    · rw [List.getElem?_append_left hlt] at hlater
      rw [List.take_append_of_le_length (Nat.le_of_lt hlt)]
      exact c.allowed k later hlater
    · subst heq
      rw [List.getElem?_concat_length] at hlater
      rw [List.take_left]
      exact Option.some.inj hlater ▸ h
    · rw [List.getElem?_eq_none (by rw [List.length_append]; exact hgt)] at hlater
      cases hlater

end Chronicle

/-! ## What others do -/

/-- The call is none at the queue of the changes but that its ack wait passes, and none that writes
the cache of the transformer. -/
def Op.Elsewhere (op : Op) : Prop :=
  (op.spares (streamKey LDAP_STREAM) = true ∨
    op = .ackWaitExpires (streamKey LDAP_STREAM) (durableKey LDAP_STREAM)) ∧
  (∀ key obj, op ≠ .kvPut .cache key obj) ∧ ∀ key, op ≠ .kvDelete .cache key

inductive Action where
  | change (change : Change)
  | call (tid : Nat) (op : Op) (h : op.Elsewhere)

theorem elsewhere_ackWaitExpires :
    (Op.ackWaitExpires (streamKey LDAP_STREAM) (durableKey LDAP_STREAM)).Elsewhere := by
  refine ⟨Or.inr rfl, fun key obj h => ?_, fun key h => ?_⟩
  · cases h
  · cases h

/-- The ack wait of the change in hand passes. -/
def Action.ackWaitExpires : Action := .call 0 _ elsewhere_ackWaitExpires

structure Scene (start : Directory) where
  world : World
  chronicle : Chronicle start
  /-- What happens before each of the transformer's next calls is answered. -/
  script : List (List Action)

variable (env : Env) {start : Directory}

namespace Scene

/-- The thread that the listener runs in. -/
def listener : Nat := 1

/-- A change that cannot take place does not. -/
def act (scene : Scene start) : Action → Scene start
  | .change change =>
    if h : change.Valid scene.chronicle.directory then
      { scene with
        world := (change.listen.alone (serve env) listener scene.world).world
        chronicle := scene.chronicle.extend change h }
    else scene
  | .call tid op _ => { scene with world := (answer env tid op scene.world).2 }

/-- Up to the next call of the transformer. -/
def meanwhile (scene : Scene start) : Scene start :=
  (scene.script.headD []).foldl (act env) { scene with script := scene.script.tail }

end Scene

/-- The server as the transformer meets it: others are at work too. -/
def amid : Server Op Op.Res CallError Outage (Scene start) where
  answer tid op scene :=
    ((answer env tid op (scene.meanwhile env).world).1,
      { scene.meanwhile env with world := (answer env tid op (scene.meanwhile env).world).2 })
  lost := Outage.error

/-! ## The rounds -/

/-- What a call that was carried out has told the consumers. -/
def Op.event? : Op → Option Body
  | .publish _ (.message m) stream =>
    if stream = streamKey DISPATCHER_STREAM then some m.body else none
  | _ => none

def eventsOf (landed : List Op) : List Body := landed.filterMap Op.event?

/-- The scene, and the events that were sent. -/
structure Pipeline (start : Directory) where
  scene : Scene start
  events : List Body

namespace Pipeline

inductive Step where
  | act (action : Action)
  | round (plan : List (Fault Outage)) (script : List (List Action))

def step (p : Pipeline start) : Step → Pipeline start
  | .act action => { p with scene := p.scene.act env action }
  | .round plan script =>
    let round := (transformOnce env).attempt (amid env) 0 plan { p.scene with script := script }
    ⟨round.world, p.events ++ eventsOf round.landed⟩

def begin (w : World) : Pipeline start := ⟨⟨w, .begin, []⟩, []⟩

def run (p : Pipeline start) (steps : List Step) : Pipeline start := steps.foldl (step env) p

end Pipeline

end Provisioning
