import Provisioning.Lib.Replica
import Provisioning.Model.Transformer

/-!
# The LDAP listener

`provisioning_listener`: the directory listener calls it at every change of an entry, and all it
does is to publish the change to the queue of the transformer. What it is called with is said by the
directory, which is no part of the repository: an entry is there under its UUID or it is not, and
what the listener is handed as the old entry is the one that was there.
-/

namespace Provisioning

open Await Replica

/-! ## `provisioning_listener/service.py` -/

namespace LdapListener

/-- All that `LdapListener.initialize` does. -/
def ensureStream : Coro Unit := Provisioning.ensureStream LDAP_STREAM false [LDAP_SUBJECT]

def handleChanges (new old : Obj) : Coro Unit :=
  addMessage LDAP_STREAM LDAP_SUBJECT (.message ⟨.ldifProducer, "ldap", "ldap", ⟨old, new⟩⟩)

/-! ## `provisioning_listener/ldap_listener.py`, where a DN is only logged -/

def create (new : Obj) : Coro Unit := handleChanges new []

def modify (old new : Obj) : Coro Unit := handleChanges new old

def remove (old : Obj) : Coro Unit := handleChanges [] old

end LdapListener

/-! ## The directory -/

/-- An entry of the directory and the UUID it is known by. -/
structure LdapEntry where
  attributes : Obj
  uuid : String
  hasUuid : firstValue attributes "entryUUID" = .ok uuid

theorem LdapEntry.attributes_ne_nil (e : LdapEntry) : e.attributes ≠ [] := by
  intro h
  have huuid := e.hasUuid
  rw [h] at huuid
  cases huuid

/-- The entries under their UUIDs. -/
abbrev Directory : Type := String → Option LdapEntry

inductive Change where
  | create (new : LdapEntry)
  | modify (old new : LdapEntry)
  | remove (old : LdapEntry)

namespace Change

def uuid : Change → String
  | .create new => new.uuid
  | .modify old _ => old.uuid
  | .remove old => old.uuid

def old? : Change → Option LdapEntry
  | .create _ => none
  | .modify old _ => some old
  | .remove old => some old

def new? : Change → Option LdapEntry
  | .create new => some new
  | .modify _ new => some new
  | .remove _ => none

/-- The change can take place: what is created is not there, what is modified or removed is, and an
entry keeps its UUID. -/
def Valid (directory : Directory) : Change → Prop
  | .create new => directory new.uuid = none
  | .modify old new => directory old.uuid = some old ∧ new.uuid = old.uuid
  | .remove old => directory old.uuid = some old

def apply (directory : Directory) (change : Change) : Directory :=
  Function.update directory change.uuid change.new?

/-- The listener is told. -/
def listen : Change → Coro Unit
  | .create new => LdapListener.create new.attributes
  | .modify old new => LdapListener.modify old.attributes new.attributes
  | .remove old => LdapListener.remove old.attributes

/-- The message that it publishes. -/
def message (change : Change) : Message where
  publisherName := .ldifProducer
  realm := "ldap"
  topic := "ldap"
  body :=
    ⟨(change.old?.map LdapEntry.attributes).getD [], (change.new?.map LdapEntry.attributes).getD []⟩

theorem listen_eq (change : Change) :
    change.listen = addMessage LDAP_STREAM LDAP_SUBJECT (.message change.message) := by
  cases change <;> rfl

end Change

/-- The directory after one change after the other. -/
def Directory.after (directory : Directory) (changes : List Change) : Directory :=
  changes.foldl Change.apply directory

/-- Each change can take place when its turn comes. -/
def Directory.Allows (directory : Directory) (changes : List Change) : Prop :=
  ∀ k (change : Change), changes[k]? = some change → change.Valid (directory.after (changes.take k))

/-! ## What is to be seen of it -/

variable (env : Env)

/-- The UDM object of an entry, if there is one. -/
def shown (entry : LdapEntry) : Option Obj :=
  match ldapToUdm env entry.attributes with
  | .ok (some obj) => if obj.truthy then some obj else none
  | _ => none

/-- The objects of all entries. -/
def Directory.view (directory : Directory) (uuid : String) : Option Obj :=
  (directory uuid).bind (shown env)

/-- What the change means to the objects. -/
def Change.assignment (change : Change) : Assignment String Obj :=
  ⟨change.uuid, change.new?.bind (shown env)⟩

/-- What a consumer takes from an event: the new object, or that the old one is gone. -/
def Body.assignment (body : Body) : Option (Assignment String Obj) :=
  match (if body.new.truthy then body.new else body.old).get "uuid" with
  | some (.str uuid) => some ⟨uuid, if body.new.truthy then some body.new else none⟩
  | _ => none

theorem view_apply (directory : Directory) (change : Change) :
    (change.apply directory).view env = (change.assignment env).apply (directory.view env) := by
  funext uuid
  unfold Directory.view Change.apply Change.assignment Assignment.apply
  by_cases h : uuid = change.uuid
  · subst h
    rw [Function.update_self, Function.update_self]
  · rw [Function.update_of_ne h, Function.update_of_ne h]

end Provisioning
