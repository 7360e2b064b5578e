import Provisioning.Lib.Pool
import Provisioning.Lib.Revision
import Provisioning.Model.Data

/-!
# The key-value adapter with revisions

`NatsKVAdapter.get_value_with_revision` and `put_value` of `server/adapters/nats_adapter.py`, with
all they are given: any value, and a revision or none. No service passes a revision, so elsewhere
the calls of the services are modelled without; this is the adapter by itself, as its interface
promises it to whoever will.

A bucket holds texts. `update` is the one call of NATS that looks at the revision.
-/

namespace Provisioning

open Await Store

/-- What can be given to `put_value`. -/
inductive Storable where
  | str (s : String)
  | dict (d : Obj)
  | list (xs : List Value)

/-- Python's truth value. -/
def Storable.truthy : Storable → Bool
  | .str s => s != ""
  | .dict d => d.truthy
  | .list xs => !xs.isEmpty

inductive KvOp where
  | get (b : Bucket) (key : String)
  | put (b : Bucket) (key value : String)
  | update (b : Bucket) (key value : String) (last : Nat)
  | delete (b : Bucket) (key : String)
deriving DecidableEq

abbrev KvOp.Res : KvOp → Type
  | .get .. => Entry String
  | _ => Unit

inductive KvError where
  | keyNotFound
  /-- `KeyWrongLastSequenceError`. -/
  | wrongLastSequence
  | timeout
  | connection
deriving DecidableEq, Repr

inductive KvExc where
  | call (e : KvError)
  | updateConflict
deriving DecidableEq, Repr

/-- How a call gets lost. -/
inductive KvOutage where
  | timeout
  | connection

def KvOutage.error : KvOutage → KvError
  | .timeout => .timeout
  | .connection => .connection

abbrev KvCoro (α : Type) : Type := Prog KvOp KvOp.Res KvError KvExc α

/-- `await op`. -/
abbrev kvRequest (op : KvOp) : KvCoro op.Res := Prog.call .call op

/-- The texts of all buckets. -/
abbrev KvStore : Type := Bucket → Revisioned String

/-- The revision NATS has for a key, zero if there is none. -/
def KvStore.revision (s : KvStore) (b : Bucket) (key : String) : Nat := (s b).revision key

def KvStore.set (s : KvStore) (b : Bucket) (kv : Revisioned String) : KvStore :=
  Function.update s b kv

def kvAnswer (op : KvOp) (s : KvStore) : Except KvError op.Res × KvStore :=
  match op with
  | .get b key =>
    match (s b).get? key with
    | some e => (.ok e, s)
    | none => (.error .keyNotFound, s)
  | .put b key value => (.ok (), s.set b ((s b).put key value))
  | .update b key value last =>
    if s.revision b key = last then (.ok (), s.set b ((s b).put key value))
    else (.error .wrongLastSequence, s)
  | .delete b key => (.ok (), s.set b ((s b).delete key))

def kvServe : Server KvOp KvOp.Res KvError KvOutage KvStore := ⟨fun _ => kvAnswer, KvOutage.error⟩

namespace NatsKVAdapter

variable (dumps : Storable → String)

def deleteKvPair (key : String) (b : Bucket) : KvCoro Unit := kvRequest (.delete b key)

/-- Retrieve value and latest version (revision) at `key` in `bucket`. -/
def getValueWithRevision (key : String) (b : Bucket) : KvCoro (Option (String × Nat)) :=
  tryCatch (do
    let result ← kvRequest (.get b key)
    return some (result.value, result.revision)) fun
    | .call .keyNotFound => return none
    | e => throw e

/-- `json.dumps` of what is not a string. -/
def text : Storable → String
  | .str s => s
  | value => dumps value

/-- If `revision` is `None` overwrite value in DB without a further check. If `revision` is not
`None` and the revision in the DB is different, raise `UpdateConflict`. -/
def putValue (key : String) (value : Storable) (b : Bucket) (revision : Option Nat) :
    KvCoro Unit := do
  if !value.truthy then
    -- Avoid creating a pair with an empty value.
    deleteKvPair key b
  else
    match revision with
    | some (last + 1) =>
      tryCatch (kvRequest (.update b key (text dumps value) (last + 1))) fun
        | .call .wrongLastSequence => throw .updateConflict
        | e => throw e
    -- `if revision:` is false for `None` and for 0.
    | _ => kvRequest (.put b key (text dumps value))

end NatsKVAdapter

/-- Someone who changes the value of a key: it reads the value and its revision, and puts what it
makes of it under the revision it got, which is 0 for a key that does not exist. -/
structure KvWriter where
  bucket : Bucket
  key : String
  change : Option String → Storable

def KvWriter.program (dumps : Storable → String) (writer : KvWriter) : KvCoro Unit := do
  let found ← NatsKVAdapter.getValueWithRevision writer.key writer.bucket
  NatsKVAdapter.putValue dumps writer.key (writer.change (found.map (·.1))) writer.bucket
    (some ((found.map (·.2)).getD 0))

end Provisioning
