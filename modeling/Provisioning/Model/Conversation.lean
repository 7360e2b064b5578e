import Provisioning.Model.Consumer

/-!
# A client, the network and the route

What a coroutine of the client says to the API, told from the network: for every request that is
sent there is one thing that becomes of it. The request is lost, or it is handled and the response
is lost, or the response is received. The client cannot tell the first two apart.

The handler is the coroutine of the route; it runs to its end, and what others do to the services
happens before it.
-/

namespace Provisioning

open Await

/-- What becomes of a request, and what the client's `await` raises if no response comes. -/
inductive Delivery where
  | requestLost (e : ClientError)
  | responseLost (e : ClientError)
  | received
deriving DecidableEq, Repr

/-- One request, after what anyone else has had served meanwhile. -/
structure Transmission where
  meanwhile : List (Nat × Op)
  delivery : Delivery

/-- An attempt, as an onlooker sees it who has the stream before him. -/
structure Exchange where
  /-- The response reached the client. -/
  arrived : Bool
  /-- By then the message was not in the stream. -/
  deleted : Bool
deriving DecidableEq, Repr

structure Conversation (α : Type) where
  outcome : Option (Except ClientError α)
  world : World
  attempts : List Exchange

/-- There is one more attempt in front. -/
def Conversation.after {α : Type} (c : Conversation α) (x : Exchange) : Conversation α :=
  { c with attempts := x :: c.attempts }

/-- No message of that number is in the subscription's stream. -/
def World.lacks (w : World) (name : String) (seqNum : Nat) : Bool :=
  match w.streams (streamKey name) with
  | none => true
  | some s => !s.stored seqNum

variable (env : Env)

/-- What others have had served. -/
def servedMeanwhile (calls : List (Nat × Op)) (w : World) : World :=
  calls.foldl (fun w c => (answer env c.1 c.2 w).2) w

/-- The request is authenticated and handled. A session with `raise_for_status` raises on every
error status. -/
def handleStatus (name : String) (seqNum : Nat) (status : MessageProcessingStatus) (w : World) :
    Except ClientError Unit × World :=
  match (updateMessageStatus name seqNum status).finish (serve env) 0 w with
  | (.ok code, w) => (if code < 400 then .ok () else .error .client, w)
  | (.error _, w) => (.error .client, w)

/-- What the client hears of its request, and what it leaves. -/
def Transmission.carry (x : Transmission) (name : String) (seqNum : Nat)
    (status : MessageProcessingStatus) (w : World) : Except ClientError Unit × World :=
  let w := servedMeanwhile env x.meanwhile w
  match x.delivery with
  | .requestLost e => (.error e, w)
  | .responseLost e => (.error e, (handleStatus env name seqNum status w).2)
  | .received => handleStatus env name seqNum status w

/-- Run the client's coroutine to its end; `net i` is what becomes of its `i`th request. It is only
run here while it sets the status of a message. -/
def converse {α : Type} : ClientCoro α → (Nat → Transmission) → World → Conversation α
  | .pure a, _, w => ⟨some (.ok a), w, []⟩
  | .throw e, _, w => ⟨some (.error e), w, []⟩
  | .await (.setMessageStatus name seqNum status) k, net, w =>
    (converse (k ((net 0).carry env name seqNum status w).1) (fun i => net (i + 1))
      ((net 0).carry env name seqNum status w).2).after
        ⟨(net 0).delivery = .received,
          ((net 0).carry env name seqNum status w).2.lacks name seqNum⟩
  | .await (.sleep _) k, net, w => converse (k (.ok ())) net w
  | .await (.getSubscriptionMessage _) _, _, w => ⟨none, w, []⟩
  | .await (.callback _ _) _, _, w => ⟨none, w, []⟩

end Provisioning
