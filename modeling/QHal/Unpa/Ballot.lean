/-
Module: QHal.Unpa.Ballot
Purpose: The abstract model of the uNPA framework: one vote for each live client,
  the calls under way, and what the aggregates are, read off the votes alone.
Trusted boundary: none
Main exports: Vote, Ballot, Ballot.step, Ballot.WellFormed, requestsOf,
  IsAggregate, lastRequest
-/
import Mathlib.Algebra.Group.Nat.Defs
import QHal.Lib.Aggregate
import QHal.Lib.Runs
import QHal.Unpa.Client

namespace QHal.Unpa

/-- What a live client counts for. -/
structure Vote where
  address : UInt32
  type : UInt8
  request : UInt32
deriving Repr, DecidableEq

/-- The call of a client, with the request that it will make. -/
inductive Call where
  | idle
  | issuing (request : UInt32) (destroying : Bool)
  | trying (request : UInt32)
  | unlinking
deriving Repr, DecidableEq

/-- The votes, the calls under way, and whether a request was ever processed. -/
structure Ballot where
  votes : List Vote
  call : UInt32 → Call
  processed : Bool

namespace Ballot

def vote (ballot : Ballot) (address : UInt32) : Option Vote :=
  ballot.votes.find? fun vote => vote.address == address

def setCall (ballot : Ballot) (address : UInt32) (call : Call) : Ballot :=
  { ballot with call := Function.update ballot.call address call }

/-- A request is processed: the client votes for it from now on. -/
def cast (ballot : Ballot) (address request : UInt32) : Ballot :=
  { ballot with
    votes := ballot.votes.map fun vote =>
      if vote.address = address then { vote with request := request } else vote
    processed := true }

def remove (ballot : Ballot) (address : UInt32) : Ballot :=
  { ballot with votes := ballot.votes.eraseP fun vote => vote.address == address }

/-- The entry of a call that waits for the lock. -/
def ask (ballot : Ballot) (address request : UInt32) (destroying : Bool) : Option Ballot :=
  if ballot.call address = .idle then
    (ballot.vote address).map fun vote =>
      if request ≠ vote.request then ballot.setCall address (.issuing request destroying)
      else ballot.setCall address (if destroying then .unlinking else .idle)
  else none

/-- The entry of a call that tries the lock. -/
def tryAsk (ballot : Ballot) (address request : UInt32) : Option Ballot :=
  if ballot.call address = .idle then
    (ballot.vote address).map fun vote =>
      if request ≠ vote.request then ballot.setCall address (.trying request) else ballot
  else none

/-- The part of a call under the lock. -/
def locked (ballot : Ballot) (address : UInt32) : Option Ballot :=
  match ballot.call address with
  | .issuing request destroying =>
      some ((ballot.cast address request).setCall address
        (if destroying then .unlinking else .idle))
  | .unlinking => some ((ballot.remove address).setCall address .idle)
  | .idle => none
  | .trying _ => none

/-- The part of a call behind the attempt to take the lock. -/
def tried (ballot : Ballot) (address : UInt32) (taken : Bool) : Option Ballot :=
  match ballot.call address with
  | .trying request =>
      some ((if taken then ballot.cast address request else ballot).setCall address .idle)
  | _ => none

/-- One step of a call, as the votes see it. -/
def step (definition : ResourceDefinition) (ballot : Ballot) : UnpaAction → Option Ballot
  | .createClient address clientType =>
      if (ballot.vote address).isSome then none
      else if (supportedTypes definition).toUInt32 &&& clientType = 0 ∨ address = 0 then
        some ballot
      else some { ballot with
        votes := { address := address, type := clientType.toUInt8, request := 0 } :: ballot.votes }
  | .issueRequest address request => ballot.ask address request false
  | .cancelRequest address => ballot.ask address 0 false
  | .tryIssueRequest address request => ballot.tryAsk address request
  | .tryCancelRequest address => ballot.tryAsk address 0
  | .destroyClient address => ballot.ask address 0 true
  | .lock address => if (ballot.vote address).isSome then ballot.locked address else none
  | .tryLock address taken =>
      if (ballot.vote address).isSome then ballot.tried address taken else none

/-- No votes and no calls. -/
def start : Ballot :=
  { votes := []
    call := fun _ => .idle
    processed := false }

/-- One vote for each address, no vote at address 0, calls of live clients only, and
no vote left in a client that waits to be unlinked. -/
structure WellFormed (ballot : Ballot) : Prop where
  distinct : (ballot.votes.map Vote.address).Nodup
  nonNull : ∀ vote ∈ ballot.votes, vote.address ≠ 0
  live : ∀ address, ballot.call address ≠ .idle → address ∈ ballot.votes.map Vote.address
  cancels : ∀ address request, ballot.call address = .issuing request true → request = 0
  cancelled : ∀ vote ∈ ballot.votes, ballot.call vote.address = .unlinking → vote.request = 0

end Ballot

/-! ## Aggregates of the votes -/

/-- The client type of an aggregate. -/
def AggIndex.clientType : AggIndex → UInt8
  | .required => clientRequired
  | .suppressible => clientSuppressible
  | .sleep => clientSleep

/-- The requests of the clients of one type. -/
def requestsOf (votes : List Vote) (type : UInt8) : List UInt32 :=
  (votes.filter fun vote => vote.type = type).map Vote.request

/-- The order in which unpa_min_update_fcn prefers requests: 0 is no request. -/
def minRank (request : UInt32) : Nat :=
  if request = 0 then 0 else 2 ^ 32 - request.toNat

/-- What an aggregate is for an update function. -/
def IsAggregate : UpdateFcn → List UInt32 → UInt32 → Prop
  | .min, requests, agg => Aggregate.IsBest minRank 0 requests agg
  | .max, requests, agg => Aggregate.IsBest UInt32.toNat 0 requests agg
  | .binary, requests, agg => agg.toNat = requests.countP (· ≠ 0)

/-- How an update function puts two aggregates together. -/
def combine : UpdateFcn → UInt32 → UInt32 → UInt32
  | .min, required, other => minNonZero required other
  | .max, required, other => maxOf required other
  | .binary, required, other => if 0 < maxOf required other then 1 else 0

/-! ## The requests of a run -/

/-- The request of a client's call under way, and its last processed request. -/
structure Past where
  asked : UInt32
  last : UInt32

/-- What one step adds to the past of a client. -/
def Past.after (address : UInt32) (past : Past) : UnpaAction → Past
  | .createClient created _ => if created = address then ⟨0, 0⟩ else past
  | .issueRequest caller request =>
      if caller = address then { past with asked := request } else past
  | .cancelRequest caller => if caller = address then { past with asked := 0 } else past
  | .tryIssueRequest caller request =>
      if caller = address then { past with asked := request } else past
  | .tryCancelRequest caller => if caller = address then { past with asked := 0 } else past
  | .destroyClient caller => if caller = address then { past with asked := 0 } else past
  | .lock caller => if caller = address then { past with last := past.asked } else past
  | .tryLock caller taken =>
      if caller = address ∧ taken = true then { past with last := past.asked } else past

/-- The request of a client that was processed last in a run, 0 if none was: a call
whose attempt to take the lock failed is not processed. -/
def lastRequest (address : UInt32) (actions : List UnpaAction) : UInt32 :=
  (actions.foldl (Past.after address) ⟨0, 0⟩).last

end QHal.Unpa
