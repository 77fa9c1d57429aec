/-
Module: QHal.Unpa.Client
Purpose: The client calls of the uNPA framework (unpa_client.c), cut where they
  take the lock of the resource, so that calls of different clients interleave.
Trusted boundary: the mutex of a resource excludes; the allocator returns an
  address that no live client has, or nothing; one call at a time for each client.
Main exports: Phase, UnpaAction, UnpaSystem, UnpaSystem.step, UnpaSystem.start
-/
import QHal.Unpa.Resource

namespace QHal.Unpa

/-- Where the call of a client stands. -/
inductive Phase where
  /-- No call, or the call has returned. -/
  | idle
  /-- unpa_issue_request waits for the lock; a destroy goes on behind it. -/
  | issuing (request : UInt32) (destroying : Bool)
  /-- unpa_try_issue_request is about to try the lock. -/
  | trying
  /-- unpa_destroy_client waits for the lock to unlink the client. -/
  | unlinking
deriving Repr, DecidableEq

/-- A resource, and the calls of its clients that are under way. -/
structure UnpaSystem where
  resource : Resource
  phase : UInt32 → Phase

/-- The steps of the calls: the entry of each call, and its part under the lock. -/
inductive UnpaAction where
  /-- The allocator's address, 0 when it has none. -/
  | createClient (address : UInt32) (clientType : UInt32)
  | issueRequest (address request : UInt32)
  | cancelRequest (address : UInt32)
  | tryIssueRequest (address request : UInt32)
  | tryCancelRequest (address : UInt32)
  | destroyClient (address : UInt32)
  /-- The lock that the call of the client waits for is taken. -/
  | lock (address : UInt32)
  /-- The result of qurt_mutex_try_lock. -/
  | tryLock (address : UInt32) (taken : Bool)
deriving Repr, DecidableEq

/-- The client of a step. -/
def UnpaAction.client : UnpaAction → UInt32
  | .createClient address _ => address
  | .issueRequest address _ => address
  | .cancelRequest address => address
  | .tryIssueRequest address _ => address
  | .tryCancelRequest address => address
  | .destroyClient address => address
  | .lock address => address
  | .tryLock address _ => address

/-- The client types that a resource accepts. -/
def supportedTypes (definition : ResourceDefinition) : UInt8 :=
  if definition.clientTypes = updateClientTypes then
    unpaGetSupportedClientTypes definition.updateFcn
  else definition.clientTypes

/-- unpa_create_client: no client without memory or for a type that the resource does
not support; else the new client is linked in under the lock. -/
def unpaCreateClient (resource : Resource) (address clientType : UInt32) : Resource :=
  if (supportedTypes resource.definition).toUInt32 &&& clientType = 0 ∨ address = 0 then resource
  else
    let requestAttr :=
      if unpaResourceHasAttribute resource resourceClientChangeNotify then requestAddClient
      else requestDefault
    { resource with
      clients := (address,
        { type := clientType.toUInt8
          requestAttr := requestAttr
          activeRequest := 0
          pendingRequest := 0 }) :: resource.clients }

/-- The unlinking loop of unpa_destroy_client. -/
def unlinkClient (resource : Resource) (address : UInt32) : Resource :=
  { resource with clients := resource.clients.eraseP fun entry => entry.1 == address }

namespace UnpaSystem

variable (driver : DriverFcn)

/-- The call of a client moves on. -/
def setPhase (system : UnpaSystem) (address : UInt32) (phase : Phase) : UnpaSystem :=
  { system with phase := Function.update system.phase address phase }

/-- unpa_issue_request up to the lock: a request that is active already is redundant. -/
def issueEntry (system : UnpaSystem) (address : UInt32) (client : Client) (request : UInt32)
    (destroying : Bool) : UnpaSystem :=
  if request ≠ client.activeRequest then
    { system with resource := system.resource.setClient address client }.setPhase address
      (.issuing request destroying)
  else
    { system with
      resource := system.resource.setClient address
        { client with requestAttr := requestDefault } }.setPhase address
      (if destroying then .unlinking else .idle)

/-- unpa_try_issue_request up to the attempt to take the lock: the pending request
is written before. -/
def tryEntry (system : UnpaSystem) (address : UInt32) (client : Client) (request : UInt32) :
    UnpaSystem :=
  if request ≠ client.activeRequest then
    { system with
      resource := system.resource.setClient address
        { client with pendingRequest := request } }.setPhase address .trying
  else
    { system with
      resource := system.resource.setClient address
        { client with requestAttr := requestDefault } }

/-- The attribute that tells a cancel from a request for 0. -/
def dropVote (client : Client) : Client :=
  { client with requestAttr := client.requestAttr ||| requestDropVote }

/-- unpa_update_resource under the lock, and the last statement of the calls. -/
def process (system : UnpaSystem) (address : UInt32) (client : Client) : UnpaSystem :=
  { system with
    resource := (unpaUpdateResource driver system.resource address client).setClient address
      { client with
        activeRequest := client.pendingRequest
        requestAttr := requestDefault } }

/-- The part of a call under the lock that it waited for. -/
def lockedPart (system : UnpaSystem) (address : UInt32) (client : Client) : Option UnpaSystem :=
  match system.phase address with
  | .issuing request destroying =>
      let pending := { client with pendingRequest := request }
      some (({ system with resource := system.resource.setClient address pending }.process driver
        address pending).setPhase address (if destroying then .unlinking else .idle))
  | .unlinking =>
      some ({ system with resource := unlinkClient system.resource address }.setPhase address .idle)
  | .idle => none
  | .trying => none

/-- The entry of a call of a client that has no other call under way. -/
def entry (system : UnpaSystem) (address : UInt32)
    (call : Client → UnpaSystem) : Option UnpaSystem :=
  if system.phase address = .idle then (system.resource.client address).map call else none

/-- One step of a call. -/
def step (system : UnpaSystem) : UnpaAction → Option UnpaSystem
  | .createClient address clientType =>
      if (system.resource.client address).isSome then none
      else some { system with resource := unpaCreateClient system.resource address clientType }
  | .issueRequest address request =>
      system.entry address fun client => system.issueEntry address client request false
  | .cancelRequest address =>
      system.entry address fun client => system.issueEntry address (dropVote client) 0 false
  | .tryIssueRequest address request =>
      system.entry address fun client => system.tryEntry address client request
  | .tryCancelRequest address =>
      system.entry address fun client => system.tryEntry address (dropVote client) 0
  | .destroyClient address =>
      system.entry address fun client => system.issueEntry address (dropVote client) 0 true
  | .lock address => (system.resource.client address).bind (system.lockedPart driver address)
  | .tryLock address taken =>
      if system.phase address = .trying then
        (system.resource.client address).map fun client =>
          (if taken then system.process driver address client
          else { system with
            resource := system.resource.setClient address
              { client with requestAttr := requestDefault } }).setPhase address .idle
      else none

/-- A new resource, and no call under way. -/
def start (definition : ResourceDefinition) (initialState : UInt32) : UnpaSystem :=
  { resource := unpaCreateResource driver definition initialState
    phase := fun _ => .idle }

end UnpaSystem

end QHal.Unpa
