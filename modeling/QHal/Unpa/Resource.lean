/-
Module: QHal.Unpa.Resource
Purpose: Resources of the uNPA framework (unpa_resource.h, unpa_resource.c and
  unpa_create_resource in unpa.c): the client list, the aggregates by client
  type, the three update functions and the request pipeline.
Trusted boundary: the driver function of a resource is a parameter of the
  pipeline; the client list is a list of client records under their addresses.
Main exports: UpdateFcn, Client, Resource, unpaMinUpdateFcn, unpaMaxUpdateFcn,
  unpaBinaryUpdateFcn, unpaUpdateResource, unpaCreateResource
-/
import Mathlib.Logic.Function.Basic

namespace QHal.Unpa

/-! ## Client types and request attributes -/

/-- UNPA_CLIENT_REQUIRED: the request applies to the active and the sleep set. -/
def clientRequired : UInt8 := 0x1
/-- UNPA_CLIENT_SUPPRESSIBLE: the request applies to the active set only. -/
def clientSuppressible : UInt8 := 0x2
/-- UNPA_CLIENT_SLEEP: the request applies to the sleep set only. -/
def clientSleep : UInt8 := 0x4
/-- UNPA_CLIENT_INITIALIZE: the framework's own client. -/
def clientInitialize : UInt8 := 0x0

/-- UNPA_UPDATE_CLIENT_TYPES: the types that the update function supports. -/
def updateClientTypes : UInt8 := 0x0

def requestDefault : UInt32 := 0x0
def requestAddClient : UInt32 := 0x1
def requestRemoveClient : UInt32 := 0x2
def requestDropVote : UInt32 := 0x4

def resourceDriverUnconditional : UInt32 := 0x1
def resourceClientChangeNotify : UInt32 := 0x2

/-! ## Data model -/

/-- The update functions that the framework provides. -/
inductive UpdateFcn where
  | min
  | max
  | binary
deriving Repr, DecidableEq

/-- Index into agg_state. -/
inductive AggIndex where
  | required
  | suppressible
  | sleep
deriving Repr, DecidableEq

/-- unpa_resource_definition, with what the request pipeline reads of it. -/
structure ResourceDefinition where
  updateFcn : UpdateFcn
  max : UInt32
  clientTypes : UInt8
  attributes : UInt32
deriving Repr, DecidableEq

/-- unpa_client, with what the framework reads of it. -/
structure Client where
  type : UInt8
  requestAttr : UInt32
  activeRequest : UInt32
  pendingRequest : UInt32
deriving Repr, DecidableEq

/-- unpa_resource.  The clients stand in the order of the linked list, the newest
first, each under its address. -/
structure Resource where
  definition : ResourceDefinition
  clients : List (UInt32 × Client)
  activeState : UInt32
  sleepState : UInt32
  aggState : AggIndex → UInt32
  activeMax : UInt32

/-- The state a driver reaches when it is asked for one, given the resource and the
client of the request. -/
abbrev DriverFcn := Resource → Client → UInt32 → UInt32

def unpaResourceHasAttribute (resource : Resource) (attr : UInt32) : Bool :=
  resource.definition.attributes &&& attr != 0

/-- The record of a client. -/
def Resource.client (resource : Resource) (address : UInt32) : Option Client :=
  (resource.clients.find? fun entry => entry.1 == address).map Prod.snd

/-- Write the record of a client. -/
def Resource.setClient (resource : Resource) (address : UInt32) (client : Client) : Resource :=
  { resource with
    clients := resource.clients.map fun entry =>
      if entry.1 = address then (address, client) else entry }

/-! ## Update functions -/

/-- unpa_get_agg_index; any other type is fatal there, and the update functions
leave the aggregates alone for it. -/
def unpaGetAggIndex (type : UInt8) : Option AggIndex :=
  if type = clientRequired then some .required
  else if type = clientSuppressible then some .suppressible
  else if type = clientSleep then some .sleep
  else none

/-- unpa_get_supported_client_types: all three update functions support all three types. -/
def unpaGetSupportedClientTypes : UpdateFcn → UInt8
  | .min | .max | .binary => clientRequired ||| clientSuppressible ||| clientSleep

/-- The walk over the client list for a new aggregate. -/
def walkClients (beats : UInt32 → UInt32 → Bool) (address : UInt32) (client : Client)
    (pending : UInt32) (clients : List (UInt32 × Client)) : UInt32 :=
  clients.foldl (fun pending entry =>
    if entry.1 ≠ address ∧ entry.2.type = client.type then
      if beats entry.2.activeRequest pending then entry.2.activeRequest else pending
    else pending) pending

/-- The new aggregate of the client's type, which unpa_min_update_fcn and
unpa_max_update_fcn find in the same way. -/
def pendingAggregate (beats : UInt32 → UInt32 → Bool) (resource : Resource) (address : UInt32)
    (client : Client) (index : AggIndex) : UInt32 :=
  if beats client.pendingRequest (resource.aggState index) then client.pendingRequest
  else if resource.aggState index = client.activeRequest then
    walkClients beats address client client.pendingRequest resource.clients
  else resource.aggState index

/-- Set the aggregate of the client's type. -/
def updateAggregate (resource : Resource) (client : Client) (value : AggIndex → UInt32) :
    Resource :=
  match unpaGetAggIndex client.type with
  | some index =>
      { resource with aggState := Function.update resource.aggState index (value index) }
  | none => resource

/-- request != 0 && (pending_min == 0 || request < pending_min) -/
def beatsMin (request pendingMin : UInt32) : Bool :=
  request != 0 && (pendingMin == 0 || decide (request < pendingMin))

/-- request > pending_max -/
def beatsMax (request pendingMax : UInt32) : Bool :=
  decide (pendingMax < request)

/-- The smaller of two aggregates, 0 standing for no request. -/
def minNonZero (required other : UInt32) : UInt32 :=
  if other = 0 then required
  else if required = 0 then other
  else if required < other then required else other

/-- The MAX macro. -/
def maxOf (first second : UInt32) : UInt32 :=
  if second < first then first else second

/-- unpa_min_update_fcn: the resource with its aggregate and sleep state, and the
active aggregate that is returned. -/
def unpaMinUpdateFcn (resource : Resource) (address : UInt32) (client : Client) :
    Resource × UInt32 :=
  let updated := updateAggregate resource client
    (pendingAggregate beatsMin resource address client)
  ({ updated with sleepState := minNonZero (updated.aggState .required) (updated.aggState .sleep) },
    minNonZero (updated.aggState .required) (updated.aggState .suppressible))

/-- unpa_max_update_fcn. -/
def unpaMaxUpdateFcn (resource : Resource) (address : UInt32) (client : Client) :
    Resource × UInt32 :=
  let updated := updateAggregate resource client
    (pendingAggregate beatsMax resource address client)
  ({ updated with sleepState := maxOf (updated.aggState .required) (updated.aggState .sleep) },
    maxOf (updated.aggState .required) (updated.aggState .suppressible))

/-- unpa_binary_update_fcn. -/
def unpaBinaryUpdateFcn (resource : Resource) (client : Client) : Resource × UInt32 :=
  let updated := updateAggregate resource client fun index =>
    resource.aggState index - (if client.activeRequest = 0 then 0 else 1) +
      (if client.pendingRequest = 0 then 0 else 1)
  ({ updated with
      sleepState :=
        if 0 < maxOf (updated.aggState .required) (updated.aggState .sleep) then 1 else 0 },
    if 0 < maxOf (updated.aggState .required) (updated.aggState .suppressible) then 1 else 0)

/-- definition->update_fcn -/
def updateFcn (resource : Resource) (address : UInt32) (client : Client) : Resource × UInt32 :=
  match resource.definition.updateFcn with
  | .min => unpaMinUpdateFcn resource address client
  | .max => unpaMaxUpdateFcn resource address client
  | .binary => unpaBinaryUpdateFcn resource client

/-! ## Request pipeline -/

/-- A state clipped to active_max. -/
def clip (activeMax state : UInt32) : UInt32 :=
  if activeMax < state then activeMax else state

/-- unpa_update_resource: process the pending request of a client.  The caller holds
the lock of the resource, and the function releases it. -/
def unpaUpdateResource (driver : DriverFcn) (resource : Resource) (address : UInt32)
    (client : Client) : Resource :=
  let oldSleepState := resource.sleepState
  let (updated, agg) := updateFcn resource address client
  let activeAgg := clip updated.activeMax agg
  let clipped := { updated with sleepState := clip updated.activeMax updated.sleepState }
  let driven :=
    if unpaResourceHasAttribute clipped resourceDriverUnconditional = true ∨
        activeAgg ≠ clipped.activeState ∨ oldSleepState ≠ clipped.sleepState then
      { clipped with activeState := driver clipped client activeAgg }
    else clipped
  driven.setClient address { client with activeRequest := client.pendingRequest }

/-- unpa_create_resource, for the new resource: the driver is called for the initial
state, with the framework's own client. -/
def unpaCreateResource (driver : DriverFcn) (definition : ResourceDefinition)
    (initialState : UInt32) : Resource :=
  let resource : Resource :=
    { definition := definition
      clients := []
      activeState := 0
      sleepState := 0
      aggState := fun _ => 0
      activeMax := definition.max }
  let client : Client :=
    { type := clientInitialize
      requestAttr := requestDefault
      activeRequest := 0
      pendingRequest := initialState }
  { resource with activeState := driver resource client initialState }

end QHal.Unpa
