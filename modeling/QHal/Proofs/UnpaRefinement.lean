/-
Module: QHal.Proofs.UnpaRefinement
Purpose: The uNPA framework runs in lockstep with the ballot: its client list holds
  the votes, its aggregates are the aggregates of the votes, and its states are
  put together from them.
Trusted boundary: none; what is said about the states is for a driver that returns
  the state that it is asked for.
Main exports: Refines, Refines.step, refines_exec
-/
import QHal.Proofs.UnpaAggregates
import QHal.Proofs.UnpaBallot

namespace QHal.Unpa

/-- The driver reaches every state that it is asked for. -/
def Obeys (driver : DriverFcn) : Prop :=
  ∀ resource client state, driver resource client state = state

/-- The call that a phase stands for; an attempt has its request in the client record. -/
def Phase.call (pending : UInt32) : Phase → Call
  | .idle => .idle
  | .issuing request destroying => .issuing request destroying
  | .trying => .trying pending
  | .unlinking => .unlinking

/-- The pending request of a client. -/
def Resource.pending (resource : Resource) (address : UInt32) : UInt32 :=
  ((resource.client address).map Client.pendingRequest).getD 0

/-- The states of a resource, put together from its aggregates. -/
structure StatesOf (definition : ResourceDefinition) (initialState : UInt32) (processed : Bool)
    (resource : Resource) : Prop where
  activeMax : resource.activeMax = definition.max
  sleep : resource.sleepState = clip definition.max
    (combine definition.updateFcn (resource.aggState .required) (resource.aggState .sleep))
  active : resource.activeState =
    if processed then clip definition.max
      (combine definition.updateFcn (resource.aggState .required) (resource.aggState .suppressible))
    else initialState

/-- A resource and its calls against the ballot; its states are known for a driver that
reaches what it is asked for. -/
structure Refines (driver : DriverFcn) (definition : ResourceDefinition) (initialState : UInt32)
    (system : UnpaSystem) (ballot : Ballot) : Prop where
  wellFormed : ballot.WellFormed
  votes : system.resource.clients.map Vote.of = ballot.votes
  call : ∀ address,
    ballot.call address = (system.phase address).call (system.resource.pending address)
  defined : system.resource.definition = definition
  aggregates : ∀ index, IsAggregate definition.updateFcn
    (requestsOf ballot.votes index.clientType) (system.resource.aggState index)
  states : Obeys driver → StatesOf definition initialState ballot.processed system.resource

variable {definition : ResourceDefinition} {initialState : UInt32} {system : UnpaSystem}
  {ballot : Ballot} {driver : DriverFcn} {address : UInt32} {client written : Client}
  {resource : Resource}

/-! ## The client records -/

theorem client_vote (votes : resource.clients.map Vote.of = ballot.votes) (address : UInt32) :
    ballot.vote address =
      (resource.client address).map fun client => Vote.of (address, client) := by
  have owner : ∀ entry ∈ resource.clients.find? (fun entry => entry.1 == address),
      entry.1 = address := fun entry found => by simpa using List.find?_some found
  rw [Ballot.vote, ← votes, List.find?_map, Resource.client, Option.map_map]
  apply Option.map_congr
  intro entry found
  rw [← owner entry found]
  rfl

theorem client_setClient_other {other : UInt32} (different : other ≠ address) :
    (resource.setClient address written).client other = resource.client other := by
  have same : ((fun entry : UInt32 × Client => entry.1 == other) ∘ fun entry =>
      if entry.1 = address then (address, written) else entry) = fun entry => entry.1 == other := by
    funext entry
    simp only [Function.comp_apply]
    split
    case isTrue own => rw [own]
    case isFalse => rfl
  simp only [Resource.client, Resource.setClient, List.find?_map, same, Option.map_map]
  apply Option.map_congr
  intro entry found
  have owner : entry.1 = other := by simpa using List.find?_some found
  simp [owner, different]

theorem client_setClient (found : resource.client address = some client) :
    (resource.setClient address written).client address = some written := by
  have same : ((fun entry : UInt32 × Client => entry.1 == address) ∘ fun entry =>
      if entry.1 = address then (address, written) else entry) =
        fun entry => entry.1 == address := by
    funext entry
    simp only [Function.comp_apply]
    split
    case isTrue own => rw [own]
    case isFalse => rfl
  obtain ⟨entry, search, -⟩ := Option.map_eq_some_iff.mp found
  have owner : entry.1 = address := by simpa using List.find?_some search
  rw [Resource.client, Resource.setClient, List.find?_map, same, search]
  simp [owner]

theorem pending_setClient_other {other : UInt32} (different : other ≠ address) :
    (resource.setClient address written).pending other = resource.pending other := by
  rw [Resource.pending, client_setClient_other different, Resource.pending]

theorem pending_setClient (found : resource.client address = some client) :
    (resource.setClient address written).pending address = written.pendingRequest := by
  rw [Resource.pending, client_setClient found]
  rfl

theorem setClient_setClient {again : Client} :
    (resource.setClient address written).setClient address again =
      resource.setClient address again := by
  simp only [Resource.setClient, List.map_map]
  congr 1
  apply List.map_congr_left
  intro entry _
  simp only [Function.comp_apply]
  split
  · simp
  case isFalse => rfl

theorem UnpaSystem.setPhase_self {phase : Phase} (same : system.phase address = phase) :
    system.setPhase address phase = system := by
  rw [UnpaSystem.setPhase, ← same, Function.update_eq_self]

/-! ## One processed request -/

theorem updateAggregate_clients (value : AggIndex → UInt32) :
    (updateAggregate resource client value).clients = resource.clients := by
  unfold updateAggregate
  split <;> rfl

/-- The aggregates after an update: the one of the client's type is set. -/
theorem updateAggregate_aggState (value : AggIndex → UInt32) (index : AggIndex) :
    (updateAggregate resource client value).aggState index =
      if client.type = index.clientType then value index else resource.aggState index := by
  unfold updateAggregate
  split
  case h_1 own found =>
    by_cases same : index = own
    · subst same
      rw [if_pos (unpaGetAggIndex_eq_some.mp found)]
      exact Function.update_self _ _ _
    · have differs : client.type ≠ index.clientType := by
        intro type
        rw [unpaGetAggIndex_eq_some.mpr type] at found
        exact same (Option.some.inj found)
      rw [if_neg differs]
      exact Function.update_of_ne same _ _
  case h_2 none =>
    have differs : client.type ≠ index.clientType := by
      intro type
      rw [unpaGetAggIndex_eq_some.mpr type] at none
      cases none
    rw [if_neg differs]

/-- What unpa_update_resource leaves: the driver is called unless the active state is
already the one to ask for. -/
theorem unpaUpdateResource_spec (driver : DriverFcn) (initialState : UInt32)
    (defined : resource.definition = definition) (address : UInt32) (client : Client) :
    ∃ driven, unpaUpdateResource driver resource address client =
        driven.setClient address { client with activeRequest := client.pendingRequest } ∧
      driven.clients = resource.clients ∧
      driven.definition = definition ∧
      driven.aggState =
        (updateAggregate resource client (newAggregate resource address client)).aggState ∧
      (Obeys driver → resource.activeMax = definition.max →
        StatesOf definition initialState true driven) := by
  have fields : ∀ value, (updateAggregate resource client value).definition = definition ∧
      (updateAggregate resource client value).activeMax = resource.activeMax := by
    intro value
    unfold updateAggregate
    split <;> exact ⟨defined, rfl⟩
  obtain ⟨same, activeMax⟩ := fields (newAggregate resource address client)
  unfold unpaUpdateResource
  rw [updateFcn_eq]
  simp only [activeMax, defined]
  split
  case isTrue =>
    refine ⟨_, rfl, updateAggregate_clients _, same, rfl, fun obeys limit => ⟨limit, ?_, ?_⟩⟩
    · rw [limit]
    · rw [limit]
      exact (obeys _ _ _).trans (if_pos rfl).symm
  case isFalse idle =>
    have asked := not_not.mp fun differs => idle (Or.inr (Or.inl differs))
    refine ⟨_, rfl, updateAggregate_clients _, same, rfl, fun _ limit => ⟨limit, ?_, ?_⟩⟩
    · rw [limit]
    · rw [limit] at asked
      exact asked.symm.trans (if_pos rfl).symm

/-- The votes after a request is cast, around the client that casts it. -/
theorem votes_cast (votes : resource.clients.map Vote.of = ballot.votes)
    {before after : List (UInt32 × Client)} {request : UInt32}
    (split : resource.clients = before ++ (address, client) :: after)
    (apart : ∀ entry ∈ before ++ after, entry.1 ≠ address) :
    (ballot.cast address request).votes =
      before.map Vote.of ++ { Vote.of (address, client) with request := request } ::
        after.map Vote.of := by
  have part : ∀ entries : List (UInt32 × Client), (∀ entry ∈ entries, entry.1 ≠ address) →
      (entries.map Vote.of).map (fun vote => if vote.address = address then
        { vote with request := request } else vote) = entries.map Vote.of := by
    intro entries others
    rw [List.map_map]
    exact List.map_congr_left fun entry member => if_neg (others entry member)
  simp only [Ballot.cast]
  rw [← votes, split, List.map_append, List.map_append, List.map_cons, List.map_cons,
    part before fun entry member => apart entry (List.mem_append_left _ member),
    part after fun entry member => apart entry (List.mem_append_right _ member),
    if_pos (show (Vote.of (address, client)).address = address from rfl)]

namespace Refines

variable (refines : Refines driver definition initialState system ballot)
include refines

theorem distinct : (system.resource.clients.map Prod.fst).Nodup := by
  have nodup := refines.wellFormed.distinct
  rw [← refines.votes, List.map_map] at nodup
  exact nodup

/-- Fewer clients than addresses. -/
theorem room : system.resource.clients.length < 2 ^ 32 := by
  have nodup : (system.resource.clients.map fun entry => entry.1.toNat).Nodup := by
    have mapped := refines.distinct.map toNat_injective
    rw [List.map_map] at mapped
    exact mapped
  have inside : (system.resource.clients.map fun entry => entry.1.toNat).toFinset ⊆
      Finset.Ico 1 (2 ^ 32) := by
    intro place member
    obtain ⟨entry, listed, rfl⟩ := List.mem_map.mp (List.mem_toFinset.mp member)
    have vote : Vote.of entry ∈ ballot.votes := refines.votes ▸ List.mem_map_of_mem listed
    have positive := toNat_pos.mpr (refines.wellFormed.nonNull _ vote)
    exact Finset.mem_Ico.mpr ⟨positive, entry.1.toNat_lt⟩
  have bound := Finset.card_le_card inside
  rw [List.toFinset_card_of_nodup nodup, List.length_map, Nat.card_Ico] at bound
  omega

/-- The record of a client that is written without a new request. -/
theorem votes_setClient (found : system.resource.client address = some client)
    (type : written.type = client.type) (active : written.activeRequest = client.activeRequest) :
    (system.resource.setClient address written).clients.map Vote.of = ballot.votes := by
  obtain ⟨before, after, split, apart⟩ := exists_split refines.distinct found
  rw [setClient_split split apart, ← refines.votes, split]
  simp [Vote.of, type, active]

/-- A step that only writes the record of its client and moves its call. -/
theorem quiet (found : system.resource.client address = some client) (written : Client)
    (type : written.type = client.type) (active : written.activeRequest = client.activeRequest)
    (phase : Phase)
    (wellFormed : (ballot.setCall address (phase.call written.pendingRequest)).WellFormed) :
    Refines driver definition initialState
      ({ system with resource := system.resource.setClient address written }.setPhase address phase)
      (ballot.setCall address (phase.call written.pendingRequest)) where
  wellFormed := wellFormed
  votes := refines.votes_setClient found type active
  call := by
    intro other
    by_cases own : other = address
    · subst own
      simp [Ballot.setCall, UnpaSystem.setPhase, pending_setClient found]
    · simp [Ballot.setCall, UnpaSystem.setPhase, Function.update_of_ne own,
        pending_setClient_other own, refines.call other]
  defined := refines.defined
  aggregates := refines.aggregates
  states := fun obeys =>
    ⟨(refines.states obeys).activeMax, (refines.states obeys).sleep, (refines.states obeys).active⟩

/-- The aggregates after one processed request are those of the votes after it. -/
theorem aggregates_cast (found : system.resource.client address = some client)
    (index : AggIndex) :
    IsAggregate definition.updateFcn
      (requestsOf (ballot.cast address client.pendingRequest).votes index.clientType)
      ((updateAggregate system.resource client
        (newAggregate system.resource address client)).aggState index) := by
  obtain ⟨before, after, split, apart⟩ := exists_split refines.distinct found
  have short : (before ++ after).length + 1 < 2 ^ 32 := by
    have room := refines.room
    rw [split] at room
    simp only [List.length_append, List.length_cons] at room ⊢
    omega
  have held := refines.aggregates index
  rw [← refines.votes, split, List.map_append, List.map_cons] at held
  have old := held.perm (requestsOf_middle _ _ _ _)
  rw [votes_cast refines.votes split apart, updateAggregate_aggState]
  refine IsAggregate.perm (requestsOf_middle _ _ _ _).symm ?_
  rw [← List.map_append] at old ⊢
  by_cases type : client.type = index.clientType
  · rw [if_pos type]
    rw [← type] at old ⊢
    have own := requestsOf_cons_own (Vote.of (address, client)) ((before ++ after).map Vote.of)
    have new := requestsOf_cons_own { Vote.of (address, client) with
      request := client.pendingRequest } ((before ++ after).map Vote.of)
    rw [show client.type = (Vote.of (address, client)).type from rfl, own] at old
    rw [show client.type = ({ Vote.of (address, client) with
      request := client.pendingRequest } : Vote).type from rfl, new]
    rw [← refines.defined] at old ⊢
    exact newAggregate_spec split apart short old
  · rw [if_neg type]
    rw [requestsOf_cons_other (show (Vote.of (address, client)).type ≠ _ from type)] at old
    rw [requestsOf_cons_other (by exact type)]
    exact old

/-- A processed request. -/
theorem processed (found : system.resource.client address = some client)
    (phase : Phase)
    (wellFormed : ((ballot.cast address client.pendingRequest).setCall address
      (phase.call client.pendingRequest)).WellFormed) :
    Refines driver definition initialState
      ((system.process driver address client).setPhase address phase)
      ((ballot.cast address client.pendingRequest).setCall address
        (phase.call client.pendingRequest)) := by
  obtain ⟨driven, result, clients, defined, aggState, states⟩ :=
    unpaUpdateResource_spec driver initialState refines.defined address client
  have record : driven.client address = some client := by
    rw [Resource.client, clients]
    exact found
  have resource : (system.process driver address client).resource =
      driven.setClient address { client with
        activeRequest := client.pendingRequest
        requestAttr := requestDefault } := by
    simp only [UnpaSystem.process]
    rw [result, setClient_setClient]
  have others : ∀ other, driven.pending other = system.resource.pending other := by
    intro other
    rw [Resource.pending, Resource.client, clients]
    rfl
  refine ⟨wellFormed, ?_, ?_, ?_, ?_, ?_⟩
  · show (system.process driver address client).resource.clients.map Vote.of = _
    obtain ⟨before, after, split, apart⟩ := exists_split refines.distinct found
    rw [resource, setClient_split (clients.trans split) apart, List.map_append, List.map_cons]
    exact (votes_cast refines.votes split apart).symm
  · intro other
    show _ = ((Function.update system.phase address phase) other).call
      ((system.process driver address client).resource.pending other)
    rw [resource]
    by_cases own : other = address
    · subst own
      simp [Ballot.setCall, pending_setClient record]
    · simp [Ballot.setCall, Function.update_of_ne own, pending_setClient_other own, others other,
        refines.call other]
  · show (system.process driver address client).resource.definition = definition
    rw [resource]
    exact defined
  · intro index
    show IsAggregate _ _ ((system.process driver address client).resource.aggState index)
    rw [resource]
    have kept : (driven.setClient address { client with
        activeRequest := client.pendingRequest
        requestAttr := requestDefault }).aggState = driven.aggState := rfl
    rw [kept, aggState]
    exact refines.aggregates_cast found index
  · intro obeys
    have driven := states obeys (refines.states obeys).activeMax
    show StatesOf _ _ true (system.process driver address client).resource
    rw [resource]
    exact ⟨driven.activeMax, driven.sleep, driven.active⟩

theorem idle_iff : ballot.call address = .idle ↔ system.phase address = .idle := by
  rw [refines.call address]
  cases system.phase address <;> simp [Phase.call]

/-- The entry of a call is enabled on both sides or on none. -/
theorem entry {call : Client → UnpaSystem} {act : Vote → Ballot}
    (related : ∀ client, system.resource.client address = some client →
      ballot.call address = .idle → ballot.vote address = some (Vote.of (address, client)) →
      Refines driver definition initialState (call client) (act (Vote.of (address, client)))) :
    Option.Rel (Refines driver definition initialState) (system.entry address call)
      (if ballot.call address = .idle then (ballot.vote address).map act else none) := by
  have votes := client_vote refines.votes address
  unfold UnpaSystem.entry
  by_cases idle : ballot.call address = .idle
  · rw [if_pos idle, if_pos (refines.idle_iff.mp idle)]
    cases found : system.resource.client address with
    | none =>
        rw [votes, found]
        exact Option.Rel.none
    | some client =>
        rw [found] at votes
        rw [votes]
        exact Option.Rel.some (related client found idle votes)
  · rw [if_neg idle, if_neg (fun phase => idle (refines.idle_iff.mpr phase))]
    exact Option.Rel.none

/-- The entry of a call that waits for the lock. -/
theorem issueEntry {request : UInt32} {destroying : Bool} (zero : destroying = true → request = 0)
    {adjust : Client → Client}
    (keeps : ∀ client, (adjust client).type = client.type ∧
      (adjust client).activeRequest = client.activeRequest) :
    Option.Rel (Refines driver definition initialState)
      (system.entry address fun client => system.issueEntry address (adjust client) request
        destroying)
      (ballot.ask address request destroying) := by
  refine refines.entry fun client found idle vote => ?_
  obtain ⟨type, active⟩ := keeps client
  have wellFormed := refines.wellFormed.ask zero
    (show ballot.ask address request destroying = some _ by rw [Ballot.ask, if_pos idle, vote]; rfl)
  beta_reduce at wellFormed ⊢
  unfold UnpaSystem.issueEntry
  rw [active]
  by_cases differs : request ≠ client.activeRequest
  · have asks : request ≠ (Vote.of (address, client)).request := differs
    rw [if_pos asks] at wellFormed ⊢
    rw [if_pos differs]
    exact refines.quiet found _ type active (.issuing request destroying) wellFormed
  · have redundant : ¬ request ≠ (Vote.of (address, client)).request := differs
    rw [if_neg redundant] at wellFormed ⊢
    rw [if_neg differs]
    have call : ∀ pending, (if destroying then .unlinking else .idle : Phase).call pending =
        (if destroying then .unlinking else .idle : Call) := by
      intro pending
      cases destroying <;> rfl
    rw [← call (adjust client).pendingRequest] at wellFormed ⊢
    exact refines.quiet found { adjust client with
      requestAttr := requestDefault
      activeRequest := client.activeRequest } type rfl _ wellFormed

/-- The entry of a call that tries the lock. -/
theorem tryEntry {request : UInt32} {adjust : Client → Client}
    (keeps : ∀ client, (adjust client).type = client.type ∧
      (adjust client).activeRequest = client.activeRequest) :
    Option.Rel (Refines driver definition initialState)
      (system.entry address fun client => system.tryEntry address (adjust client) request)
      (ballot.tryAsk address request) := by
  refine refines.entry fun client found idle vote => ?_
  obtain ⟨type, active⟩ := keeps client
  have wellFormed := refines.wellFormed.tryAsk
    (show ballot.tryAsk address request = some _ by rw [Ballot.tryAsk, if_pos idle, vote]; rfl)
  beta_reduce at wellFormed ⊢
  unfold UnpaSystem.tryEntry
  rw [active]
  by_cases differs : request ≠ client.activeRequest
  · have asks : request ≠ (Vote.of (address, client)).request := differs
    rw [if_pos asks] at wellFormed ⊢
    rw [if_pos differs]
    exact refines.quiet found { adjust client with
      activeRequest := client.activeRequest
      pendingRequest := request } type rfl .trying wellFormed
  · have redundant : ¬ request ≠ (Vote.of (address, client)).request := differs
    rw [if_neg redundant] at wellFormed ⊢
    rw [if_neg differs]
    have call : ballot.setCall address .idle = ballot := by rw [← idle, Ballot.setCall_self]
    have phase := refines.idle_iff.mp idle
    rw [← call] at wellFormed ⊢
    have same : ∀ resource, UnpaSystem.setPhase { system with resource := resource } address .idle =
        { system with resource := resource } := fun _ => UnpaSystem.setPhase_self phase
    rw [← same]
    exact refines.quiet found { adjust client with
      requestAttr := requestDefault
      activeRequest := client.activeRequest } type rfl .idle wellFormed

/-- A new client has no request yet. -/
theorem createClient (clientType : UInt32) :
    Option.Rel (Refines driver definition initialState)
      (system.step driver (.createClient address clientType))
      (ballot.step definition (.createClient address clientType)) := by
  have vote := client_vote refines.votes address
  simp only [UnpaSystem.step, Ballot.step, vote, Option.isSome_map]
  by_cases used : (system.resource.client address).isSome = true
  · simp only [used, if_true]
    exact Option.Rel.none
  · simp only [used, Bool.false_eq_true, if_false, unpaCreateClient, refines.defined]
    have absent : system.resource.client address = none := by simpa using used
    have fresh : ¬ (ballot.vote address).isSome = true := by rw [vote, absent]; simp
    by_cases refused : (supportedTypes definition).toUInt32 &&& clientType = 0 ∨ address = 0
    · simp only [refused, if_true]
      exact Option.Rel.some refines
    · simp only [refused, if_false]
      have created : ballot.step definition (.createClient address clientType) = some { ballot with
          votes := { address := address, type := clientType.toUInt8, request := 0 } ::
            ballot.votes } := by
        simp only [Ballot.step]
        rw [if_neg fresh, if_neg refused]
      refine Option.Rel.some ⟨refines.wellFormed.step created, ?_, ?_, rfl, ?_, ?_⟩
      · simp [Vote.of, refines.votes]
      · intro other
        by_cases own : other = address
        · subst own
          have unused : other ∉ ballot.votes.map Vote.address := fun member =>
            fresh (Ballot.vote_isSome_iff.mpr member)
          have idle : ballot.call other = .idle :=
            not_not.mp fun busy => unused (refines.wellFormed.live other busy)
          rw [show system.phase other = .idle from refines.idle_iff.mp idle]
          exact idle
        · rw [show (Ballot.call _ other) = ballot.call other from rfl, refines.call other]
          simp [Resource.pending, Resource.client, Ne.symm own]
      · intro index
        by_cases type : clientType.toUInt8 = index.clientType
        · have zero := isAggregate_zero_cons.mpr (refines.aggregates index)
          rw [← type] at zero ⊢
          exact (requestsOf_cons_own _ _).symm ▸ zero
        · exact (requestsOf_cons_other (show (Vote.mk _ _ _).type ≠ _ from type) _).symm ▸
            refines.aggregates index
      · intro obeys
        exact ⟨(refines.states obeys).activeMax, (refines.states obeys).sleep,
          (refines.states obeys).active⟩

/-- The request under the lock that the call waited for. -/
theorem issued (found : system.resource.client address = some client)
    {request : UInt32} {destroying : Bool}
    (phase : system.phase address = .issuing request destroying) :
    Option.Rel (Refines driver definition initialState) (system.lockedPart driver address client)
      (ballot.locked address) := by
  have call : ballot.call address = .issuing request destroying := by
    rw [refines.call address, phase]
    rfl
  have next : ballot.locked address = some ((ballot.cast address request).setCall address
      (if destroying then .unlinking else .idle)) := by
    rw [Ballot.locked, call]
  have wellFormed := refines.wellFormed.locked next
  have moved : ∀ pending, (if destroying then .unlinking else .idle : Phase).call pending =
      (if destroying then .unlinking else .idle : Call) := by
    intro pending
    cases destroying <;> rfl
  have written := refines.quiet found { client with pendingRequest := request } rfl rfl
    (.issuing request destroying) (by
      rw [Phase.call, ← call, Ballot.setCall_self]
      exact refines.wellFormed)
  rw [Phase.call, ← call, Ballot.setCall_self, UnpaSystem.setPhase_self (by exact phase)] at written
  have done := written.processed (client_setClient found)
    (if destroying then .unlinking else .idle) (by rw [moved]; exact wellFormed)
  rw [moved] at done
  rw [next, UnpaSystem.lockedPart, phase]
  exact Option.Rel.some done

/-- The client is unlinked, after its last request was cancelled. -/
theorem unlinked (found : system.resource.client address = some client)
    (phase : system.phase address = .unlinking) :
    Option.Rel (Refines driver definition initialState) (system.lockedPart driver address client)
      (ballot.locked address) := by
  have call : ballot.call address = .unlinking := by
    rw [refines.call address, phase]
    rfl
  have next : ballot.locked address = some ((ballot.remove address).setCall address .idle) := by
    rw [Ballot.locked, call]
  have wellFormed := refines.wellFormed.locked next
  obtain ⟨before, after, split, apart⟩ := exists_split refines.distinct found
  have rest : (unlinkClient system.resource address).clients = before ++ after := by
    have front : ∀ entry ∈ before, ¬ (entry.1 == address) = true := by
      intro entry member own
      exact apart entry (List.mem_append_left _ member) (by simpa using own)
    simp only [unlinkClient]
    rw [split, List.eraseP_append_right _ front, List.eraseP_cons_of_pos (by simp)]
  have zero : client.activeRequest = 0 := by
    have member : Vote.of (address, client) ∈ ballot.votes := by
      rw [← refines.votes]
      exact List.mem_map_of_mem (mem_of_client found)
    exact refines.wellFormed.cancelled _ member call
  have votes : (before ++ after).map Vote.of = (ballot.remove address).votes := by
    have front : ∀ vote ∈ before.map Vote.of, ¬ (vote.address == address) = true := by
      intro vote member own
      obtain ⟨entry, listed, rfl⟩ := List.mem_map.mp member
      exact apart entry (List.mem_append_left _ listed) (by simpa [Vote.of] using own)
    simp only [Ballot.remove]
    rw [← refines.votes, split, List.map_append, List.map_append, List.map_cons,
      List.eraseP_append_right _ front, List.eraseP_cons_of_pos (by simp [Vote.of])]
  rw [next, UnpaSystem.lockedPart, phase]
  refine Option.Rel.some ⟨wellFormed, ?_, ?_, refines.defined, ?_, ?_⟩
  · exact (congrArg (List.map Vote.of) rest).trans votes
  · intro other
    by_cases own : other = address
    · subst own
      simp [Ballot.setCall, UnpaSystem.setPhase, Phase.call]
    · have same : (unlinkClient system.resource address).client other =
          system.resource.client other := by
        rw [Resource.client, rest, Resource.client, split, List.find?_append, List.find?_append,
          List.find?_cons_of_neg (by simp [Ne.symm own])]
      simp [Ballot.setCall, UnpaSystem.setPhase, Function.update_of_ne own, Resource.pending, same,
        refines.call other]
  · intro index
    have held := refines.aggregates index
    rw [← refines.votes, split, List.map_append, List.map_cons] at held
    have moved := held.perm (requestsOf_middle _ _ _ _)
    rw [← List.map_append] at moved
    show IsAggregate _ (requestsOf (ballot.remove address).votes _) _
    rw [← votes]
    by_cases type : client.type = index.clientType
    · rw [← type] at moved ⊢
      rw [show client.type = (Vote.of (address, client)).type from rfl, requestsOf_cons_own,
        show (Vote.of (address, client)).request = 0 from zero] at moved
      exact isAggregate_zero_cons.mp moved
    · rw [requestsOf_cons_other (show (Vote.of (address, client)).type ≠ _ from type)] at moved
      exact moved
  · intro obeys
    exact ⟨(refines.states obeys).activeMax, (refines.states obeys).sleep,
      (refines.states obeys).active⟩

/-- The part of a call under the lock that it waited for. -/
theorem lock :
    Option.Rel (Refines driver definition initialState) (system.step driver (.lock address))
      (ballot.step definition (.lock address)) := by
  have vote := client_vote refines.votes address
  simp only [UnpaSystem.step, Ballot.step, vote, Option.isSome_map]
  cases found : system.resource.client address with
  | none => exact Option.Rel.none
  | some client =>
      simp only [Option.isSome_some, if_true, Option.bind_some]
      cases phase : system.phase address with
      | issuing request destroying => exact refines.issued found phase
      | unlinking => exact refines.unlinked found phase
      | idle =>
          rw [UnpaSystem.lockedPart, phase, Ballot.locked, refines.call address, phase]
          exact Option.Rel.none
      | trying =>
          rw [UnpaSystem.lockedPart, phase, Ballot.locked, refines.call address, phase]
          exact Option.Rel.none

/-- The part of a call behind its attempt to take the lock. -/
theorem tryLock (taken : Bool) :
    Option.Rel (Refines driver definition initialState)
      (system.step driver (.tryLock address taken))
      (ballot.step definition (.tryLock address taken)) := by
  have vote := client_vote refines.votes address
  simp only [UnpaSystem.step, Ballot.step, vote, Option.isSome_map]
  cases found : system.resource.client address with
  | none =>
      simp only [Option.map_none, ite_self]
      exact Option.Rel.none
  | some client =>
      have pending : system.resource.pending address = client.pendingRequest := by
        rw [Resource.pending, found]
        rfl
      simp only [Option.isSome_some, if_true]
      by_cases phase : system.phase address = .trying
      · have call : ballot.call address = .trying client.pendingRequest := by
          rw [refines.call address, phase, pending]
          rfl
        have next : ballot.tried address taken = some
            ((if taken then ballot.cast address client.pendingRequest else ballot).setCall address
              .idle) := by
          rw [Ballot.tried, call]
        have wellFormed := refines.wellFormed.tried next
        rw [next, if_pos phase]
        refine Option.Rel.some ?_
        cases taken with
        | true => exact refines.processed found .idle wellFormed
        | false =>
            exact refines.quiet found { client with requestAttr := requestDefault } rfl rfl .idle
              wellFormed
      · have none : ballot.tried address taken = none := by
          rw [Ballot.tried, refines.call address]
          cases other : system.phase address with
          | trying => exact absurd other phase
          | idle => rfl
          | issuing request destroying => rfl
          | unlinking => rfl
        rw [none, if_neg phase]
        exact Option.Rel.none

/-- The framework and the ballot take every step together. -/
theorem step (action : UnpaAction) :
    Option.Rel (Refines driver definition initialState) (system.step driver action)
      (ballot.step definition action) := by
  cases action with
  | createClient address clientType => exact refines.createClient clientType
  | issueRequest address request =>
      exact refines.issueEntry Bool.false_ne_true.elim fun _ => ⟨rfl, rfl⟩
  | cancelRequest address => exact refines.issueEntry (fun _ => rfl) fun _ => ⟨rfl, rfl⟩
  | tryIssueRequest address request => exact refines.tryEntry fun _ => ⟨rfl, rfl⟩
  | tryCancelRequest address => exact refines.tryEntry fun _ => ⟨rfl, rfl⟩
  | destroyClient address => exact refines.issueEntry (fun _ => rfl) fun _ => ⟨rfl, rfl⟩
  | lock address => exact refines.lock
  | tryLock address taken => exact refines.tryLock taken

end Refines

/-- A new resource against the empty ballot. -/
theorem refines_start (driver : DriverFcn) (definition : ResourceDefinition)
    (initialState : UInt32) :
    Refines driver definition initialState (UnpaSystem.start driver definition initialState)
      Ballot.start where
  wellFormed := Ballot.wellFormed_start
  votes := rfl
  call := fun _ => rfl
  defined := rfl
  aggregates := fun _ => isAggregate_nil
  states := fun obeys =>
    { activeMax := rfl
      sleep := by
        have none : ∀ fcn, combine fcn 0 0 = 0 := by
          intro fcn
          cases fcn <;> rfl
        show 0 = clip definition.max (combine definition.updateFcn 0 0)
        rw [none, clip, if_neg UInt32.not_lt_zero]
      active := obeys _ _ _ }

/-- Runs of the framework are runs of the ballot. -/
theorem refines_exec (driver : DriverFcn) (definition : ResourceDefinition)
    (initialState : UInt32) (actions : List UnpaAction) :
    Option.Rel (Refines driver definition initialState)
      (Runs.exec (UnpaSystem.step driver) (UnpaSystem.start driver definition initialState) actions)
      (Runs.exec (Ballot.step definition) Ballot.start actions) :=
  Runs.lockstep (fun _ _ action related => related.step action)
    (refines_start driver definition initialState) actions

/-- The ballot behind a run. -/
theorem exists_ballot {actions : List UnpaAction} {last : UnpaSystem}
    (run : Runs.exec (UnpaSystem.step driver) (UnpaSystem.start driver definition initialState)
      actions = some last) :
    ∃ ballot, Runs.exec (Ballot.step definition) Ballot.start actions = some ballot ∧
      Refines driver definition initialState last ballot := by
  have related := refines_exec driver definition initialState actions
  rw [run] at related
  generalize Runs.exec (Ballot.step definition) Ballot.start actions = result at related ⊢
  cases related with
  | some refines => exact ⟨_, rfl, refines⟩

end QHal.Unpa
