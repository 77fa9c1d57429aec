/-
Module: QHal.Proofs.UnpaRequests
Purpose: Aggregates and states of a uNPA resource after every run of client calls,
  in any interleaving: what they are for the live clients' requests, and that the
  order of the calls and failed attempts leave no trace in them.
Trusted boundary: what is said about the states is for a driver that returns the
  state that it is asked for.
Main exports: liveRequests, maxRequest, minRequest, max_states, min_aggregates,
  run_determined_by_requests
-/
import QHal.Proofs.UnpaRefinement

namespace QHal.Unpa

open Aggregate

/-! ## The requests of the live clients -/

/-- The active requests of the clients of one type in the client list. -/
def liveRequests (resource : Resource) (index : AggIndex) : List UInt32 :=
  (resource.clients.filter fun entry => entry.2.type = index.clientType).map
    fun entry => entry.2.activeRequest

/-- The largest request, 0 if there is none. -/
def maxRequest (requests : List UInt32) : Nat :=
  (requests.map UInt32.toNat).max?.getD 0

/-- The smallest request that is not 0, 0 if there is none. -/
def minRequest (requests : List UInt32) : Nat :=
  ((requests.filter (· ≠ 0)).map UInt32.toNat).min?.getD 0

/-- The step processes a request: it runs unpa_update_resource. -/
def processesRequest (system : UnpaSystem) : UnpaAction → Bool
  | .lock address =>
      match system.phase address with
      | .issuing _ _ => true
      | _ => false
  | .tryLock _ taken => taken
  | _ => false

/-- A step that processes no request. -/
def NoRequest (system : UnpaSystem) (action : UnpaAction) : Prop :=
  processesRequest system action = false

instance (system : UnpaSystem) (action : UnpaAction) : Decidable (NoRequest system action) :=
  inferInstanceAs (Decidable (_ = _))

variable {definition : ResourceDefinition} {initialState : UInt32} {system last : UnpaSystem}
  {ballot next : Ballot} {driver : DriverFcn} {address : UInt32} {actions : List UnpaAction}
  {requests : List UInt32} {agg : UInt32}

theorem liveRequests_eq (votes : system.resource.clients.map Vote.of = ballot.votes)
    (index : AggIndex) :
    liveRequests system.resource index = requestsOf ballot.votes index.clientType := by
  rw [← votes, requestsOf, List.filter_map, List.map_map]
  rfl

theorem maxRequest_eq (isBest : IsBest UInt32.toNat 0 requests agg) :
    agg.toNat = maxRequest requests := by
  unfold maxRequest
  cases largest : (requests.map UInt32.toNat).max? with
  | none =>
      have empty : requests = [] := by simpa using largest
      rcases isBest.among with none | member
      · rw [none]
        rfl
      · rw [empty] at member
        exact absurd member List.not_mem_nil
  | some value =>
      obtain ⟨member, bound⟩ := List.max?_eq_some_iff.mp largest
      obtain ⟨request, listed, rfl⟩ := List.mem_map.mp member
      show agg.toNat = request.toNat
      apply Nat.le_antisymm
      · rcases isBest.among with none | own
        · rw [none]
          exact Nat.zero_le _
        · exact bound _ (List.mem_map_of_mem own)
      · exact isBest.best request listed

theorem minRequest_eq (isBest : IsBest minRank 0 requests agg) :
    agg.toNat = minRequest requests := by
  have order : ∀ {first second : UInt32}, first ≠ 0 → second ≠ 0 →
      minRank first ≤ minRank second → second.toNat ≤ first.toNat := by
    intro first second one two le
    rw [minRank_of_ne one, minRank_of_ne two] at le
    have firstBound := first.toNat_lt
    have secondBound := second.toNat_lt
    omega
  have zero : agg = 0 ↔ ∀ request ∈ requests, request = 0 := by
    constructor
    · intro none request member
      have le := isBest.best request member
      rw [none] at le
      by_contra nonzero
      exact absurd (minRank_pos.mpr nonzero) (Nat.not_lt.mpr le)
    · intro zeros
      rcases isBest.among with none | member
      · exact none
      · exact zeros agg member
  unfold minRequest
  cases smallest : ((requests.filter (· ≠ 0)).map UInt32.toNat).min? with
  | none =>
      have empty : requests.filter (· ≠ 0) = [] := by simpa using smallest
      have zeros : ∀ request ∈ requests, request = 0 := by
        intro request member
        by_contra nonzero
        have kept : request ∈ requests.filter (· ≠ 0) :=
          List.mem_filter.mpr ⟨member, by simpa using nonzero⟩
        rw [empty] at kept
        exact absurd kept List.not_mem_nil
      rw [zero.mpr zeros]
      rfl
  | some value =>
      obtain ⟨member, bound⟩ := List.min?_eq_some_iff.mp smallest
      obtain ⟨request, kept, rfl⟩ := List.mem_map.mp member
      obtain ⟨listed, nonzero⟩ := List.mem_filter.mp kept
      have requestNe : request ≠ 0 := by simpa using nonzero
      have aggNe : agg ≠ 0 := fun none => requestNe (zero.mp none request listed)
      have own : agg ∈ requests := isBest.among.resolve_left aggNe
      show agg.toNat = request.toNat
      apply Nat.le_antisymm
      · exact order requestNe aggNe (isBest.best request listed)
      · exact bound _ (List.mem_map_of_mem (List.mem_filter.mpr ⟨own, by simpa using aggNe⟩))

/-! ## States -/

theorem clip_toNat (activeMax state : UInt32) :
    (clip activeMax state).toNat = min activeMax.toNat state.toNat := by
  unfold clip
  split
  case isTrue above => rw [Nat.min_eq_left (UInt32.lt_iff_toNat_lt.mp above).le]
  case isFalse below =>
    rw [Nat.min_eq_right (Nat.not_lt.mp fun above => below (UInt32.lt_iff_toNat_lt.mpr above))]

theorem maxOf_toNat (first second : UInt32) :
    (maxOf first second).toNat = max first.toNat second.toNat := by
  unfold maxOf
  split
  case isTrue above => rw [Nat.max_eq_left (UInt32.lt_iff_toNat_lt.mp above).le]
  case isFalse below =>
    rw [Nat.max_eq_right (Nat.not_lt.mp fun above => below (UInt32.lt_iff_toNat_lt.mpr above))]

/-- Nothing is asked for, so nothing is combined. -/
theorem clip_combine_zero (fcn : UpdateFcn) (activeMax : UInt32) :
    clip activeMax (combine fcn 0 0) = 0 := by
  have none : combine fcn 0 0 = 0 := by cases fcn <;> rfl
  rw [none, clip, if_neg UInt32.not_lt_zero]

/-! ## Processed requests -/

/-- The ballot notes whether a request was processed. -/
theorem Refines.step_processed (refines : Refines driver definition initialState system ballot)
    {action : UnpaAction} (done : ballot.step definition action = some next) :
    next.processed = (ballot.processed || processesRequest system action) := by
  cases action with
  | createClient address clientType =>
      simp only [Ballot.step] at done
      split at done
      · cases done
      · split at done <;>
          (obtain rfl := Option.some.inj done; simp [processesRequest])
  | issueRequest address request =>
      obtain ⟨-, vote, -, change⟩ := Ballot.ask_cases done
      rcases change with ⟨-, rfl⟩ | ⟨-, rfl⟩ <;> simp [processesRequest]
  | cancelRequest address =>
      obtain ⟨-, vote, -, change⟩ := Ballot.ask_cases done
      rcases change with ⟨-, rfl⟩ | ⟨-, rfl⟩ <;> simp [processesRequest]
  | tryIssueRequest address request =>
      obtain ⟨-, vote, -, change⟩ := Ballot.tryAsk_cases done
      rcases change with ⟨-, rfl⟩ | ⟨-, rfl⟩ <;> simp [processesRequest]
  | tryCancelRequest address =>
      obtain ⟨-, vote, -, change⟩ := Ballot.tryAsk_cases done
      rcases change with ⟨-, rfl⟩ | ⟨-, rfl⟩ <;> simp [processesRequest]
  | destroyClient address =>
      obtain ⟨-, vote, -, change⟩ := Ballot.ask_cases done
      rcases change with ⟨-, rfl⟩ | ⟨-, rfl⟩ <;> simp [processesRequest]
  | lock address =>
      simp only [Ballot.step] at done
      split at done
      case isFalse => cases done
      case isTrue =>
        rw [Ballot.locked, refines.call address] at done
        cases phase : system.phase address with
        | issuing request destroying =>
            rw [phase] at done
            obtain rfl := Option.some.inj done
            simp [processesRequest, phase, Ballot.cast]
        | unlinking =>
            rw [phase] at done
            obtain rfl := Option.some.inj done
            simp [processesRequest, phase, Ballot.remove]
        | idle =>
            rw [phase] at done
            cases done
        | trying =>
            rw [phase] at done
            cases done
  | tryLock address taken =>
      simp only [Ballot.step, Ballot.tried] at done
      split at done
      case isFalse => cases done
      case isTrue =>
        split at done
        case h_1 request call =>
          obtain rfl := Option.some.inj done
          cases taken <;> simp [processesRequest, Ballot.cast]
        case h_2 => cases done

/-- A run processed a request if some step of it did. -/
theorem Refines.exec_processed (refines : Refines driver definition initialState system ballot)
    (run : Runs.exec (Ballot.step definition) ballot actions = some next) :
    next.processed = false ↔ ballot.processed = false ∧
      Runs.Meets (UnpaSystem.step driver) NoRequest system actions := by
  induction actions generalizing system ballot with
  | nil =>
      obtain rfl := Option.some.inj run
      exact (and_iff_left trivial).symm
  | cons action actions ih =>
      obtain ⟨middle, first, rest⟩ := Runs.exec_cons.mp run
      have related := refines.step action
      have noted := refines.step_processed first
      rw [first] at related
      unfold Runs.Meets
      generalize stepped : system.step driver action = result at related ⊢
      cases related with
      | some moved =>
          rw [ih moved rest, noted, Bool.or_eq_false_iff, and_assoc]
          rfl

/-- Whether a run from the start processed a request. -/
theorem processed_iff (run : Runs.exec (Ballot.step definition) Ballot.start actions = some next)
    (driver : DriverFcn) (initialState : UInt32) :
    next.processed = false ↔ Runs.Meets (UnpaSystem.step driver) NoRequest
      (UnpaSystem.start driver definition initialState) actions := by
  rw [(refines_start driver definition initialState).exec_processed run]
  exact and_iff_right rfl

/-- Before the first processed request nobody has a request. -/
def Ballot.Silent (ballot : Ballot) : Prop :=
  ballot.processed = false → ∀ vote ∈ ballot.votes, vote.request = 0

theorem Ballot.Silent.step (silent : ballot.Silent) {action : UnpaAction}
    (done : ballot.step definition action = some next) : next.Silent := by
  have asked : ∀ {address request destroying},
      ballot.ask address request destroying = some next → next.Silent := by
    intro address request destroying asks
    obtain ⟨-, vote, -, change⟩ := Ballot.ask_cases asks
    rcases change with ⟨-, rfl⟩ | ⟨-, rfl⟩ <;> exact silent
  have tryAsked : ∀ {address request}, ballot.tryAsk address request = some next →
      next.Silent := by
    intro address request asks
    obtain ⟨-, vote, -, change⟩ := Ballot.tryAsk_cases asks
    rcases change with ⟨-, rfl⟩ | ⟨-, rfl⟩ <;> exact silent
  cases action with
  | createClient address clientType =>
      simp only [Ballot.step] at done
      split at done
      case isTrue => cases done
      case isFalse =>
        split at done
        case isTrue =>
          obtain rfl := Option.some.inj done
          exact silent
        case isFalse =>
          obtain rfl := Option.some.inj done
          intro none vote member
          rcases List.mem_cons.mp member with first | later
          · rw [first]
          · exact silent none vote later
  | issueRequest address request => exact asked done
  | cancelRequest address => exact asked done
  | tryIssueRequest address request => exact tryAsked done
  | tryCancelRequest address => exact tryAsked done
  | destroyClient address => exact asked done
  | lock address =>
      simp only [Ballot.step, Ballot.locked] at done
      split at done
      case isFalse => cases done
      case isTrue =>
        split at done
        case h_1 =>
          obtain rfl := Option.some.inj done
          intro none
          cases none
        case h_2 =>
          obtain rfl := Option.some.inj done
          exact fun none vote member => silent none vote (List.mem_of_mem_eraseP member)
        case h_3 => cases done
        case h_4 => cases done
  | tryLock address taken =>
      simp only [Ballot.step, Ballot.tried] at done
      split at done
      case isFalse => cases done
      case isTrue =>
        split at done
        case h_1 =>
          obtain rfl := Option.some.inj done
          cases taken with
          | true =>
              intro none
              cases none
          | false => exact silent
        case h_2 => cases done

/-- Without a processed request every aggregate is 0. -/
theorem Refines.aggState_silent (refines : Refines driver definition initialState last ballot)
    (run : Runs.exec (Ballot.step definition) Ballot.start actions = some ballot)
    (none : ballot.processed = false) (index : AggIndex) : last.resource.aggState index = 0 := by
  have start : Ballot.start.Silent := fun _ _ member => absurd member List.not_mem_nil
  have silent : ballot.Silent :=
    Runs.invariant_always (fun _ _ _ before done => Ballot.Silent.step before done) start run
  have zeros : ∀ request ∈ requestsOf ballot.votes index.clientType, request = 0 := by
    intro request member
    obtain ⟨vote, kept, rfl⟩ := List.mem_map.mp member
    exact silent none vote (List.mem_filter.mp kept).1
  refine (refines.aggregates index).unique ?_
  generalize definition.updateFcn = fcn
  cases fcn with
  | min => exact isBest_floor minRank zeros
  | max => exact isBest_floor UInt32.toNat zeros
  | binary =>
      refine (List.countP_eq_zero.mpr fun request member => ?_).symm
      simp [zeros request member]

/-- The active state once a request was processed, and before with initial state 0. -/
theorem Refines.activeState_eq (refines : Refines driver definition initialState last ballot)
    (obeys : Obeys driver)
    (run : Runs.exec (Ballot.step definition) Ballot.start actions = some ballot)
    (settled : ballot.processed = true ∨ initialState = 0) :
    last.resource.activeState = clip definition.max (combine definition.updateFcn
      (last.resource.aggState .required) (last.resource.aggState .suppressible)) := by
  have active := (refines.states obeys).active
  cases processed : ballot.processed with
  | true =>
      rw [processed] at active
      exact active
  | false =>
      have zero : initialState = 0 := settled.resolve_left (by rw [processed]; exact nofun)
      rw [processed, zero] at active
      rw [refines.aggState_silent run processed, refines.aggState_silent run processed,
        clip_combine_zero]
      exact active

/-! ## Maximum and minimum -/

/-- After every run on a max-aggregated resource the aggregate of each type is the
largest active request of its live clients, the sleep state is put together from the
aggregates, and so is the active state from the first processed request on; before it
the active state is the initial state. -/
theorem max_states (obeys : Obeys driver) (isMax : definition.updateFcn = .max)
    (run : Runs.exec (UnpaSystem.step driver) (UnpaSystem.start driver definition initialState)
      actions = some last) :
    (∀ index, (last.resource.aggState index).toNat =
        maxRequest (liveRequests last.resource index)) ∧
      last.resource.activeMax = definition.max ∧
      last.resource.sleepState.toNat = min last.resource.activeMax.toNat
        (max (maxRequest (liveRequests last.resource .required))
          (maxRequest (liveRequests last.resource .sleep))) ∧
      (Runs.Meets (UnpaSystem.step driver) NoRequest
          (UnpaSystem.start driver definition initialState) actions →
        last.resource.activeState = initialState) ∧
      (¬ Runs.Meets (UnpaSystem.step driver) NoRequest
            (UnpaSystem.start driver definition initialState) actions ∨ initialState = 0 →
        last.resource.activeState.toNat = min last.resource.activeMax.toNat
          (max (maxRequest (liveRequests last.resource .required))
            (maxRequest (liveRequests last.resource .suppressible)))) := by
  obtain ⟨ballot, runs, refines⟩ := exists_ballot run
  have states := refines.states obeys
  have processed := processed_iff runs driver initialState
  have aggregates : ∀ index, (last.resource.aggState index).toNat =
      maxRequest (liveRequests last.resource index) := by
    intro index
    have isBest := refines.aggregates index
    rw [isMax] at isBest
    rw [liveRequests_eq refines.votes]
    exact maxRequest_eq isBest
  have combined : ∀ first second, (clip definition.max (combine definition.updateFcn
      (last.resource.aggState first) (last.resource.aggState second))).toNat =
      min definition.max.toNat (max (maxRequest (liveRequests last.resource first))
        (maxRequest (liveRequests last.resource second))) := by
    intro first second
    rw [isMax, clip_toNat, combine, maxOf_toNat, aggregates, aggregates]
  refine ⟨aggregates, states.activeMax, ?_, ?_, ?_⟩
  · rw [states.sleep, combined, states.activeMax]
  · intro none
    have active := states.active
    rw [processed.mpr none] at active
    exact active
  · intro settled
    have ready : ballot.processed = true ∨ initialState = 0 :=
      settled.imp_left fun some => by
        rw [← processed, Bool.not_eq_false] at some
        exact some
    rw [refines.activeState_eq obeys runs ready, combined, states.activeMax]

/-- A driver that returns the state that it is asked for. -/
def obedient : DriverFcn := fun _ _ state => state

/-- A max-aggregated resource with the highest state 10. -/
def maxDefinition : ResourceDefinition :=
  { updateFcn := .max
    max := 10
    clientTypes := updateClientTypes
    attributes := 0 }

/-- Two clients, one of which asks for more than the resource has. -/
def maxRun : List UnpaAction :=
  [.createClient 8 1, .createClient 16 4, .issueRequest 8 7, .lock 8, .tryIssueRequest 16 12,
    .tryLock 16 true]

theorem max_states_maxRun :
    ∃ last, Runs.exec (UnpaSystem.step obedient) (UnpaSystem.start obedient maxDefinition 5)
        maxRun = some last ∧
      last.resource.activeState.toNat = min last.resource.activeMax.toNat
        (max (maxRequest (liveRequests last.resource .required))
          (maxRequest (liveRequests last.resource .suppressible))) := by
  have obeys : Obeys obedient := fun _ _ _ => rfl
  obtain ⟨last, run⟩ : ∃ last, Runs.exec (UnpaSystem.step obedient)
      (UnpaSystem.start obedient maxDefinition 5) maxRun = some last := ⟨_, rfl⟩
  exact ⟨last, run, (max_states obeys rfl run).2.2.2.2 (Or.inl (by decide))⟩

/-- A resource with initial state 5 and one new client: no request, but active state 5. -/
theorem initial_state_without_request :
    ∃ last, Runs.exec (UnpaSystem.step obedient) (UnpaSystem.start obedient maxDefinition 5)
        [.createClient 8 1] = some last ∧
      last.resource.activeState.toNat ≠ min last.resource.activeMax.toNat
        (max (maxRequest (liveRequests last.resource .required))
          (maxRequest (liveRequests last.resource .suppressible))) :=
  ⟨_, rfl, by decide⟩

/-- After every run on a min-aggregated resource the aggregate of each type is the
smallest active request of its live clients that is not 0. -/
theorem min_aggregates (isMin : definition.updateFcn = .min)
    (run : Runs.exec (UnpaSystem.step driver) (UnpaSystem.start driver definition initialState)
      actions = some last) (index : AggIndex) :
    (last.resource.aggState index).toNat = minRequest (liveRequests last.resource index) := by
  obtain ⟨ballot, -, refines⟩ := exists_ballot run
  have isBest := refines.aggregates index
  rw [isMin] at isBest
  rw [liveRequests_eq refines.votes]
  exact minRequest_eq isBest

/-- Two votes, the smaller of which is cancelled. -/
def minRun : List UnpaAction :=
  [.createClient 8 1, .createClient 16 1, .issueRequest 8 7, .lock 8, .issueRequest 16 3, .lock 16,
    .cancelRequest 16, .lock 16]

theorem min_aggregates_minRun :
    ∃ last, Runs.exec (UnpaSystem.step obedient)
        (UnpaSystem.start obedient { maxDefinition with updateFcn := .min } 0) minRun = some last ∧
      (last.resource.aggState .required).toNat =
        minRequest (liveRequests last.resource .required) ∧
      last.resource.aggState .required = 7 := by
  obtain ⟨last, run, seven⟩ : ∃ last, Runs.exec (UnpaSystem.step obedient)
      (UnpaSystem.start obedient { maxDefinition with updateFcn := .min } 0) minRun = some last ∧
        last.resource.aggState .required = 7 := ⟨_, rfl, by decide⟩
  exact ⟨last, run, min_aggregates rfl run .required, seven⟩

/-! ## Order of the calls -/

/-- The same live clients, of the same types, with the same last processed requests. -/
def SameRequests (one two : UnpaSystem) (first second : List UnpaAction) : Prop :=
  (∀ address, (one.resource.client address).map Client.type =
      (two.resource.client address).map Client.type) ∧
    ∀ address, (one.resource.client address).isSome = true →
      lastRequest address first = lastRequest address second

theorem Ballot.WellFormed.mem_votes_iff (wellFormed : ballot.WellFormed) {vote : Vote} :
    vote ∈ ballot.votes ↔ ballot.vote vote.address = some vote := by
  constructor
  · intro member
    cases found : ballot.vote vote.address with
    | none =>
        have absent := Ballot.vote_isSome_iff.mpr (List.mem_map_of_mem (f := Vote.address) member)
        rw [found] at absent
        cases absent
    | some held =>
        obtain ⟨listed, owner⟩ := Ballot.vote_mem found
        rw [wellFormed.vote_eq listed member owner]
  · exact fun found => (Ballot.vote_mem found).1

/-- The request of a live client is its last processed one. -/
theorem Refines.activeRequest_eq (refines : Refines driver definition initialState last ballot)
    (run : Runs.exec (Ballot.step definition) Ballot.start actions = some ballot)
    {client : Client} (found : last.resource.client address = some client) :
    client.activeRequest = lastRequest address actions := by
  have member : Vote.of (address, client) ∈ ballot.votes := by
    rw [← refines.votes]
    exact List.mem_map_of_mem (mem_of_client found)
  exact Ballot.vote_eq_lastRequest run member

/-- Votes of one run are votes of every run with the same requests. -/
theorem votes_subset {one two : UnpaSystem} {first second : List UnpaAction}
    {left right : Ballot} (refinesLeft : Refines driver definition initialState one left)
    (refinesRight : Refines driver definition initialState two right)
    (runLeft : Runs.exec (Ballot.step definition) Ballot.start first = some left)
    (runRight : Runs.exec (Ballot.step definition) Ballot.start second = some right)
    (same : SameRequests one two first second) {vote : Vote} (member : vote ∈ left.votes) :
    vote ∈ right.votes := by
  have voted := refinesLeft.wellFormed.mem_votes_iff.mp member
  rw [client_vote refinesLeft.votes] at voted
  obtain ⟨client, found, owned⟩ := Option.map_eq_some_iff.mp voted
  have types := same.1 vote.address
  rw [found, Option.map_some] at types
  obtain ⟨twin, foundTwin, type⟩ := Option.map_eq_some_iff.mp types.symm
  have request : twin.activeRequest = client.activeRequest := by
    rw [refinesLeft.activeRequest_eq runLeft found,
      refinesRight.activeRequest_eq runRight foundTwin]
    exact (same.2 vote.address (by rw [found]; rfl)).symm
  apply refinesRight.wellFormed.mem_votes_iff.mpr
  rw [client_vote refinesRight.votes, foundTwin, ← owned]
  simp [Vote.of, type, request]

theorem SameRequests.symm {one two : UnpaSystem} {first second : List UnpaAction}
    (same : SameRequests one two first second) : SameRequests two one second first := by
  refine ⟨fun address => (same.1 address).symm, fun address live => ?_⟩
  refine (same.2 address ?_).symm
  rw [← Option.isSome_map (f := Client.type), same.1 address, Option.isSome_map]
  exact live

/-- The aggregates of two runs with the same requests. -/
theorem aggState_eq_of_sameRequests {one two : UnpaSystem} {first second : List UnpaAction}
    {left right : Ballot} (refinesLeft : Refines driver definition initialState one left)
    (refinesRight : Refines driver definition initialState two right)
    (runLeft : Runs.exec (Ballot.step definition) Ballot.start first = some left)
    (runRight : Runs.exec (Ballot.step definition) Ballot.start second = some right)
    (same : SameRequests one two first second) :
    one.resource.aggState = two.resource.aggState := by
  have order : left.votes.Perm right.votes := by
    refine (List.perm_ext_iff_of_nodup refinesLeft.wellFormed.distinct.of_map
      refinesRight.wellFormed.distinct.of_map).mpr fun vote => ⟨?_, ?_⟩
    · exact votes_subset refinesLeft refinesRight runLeft runRight same
    · exact votes_subset refinesRight refinesLeft runRight runLeft same.symm
  funext index
  exact ((refinesLeft.aggregates index).perm ((order.filter _).map _)).unique
    (refinesRight.aggregates index)

/-- The states follow the aggregates. -/
theorem Refines.states_eq {one two : UnpaSystem} {left right : Ballot} (obeys : Obeys driver)
    (refinesLeft : Refines driver definition initialState one left)
    (refinesRight : Refines driver definition initialState two right)
    (aggState : one.resource.aggState = two.resource.aggState) :
    one.resource.sleepState = two.resource.sleepState ∧
      (left.processed = right.processed → one.resource.activeState = two.resource.activeState) := by
  have statesLeft := refinesLeft.states obeys
  have statesRight := refinesRight.states obeys
  constructor
  · rw [statesLeft.sleep, statesRight.sleep, aggState]
  · intro same
    rw [statesLeft.active, statesRight.active, aggState, same]

/-- A run with a failed attempt ends like the run without it. -/
theorem exists_run_without_try (obeys : Obeys driver) {before middle after : List UnpaAction}
    {attempt : UnpaAction} {request : UInt32}
    (tries : attempt = .tryIssueRequest address request ∨ attempt = .tryCancelRequest address)
    (others : ∀ action ∈ middle, action.client ≠ address)
    (run : Runs.exec (UnpaSystem.step driver) (UnpaSystem.start driver definition initialState)
      (before ++ attempt :: (middle ++ .tryLock address false :: after)) = some last) :
    ∃ other, Runs.exec (UnpaSystem.step driver)
        (UnpaSystem.start driver definition initialState) (before ++ (middle ++ after)) =
          some other ∧
      other.resource.aggState = last.resource.aggState ∧
      other.resource.sleepState = last.resource.sleepState ∧
      other.resource.activeState = last.resource.activeState := by
  obtain ⟨ballot, runs, refines⟩ := exists_ballot run
  have without : Runs.exec (Ballot.step definition) Ballot.start (before ++ (middle ++ after)) =
      some ballot := by
    rw [Runs.exec_append] at runs ⊢
    obtain ⟨entered, first, rest⟩ := Option.bind_eq_some_iff.mp runs
    rw [first]
    exact Ballot.exec_without_try tries others rest
  have related := refines_exec driver definition initialState (before ++ (middle ++ after))
  rw [without] at related
  generalize Runs.exec (UnpaSystem.step driver) (UnpaSystem.start driver definition initialState)
    (before ++ (middle ++ after)) = result at related ⊢
  cases related with
  | some mate =>
      have aggState : ∀ index, _ = last.resource.aggState index := fun index =>
        (mate.aggregates index).unique (refines.aggregates index)
      have states := Refines.states_eq obeys mate refines (funext aggState)
      exact ⟨_, rfl, funext aggState, states.1, states.2 rfl⟩

/-- Two runs on one resource: its aggregates and sleep state depend on the last
processed requests of the live clients alone, in whatever order the calls came, and so
does the active state once a request was processed or with initial state 0; failed
attempts can be left out; and the binary aggregates count the clients that ask for
something. -/
theorem run_determined_by_requests (obeys : Obeys driver)
    (run : Runs.exec (UnpaSystem.step driver) (UnpaSystem.start driver definition initialState)
      actions = some last) :
    (∀ address client, last.resource.client address = some client →
        client.activeRequest = lastRequest address actions) ∧
      (∀ others other, Runs.exec (UnpaSystem.step driver)
          (UnpaSystem.start driver definition initialState) others = some other →
        SameRequests last other actions others →
        last.resource.aggState = other.resource.aggState ∧
          last.resource.sleepState = other.resource.sleepState ∧
          ((¬ Runs.Meets (UnpaSystem.step driver) NoRequest
                (UnpaSystem.start driver definition initialState) actions ∧
              ¬ Runs.Meets (UnpaSystem.step driver) NoRequest
                (UnpaSystem.start driver definition initialState) others) ∨ initialState = 0 →
            last.resource.activeState = other.resource.activeState)) ∧
      (∀ before attempt middle address request after,
        actions = before ++ attempt :: (middle ++ .tryLock address false :: after) →
        attempt = .tryIssueRequest address request ∨ attempt = .tryCancelRequest address →
        (∀ action ∈ middle, action.client ≠ address) →
        ∃ other, Runs.exec (UnpaSystem.step driver)
            (UnpaSystem.start driver definition initialState) (before ++ (middle ++ after)) =
              some other ∧
          other.resource.aggState = last.resource.aggState ∧
          other.resource.sleepState = last.resource.sleepState ∧
          other.resource.activeState = last.resource.activeState) ∧
      (definition.updateFcn = .binary → ∀ index,
        (last.resource.aggState index).toNat =
            (liveRequests last.resource index).countP (· ≠ 0) ∧
          ∀ address client, last.resource.client address = some client →
            client.type = index.clientType → client.activeRequest ≠ 0 →
            1 ≤ last.resource.aggState index) := by
  obtain ⟨ballot, runs, refines⟩ := exists_ballot run
  refine ⟨fun address client => refines.activeRequest_eq runs, ?_, ?_, ?_⟩
  · intro others other otherRun same
    obtain ⟨mate, mateRuns, mateRefines⟩ := exists_ballot otherRun
    have aggState := aggState_eq_of_sameRequests refines mateRefines runs mateRuns same
    refine ⟨aggState, (Refines.states_eq obeys refines mateRefines aggState).1, fun settled => ?_⟩
    have processed : ∀ {ballot actions}, Runs.exec (Ballot.step definition) Ballot.start actions =
        some ballot → ¬ Runs.Meets (UnpaSystem.step driver) NoRequest
          (UnpaSystem.start driver definition initialState) actions → ballot.processed = true := by
      intro ballot actions ran some
      rw [← processed_iff ran driver initialState, Bool.not_eq_false] at some
      exact some
    rw [refines.activeState_eq obeys runs (settled.imp_left fun both => processed runs both.1),
      mateRefines.activeState_eq obeys mateRuns
        (settled.imp_left fun both => processed mateRuns both.2), aggState]
  · intro before attempt middle address request after split tries others
    rw [split] at run
    exact exists_run_without_try obeys tries others run
  · intro isBinary index
    have counts := refines.aggregates index
    rw [isBinary, ← liveRequests_eq refines.votes] at counts
    have number : (last.resource.aggState index).toNat =
        (liveRequests last.resource index).countP (· ≠ 0) := counts
    refine ⟨number, fun address client found type nonzero => ?_⟩
    have listed : client.activeRequest ∈ liveRequests last.resource index :=
      List.mem_map.mpr ⟨(address, client),
        List.mem_filter.mpr ⟨mem_of_client found, by simpa using type⟩, rfl⟩
    have positive : 0 < (liveRequests last.resource index).countP (· ≠ 0) :=
      List.countP_pos_iff.mpr ⟨_, listed, by simpa using nonzero⟩
    rw [← number] at positive
    exact UInt32.le_iff_toNat_le.mpr positive

/-- Two clients of a binary resource, one of which votes, while the other fails to get
the lock. -/
def binaryRun : List UnpaAction :=
  [.createClient 8 1, .createClient 16 1, .issueRequest 8 7, .tryIssueRequest 16 3, .lock 8,
    .tryLock 16 false]

theorem run_determined_by_requests_binaryRun :
    ∃ last, Runs.exec (UnpaSystem.step obedient)
        (UnpaSystem.start obedient { maxDefinition with updateFcn := .binary } 0) binaryRun =
          some last ∧
      (last.resource.aggState .required).toNat =
        (liveRequests last.resource .required).countP (· ≠ 0) := by
  have obeys : Obeys obedient := fun _ _ _ => rfl
  obtain ⟨last, run⟩ : ∃ last, Runs.exec (UnpaSystem.step obedient)
      (UnpaSystem.start obedient { maxDefinition with updateFcn := .binary } 0) binaryRun =
        some last := ⟨_, rfl⟩
  exact ⟨last, run, ((run_determined_by_requests obeys run).2.2.2 rfl .required).1⟩

/-- A second client that votes and goes again. -/
def visitorRun : List UnpaAction :=
  [.createClient 8 1, .createClient 16 1, .issueRequest 16 3, .lock 16, .destroyClient 16, .lock 16,
    .lock 16]

/-- With initial state 5 the active state tells a run without any request from one whose
only request came from a client that is gone. -/
theorem activeState_keeps_trace :
    ∃ one two, Runs.exec (UnpaSystem.step obedient) (UnpaSystem.start obedient maxDefinition 5)
          [.createClient 8 1] = some one ∧
      Runs.exec (UnpaSystem.step obedient) (UnpaSystem.start obedient maxDefinition 5)
          visitorRun = some two ∧
      SameRequests one two [.createClient 8 1] visitorRun ∧
      one.resource.activeState ≠ two.resource.activeState := by
  have single : ∀ {resource : Resource} {client : Client}, resource.clients = [(8, client)] →
      ∀ address, resource.client address = if address = 8 then some client else none := by
    intro resource client clients address
    by_cases own : address = 8
    · simp [Resource.client, clients, own]
    · simp [Resource.client, clients, own, Ne.symm own]
  refine ⟨_, _, rfl, rfl, ⟨fun address => ?_, fun address live => ?_⟩, by decide⟩
  · rw [single rfl, single rfl]
  · rw [single rfl] at live
    split at live
    case isTrue own =>
      rw [own]
      decide
    case isFalse => cases live

end QHal.Unpa
