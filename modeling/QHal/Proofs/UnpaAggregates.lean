/-
Module: QHal.Proofs.UnpaAggregates
Purpose: One processed request under the three update functions: the aggregate of
  the client's type stays the aggregate of the votes, by whichever way it is found.
Trusted boundary: none
Main exports: IsAggregate.unique, IsAggregate.perm, isAggregate_zero_cons,
  pendingAggregate_isBest, updateFcn_spec
-/
import Mathlib.Data.List.Nodup
import Mathlib.Data.List.Perm.Lattice
import Mathlib.Order.Interval.Finset.Nat
import QHal.Unpa.Ballot

namespace QHal.Unpa

open Aggregate

/-! ## The orders of the aggregates -/

theorem toNat_injective : Function.Injective UInt32.toNat :=
  fun _ _ same => UInt32.toNat_inj.mp same

theorem beatsMax_decides : Decides beatsMax UInt32.toNat := by
  intro request held
  simp [beatsMax, UInt32.lt_iff_toNat_lt]

theorem toNat_pos {request : UInt32} : 0 < request.toNat ↔ request ≠ 0 := by
  rw [Nat.pos_iff_ne_zero, ne_eq, ne_eq, ← UInt32.toNat_inj]
  rfl

theorem minRank_pos {request : UInt32} : 0 < minRank request ↔ request ≠ 0 := by
  have bound := request.toNat_lt
  unfold minRank
  split
  case isTrue zero => simp [zero]
  case isFalse nonzero =>
    have positive := toNat_pos.mpr nonzero
    constructor
    · exact fun _ => nonzero
    · intro _
      omega

theorem minRank_of_ne {request : UInt32} (nonzero : request ≠ 0) :
    minRank request = 2 ^ 32 - request.toNat := if_neg nonzero

theorem minRank_injective : Function.Injective minRank := by
  intro first second same
  have firstBound := first.toNat_lt
  have secondBound := second.toNat_lt
  by_cases one : first = 0
  · by_contra differ
    have two : second ≠ 0 := fun zero => differ (one.trans zero.symm)
    have positive := minRank_pos.mpr two
    rw [← same, one] at positive
    exact absurd rfl (minRank_pos.mp positive)
  · have two : second ≠ 0 := by
      have positive := minRank_pos.mpr one
      rw [same] at positive
      exact minRank_pos.mp positive
    rw [minRank_of_ne one, minRank_of_ne two] at same
    apply UInt32.toNat_inj.mp
    omega

theorem beatsMin_decides : Decides beatsMin minRank := by
  intro request held
  have requestBound := request.toNat_lt
  have heldBound := held.toNat_lt
  by_cases none : request = 0
  · simp [beatsMin, none, show minRank 0 = 0 from rfl]
  · by_cases first : held = 0
    · have lowest : minRank held = 0 := if_pos first
      have better : beatsMin request held = true := by simp [beatsMin, none, first]
      rw [lowest]
      exact iff_of_true better (minRank_pos.mpr none)
    · have smaller : beatsMin request held = true ↔ request.toNat < held.toNat := by
        simp [beatsMin, none, first, UInt32.lt_iff_toNat_lt]
      rw [smaller, minRank_of_ne none, minRank_of_ne first]
      omega

/-! ## Aggregates depend on the requests only -/

variable {fcn : UpdateFcn} {requests same : List UInt32} {agg other : UInt32}

theorem IsAggregate.unique (one : IsAggregate fcn requests agg)
    (two : IsAggregate fcn requests other) : agg = other := by
  cases fcn with
  | min => exact IsBest.unique minRank_injective one two
  | max => exact IsBest.unique toNat_injective one two
  | binary => exact UInt32.toNat_inj.mp (Eq.trans one (Eq.symm two))

theorem IsAggregate.perm (order : requests.Perm same) (isAggregate : IsAggregate fcn requests agg) :
    IsAggregate fcn same agg := by
  cases fcn with
  | min => exact IsBest.congr (fun _ => order.mem_iff) isAggregate
  | max => exact IsBest.congr (fun _ => order.mem_iff) isAggregate
  | binary => exact Eq.trans isAggregate (order.countP_eq _)

/-- A client without a request does not count. -/
theorem isAggregate_zero_cons :
    IsAggregate fcn (0 :: requests) agg ↔ IsAggregate fcn requests agg := by
  cases fcn with
  | min => exact IsBest.floor_cons
  | max => exact IsBest.floor_cons
  | binary => simp [IsAggregate]

theorem isAggregate_nil : IsAggregate fcn [] 0 := by
  cases fcn with
  | min => exact isBest_floor minRank nofun
  | max => exact isBest_floor UInt32.toNat nofun
  | binary => rfl

/-! ## The client list around one client -/

/-- The vote of an entry of the client list. -/
def Vote.of (entry : UInt32 × Client) : Vote :=
  { address := entry.1, type := entry.2.type, request := entry.2.activeRequest }

variable {resource : Resource} {address : UInt32} {client : Client}

theorem mem_of_client (found : resource.client address = some client) :
    (address, client) ∈ resource.clients := by
  obtain ⟨entry, search, second⟩ := Option.map_eq_some_iff.mp found
  have first : entry.1 = address := by simpa using List.find?_some search
  have member := List.mem_of_find?_eq_some search
  rw [← first, ← second]
  exact member

/-- The list in front of a client and behind it. -/
theorem exists_split (distinct : (resource.clients.map Prod.fst).Nodup)
    (found : resource.client address = some client) :
    ∃ before after, resource.clients = before ++ (address, client) :: after ∧
      ∀ entry ∈ before ++ after, entry.1 ≠ address := by
  obtain ⟨before, after, split⟩ := List.append_of_mem (mem_of_client found)
  refine ⟨before, after, split, fun entry member own => ?_⟩
  rw [split, List.map_append, List.map_cons, List.nodup_middle, ← List.map_append,
    List.nodup_cons] at distinct
  exact distinct.1 (List.mem_map.mpr ⟨entry, member, own⟩)

theorem requestsOf_cons_own (vote : Vote) (votes : List Vote) :
    requestsOf (vote :: votes) vote.type = vote.request :: requestsOf votes vote.type := by
  simp [requestsOf]

theorem requestsOf_cons_other {vote : Vote} {type : UInt8} (differs : vote.type ≠ type)
    (votes : List Vote) : requestsOf (vote :: votes) type = requestsOf votes type := by
  simp [requestsOf, differs]

theorem requestsOf_middle (before after : List Vote) (vote : Vote) (type : UInt8) :
    (requestsOf (before ++ vote :: after) type).Perm
      (requestsOf (vote :: (before ++ after)) type) :=
  (List.perm_middle.filter _).map _

/-- The walk is a search among the other clients of the type. -/
theorem walkClients_eq (beats : UInt32 → UInt32 → Bool) (pending : UInt32)
    (clients : List (UInt32 × Client)) :
    walkClients beats address client pending clients =
      search beats pending ((clients.filter fun entry =>
          entry.1 ≠ address ∧ entry.2.type = client.type).map
        fun entry => entry.2.activeRequest) := by
  induction clients generalizing pending with
  | nil => rfl
  | cons entry clients ih =>
      have step : walkClients beats address client pending (entry :: clients) =
          walkClients beats address client
            (if entry.1 ≠ address ∧ entry.2.type = client.type then
              if beats entry.2.activeRequest pending then entry.2.activeRequest else pending
            else pending) clients := rfl
      rw [step, ih]
      by_cases counts : entry.1 ≠ address ∧ entry.2.type = client.type
      · rw [if_pos counts, List.filter_cons_of_pos (by simpa using counts)]
        rfl
      · rw [if_neg counts, List.filter_cons_of_neg (by simpa using counts)]

/-- The others' requests, as the walk sees them. -/
theorem others_eq {before after : List (UInt32 × Client)}
    (apart : ∀ entry ∈ before ++ after, entry.1 ≠ address) :
    ((before ++ (address, client) :: after).filter fun entry =>
        entry.1 ≠ address ∧ entry.2.type = client.type).map (fun entry => entry.2.activeRequest) =
      requestsOf ((before ++ after).map Vote.of) client.type := by
  have part : ∀ entries : List (UInt32 × Client), (∀ entry ∈ entries, entry.1 ≠ address) →
      (entries.filter fun entry =>
        entry.1 ≠ address ∧ entry.2.type = client.type).map (fun entry => entry.2.activeRequest) =
        requestsOf (entries.map Vote.of) client.type := by
    intro entries others
    rw [requestsOf, List.filter_map, List.map_map]
    refine congrArg (List.map _) (List.filter_congr fun entry member => ?_)
    rw [Bool.eq_iff_iff, decide_eq_true_iff]
    exact (and_iff_right (others entry member)).trans decide_eq_true_iff.symm
  rw [List.filter_append, List.filter_cons_of_neg (by simp), ← List.filter_append]
  exact part _ apart

/-! ## The update functions -/

/-- The aggregate that the update function stores for the client's type. -/
def newAggregate (resource : Resource) (address : UInt32) (client : Client) (index : AggIndex) :
    UInt32 :=
  match resource.definition.updateFcn with
  | .min => pendingAggregate beatsMin resource address client index
  | .max => pendingAggregate beatsMax resource address client index
  | .binary =>
      resource.aggState index - (if client.activeRequest = 0 then 0 else 1) +
        (if client.pendingRequest = 0 then 0 else 1)

theorem updateFcn_eq (resource : Resource) (address : UInt32) (client : Client) :
    updateFcn resource address client =
      let updated := updateAggregate resource client (newAggregate resource address client)
      ({ updated with
          sleepState := combine resource.definition.updateFcn (updated.aggState .required)
            (updated.aggState .sleep) },
        combine resource.definition.updateFcn (updated.aggState .required)
          (updated.aggState .suppressible)) := by
  unfold updateFcn newAggregate
  cases resource.definition.updateFcn <;> rfl

theorem unpaGetAggIndex_eq_some {type : UInt8} {index : AggIndex} :
    unpaGetAggIndex type = some index ↔ type = index.clientType := by
  unfold unpaGetAggIndex
  constructor
  · intro found
    split at found
    case isTrue required =>
      cases found
      exact required
    case isFalse =>
      split at found
      case isTrue suppressible =>
        cases found
        exact suppressible
      case isFalse =>
        split at found
        case isTrue sleep =>
          cases found
          exact sleep
        case isFalse => cases found
  · rintro rfl
    cases index <;> rfl

/-- Both ways to the aggregate of the minimum and of the maximum. -/
theorem pendingAggregate_isBest {beats : UInt32 → UInt32 → Bool} {rank : UInt32 → Nat}
    (decides : Decides beats rank) (lowest : ∀ request, rank 0 ≤ rank request)
    {before after : List (UInt32 × Client)} {index : AggIndex}
    (split : resource.clients = before ++ (address, client) :: after)
    (apart : ∀ entry ∈ before ++ after, entry.1 ≠ address)
    (isBest : IsBest rank 0
      (client.activeRequest :: requestsOf ((before ++ after).map Vote.of) client.type)
      (resource.aggState index)) :
    IsBest rank 0
      (client.pendingRequest :: requestsOf ((before ++ after).map Vote.of) client.type)
      (pendingAggregate beats resource address client index) := by
  have revised : pendingAggregate beats resource address client index =
      revise beats (resource.aggState index) client.activeRequest client.pendingRequest
        (requestsOf ((before ++ after).map Vote.of) client.type) := by
    unfold pendingAggregate revise
    rw [walkClients_eq, split, others_eq apart]
  rw [revised]
  exact revise_isBest decides (lowest _) isBest

/-- The counter of the binary update function moves by the change of one client. -/
theorem binaryAggregate_eq {agg active pending : UInt32} {others : List UInt32}
    (counts : IsAggregate .binary (active :: others) agg) (room : others.length + 1 < 2 ^ 32) :
    IsAggregate .binary (pending :: others)
      (agg - (if active = 0 then 0 else 1) + (if pending = 0 then 0 else 1)) := by
  have bound : others.countP (· ≠ 0) ≤ others.length := List.countP_le_length
  have before : agg.toNat = others.countP (· ≠ 0) + if active = 0 then 0 else 1 := by
    rw [show agg.toNat = _ from counts, List.countP_cons]
    simp
  have after : (pending :: others).countP (· ≠ 0) =
      others.countP (· ≠ 0) + if pending = 0 then 0 else 1 := by
    rw [List.countP_cons]
    simp
  have bit : ∀ request : UInt32, (if request = 0 then 0 else 1 : UInt32).toNat =
      if request = 0 then 0 else 1 := by
    intro request
    split <;> rfl
  have without : (agg - (if active = 0 then 0 else 1)).toNat = others.countP (· ≠ 0) := by
    rw [UInt32.toNat_sub_of_le _ _ (UInt32.le_iff_toNat_le.mpr (by rw [bit, before]; omega)), bit,
      before, Nat.add_sub_cancel]
  show (agg - _ + _).toNat = _
  rw [UInt32.toNat_add, without, bit, after, Nat.mod_eq_of_lt]
  split <;> omega

theorem newAggregate_spec {before after : List (UInt32 × Client)} {index : AggIndex}
    (split : resource.clients = before ++ (address, client) :: after)
    (apart : ∀ entry ∈ before ++ after, entry.1 ≠ address)
    (room : (before ++ after).length + 1 < 2 ^ 32)
    (isAggregate : IsAggregate resource.definition.updateFcn
      (client.activeRequest :: requestsOf ((before ++ after).map Vote.of) client.type)
      (resource.aggState index)) :
    IsAggregate resource.definition.updateFcn
      (client.pendingRequest :: requestsOf ((before ++ after).map Vote.of) client.type)
      (newAggregate resource address client index) := by
  unfold newAggregate
  generalize resource.definition.updateFcn = fcn at isAggregate ⊢
  cases fcn with
  | min =>
      exact pendingAggregate_isBest beatsMin_decides (fun _ => Nat.zero_le _) split apart
        isAggregate
  | max =>
      exact pendingAggregate_isBest beatsMax_decides (fun _ => Nat.zero_le _) split apart
        isAggregate
  | binary =>
      refine binaryAggregate_eq isAggregate ?_
      have short : (requestsOf ((before ++ after).map Vote.of) client.type).length ≤
          (before ++ after).length := by
        rw [requestsOf, List.length_map]
        exact (List.length_filter_le _ _).trans (List.length_map _).le
      omega

/-- The votes behind a processed request. -/
theorem setClient_split {before after : List (UInt32 × Client)} {written : Client}
    (split : resource.clients = before ++ (address, client) :: after)
    (apart : ∀ entry ∈ before ++ after, entry.1 ≠ address) :
    (resource.setClient address written).clients = before ++ (address, written) :: after := by
  have part : ∀ entries : List (UInt32 × Client), (∀ entry ∈ entries, entry.1 ≠ address) →
      entries.map (fun entry => if entry.1 = address then (address, written) else entry) =
        entries := by
    intro entries others
    refine (List.map_congr_left fun entry member => ?_).trans (List.map_id entries)
    exact if_neg (others entry member)
  simp only [Resource.setClient]
  rw [split, List.map_append, List.map_cons, if_pos rfl,
    part before fun entry member => apart entry (List.mem_append_left _ member),
    part after fun entry member => apart entry (List.mem_append_right _ member)]

end QHal.Unpa
