/-
Module: QHal.Proofs.UnpaClients
Purpose: The clients of a uNPA resource in every run of client calls: their number, their types, and
  which types unpa_create_client accepts although no aggregate counts them.
Trusted boundary: none
Main exports: Ballot.links, Ballot.step_links, creates, destroys, Accounted, ClientsSafe,
  clientsSafe_iff
-/
import QHal.Proofs.UnpaRequests

namespace QHal.Unpa

variable {definition : ResourceDefinition} {initialState : UInt32} {system last : UnpaSystem}
  {ballot next : Ballot} {driver : DriverFcn} {actions : List UnpaAction}

/-! ## The clients that are linked -/

/-- The linked clients with their types. -/
def Ballot.links (ballot : Ballot) : List (UInt32 × UInt8) :=
  ballot.votes.map fun vote => (vote.address, vote.type)

/-- What a step makes of the links. -/
def Ballot.linksAfter (definition : ResourceDefinition) (ballot : Ballot) :
    UnpaAction → List (UInt32 × UInt8)
  | .createClient address clientType =>
      if (supportedTypes definition).toUInt32 &&& clientType = 0 ∨ address = 0 then ballot.links
      else (address, clientType.toUInt8) :: ballot.links
  | .lock address =>
      if ballot.call address = .unlinking then
        ballot.links.eraseP fun link => link.1 == address
      else ballot.links
  | _ => ballot.links

theorem Ballot.links_cast (ballot : Ballot) (address request : UInt32) :
    (ballot.cast address request).links = ballot.links := by
  unfold Ballot.links Ballot.cast
  rw [List.map_map]
  apply List.map_congr_left
  intro vote _
  simp only [Function.comp_apply]
  split <;> rfl

theorem Ballot.links_remove (ballot : Ballot) (address : UInt32) :
    (ballot.remove address).links = ballot.links.eraseP fun link => link.1 == address := by
  unfold Ballot.links Ballot.remove
  rw [List.eraseP_map]
  rfl

theorem Ballot.step_links {action : UnpaAction}
    (stepped : ballot.step definition action = some next) :
    next.links = ballot.linksAfter definition action := by
  cases action with
  | createClient address clientType =>
      simp only [Ballot.step] at stepped
      split at stepped
      case isTrue => cases stepped
      case isFalse =>
        simp only [Ballot.linksAfter]
        split at stepped
        case isTrue refused =>
          cases stepped
          rw [if_pos refused]
        case isFalse accepted =>
          cases stepped
          rw [if_neg accepted]
          rfl
  | issueRequest address request =>
      obtain ⟨-, vote, -, ⟨-, rfl⟩ | ⟨-, rfl⟩⟩ := Ballot.ask_cases stepped <;> rfl
  | cancelRequest address =>
      obtain ⟨-, vote, -, ⟨-, rfl⟩ | ⟨-, rfl⟩⟩ := Ballot.ask_cases stepped <;> rfl
  | tryIssueRequest address request =>
      obtain ⟨-, vote, -, ⟨-, rfl⟩ | ⟨-, rfl⟩⟩ := Ballot.tryAsk_cases stepped <;> rfl
  | tryCancelRequest address =>
      obtain ⟨-, vote, -, ⟨-, rfl⟩ | ⟨-, rfl⟩⟩ := Ballot.tryAsk_cases stepped <;> rfl
  | destroyClient address =>
      obtain ⟨-, vote, -, ⟨-, rfl⟩ | ⟨-, rfl⟩⟩ := Ballot.ask_cases stepped <;> rfl
  | lock address =>
      simp only [Ballot.step, Ballot.locked] at stepped
      split at stepped
      case isFalse => cases stepped
      case isTrue =>
        simp only [Ballot.linksAfter]
        cases call : ballot.call address with
        | idle => simp [call] at stepped
        | trying request => simp [call] at stepped
        | issuing request destroying =>
            simp only [call, Option.some.injEq] at stepped
            have waits : Call.issuing request destroying ≠ .unlinking := by
              intro same
              cases same
            rw [← stepped, if_neg waits]
            exact ballot.links_cast address request
        | unlinking =>
            simp only [call, Option.some.injEq] at stepped
            rw [← stepped, if_pos rfl]
            exact ballot.links_remove address
  | tryLock address taken =>
      simp only [Ballot.step, Ballot.tried] at stepped
      split at stepped
      case isFalse => cases stepped
      case isTrue =>
        cases call : ballot.call address with
        | trying request =>
            simp only [call, Option.some.injEq] at stepped
            rw [← stepped]
            cases taken with
            | true => exact ballot.links_cast address request
            | false => rfl
        | idle => simp [call] at stepped
        | issuing request destroying => simp [call] at stepped
        | unlinking => simp [call] at stepped

/-! ## Creations and destructions -/

/-- The step returns a new client. -/
def creates (system : UnpaSystem) : UnpaAction → Bool
  | .createClient address clientType =>
      !decide ((supportedTypes system.resource.definition).toUInt32 &&& clientType = 0 ∨
        address = 0)
  | _ => false

/-- The step unlinks a client. -/
def destroys (system : UnpaSystem) : UnpaAction → Bool
  | .lock address => decide (system.phase address = .unlinking)
  | _ => false

theorem Refines.length_links (refines : Refines driver definition initialState system ballot) :
    ballot.links.length = system.resource.clients.length := by
  rw [Ballot.links, List.length_map, ← refines.votes, List.length_map]

theorem Refines.unlinking_iff (refines : Refines driver definition initialState system ballot)
    (address : UInt32) :
    ballot.call address = .unlinking ↔ system.phase address = .unlinking := by
  rw [refines.call address]
  cases system.phase address <;> simp [Phase.call]

/-- A step changes the number of clients by the one that it creates or destroys. -/
theorem Refines.step_length {mate : UnpaSystem} {action : UnpaAction}
    (refines : Refines driver definition initialState system ballot)
    (stepped : system.step driver action = some mate) :
    (∃ ballot, Refines driver definition initialState mate ballot) ∧
      mate.resource.clients.length + (if destroys system action then 1 else 0) =
        system.resource.clients.length + if creates system action then 1 else 0 := by
  have related := refines.step action
  rw [stepped] at related
  generalize moved : ballot.step definition action = result at related
  cases related with
  | some after =>
      rename_i next
      refine ⟨⟨next, after⟩, ?_⟩
      have links := congrArg List.length (Ballot.step_links moved)
      rw [after.length_links] at links
      have before := refines.length_links
      cases action with
      | createClient address clientType =>
          simp only [Ballot.linksAfter] at links
          simp only [creates, destroys, refines.defined]
          split at links
          case isTrue refused => simp [refused, links, before]
          case isFalse accepted => simp [accepted, links, before]
      | lock address =>
          simp only [Ballot.linksAfter] at links
          simp only [creates, destroys, ← refines.unlinking_iff address]
          split at links
          case isTrue unlinking =>
            have live := refines.wellFormed.live address (by rw [unlinking]; exact nofun)
            obtain ⟨vote, listed, own⟩ := List.mem_map.mp live
            have linked : (vote.address, vote.type) ∈ ballot.links :=
              List.mem_map.mpr ⟨vote, listed, rfl⟩
            have shorter := List.length_eraseP_of_mem linked
              (p := fun link => link.1 == address) (by simp [own])
            have positive := List.length_pos_of_mem linked
            simp [unlinking]
            omega
          case isFalse waiting => simp [waiting, links, before]
      | issueRequest address request => exact links.trans before
      | cancelRequest address => exact links.trans before
      | tryIssueRequest address request => exact links.trans before
      | tryCancelRequest address => exact links.trans before
      | destroyClient address => exact links.trans before
      | tryLock address taken => exact links.trans before

/-! ## Types -/

/-- unpa_create_client refuses, or the type that the client keeps is one type exactly. -/
def OneType (definition : ResourceDefinition) (address clientType : UInt32) : Prop :=
  (supportedTypes definition).toUInt32 &&& clientType = 0 ∨ address = 0 ∨
    ∃ index : AggIndex, clientType.toUInt8 = index.clientType

/-- A client counts in one aggregate, whose type the update function supports. -/
def CountsOnce (definition : ResourceDefinition) (type : UInt8) : Prop :=
  ∃! index : AggIndex, type = index.clientType ∧
    unpaGetSupportedClientTypes definition.updateFcn &&& index.clientType ≠ 0

theorem countsOnce_iff (definition : ResourceDefinition) (type : UInt8) :
    CountsOnce definition type ↔ ∃ index : AggIndex, type = index.clientType := by
  constructor
  · rintro ⟨index, ⟨same, -⟩, -⟩
    exact ⟨index, same⟩
  · rintro ⟨index, same⟩
    refine ⟨index, ⟨same, ?_⟩, fun other counts => ?_⟩
    · cases definition.updateFcn <;> cases index <;> decide
    · have two := unpaGetAggIndex_eq_some.mpr counts.1
      have one := unpaGetAggIndex_eq_some.mpr same
      exact Option.some.inj (two.symm.trans one)

theorem Ballot.step_typed {good : UInt8 → Prop} {action : UnpaAction}
    (typed : ∀ link ∈ ballot.links, good link.2)
    (own : ∀ address clientType, action = .createClient address clientType →
      ¬ ((supportedTypes definition).toUInt32 &&& clientType = 0 ∨ address = 0) →
        good clientType.toUInt8)
    (stepped : ballot.step definition action = some next) : ∀ link ∈ next.links, good link.2 := by
  intro link listed
  rw [Ballot.step_links stepped] at listed
  cases action with
  | createClient address clientType =>
      simp only [Ballot.linksAfter] at listed
      split at listed
      case isTrue => exact typed link listed
      case isFalse accepted =>
        rcases List.mem_cons.mp listed with rfl | old
        · exact own address clientType rfl accepted
        · exact typed link old
  | lock address =>
      simp only [Ballot.linksAfter] at listed
      split at listed
      case isTrue => exact typed link (List.mem_of_mem_eraseP listed)
      case isFalse => exact typed link listed
  | issueRequest address request => exact typed link listed
  | cancelRequest address => exact typed link listed
  | tryIssueRequest address request => exact typed link listed
  | tryCancelRequest address => exact typed link listed
  | destroyClient address => exact typed link listed
  | tryLock address taken => exact typed link listed

/-- The types of the linked clients in a run whose creations are all of one type. -/
theorem Ballot.exec_typed (typed : ∀ link ∈ ballot.links, CountsOnce definition link.2)
    (creations : ∀ address clientType, .createClient address clientType ∈ actions →
      OneType definition address clientType)
    (run : Runs.exec (Ballot.step definition) ballot actions = some next) :
    ∀ link ∈ next.links, CountsOnce definition link.2 := by
  induction actions generalizing ballot with
  | nil =>
      cases run
      exact typed
  | cons action actions ih =>
      obtain ⟨middle, stepped, rest⟩ := Runs.exec_cons.mp run
      refine ih (Ballot.step_typed typed ?_ stepped) (fun address clientType listed =>
        creations address clientType (List.mem_cons_of_mem _ listed)) rest
      rintro address clientType rfl accepted
      rw [not_or] at accepted
      have one := creations address clientType List.mem_cons_self
      exact (countsOnce_iff definition _).mpr
        ((one.resolve_left accepted.1).resolve_left accepted.2)

/-! ## Runs -/

/-- What is promised of the clients of a resource. -/
structure Accounted (definition : ResourceDefinition) (created destroyed : Nat)
    (resource : Resource) : Prop where
  typed : ∀ entry ∈ resource.clients, CountsOnce definition entry.2.type
  aggregates : ∀ index, IsAggregate definition.updateFcn (liveRequests resource index)
    (resource.aggState index)
  distinct : (resource.clients.map Prod.fst).Nodup
  balance : resource.clients.length + destroyed = created

/-- The promise at every point of a run. -/
def ClientsSafe (driver : DriverFcn) (definition : ResourceDefinition) (initialState : UInt32)
    (actions : List UnpaAction) : Prop :=
  ∀ before after system, actions = before ++ after →
    Runs.exec (UnpaSystem.step driver) (UnpaSystem.start driver definition initialState) before =
      some system →
    Accounted definition
      (Runs.tally (UnpaSystem.step driver) creates
        (UnpaSystem.start driver definition initialState) before)
      (Runs.tally (UnpaSystem.step driver) destroys
        (UnpaSystem.start driver definition initialState) before)
      system.resource

/-- Each run keeps the books of its clients, whatever their types are. -/
theorem length_balance
    (run : Runs.exec (UnpaSystem.step driver) (UnpaSystem.start driver definition initialState)
      actions = some last) :
    last.resource.clients.length +
        Runs.tally (UnpaSystem.step driver) destroys
          (UnpaSystem.start driver definition initialState) actions =
      Runs.tally (UnpaSystem.step driver) creates
        (UnpaSystem.start driver definition initialState) actions := by
  have keeps : ∀ system action next,
      (∃ ballot, Refines driver definition initialState system ballot) →
      system.step driver action = some next →
      (∃ ballot, Refines driver definition initialState next ballot) ∧
        next.resource.clients.length + (if destroys system action then 1 else 0) =
          system.resource.clients.length + if creates system action then 1 else 0 :=
    fun _ _ _ ⟨_, refines⟩ stepped => refines.step_length stepped
  have balance := Runs.tally_balance keeps ⟨_, refines_start driver definition initialState⟩ run
  exact balance.trans (Nat.zero_add _)

/-- The links of a resource are those of its ballot. -/
theorem Refines.links_eq (refines : Refines driver definition initialState system ballot) :
    ballot.links = system.resource.clients.map fun entry => (entry.1, entry.2.type) := by
  rw [Ballot.links, ← refines.votes, List.map_map]
  rfl

/-- In every run each client counts in exactly one aggregate and the linked clients are those that
were created and not destroyed, if and only if each creation is refused or of exactly one type. -/
theorem clientsSafe_iff
    (run : Runs.exec (UnpaSystem.step driver) (UnpaSystem.start driver definition initialState)
      actions = some last) :
    ClientsSafe driver definition initialState actions ↔
      ∀ address clientType, .createClient address clientType ∈ actions →
        OneType definition address clientType := by
  constructor
  · intro safe address clientType listed
    by_contra many
    obtain ⟨before, after, split⟩ := List.append_of_mem listed
    rw [split, Runs.exec_append] at run
    obtain ⟨middle, reached, rest⟩ := Option.bind_eq_some_iff.mp run
    obtain ⟨next, stepped, -⟩ := Runs.exec_cons.mp rest
    have accounted := safe (before ++ [.createClient address clientType]) after next
      (by rw [split, List.append_assoc, List.singleton_append])
      (by rw [Runs.exec_append, reached]; exact Runs.exec_cons.mpr ⟨next, stepped, rfl⟩)
    obtain ⟨ballot, -, refines⟩ := exists_ballot reached
    have related := refines.step (.createClient address clientType)
    rw [stepped] at related
    generalize moved : ballot.step definition (.createClient address clientType) = result at related
    cases related with
    | some mate =>
        have links := Ballot.step_links moved
        have accepted : ¬ ((supportedTypes definition).toUInt32 &&& clientType = 0 ∨ address = 0) :=
          fun refused => many (refused.imp_right .inl)
        simp only [Ballot.linksAfter, if_neg accepted, mate.links_eq] at links
        have new : (address, clientType.toUInt8) ∈ next.resource.clients.map fun entry =>
            (entry.1, entry.2.type) := links ▸ List.mem_cons_self
        obtain ⟨entry, linked, same⟩ := List.mem_map.mp new
        have counts := (countsOnce_iff definition _).mp (accounted.typed entry linked)
        rw [(Prod.mk.inj same).2] at counts
        exact many (.inr (.inr counts))
  · intro creations before after system split reached
    obtain ⟨ballot, voted, refines⟩ := exists_ballot reached
    have none : ∀ link ∈ Ballot.start.links, CountsOnce definition link.2 := nofun
    have typed := Ballot.exec_typed none
      (fun address clientType listed =>
        creations address clientType (split ▸ List.mem_append_left _ listed)) voted
    refine ⟨fun entry linked => ?_, fun index => ?_, refines.distinct, length_balance reached⟩
    · apply typed (entry.1, entry.2.type)
      rw [refines.links_eq]
      exact List.mem_map.mpr ⟨entry, linked, rfl⟩
    · rw [liveRequests_eq refines.votes]
      exact refines.aggregates index

theorem clientsSafe_iff_maxRun :
    ClientsSafe obedient maxDefinition 5 maxRun ↔
      ∀ address clientType, .createClient address clientType ∈ maxRun →
        OneType maxDefinition address clientType := by
  obtain ⟨last, run⟩ : ∃ last, Runs.exec (UnpaSystem.step obedient)
      (UnpaSystem.start obedient maxDefinition 5) maxRun = some last := ⟨_, rfl⟩
  exact clientsSafe_iff run

/-- A client that is created as required and suppressible at once counts in no aggregate. -/
theorem clientsSafe_not_combined :
    ¬ ClientsSafe obedient maxDefinition 0 [.createClient 8 3, .issueRequest 8 7, .lock 8] := by
  intro safe
  have accounted := safe [.createClient 8 3, .issueRequest 8 7, .lock 8] [] _ rfl rfl
  obtain ⟨index, ⟨type, -⟩, -⟩ := accounted.typed _ List.mem_cons_self
  cases index with
  | required => exact absurd type (by decide)
  | suppressible => exact absurd type (by decide)
  | sleep => exact absurd type (by decide)

end QHal.Unpa
