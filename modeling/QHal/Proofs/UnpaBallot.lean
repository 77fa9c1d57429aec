/-
Module: QHal.Proofs.UnpaBallot
Purpose: The ballot stays well formed, its votes are the last processed requests,
  and a call whose attempt to take the lock failed can be left out of a run.
Trusted boundary: none
Main exports: Ballot.WellFormed.step, Ballot.Remembers.exec, Ballot.exec_without_try
-/
import Mathlib.Data.List.Nodup
import QHal.Unpa.Ballot

namespace QHal.Unpa

namespace Ballot

variable {ballot next : Ballot} {address request : UInt32} {definition : ResourceDefinition}

theorem vote_mem {vote : Vote} (found : ballot.vote address = some vote) :
    vote ∈ ballot.votes ∧ vote.address = address := by
  refine ⟨List.mem_of_find?_eq_some found, ?_⟩
  simpa using List.find?_some found

theorem vote_isSome_iff :
    (ballot.vote address).isSome = true ↔ address ∈ ballot.votes.map Vote.address := by
  simp [vote, List.find?_isSome]

/-- The one vote of an address. -/
theorem WellFormed.vote_eq (wellFormed : ballot.WellFormed) {first second : Vote}
    (one : first ∈ ballot.votes) (two : second ∈ ballot.votes)
    (same : first.address = second.address) : first = second :=
  List.inj_on_of_nodup_map wellFormed.distinct one two same

@[simp] theorem setCall_votes (call : Call) : (ballot.setCall address call).votes = ballot.votes :=
  rfl

@[simp] theorem setCall_processed (call : Call) :
    (ballot.setCall address call).processed = ballot.processed := rfl

@[simp] theorem cast_call : (ballot.cast address request).call = ballot.call := rfl

@[simp] theorem remove_call : (ballot.remove address).call = ballot.call := rfl

theorem cast_addresses :
    (ballot.cast address request).votes.map Vote.address = ballot.votes.map Vote.address := by
  simp only [cast, List.map_map]
  apply List.map_congr_left
  intro vote _
  simp only [Function.comp_apply]
  split <;> rfl

theorem mem_cast {vote : Vote} :
    vote ∈ (ballot.cast address request).votes ↔
      (vote.address = address ∧ vote.request = request ∧
        ∃ held ∈ ballot.votes, held.address = address ∧ held.type = vote.type) ∨
      (vote.address ≠ address ∧ vote ∈ ballot.votes) := by
  simp only [cast, List.mem_map]
  constructor
  · rintro ⟨held, member, rfl⟩
    by_cases same : held.address = address
    · rw [if_pos same]
      exact Or.inl ⟨same, rfl, held, member, same, rfl⟩
    · rw [if_neg same]
      exact Or.inr ⟨same, member⟩
  · rintro (⟨same, asked, held, member, owner, kind⟩ | ⟨other, member⟩)
    · refine ⟨held, member, ?_⟩
      rw [if_pos owner]
      cases vote
      cases held
      simp_all
    · exact ⟨vote, member, if_neg other⟩

/-! ## Well-formedness -/

theorem WellFormed.setCall (wellFormed : ballot.WellFormed) {call : Call}
    (live : address ∈ ballot.votes.map Vote.address)
    (cancels : ∀ request, call = .issuing request true → request = 0)
    (cancelled : call = .unlinking →
      ∀ vote ∈ ballot.votes, vote.address = address → vote.request = 0) :
    (ballot.setCall address call).WellFormed where
  distinct := wellFormed.distinct
  nonNull := wellFormed.nonNull
  live := by
    intro caller busy
    by_cases same : caller = address
    · rw [same]
      exact live
    · apply wellFormed.live
      simpa [Ballot.setCall, Function.update_of_ne same] using busy
  cancels := by
    intro caller request calls
    by_cases same : caller = address
    · subst same
      exact cancels request (by simpa [Ballot.setCall] using calls)
    · exact wellFormed.cancels caller request
        (by simpa [Ballot.setCall, Function.update_of_ne same] using calls)
  cancelled := by
    intro vote member calls
    by_cases same : vote.address = address
    · exact cancelled (by simpa [Ballot.setCall, same] using calls) vote member same
    · exact wellFormed.cancelled vote member
        (by simpa [Ballot.setCall, Function.update_of_ne same] using calls)

theorem WellFormed.cast (wellFormed : ballot.WellFormed)
    (waiting : ballot.call address ≠ .unlinking) :
    (ballot.cast address request).WellFormed where
  distinct := by
    rw [cast_addresses]
    exact wellFormed.distinct
  nonNull := by
    intro vote member
    rcases mem_cast.mp member with ⟨same, -, held, old, owner, -⟩ | ⟨-, old⟩
    · rw [same, ← owner]
      exact wellFormed.nonNull held old
    · exact wellFormed.nonNull vote old
  live := by
    rw [cast_addresses]
    exact wellFormed.live
  cancels := wellFormed.cancels
  cancelled := by
    intro vote member calls
    rcases mem_cast.mp member with ⟨same, -⟩ | ⟨-, old⟩
    · rw [same] at calls
      exact absurd calls waiting
    · exact wellFormed.cancelled vote old calls

theorem mem_eraseP_address {votes : List Vote} (distinct : (votes.map Vote.address).Nodup)
    {vote : Vote} :
    vote ∈ votes.eraseP (fun vote => vote.address == address) ↔
      vote.address ≠ address ∧ vote ∈ votes := by
  induction votes with
  | nil => simp
  | cons head votes ih =>
      rw [List.map_cons, List.nodup_cons] at distinct
      by_cases same : head.address = address
      · rw [List.eraseP_cons_of_pos (by simpa using same)]
        constructor
        · intro member
          refine ⟨fun equal => distinct.1 ?_, List.mem_cons_of_mem head member⟩
          rw [same, ← equal]
          exact List.mem_map_of_mem member
        · rintro ⟨other, member⟩
          rcases List.mem_cons.mp member with first | later
          · rw [first] at other
            exact absurd same other
          · exact later
      · rw [List.eraseP_cons_of_neg (by simpa using same), List.mem_cons, List.mem_cons,
          ih distinct.2]
        constructor
        · rintro (first | ⟨other, later⟩)
          · exact ⟨first ▸ same, Or.inl first⟩
          · exact ⟨other, Or.inr later⟩
        · rintro ⟨other, first | later⟩
          · exact Or.inl first
          · exact Or.inr ⟨other, later⟩

theorem mem_remove (wellFormed : ballot.WellFormed) {vote : Vote} :
    vote ∈ (ballot.remove address).votes ↔ vote.address ≠ address ∧ vote ∈ ballot.votes :=
  mem_eraseP_address wellFormed.distinct

/-- A client that waits to be unlinked goes. -/
theorem WellFormed.remove (wellFormed : ballot.WellFormed) :
    ((ballot.remove address).setCall address .idle).WellFormed where
  distinct := wellFormed.distinct.sublist ((List.eraseP_sublist ..).map Vote.address)
  nonNull := fun vote member => wellFormed.nonNull vote ((mem_remove wellFormed).mp member).2
  live := by
    intro caller busy
    have other : caller ≠ address := by
      intro same
      simp [Ballot.setCall, same] at busy
    obtain ⟨vote, member, owner⟩ := List.mem_map.mp (wellFormed.live caller
      (by simpa [Ballot.setCall, Function.update_of_ne other] using busy))
    refine List.mem_map.mpr ⟨vote, (mem_remove wellFormed).mpr ⟨?_, member⟩, owner⟩
    rw [owner]
    exact other
  cancels := by
    intro caller request calls
    by_cases same : caller = address
    · simp [Ballot.setCall, same] at calls
    · exact wellFormed.cancels caller request
        (by simpa [Ballot.setCall, Function.update_of_ne same] using calls)
  cancelled := by
    intro vote member calls
    obtain ⟨other, old⟩ := (mem_remove wellFormed).mp member
    exact wellFormed.cancelled vote old
      (by simpa [Ballot.setCall, Function.update_of_ne other] using calls)

/-- What the entry of a call does. -/
theorem ask_cases {destroying : Bool} (asked : ballot.ask address request destroying = some next) :
    ballot.call address = .idle ∧ ∃ vote, ballot.vote address = some vote ∧
      (request ≠ vote.request ∧ next = ballot.setCall address (.issuing request destroying) ∨
        request = vote.request ∧
          next = ballot.setCall address (if destroying then .unlinking else .idle)) := by
  unfold ask at asked
  split at asked
  case isFalse => cases asked
  case isTrue idle =>
    obtain ⟨vote, found, result⟩ := Option.map_eq_some_iff.mp asked
    refine ⟨idle, vote, found, ?_⟩
    split at result
    case isTrue differs => exact Or.inl ⟨differs, result.symm⟩
    case isFalse same => exact Or.inr ⟨not_not.mp same, result.symm⟩

theorem tryAsk_cases (asked : ballot.tryAsk address request = some next) :
    ballot.call address = .idle ∧ ∃ vote, ballot.vote address = some vote ∧
      (request ≠ vote.request ∧ next = ballot.setCall address (.trying request) ∨
        request = vote.request ∧ next = ballot) := by
  unfold tryAsk at asked
  split at asked
  case isFalse => cases asked
  case isTrue idle =>
    obtain ⟨vote, found, result⟩ := Option.map_eq_some_iff.mp asked
    refine ⟨idle, vote, found, ?_⟩
    split at result
    case isTrue differs => exact Or.inl ⟨differs, result.symm⟩
    case isFalse same => exact Or.inr ⟨not_not.mp same, result.symm⟩

theorem WellFormed.ask (wellFormed : ballot.WellFormed) {destroying : Bool}
    (zero : destroying = true → request = 0)
    (asked : ballot.ask address request destroying = some next) : next.WellFormed := by
  obtain ⟨-, vote, found, change⟩ := ask_cases asked
  obtain ⟨member, owner⟩ := vote_mem found
  have live : address ∈ ballot.votes.map Vote.address := owner ▸ List.mem_map_of_mem member
  rcases change with ⟨-, result⟩ | ⟨same, result⟩
  · rw [result]
    refine wellFormed.setCall live ?_ (fun calls => nomatch calls)
    intro wanted calls
    injection calls with wantedEq destroyingEq
    rw [← wantedEq]
    exact zero destroyingEq
  · rw [result]
    refine wellFormed.setCall live ?_ ?_
    · intro wanted calls
      split at calls <;> cases calls
    · intro calls other otherMember otherOwner
      have destroys : destroying = true := by
        by_contra keeps
        rw [if_neg keeps] at calls
        cases calls
      rw [wellFormed.vote_eq otherMember member (otherOwner.trans owner.symm), ← same]
      exact zero destroys

theorem WellFormed.tryAsk (wellFormed : ballot.WellFormed)
    (asked : ballot.tryAsk address request = some next) : next.WellFormed := by
  obtain ⟨-, vote, found, change⟩ := tryAsk_cases asked
  obtain ⟨member, owner⟩ := vote_mem found
  have live : address ∈ ballot.votes.map Vote.address := owner ▸ List.mem_map_of_mem member
  rcases change with ⟨-, result⟩ | ⟨-, result⟩
  · rw [result]
    exact wellFormed.setCall live (fun _ calls => nomatch calls) (fun calls => nomatch calls)
  · rw [result]
    exact wellFormed

theorem WellFormed.locked (wellFormed : ballot.WellFormed)
    (done : ballot.locked address = some next) : next.WellFormed := by
  unfold Ballot.locked at done
  split at done
  case h_1 request destroying calls =>
    obtain rfl := Option.some.inj done
    have waiting : ballot.call address ≠ .unlinking := by rw [calls]; exact nofun
    have live : address ∈ (ballot.cast address request).votes.map Vote.address := by
      rw [cast_addresses]
      exact wellFormed.live address (by rw [calls]; exact nofun)
    refine (wellFormed.cast waiting).setCall live ?_ ?_
    · intro wanted call
      split at call <;> cases call
    · intro unlinks vote member owner
      have destroys : destroying = true := by
        by_contra keeps
        rw [if_neg keeps] at unlinks
        cases unlinks
      rw [destroys] at calls
      rcases mem_cast.mp member with ⟨-, cast, -⟩ | ⟨other, -⟩
      · rw [cast]
        exact wellFormed.cancels address request calls
      · exact absurd owner other
  case h_2 =>
    obtain rfl := Option.some.inj done
    exact wellFormed.remove
  case h_3 => cases done
  case h_4 => cases done

theorem WellFormed.tried (wellFormed : ballot.WellFormed) {taken : Bool}
    (done : ballot.tried address taken = some next) : next.WellFormed := by
  unfold Ballot.tried at done
  split at done
  case h_1 request calls =>
    obtain rfl := Option.some.inj done
    have live : address ∈ ballot.votes.map Vote.address :=
      wellFormed.live address (by rw [calls]; exact nofun)
    cases taken with
    | true =>
        refine (wellFormed.cast (by rw [calls]; exact nofun)).setCall ?_
          (fun _ call => nomatch call) (fun call => nomatch call)
        rw [cast_addresses]
        exact live
    | false =>
        exact wellFormed.setCall live (fun _ call => nomatch call) (fun call => nomatch call)
  case h_2 => cases done

/-- Every step keeps the ballot well formed. -/
theorem WellFormed.step (wellFormed : ballot.WellFormed) {action : UnpaAction}
    (done : ballot.step definition action = some next) : next.WellFormed := by
  cases action with
  | createClient address clientType =>
      simp only [Ballot.step] at done
      split at done
      case isTrue => cases done
      case isFalse fresh =>
        split at done
        case isTrue =>
          obtain rfl := Option.some.inj done
          exact wellFormed
        case isFalse created =>
          obtain rfl := Option.some.inj done
          have unused : address ∉ ballot.votes.map Vote.address := fun used =>
            fresh (vote_isSome_iff.mpr used)
          refine ⟨List.nodup_cons.mpr ⟨unused, wellFormed.distinct⟩, ?_, ?_, wellFormed.cancels, ?_⟩
          · intro vote member
            rcases List.mem_cons.mp member with first | later
            · rw [first]
              exact fun null => created (Or.inr null)
            · exact wellFormed.nonNull vote later
          · intro caller busy
            exact List.mem_cons_of_mem _ (wellFormed.live caller busy)
          · intro vote member calls
            rcases List.mem_cons.mp member with first | later
            · rw [first]
            · exact wellFormed.cancelled vote later calls
  | issueRequest address request => exact wellFormed.ask Bool.false_ne_true.elim done
  | cancelRequest address => exact wellFormed.ask (fun _ => rfl) done
  | tryIssueRequest address request => exact wellFormed.tryAsk done
  | tryCancelRequest address => exact wellFormed.tryAsk done
  | destroyClient address => exact wellFormed.ask (fun _ => rfl) done
  | lock address =>
      simp only [Ballot.step] at done
      split at done
      · exact wellFormed.locked done
      · cases done
  | tryLock address taken =>
      simp only [Ballot.step] at done
      split at done
      · exact wellFormed.tried done
      · cases done

theorem wellFormed_start : start.WellFormed where
  distinct := List.nodup_nil
  nonNull := fun _ member => absurd member List.not_mem_nil
  live := fun _ busy => absurd rfl busy
  cancels := fun _ _ calls => nomatch calls
  cancelled := fun _ member => absurd member List.not_mem_nil

theorem WellFormed.exec (wellFormed : ballot.WellFormed) {actions : List UnpaAction}
    (run : Runs.exec (Ballot.step definition) ballot actions = some next) : next.WellFormed :=
  Runs.invariant_always (fun _ _ _ before done => WellFormed.step before done) wellFormed run

/-! ## Votes are the last processed requests -/

/-- The votes and the calls of a ballot against the past of every client. -/
structure Remembers (ballot : Ballot) (past : UInt32 → Past) : Prop where
  votes : ∀ vote ∈ ballot.votes, vote.request = (past vote.address).last
  issuing : ∀ address request destroying, ballot.call address = .issuing request destroying →
    (past address).asked = request
  trying : ∀ address request, ballot.call address = .trying request →
    (past address).asked = request

/-- A step adds to the past of its own client only. -/
theorem past_other {action : UnpaAction} (other : action.client ≠ address) (past : Past) :
    past.after address action = past := by
  cases action <;> simp_all [Past.after, UnpaAction.client]

/-- What a step leaves as it was: the calls and the votes of the other clients. -/
structure Frame (address : UInt32) (ballot next : Ballot) : Prop where
  call : ∀ other, other ≠ address → next.call other = ballot.call other
  votes : ∀ vote : Vote, vote.address ≠ address → vote ∈ next.votes → vote ∈ ballot.votes

theorem Frame.setCall (call : Call) : Frame address ballot (ballot.setCall address call) where
  call := fun _ different => Function.update_of_ne different _ _
  votes := fun _ _ member => member

theorem Frame.trans {middle : Ballot} (first : Frame address ballot middle)
    (second : Frame address middle next) : Frame address ballot next where
  call := fun other different => (second.call other different).trans (first.call other different)
  votes := fun vote different member =>
    first.votes vote different (second.votes vote different member)

theorem Frame.cast : Frame address ballot (ballot.cast address request) where
  call := fun _ _ => rfl
  votes := by
    intro vote different member
    rcases mem_cast.mp member with ⟨same, -⟩ | ⟨-, old⟩
    · exact absurd same different
    · exact old

theorem Frame.remove : Frame address ballot (ballot.remove address) where
  call := fun _ _ => rfl
  votes := fun _ _ member => List.mem_of_mem_eraseP member

/-- What is left to show for a step is about its own client. -/
theorem Remembers.of_frame {past : UInt32 → Past} {action : UnpaAction}
    (remembers : ballot.Remembers past) (frame : Frame action.client ballot next)
    (votes : ∀ vote ∈ next.votes, vote.address = action.client →
      vote.request = ((past action.client).after action.client action).last)
    (issuing : ∀ request destroying, next.call action.client = .issuing request destroying →
      ((past action.client).after action.client action).asked = request)
    (trying : ∀ request, next.call action.client = .trying request →
      ((past action.client).after action.client action).asked = request) :
    next.Remembers fun address => (past address).after address action where
  votes := by
    intro vote member
    by_cases own : vote.address = action.client
    · rw [own]
      exact votes vote member own
    · rw [past_other (Ne.symm own)]
      exact remembers.votes vote (frame.votes vote own member)
  issuing := by
    intro address request destroying calls
    by_cases own : address = action.client
    · subst own
      exact issuing request destroying calls
    · rw [past_other (Ne.symm own)]
      rw [frame.call address own] at calls
      exact remembers.issuing address request destroying calls
  trying := by
    intro address request calls
    by_cases own : address = action.client
    · subst own
      exact trying request calls
    · rw [past_other (Ne.symm own)]
      rw [frame.call address own] at calls
      exact remembers.trying address request calls

/-- The entry of a call, which only notes the request. -/
theorem Remembers.ask {past : UInt32 → Past} {action : UnpaAction} {destroying : Bool}
    (remembers : ballot.Remembers past)
    (notes : ∀ past : Past, past.after action.client action = { past with asked := request })
    (asked : ballot.ask action.client request destroying = some next) :
    next.Remembers fun address => (past address).after address action := by
  obtain ⟨-, vote, -, change⟩ := ask_cases asked
  have keeps : ∀ call, (∀ wanted destroys, call = .issuing wanted destroys → wanted = request) →
      (∀ wanted, call ≠ .trying wanted) → next = ballot.setCall action.client call →
      next.Remembers fun address => (past address).after address action := by
    rintro call issuing trying rfl
    refine remembers.of_frame (Frame.setCall call) ?_ ?_ ?_
    · intro held member own
      rw [notes, ← own]
      exact remembers.votes held member
    · intro wanted destroys calls
      rw [notes]
      exact (issuing wanted destroys (by simpa [setCall] using calls)).symm
    · intro wanted calls
      exact absurd (by simpa [setCall] using calls) (trying wanted)
  rcases change with ⟨-, result⟩ | ⟨-, result⟩
  · refine keeps (.issuing request destroying) ?_ (fun _ wrong => nomatch wrong) result
    intro wanted destroys calls
    injection calls with same
    exact same.symm
  · refine keeps _ ?_ ?_ result
    · intro wanted destroys calls
      split at calls <;> cases calls
    · intro wanted calls
      split at calls <;> cases calls

theorem Remembers.tryAsk {past : UInt32 → Past} {action : UnpaAction}
    (remembers : ballot.Remembers past)
    (notes : ∀ past : Past, past.after action.client action = { past with asked := request })
    (asked : ballot.tryAsk action.client request = some next) :
    next.Remembers fun address => (past address).after address action := by
  obtain ⟨idle, vote, -, change⟩ := tryAsk_cases asked
  rcases change with ⟨-, rfl⟩ | ⟨-, rfl⟩
  · refine remembers.of_frame (Frame.setCall _) ?_ ?_ ?_
    · intro held member own
      rw [notes, ← own]
      exact remembers.votes held member
    · intro wanted destroys calls
      simp [setCall] at calls
    · intro wanted calls
      rw [notes]
      simpa [setCall] using calls
  · refine remembers.of_frame ⟨fun _ _ => rfl, fun _ _ member => member⟩ ?_ ?_ ?_
    · intro held member own
      rw [notes, ← own]
      exact remembers.votes held member
    · intro wanted destroys calls
      rw [idle] at calls
      cases calls
    · intro wanted calls
      rw [idle] at calls
      cases calls

/-- A processed request is the client's last one. -/
theorem Remembers.cast {past : UInt32 → Past} (remembers : ballot.Remembers past)
    (action : UnpaAction) {call : Call}
    (notes : ∀ past : Past, past.after action.client action = { past with last := past.asked })
    (asked : (past action.client).asked = request)
    (issuing : ∀ wanted destroying, call ≠ .issuing wanted destroying)
    (trying : ∀ wanted, call ≠ .trying wanted) :
    ((ballot.cast action.client request).setCall action.client call).Remembers
      fun address => (past address).after address action := by
  refine remembers.of_frame (Frame.cast.trans (Frame.setCall call)) ?_ ?_ ?_
  · intro held member own
    rw [notes]
    rcases mem_cast.mp member with ⟨-, cast, -⟩ | ⟨other, -⟩
    · exact cast.trans asked.symm
    · exact absurd own other
  · intro wanted destroys calls
    exact absurd (by simpa [setCall] using calls) (issuing wanted destroys)
  · intro wanted calls
    exact absurd (by simpa [setCall] using calls) (trying wanted)

/-- Every step keeps the votes at the last processed requests. -/
theorem Remembers.step {past : UInt32 → Past} (wellFormed : ballot.WellFormed)
    (remembers : ballot.Remembers past) {action : UnpaAction}
    (done : ballot.step definition action = some next) :
    next.Remembers fun address => (past address).after address action := by
  cases action with
  | createClient address clientType =>
      simp only [Ballot.step] at done
      split at done
      case isTrue => cases done
      case isFalse fresh =>
        have unused : address ∉ ballot.votes.map Vote.address := fun used =>
          fresh (vote_isSome_iff.mpr used)
        have idle : ballot.call address = .idle :=
          not_not.mp fun busy => unused (wellFormed.live address busy)
        have quiet : next.call = ballot.call := by
          split at done <;> (obtain rfl := Option.some.inj done; rfl)
        have votes : ∀ vote ∈ next.votes, vote ∈ ballot.votes ∨
            vote.address = address ∧ vote.request = 0 := by
          intro vote member
          split at done
          · obtain rfl := Option.some.inj done
            exact Or.inl member
          · obtain rfl := Option.some.inj done
            rcases List.mem_cons.mp member with first | later
            · exact Or.inr (by simp [first])
            · exact Or.inl later
        refine remembers.of_frame ⟨fun other _ => congrFun quiet other, ?_⟩ ?_ ?_ ?_
        · intro vote different member
          rcases votes vote member with old | ⟨own, -⟩
          · exact old
          · exact absurd own different
        · intro vote member own
          rcases votes vote member with old | ⟨-, zero⟩
          · exact absurd (List.mem_map.mpr ⟨vote, old, own⟩) unused
          · simp [Past.after, UnpaAction.client, zero]
        · intro wanted destroys calls
          simp only [quiet, UnpaAction.client, idle] at calls
          cases calls
        · intro wanted calls
          simp only [quiet, UnpaAction.client, idle] at calls
          cases calls
  | issueRequest address request => exact remembers.ask (fun _ => if_pos rfl) done
  | cancelRequest address => exact remembers.ask (fun _ => if_pos rfl) done
  | tryIssueRequest address request => exact remembers.tryAsk (fun _ => if_pos rfl) done
  | tryCancelRequest address => exact remembers.tryAsk (fun _ => if_pos rfl) done
  | destroyClient address => exact remembers.ask (fun _ => if_pos rfl) done
  | lock address =>
      simp only [Ballot.step, Ballot.locked] at done
      split at done
      case isFalse => cases done
      case isTrue =>
        split at done
        case h_1 request destroying calls =>
          obtain rfl := Option.some.inj done
          refine remembers.cast (.lock address) (fun _ => if_pos rfl)
            (remembers.issuing address request destroying calls) ?_ ?_
          · intro wanted destroys call
            split at call <;> cases call
          · intro wanted call
            split at call <;> cases call
        case h_2 calls =>
          obtain rfl := Option.some.inj done
          refine remembers.of_frame (Frame.remove.trans (Frame.setCall _)) ?_ ?_ ?_
          · intro vote member own
            exact absurd own ((mem_remove wellFormed).mp member).1
          · intro wanted destroys call
            simp [setCall, UnpaAction.client] at call
          · intro wanted call
            simp [setCall, UnpaAction.client] at call
        case h_3 => cases done
        case h_4 => cases done
  | tryLock address taken =>
      simp only [Ballot.step, Ballot.tried] at done
      split at done
      case isFalse => cases done
      case isTrue =>
        split at done
        case h_1 request calls =>
          obtain rfl := Option.some.inj done
          cases taken with
          | true =>
              refine remembers.cast (.tryLock address true) (fun _ => if_pos ⟨rfl, rfl⟩)
                (remembers.trying address request calls) ?_ ?_
              · intro _ _ call
                cases call
              · intro _ call
                cases call
          | false =>
              have notes : ∀ past : Past,
                  past.after address (.tryLock address false) = past := fun past =>
                if_neg fun both => Bool.false_ne_true both.2
              refine remembers.of_frame (Frame.setCall _) ?_ ?_ ?_
              · intro vote member own
                have owner : vote.address = address := own
                rw [UnpaAction.client, notes, ← owner]
                exact remembers.votes vote member
              · intro wanted destroys call
                simp [setCall, UnpaAction.client] at call
              · intro wanted call
                simp [setCall, UnpaAction.client] at call
        case h_2 => cases done

theorem remembers_start : start.Remembers fun _ => ⟨0, 0⟩ where
  votes := fun _ member => absurd member List.not_mem_nil
  issuing := fun _ _ _ calls => nomatch calls
  trying := fun _ _ calls => nomatch calls

theorem Remembers.exec {past : UInt32 → Past} {actions : List UnpaAction}
    (wellFormed : ballot.WellFormed) (remembers : ballot.Remembers past)
    (run : Runs.exec (Ballot.step definition) ballot actions = some next) :
    next.Remembers fun address => actions.foldl (Past.after address) (past address) := by
  induction actions generalizing ballot past with
  | nil =>
      obtain rfl := Option.some.inj run
      exact remembers
  | cons action actions ih =>
      obtain ⟨middle, first, rest⟩ := Runs.exec_cons.mp run
      exact ih (wellFormed.step first) (remembers.step wellFormed first) rest

/-- The vote of every live client is its last processed request. -/
theorem vote_eq_lastRequest {actions : List UnpaAction}
    (run : Runs.exec (Ballot.step definition) start actions = some next) {vote : Vote}
    (member : vote ∈ next.votes) : vote.request = lastRequest vote.address actions :=
  (remembers_start.exec wellFormed_start run).votes vote member

/-! ## Attempts without the lock -/

theorem setCall_comm {other : UInt32} (different : other ≠ address) (call called : Call) :
    (ballot.setCall address call).setCall other called =
      (ballot.setCall other called).setCall address call := by
  simp only [setCall, Function.update_comm different]

theorem setCall_setCall (first second : Call) :
    (ballot.setCall address first).setCall address second = ballot.setCall address second := by
  simp only [setCall, Function.update_idem]

theorem setCall_self : ballot.setCall address (ballot.call address) = ballot := by
  simp only [setCall, Function.update_eq_self]

theorem call_setCall_other {other : UInt32} (different : other ≠ address) (call : Call) :
    (ballot.setCall address call).call other = ballot.call other :=
  Function.update_of_ne different _ _

theorem call_setCall (call : Call) : (ballot.setCall address call).call address = call :=
  Function.update_self _ _ _

theorem vote_setCall {other : UInt32} (call : Call) :
    (ballot.setCall address call).vote other = ballot.vote other := rfl

theorem cast_setCall {other : UInt32} (call : Call) :
    (ballot.setCall address call).cast other request =
      (ballot.cast other request).setCall address call := rfl

theorem remove_setCall {other : UInt32} (call : Call) :
    (ballot.setCall address call).remove other = (ballot.remove other).setCall address call := rfl

/-- The entry of a call does not see the calls of the others. -/
theorem ask_setCall {other : UInt32} (different : other ≠ address) (call : Call)
    (destroying : Bool) :
    (ballot.setCall address call).ask other request destroying =
      (ballot.ask other request destroying).map (setCall · address call) := by
  simp only [ask, call_setCall_other different]
  split
  · rw [Option.map_map]
    apply Option.map_congr
    intro vote _
    simp only [Function.comp_apply]
    split <;> exact setCall_comm different call _
  · rfl

theorem tryAsk_setCall {other : UInt32} (different : other ≠ address) (call : Call) :
    (ballot.setCall address call).tryAsk other request =
      (ballot.tryAsk other request).map (setCall · address call) := by
  simp only [tryAsk, call_setCall_other different]
  split
  · rw [Option.map_map]
    apply Option.map_congr
    intro vote _
    simp only [Function.comp_apply]
    split
    · exact setCall_comm different call _
    · rfl
  · rfl

/-- No step sees the calls of the other clients. -/
theorem step_setCall {action : UnpaAction} (different : action.client ≠ address) (call : Call) :
    (ballot.setCall address call).step definition action =
      (ballot.step definition action).map (setCall · address call) := by
  cases action with
  | createClient other clientType =>
      by_cases used : (ballot.vote other).isSome = true
      · simp [Ballot.step, vote_setCall, used]
      · simp only [Ballot.step, vote_setCall, used, Bool.false_eq_true, if_false]
        split <;> rfl
  | issueRequest other request => exact ask_setCall different call false
  | cancelRequest other => exact ask_setCall different call false
  | tryIssueRequest other request => exact tryAsk_setCall different call
  | tryCancelRequest other => exact tryAsk_setCall different call
  | destroyClient other => exact ask_setCall different call true
  | lock other =>
      have apart : other ≠ address := different
      by_cases live : (ballot.vote other).isSome = true
      · cases calls : ballot.call other <;>
          simp [Ballot.step, Ballot.locked, vote_setCall, call_setCall_other apart, cast_setCall,
            remove_setCall, setCall_comm apart, live, calls]
      · simp [Ballot.step, vote_setCall, live]
  | tryLock other taken =>
      have apart : other ≠ address := different
      by_cases live : (ballot.vote other).isSome = true
      · cases taken <;> cases calls : ballot.call other <;>
          simp [Ballot.step, Ballot.tried, vote_setCall, call_setCall_other apart, cast_setCall,
            setCall_comm apart, live, calls]
      · simp [Ballot.step, vote_setCall, live]

theorem exec_setCall {actions : List UnpaAction}
    (different : ∀ action ∈ actions, action.client ≠ address) (call : Call) :
    Runs.exec (Ballot.step definition) (ballot.setCall address call) actions =
      (Runs.exec (Ballot.step definition) ballot actions).map (setCall · address call) := by
  induction actions generalizing ballot with
  | nil => rfl
  | cons action actions ih =>
      simp only [Runs.exec, step_setCall (different action List.mem_cons_self)]
      cases ballot.step definition action with
      | none => rfl
      | some middle =>
          exact ih fun action member => different action (List.mem_cons_of_mem _ member)

/-- A call that did not get the lock can be left out, whatever the other clients did
in the meantime. -/
theorem exec_without_try {attempt : UnpaAction} {middle after : List UnpaAction}
    (tries : attempt = .tryIssueRequest address request ∨ attempt = .tryCancelRequest address)
    (others : ∀ action ∈ middle, action.client ≠ address)
    (run : Runs.exec (Ballot.step definition) ballot
      (attempt :: (middle ++ .tryLock address false :: after)) = some next) :
    Runs.exec (Ballot.step definition) ballot (middle ++ after) = some next := by
  obtain ⟨entered, entry, rest⟩ := Runs.exec_cons.mp run
  rw [Runs.exec_append] at rest
  obtain ⟨waited, waits, behind⟩ := Option.bind_eq_some_iff.mp rest
  obtain ⟨returned, failed, later⟩ := Runs.exec_cons.mp behind
  have asked : ∃ wanted, ballot.tryAsk address wanted = some entered := by
    rcases tries with rfl | rfl
    · exact ⟨request, entry⟩
    · exact ⟨0, entry⟩
  obtain ⟨wanted, asked⟩ := asked
  obtain ⟨idle, _, _, change⟩ := tryAsk_cases asked
  have quiet : ballot = ballot.setCall address .idle := by rw [← idle, setCall_self]
  have call : ∃ call, entered = ballot.setCall address call := by
    rcases change with ⟨-, result⟩ | ⟨-, result⟩
    · exact ⟨_, result⟩
    · exact ⟨.idle, result.trans quiet⟩
  obtain ⟨call, rfl⟩ := call
  rw [exec_setCall others] at waits
  obtain ⟨reached, runs, rfl⟩ := Option.map_eq_some_iff.mp waits
  have settled : reached.call address = .idle := by
    have same := runs
    rw [quiet, exec_setCall others, runs] at same
    have equal : reached.setCall address .idle = reached := Option.some.inj same
    rw [← equal]
    exact call_setCall _
  have back : returned = reached := by
    simp only [Ballot.step, Ballot.tried] at failed
    split at failed
    case isFalse => cases failed
    case isTrue =>
      split at failed
      case h_1 =>
        rw [← Option.some.inj failed]
        simp only [Bool.false_eq_true, if_false, setCall_setCall]
        rw [← settled, setCall_self]
      case h_2 => cases failed
  rw [Runs.exec_append, runs]
  rw [back] at later
  exact later

end Ballot

end QHal.Unpa
