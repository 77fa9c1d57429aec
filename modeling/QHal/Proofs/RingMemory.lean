/-
Module: QHal.Proofs.RingMemory
Purpose: When the initialisation of the ring service gives back what it allocated: a ring id that
  is configured twice loses the blocks of its first ring, and a ring of one descriptor carries no
  message.
Trusted boundary: none
Main exports: RingMemory.owned, Allocated, RingsKept, InitSafe, Provided, initSafe_iff
-/
import QHal.Qring.RingMemory

namespace QHal.Qring

open Owners (Heap Owned)

/-! ## Owners -/

section Owners

variable {granted : Nat → Bool} {config : RingConfig} {memory : RingMemory}

/-- The blocks and the arrays of pointers to them. -/
def RingMemory.owned (memory : RingMemory) : Owned (Area × UInt8) :=
  ⟨memory.ctrl.base, memory.heap⟩

/-- An allocation is recorded or refused. -/
theorem allocArea_cases (granted : Nat → Bool) (config : RingConfig) (memory : RingMemory)
    (area : Area) :
    (granted memory.heap.calls = true ∧ (allocArea granted config memory area).1 = true ∧
      (allocArea granted config memory area).2.owned =
        memory.owned.record (area, config.ringId) ∧
      (allocArea granted config memory area).2.ctrl = { memory.ctrl with
        base := Function.update memory.ctrl.base (area, config.ringId) (memory.heap.calls + 1)
        size := Function.update memory.ctrl.size (area, config.ringId) (area.size config) }) ∨
    (granted memory.heap.calls = false ∧ (allocArea granted config memory area).1 = false ∧
      (allocArea granted config memory area).2.owned = memory.owned.refused ∧
      (allocArea granted config memory area).2.ctrl = memory.ctrl) := by
  unfold allocArea Heap.malloc
  cases granted memory.heap.calls with
  | true => exact .inl ⟨rfl, rfl, rfl, rfl⟩
  | false => exact .inr ⟨rfl, rfl, rfl, rfl⟩

theorem freeArea_owned (memory : RingMemory) (slot : Area × UInt8) :
    (memory.freeArea slot).owned = memory.owned.release slot := by
  unfold RingMemory.freeArea Owned.release
  exact apply_ite RingMemory.owned _ _ _

theorem freeArea_ringStatus (memory : RingMemory) (slot : Area × UInt8) :
    (memory.freeArea slot).ctrl.ringStatus = memory.ctrl.ringStatus := by
  unfold RingMemory.freeArea
  split_ifs <;> rfl

/-- The places of a ring. -/
abbrev slots (ringId : UInt8) : List (Area × UInt8) := areas.map fun area => (area, ringId)

theorem foldl_freeArea_owned (places : List (Area × UInt8)) (memory : RingMemory) :
    (places.foldl RingMemory.freeArea memory).owned =
      places.foldl Owned.release memory.owned := by
  induction places generalizing memory with
  | nil => rfl
  | cons place places ih => rw [List.foldl_cons, ih, freeArea_owned, List.foldl_cons]

/-- The blocks of one ring after the other. -/
theorem foldl_freeRing_owned (ringIds : List UInt8) (memory : RingMemory) :
    (ringIds.foldl freeRingResources memory).owned =
      (ringIds.flatMap slots).foldl Owned.release memory.owned := by
  induction ringIds generalizing memory with
  | nil => rfl
  | cons ringId ringIds ih =>
      rw [List.foldl_cons, ih, freeRingResources, foldl_freeArea_owned, List.flatMap_cons,
        List.foldl_append]

theorem freeRing_ringStatus (memory : RingMemory) (ringId : UInt8) :
    (freeRingResources memory ringId).ctrl.ringStatus = memory.ctrl.ringStatus := by
  unfold freeRingResources
  generalize areas.map (fun area => (area, ringId)) = places
  induction places generalizing memory with
  | nil => rfl
  | cons place places ih => rw [List.foldl_cons, ih, freeArea_ringStatus]

/-- The deinitialisation frees the rings that are marked. -/
theorem foldl_marked (ringIds : List UInt8) (memory : RingMemory) :
    ringIds.foldl (fun memory ringId =>
        if memory.ctrl.ringStatus ringId = ringStatusValid then freeRingResources memory ringId
        else memory) memory =
      (ringIds.filter fun ringId =>
        memory.ctrl.ringStatus ringId = ringStatusValid).foldl freeRingResources memory := by
  induction ringIds generalizing memory with
  | nil => rfl
  | cons ringId ringIds ih =>
      by_cases marked : memory.ctrl.ringStatus ringId = ringStatusValid
      · rw [List.foldl_cons, if_pos marked, ih, List.filter_cons_of_pos (by simpa using marked),
          List.foldl_cons, freeRing_ringStatus]
      · rw [List.foldl_cons, if_neg marked, ih, List.filter_cons_of_neg (by simpa using marked)]

theorem mem_slots {ringIds : List UInt8} {slot : Area × UInt8} :
    slot ∈ ringIds.flatMap slots ↔ slot.2 ∈ ringIds := by
  obtain ⟨area, ringId⟩ := slot
  have all : area ∈ areas := by cases area <;> decide
  simp only [List.mem_flatMap, List.mem_map, Prod.mk.injEq]
  constructor
  · rintro ⟨_, listed, _, _, -, rfl⟩
    exact listed
  · intro listed
    exact ⟨ringId, listed, area, all, rfl, rfl⟩

end Owners

/-! ## Allocations -/

section Allocations

variable {granted : Nat → Bool} {config : RingConfig} {memory : RingMemory}

/-- What the allocations of some areas of a ring do. -/
structure Allocated (granted : Nat → Bool) (config : RingConfig) (wanted : List Area)
    (memory : RingMemory) (result : Bool × RingMemory) : Prop where
  ok : result.1 = true ↔ ∀ k < wanted.length, granted (memory.heap.calls + k) = true
  calls : result.1 = true → result.2.heap.calls = memory.heap.calls + wanted.length
  freed : result.2.heap.freed = memory.heap.freed
  kept : { result.2.ctrl with base := memory.ctrl.base, size := memory.ctrl.size } = memory.ctrl
  others : ∀ slot : Area × UInt8, slot.2 ≠ config.ringId →
    result.2.ctrl.base slot = memory.ctrl.base slot ∧
      result.2.ctrl.size slot = memory.ctrl.size slot
  grows : ∀ slot, memory.ctrl.base slot ≠ 0 → result.2.ctrl.base slot ≠ 0
  sizes : ∀ area, result.2.ctrl.size (area, config.ringId) =
      memory.ctrl.size (area, config.ringId) ∨
    result.2.ctrl.size (area, config.ringId) = area.size config
  named : result.1 = true → ∀ area ∈ wanted, result.2.ctrl.base (area, config.ringId) ≠ 0 ∧
    result.2.ctrl.size (area, config.ringId) = area.size config
  holds : memory.owned.Holds → result.2.owned.Holds
  covers : memory.owned.Holds → memory.owned.Covers → wanted.Nodup →
    (∀ area ∈ wanted, memory.ctrl.base (area, config.ringId) = 0) → result.2.owned.Covers
  lost : ∀ block, memory.owned.Lost block → result.2.owned.Lost block

theorem allocAreas_allocated (granted : Nat → Bool) (config : RingConfig) (wanted : List Area)
    (memory : RingMemory) :
    Allocated granted config wanted memory (allocAreas granted config wanted memory) := by
  induction wanted generalizing memory with
  | nil =>
      exact {
        ok := iff_of_true rfl fun _ => nofun
        calls := fun _ => rfl
        freed := rfl
        kept := rfl
        others := fun _ _ => ⟨rfl, rfl⟩
        grows := fun _ => id
        sizes := fun _ => .inl rfl
        named := fun _ _ => nofun
        holds := id
        covers := fun _ covers _ _ => covers
        lost := fun _ => id }
  | cons area wanted ih =>
      rw [allocAreas]
      rcases allocArea_cases granted config memory area with
        ⟨first, ok, owned, ctrl⟩ | ⟨first, ok, owned, ctrl⟩
      · generalize allocArea granted config memory area = outcome at ok owned ctrl ⊢
        obtain ⟨_, middle⟩ := outcome
        obtain rfl : _ = true := ok
        dsimp only at owned ctrl ⊢
        rw [if_pos rfl]
        have rest := ih middle
        have calls : middle.heap.calls = memory.heap.calls + 1 := congrArg (·.heap.calls) owned
        have freed : middle.heap.freed = memory.heap.freed := congrArg (·.heap.freed) owned
        have base := congrArg RingControlBlock.base ctrl
        have size := congrArg RingControlBlock.size ctrl
        dsimp only at base size
        have own : ∀ slot, slot = (area, config.ringId) ∨
            middle.ctrl.base slot = memory.ctrl.base slot ∧
              middle.ctrl.size slot = memory.ctrl.size slot := by
          intro slot
          rw [base, size, or_iff_not_imp_left]
          intro other
          exact ⟨Function.update_of_ne other _ _, Function.update_of_ne other _ _⟩
        refine ⟨?_, fun done => ?_, rest.freed.trans freed, ?_, fun slot other => ?_,
          fun slot some => ?_, fun other => ?_,
          fun done => List.forall_mem_cons.mpr ⟨⟨?_, ?_⟩, rest.named done⟩, fun holds => ?_,
          fun holds covers nodup empty => ?_, fun block lost => ?_⟩
        · rw [rest.ok, calls, List.length_cons, Nat.forall_lt_succ_left,
            Nat.add_zero memory.heap.calls, and_iff_right first]
          simp only [Nat.add_assoc, Nat.add_comm 1]
        · rw [rest.calls done, calls, List.length_cons, Nat.add_assoc, Nat.add_comm 1]
        · have kept := rest.kept
          rw [ctrl] at kept
          exact congrArg (fun ctrl : RingControlBlock =>
            { ctrl with base := memory.ctrl.base, size := memory.ctrl.size }) kept
        · have kept := (own slot).resolve_left fun same => other (same ▸ rfl)
          rw [(rest.others slot other).1, (rest.others slot other).2]
          exact kept
        · apply rest.grows
          rw [base, Function.update_apply]
          split_ifs
          · exact Nat.succ_ne_zero _
          · exact some
        · rcases rest.sizes other with same | new
          · rcases own (other, config.ringId) with here | kept
            · right
              cases here
              rw [same, size, Function.update_self]
            · exact .inl (same.trans kept.2)
          · exact .inr new
        · apply rest.grows
          rw [base, Function.update_self]
          exact Nat.succ_ne_zero _
        · rcases rest.sizes area with same | new
          · rw [same, size, Function.update_self]
          · exact new
        · exact rest.holds (owned ▸ holds.record _)
        · have here : memory.owned.table (area, config.ringId) = 0 :=
            empty area List.mem_cons_self
          apply rest.covers (owned ▸ holds.record _) (owned ▸ covers.record here holds) nodup.tail
          intro other listed
          rcases own (other, config.ringId) with same | kept
          · cases same
            exact absurd listed (List.nodup_cons.mp nodup).1
          · exact kept.1.trans (empty other (List.mem_cons_of_mem _ listed))
        · exact rest.lost block (owned ▸ lost.record _)
      · generalize allocArea granted config memory area = outcome at ok owned ctrl ⊢
        obtain ⟨_, middle⟩ := outcome
        obtain rfl : _ = false := ok
        dsimp only at owned ctrl ⊢
        rw [if_neg Bool.false_ne_true]
        have stopped : ∀ P : Prop, false = true → P := fun P absurd => by cases absurd
        exact {
          ok := iff_of_false Bool.false_ne_true fun all => by
            have here := all 0 (Nat.succ_pos _)
            rw [Nat.add_zero, first] at here
            cases here
          calls := stopped _
          freed := congrArg (·.heap.freed) owned
          kept := ctrl ▸ rfl
          others := fun _ _ => ctrl ▸ ⟨rfl, rfl⟩
          grows := fun _ some => ctrl ▸ some
          sizes := fun _ => .inl (ctrl ▸ rfl)
          named := stopped _
          holds := fun holds => owned ▸ holds.refused
          covers := fun _ covers _ _ => by
            rw [owned]
            exact covers
          lost := fun _ lost => owned ▸ lost.refused }

/-- Without its first block a ring is left as it was. -/
theorem allocAreas_refused (refused : granted memory.heap.calls = false) :
    (allocAreas granted config areas memory).1 = false ∧
      (allocAreas granted config areas memory).2.owned = memory.owned.refused := by
  unfold areas allocAreas
  rcases allocArea_cases granted config memory .txDesc with ⟨first, -⟩ | ⟨-, ok, owned, -⟩
  · rw [refused] at first
    cases first
  · dsimp only
    rw [ok, if_neg Bool.false_ne_true]
    exact ⟨rfl, owned⟩

/-- A ring that is set up. -/
structure Ready (ctrl : RingControlBlock) (config : RingConfig) : Prop where
  status : ctrl.ringStatus config.ringId = ringStatusValid
  indices : ctrl.txWrIdx config.ringId = 0 ∧ ctrl.txRdIdx config.ringId = 0 ∧
    ctrl.rxWrIdx config.ringId = 0 ∧ ctrl.rxRdIdx config.ringId = 0
  sizes : ∀ area, ctrl.size (area, config.ringId) = area.size config

/-- The control block owns the blocks of the rings so far, which are set up. -/
structure RingsKept (done : List RingConfig) (memory : RingMemory) : Prop where
  holds : memory.owned.Holds
  covers : memory.owned.Covers
  places : ∀ slot, memory.ctrl.base slot ≠ 0 → slot.2 ∈ done.map (·.ringId)
  ready : ∀ config ∈ done, Ready memory.ctrl config

/-- One more ring, with an id of its own. -/
theorem RingsKept.ring {done : List RingConfig} (kept : RingsKept done memory)
    (fresh : config.ringId ∉ done.map (·.ringId)) {result : Bool × RingMemory}
    (allocated : Allocated granted config areas memory result) :
    (result.2.owned.Holds ∧ result.2.owned.Covers ∧
      ∀ slot, result.2.ctrl.base slot ≠ 0 →
        slot.2 ∈ (done ++ [config]).map (·.ringId)) ∧
    (result.1 = true → RingsKept (done ++ [config])
      { result.2 with ctrl := result.2.ctrl.publish config.ringId }) := by
  obtain ⟨ok, middle⟩ := result
  have empty : ∀ area ∈ areas, memory.ctrl.base (area, config.ringId) = 0 := by
    intro area _
    by_contra some
    exact fresh (kept.places _ some)
  have holds := allocated.holds kept.holds
  have covers := allocated.covers kept.holds kept.covers (by decide) empty
  have places : ∀ slot, middle.ctrl.base slot ≠ 0 →
      slot.2 ∈ (done ++ [config]).map (·.ringId) := by
    intro slot some
    rw [List.map_append, List.mem_append]
    by_cases own : slot.2 = config.ringId
    · exact .inr (List.mem_singleton.mpr own)
    · rw [(allocated.others slot own).1] at some
      exact .inl (kept.places slot some)
  refine ⟨⟨holds, covers, places⟩, fun done' => ⟨holds, covers, places, fun other listed => ?_⟩⟩
  have same := allocated.kept
  rcases List.mem_append.mp listed with before | here
  · have ready := kept.ready other before
    have elsewhere : other.ringId ≠ config.ringId := fun equal =>
      fresh (List.mem_map.mpr ⟨other, before, equal⟩)
    rw [← same] at ready
    refine ⟨?_, ?_, fun area => ?_⟩
    · exact (Function.update_of_ne elsewhere _ _).trans ready.status
    · simp only [RingControlBlock.publish, Function.update_of_ne elsewhere]
      exact ready.indices
    · exact ((allocated.others (area, other.ringId) elsewhere).2).trans (ready.sizes area)
  · obtain rfl := List.mem_singleton.mp here
    refine ⟨Function.update_self .., ?_, fun area => ?_⟩
    · simp only [RingControlBlock.publish, Function.update_self, and_self]
    · exact (allocated.named done' area (by cases area <;> decide)).2

/-- The rings, if each id that was used before finds an allocation that fails. -/
theorem RingsKept.rings {done configs : List RingConfig} (kept : RingsKept done memory)
    (stops : ∀ before config after, configs = before ++ config :: after →
      config.ringId ∈ (done ++ before).map (·.ringId) →
        ∃ k ≤ 4 * before.length, granted (memory.heap.calls + k) = false) :
    ((allocRings granted configs memory).2.owned.Holds ∧
      (allocRings granted configs memory).2.owned.Covers ∧
      ∀ slot, (allocRings granted configs memory).2.ctrl.base slot ≠ 0 →
        slot.2 ∈ (done ++ configs).map (·.ringId)) ∧
    ((allocRings granted configs memory).1 = true →
      RingsKept (done ++ configs) (allocRings granted configs memory).2) := by
  induction configs generalizing done memory with
  | nil =>
      rw [List.append_nil]
      exact ⟨⟨kept.holds, kept.covers, kept.places⟩, fun _ => kept⟩
  | cons config configs ih =>
      rw [allocRings]
      have moved : done ++ config :: configs = done ++ [config] ++ configs := by
        rw [List.append_assoc, List.singleton_append]
      by_cases used : config.ringId ∈ done.map (·.ringId)
      · obtain ⟨k, le, refused⟩ := stops [] config configs rfl (by rwa [List.append_nil])
        obtain rfl : k = 0 := Nat.le_zero.mp le
        obtain ⟨no, owned⟩ := @allocAreas_refused granted config memory refused
        generalize allocAreas granted config areas memory = outcome at no owned ⊢
        obtain ⟨_, middle⟩ := outcome
        obtain rfl : _ = false := no
        dsimp only at owned ⊢
        rw [if_neg Bool.false_ne_true]
        refine ⟨⟨owned ▸ kept.holds.refused, ?_, fun slot some => ?_⟩,
          fun absurd => by cases absurd⟩
        · rw [owned]
          exact kept.covers
        · have same : middle.ctrl.base = memory.ctrl.base := congrArg Owned.table owned
          rw [same] at some
          rw [List.map_append]
          exact List.mem_append_left _ (kept.places slot some)
      · have allocated := allocAreas_allocated granted config areas memory
        have ring := kept.ring used allocated
        generalize allocAreas granted config areas memory = outcome at allocated ring ⊢
        obtain ⟨ok, middle⟩ := outcome
        dsimp only at allocated ring ⊢
        cases ok with
        | false =>
            rw [if_neg Bool.false_ne_true]
            refine ⟨⟨ring.1.1, ring.1.2.1, fun slot some => ?_⟩, fun absurd => by cases absurd⟩
            rw [moved, List.map_append]
            exact List.mem_append_left _ (ring.1.2.2 slot some)
        | true =>
            rw [if_pos rfl, moved]
            apply ih (ring.2 rfl)
            intro before other after split repeated
            have calls : middle.heap.calls = memory.heap.calls + 4 := allocated.calls rfl
            have granted' : ∀ k < 4, granted (memory.heap.calls + k) = true :=
              allocated.ok.mp rfl
            obtain ⟨k, le, refused⟩ := stops (config :: before) other after (by rw [split]; rfl)
              (by rwa [List.append_assoc, List.singleton_append] at repeated)
            have late : 4 ≤ k := by
              by_contra early
              rw [granted' k (Nat.not_le.mp early)] at refused
              cases refused
            rw [List.length_cons] at le
            refine ⟨k - 4, by omega, ?_⟩
            dsimp only
            rwa [calls, Nat.add_assoc, Nat.add_sub_cancel' late]

/-- Allocating rings, whatever their ids are. -/
structure RingsAllocated (granted : Nat → Bool) (configs : List RingConfig) (memory : RingMemory)
    (result : Bool × RingMemory) : Prop where
  ok : result.1 = true ↔ ∀ k < 4 * configs.length, granted (memory.heap.calls + k) = true
  calls : result.1 = true → result.2.heap.calls = memory.heap.calls + 4 * configs.length
  freed : result.2.heap.freed = memory.heap.freed
  grows : ∀ slot, memory.ctrl.base slot ≠ 0 → result.2.ctrl.base slot ≠ 0
  named : result.1 = true → ∀ config ∈ configs, result.2.ctrl.base (.txDesc, config.ringId) ≠ 0
  holds : memory.owned.Holds → result.2.owned.Holds
  lost : ∀ block, memory.owned.Lost block → result.2.owned.Lost block

theorem allocRings_allocated (granted : Nat → Bool) (configs : List RingConfig)
    (memory : RingMemory) :
    RingsAllocated granted configs memory (allocRings granted configs memory) := by
  induction configs generalizing memory with
  | nil =>
      exact {
        ok := iff_of_true rfl fun _ => nofun
        calls := fun _ => rfl
        freed := rfl
        grows := fun _ => id
        named := fun _ _ => nofun
        holds := id
        lost := fun _ => id }
  | cons config configs ih =>
      have first := allocAreas_allocated granted config areas memory
      rw [allocRings]
      generalize allocAreas granted config areas memory = outcome at first ⊢
      obtain ⟨ok, middle⟩ := outcome
      dsimp only at first ⊢
      have count : areas.length = 4 := rfl
      cases ok with
      | false =>
          rw [if_neg Bool.false_ne_true]
          refine ⟨iff_of_false Bool.false_ne_true fun all => ?_, nofun, first.freed, first.grows,
            nofun, first.holds, first.lost⟩
          have allOfFirst : ∀ k < areas.length, granted (memory.heap.calls + k) = true :=
            fun k below => all k (by rw [List.length_cons]; omega)
          exact absurd (first.ok.mpr allOfFirst) Bool.false_ne_true
      | true =>
          rw [if_pos rfl]
          have rest := ih { middle with ctrl := middle.ctrl.publish config.ringId }
          have calls : middle.heap.calls = memory.heap.calls + 4 := first.calls rfl
          refine ⟨?_, fun done => ?_, rest.freed.trans first.freed,
            fun slot some => rest.grows slot (first.grows slot some),
            fun done => List.forall_mem_cons.mpr ⟨?_, rest.named done⟩,
            fun holds => rest.holds (first.holds holds),
            fun block lost => rest.lost block (first.lost block lost)⟩
          · rw [rest.ok]
            dsimp only
            rw [calls, List.length_cons]
            constructor
            · intro later k below
              by_cases early : k < 4
              · exact first.ok.mp rfl k early
              · have here := later (k - 4) (by omega)
                rwa [Nat.add_assoc, Nat.add_sub_cancel' (Nat.not_lt.mp early)] at here
            · intro all k below
              rw [Nat.add_assoc]
              exact all (4 + k) (by omega)
          · rw [rest.calls done]
            dsimp only
            rw [calls, List.length_cons]
            omega
          · exact rest.grows _ (first.named rfl .txDesc (by decide)).1

/-- The first block of a ring, recorded over an earlier one. -/
theorem allocAreas_lost (holds : memory.owned.Holds)
    (some : memory.ctrl.base (.txDesc, config.ringId) ≠ 0)
    (first : granted memory.heap.calls = true) :
    (allocAreas granted config areas memory).2.owned.Lost
      (memory.ctrl.base (.txDesc, config.ringId)) := by
  unfold areas allocAreas
  rcases allocArea_cases granted config memory .txDesc with ⟨-, ok, owned, -⟩ | ⟨refused, -⟩
  · have lost := holds.lost some
    rw [← owned] at lost
    generalize allocArea granted config memory .txDesc = outcome at ok lost ⊢
    obtain ⟨_, middle⟩ := outcome
    obtain rfl : _ = true := ok
    exact (allocAreas_allocated granted config [.txBuf, .rxDesc, .rxBuf] middle).lost _ lost
  · rw [first] at refused
    cases refused

/-- A ring whose id was used before loses a block of the earlier ring, unless an allocation fails
before its first one succeeds. -/
theorem allocRings_lost {before after : List RingConfig} (holds : memory.owned.Holds)
    (used : memory.ctrl.base (.txDesc, config.ringId) ≠ 0 ∨
      config.ringId ∈ before.map (·.ringId))
    (all : ∀ k ≤ 4 * before.length, granted (memory.heap.calls + k) = true) :
    ∃ block, block ≠ 0 ∧
      (allocRings granted (before ++ config :: after) memory).2.owned.Lost block := by
  induction before generalizing memory with
  | nil =>
      have some := used.resolve_right List.not_mem_nil
      have lost := allocAreas_lost holds some (all 0 (Nat.le_refl _))
      refine ⟨_, some, ?_⟩
      rw [List.nil_append, allocRings]
      generalize allocAreas granted config areas memory = outcome at lost ⊢
      obtain ⟨ok, middle⟩ := outcome
      cases ok with
      | false => exact lost
      | true => exact (allocRings_allocated granted after _).lost _ lost
  | cons first before ih =>
      have allocated := allocAreas_allocated granted first areas memory
      have count : areas.length = 4 := rfl
      have ok : (allocAreas granted first areas memory).1 = true :=
        allocated.ok.mpr fun k below => all k (by rw [List.length_cons]; omega)
      rw [List.cons_append, allocRings]
      generalize allocAreas granted first areas memory = outcome at allocated ok ⊢
      obtain ⟨_, middle⟩ := outcome
      obtain rfl : _ = true := ok
      have calls : middle.heap.calls = memory.heap.calls + 4 := allocated.calls rfl
      dsimp only
      rw [if_pos rfl]
      refine @ih ⟨middle.ctrl.publish first.ringId, middle.heap⟩ (allocated.holds holds)
        ?_ ?_
      · rcases used with some | listed
        · exact .inl (allocated.grows _ some)
        · rw [List.map_cons] at listed
          rcases List.mem_cons.mp listed with own | later
          · left
            rw [own]
            exact (allocated.named rfl .txDesc (by decide)).1
          · exact .inr later
      · intro k le
        dsimp only
        rw [calls, Nat.add_assoc]
        exact all (4 + k) (by rw [List.length_cons]; omega)

end Allocations

/-! ## The service -/

section Service

variable {faults : InitFaults} {configs : List RingConfig} {ctrl : RingControlBlock}

/-- The memory in front of the first allocation. -/
def RingMemory.initial (configs : List RingConfig) : RingMemory where
  ctrl := { RingControlBlock.zero with
    magic := 0x52494E47, version := 0x00020000, numRings := UInt32.ofNat configs.length
    status := 1 }
  heap := ⟨0, [], []⟩

theorem ringsKept_initial (configs : List RingConfig) : RingsKept [] (.initial configs) where
  holds := ⟨fun _ some => absurd rfl some, fun _ _ _ some => absurd rfl some, nofun, List.nodup_nil⟩
  covers := nofun
  places := fun _ some => absurd rfl some
  ready := nofun

/-- The steps behind the allocations succeed. -/
def ObjectsReady (faults : InitFaults) (numRings : Nat) : Prop :=
  faults.gpioReady = true ∧ 0 ≤ faults.gpioConfigure ∧
    ∀ object < 4 * numRings, 0 ≤ faults.kernelInit object

theorem initObjects_ok (faults : InitFaults) (numRings : Nat) :
    initObjects faults numRings = .ok ↔ ObjectsReady faults numRings := by
  unfold initObjects ObjectsReady
  by_cases ready : faults.gpioReady = true
  · rw [if_neg (not_not_intro ready), and_iff_right ready]
    by_cases configured : faults.gpioConfigure < 0
    · rw [if_pos configured]
      exact iff_of_false nofun fun all => absurd all.1 (Int.not_le.mpr configured)
    · rw [if_neg configured, and_iff_right (Int.not_lt.mp configured)]
      cases found : (List.range (4 * numRings)).find?
          fun object => faults.kernelInit object < 0 with
      | none =>
          refine iff_of_true rfl fun object below => ?_
          have none := List.find?_eq_none.mp found object (List.mem_range.mpr below)
          simpa using none
      | some object =>
          have negative := List.find?_some found
          have below := List.mem_range.mp (List.mem_of_find?_eq_some found)
          refine iff_of_false nofun fun all => ?_
          exact absurd (all object below) (Int.not_le.mpr (of_decide_eq_true negative))
  · rw [if_pos ready]
    exact iff_of_false nofun fun all => ready all.1

/-- The parameters that the initialisation accepts. -/
def Accepted (configs : List RingConfig) : Prop :=
  configs.length ≠ 0 ∧ configs.length ≤ maxRings.toNat ∧ configs.all RingConfig.valid = true

/-- A call that returns at once: the service is initialised, or the parameters are not
accepted. -/
def Refused (configs : List RingConfig) (service : RingService) : Prop :=
  service.initialized = true ∨ ¬ Accepted configs

/-- A call that is refused fails and leaves the service as it was. -/
theorem slaveInit_refused {service : RingService} (refused : Refused configs service) :
    (slaveInit faults configs service).1 ≠ .ok ∧
      (slaveInit faults configs service).2 = service := by
  unfold slaveInit
  split_ifs with initialized size valid
  · exact ⟨nofun, rfl⟩
  · exact ⟨nofun, rfl⟩
  · exfalso
    rw [not_or] at size
    exact (refused.resolve_left initialized) ⟨size.1, Nat.not_lt.mp size.2, valid⟩
  · exact ⟨nofun, rfl⟩

/-- Every step of the initialisation succeeds. -/
def Succeeds (faults : InitFaults) (configs : List RingConfig) : Prop :=
  (∀ k < 4 * configs.length, faults.granted k = true) ∧ ObjectsReady faults configs.length

/-- What the initialisation makes of its objects and of its allocations. -/
def initEnds (configs : List RingConfig) (status : InitStatus) (outcome : Bool × RingMemory) :
    InitStatus × RingService :=
  let (ok, memory) := outcome
  if ok then
    match status with
    | .ok => (.ok, ⟨true, memory⟩)
    | status => (status, ⟨false, cleanup configs memory⟩)
  else (.error .enomem, ⟨false, cleanup configs memory⟩)

/-- With parameters that are accepted the initialisation ends with its rings or cleans them up. -/
theorem slaveInit_accepted (accepted : Accepted configs) :
    (Succeeds faults configs ∧
      (allocRings faults.granted configs (.initial configs)).1 = true ∧
      slaveInit faults configs (.before false ctrl) =
        (.ok, ⟨true, (allocRings faults.granted configs (.initial configs)).2⟩)) ∨
    (¬ Succeeds faults configs ∧ (slaveInit faults configs (.before false ctrl)).1 ≠ .ok ∧
      (slaveInit faults configs (.before false ctrl)).2 =
        ⟨false, cleanup configs (allocRings faults.granted configs (.initial configs)).2⟩) := by
  obtain ⟨some, few, valid⟩ := accepted
  have objects := initObjects_ok faults configs.length
  have all : (allocRings faults.granted configs (.initial configs)).1 = true ↔
      ∀ k < 4 * configs.length, faults.granted k = true := by
    have ok := (allocRings_allocated faults.granted configs (.initial configs)).ok
    simpa only [RingMemory.initial, Nat.zero_add] using ok
  have run : slaveInit faults configs (.before false ctrl) =
      initEnds configs (initObjects faults configs.length)
        (allocRings faults.granted configs (.initial configs)) := by
    unfold slaveInit
    rw [if_neg (show ¬ (RingService.before false ctrl).initialized = true from Bool.false_ne_true),
      if_neg (not_or.mpr ⟨some, Nat.not_lt.mpr few⟩), if_neg (not_not_intro valid)]
    rfl
  unfold Succeeds
  rw [run, ← all, ← objects]
  generalize allocRings faults.granted configs (.initial configs) = outcome
  obtain ⟨ok, memory⟩ := outcome
  generalize initObjects faults configs.length = status
  cases ok with
  | false => simp [initEnds]
  | true => cases status <;> simp [initEnds]

theorem cleanup_heap (configs : List RingConfig) (memory : RingMemory) :
    (cleanup configs memory).heap =
      (((configs.map (·.ringId)).flatMap slots).foldl Owned.release memory.owned).heap :=
  congrArg Owned.heap (foldl_freeRing_owned (configs.map RingConfig.ringId) memory)

/-- The rings that the deinitialisation frees. -/
def marked (memory : RingMemory) : List UInt8 :=
  ((List.range maxRings.toNat).map UInt8.ofNat).filter fun ringId =>
    memory.ctrl.ringStatus ringId = ringStatusValid

theorem deinit_heap (memory : RingMemory) :
    (deinit ⟨true, memory⟩).memory.heap =
      (((marked memory).flatMap slots).foldl Owned.release memory.owned).heap := by
  have run : (deinit ⟨true, memory⟩).memory.heap =
      ((marked memory).foldl freeRingResources memory).heap := by
    rw [marked, ← foldl_marked, deinit, if_pos rfl]
  rw [run]
  exact congrArg Owned.heap (foldl_freeRing_owned (marked memory) memory)

/-- A ring that carries a message in each direction. -/
structure Carries (ctrl : RingControlBlock) (ringId : UInt8) : Prop where
  status : ctrl.ringStatus ringId = ringStatusValid
  send : sendAvail (ctrl.txWrIdx ringId) (ctrl.txRdIdx ringId) (ctrl.size (.txDesc, ringId)) ≠ 0 ∧
    ctrl.size (.txBuf, ringId) ≠ 0
  recv : sendAvail (ctrl.rxWrIdx ringId) (ctrl.rxRdIdx ringId) (ctrl.size (.rxDesc, ringId)) ≠ 0 ∧
    ctrl.size (.rxBuf, ringId) ≠ 0

/-- What an initialisation and the deinitialisation behind it promise. -/
structure InitSafe (faults : InitFaults) (configs : List RingConfig) (service : RingService) :
    Prop where
  failed : (slaveInit faults configs service).1 ≠ .ok →
    (slaveInit faults configs service).2.memory.heap.live = [] ∧
      (slaveInit faults configs service).2.memory.ctrl = .zero
  carries : (slaveInit faults configs service).1 = .ok → ∀ config ∈ configs,
    Carries (slaveInit faults configs service).2.memory.ctrl config.ringId
  released : (slaveInit faults configs service).1 = .ok →
    (deinit (slaveInit faults configs service).2).memory.heap.live = [] ∧
      (deinit (slaveInit faults configs service).2).memory.heap.freed.Nodup ∧
      (deinit (slaveInit faults configs service).2).memory.heap.freed.Perm
        (slaveInit faults configs service).2.memory.heap.live

/-- No ring id repeats, or an allocation fails before the second ring of that id has a block. -/
def Separate (granted : Nat → Bool) (configs : List RingConfig) : Prop :=
  ∀ (before : List RingConfig) (config : RingConfig) (after : List RingConfig),
    configs = before ++ config :: after →
    config.ringId ∈ before.map (·.ringId) → ∃ k ≤ 4 * before.length, granted k = false

/-- The call is refused and the control block was zero; or it is not, no ring loses its blocks
and, where the initialisation succeeds, no ring has one descriptor only. -/
def Provided (faults : InitFaults) (configs : List RingConfig) (service : RingService) : Prop :=
  (Refused configs service ∧ service.memory.ctrl = .zero) ∨
    (¬ Refused configs service ∧ Separate faults.granted configs ∧
      (Succeeds faults configs → ∀ config ∈ configs, config.descCount ≠ 1))

theorem Ready.carries_iff {ctrl : RingControlBlock} {config : RingConfig}
    (ready : Ready ctrl config) (valid : config.valid = true) :
    Carries ctrl config.ringId ↔ config.descCount ≠ 1 := by
  obtain ⟨status, ⟨txWr, txRd, rxWr, rxRd⟩, sizes⟩ := ready
  unfold RingConfig.valid at valid
  simp only [Bool.and_eq_true, Bool.not_eq_true', Bool.or_eq_false_iff, decide_eq_false_iff_not,
    decide_eq_true_eq] at valid
  have avail : sendAvail 0 0 config.descCount ≠ 0 ↔ config.descCount ≠ 1 := by
    unfold sendAvail
    rw [if_neg (by decide), UInt32.sub_self, UInt32.sub_zero, not_iff_not]
    exact UInt32.sub_eq_iff_eq_add
  constructor
  · intro carries
    have send := carries.send.1
    rw [txWr, txRd, sizes .txDesc] at send
    exact avail.mp send
  · intro many
    refine ⟨status, ?_, ?_⟩
    · rw [txWr, txRd, sizes .txDesc, sizes .txBuf]
      exact ⟨avail.mpr many, valid.2.1⟩
    · rw [rxWr, rxRd, sizes .rxDesc, sizes .rxBuf]
      exact ⟨avail.mpr many, valid.2.1⟩

/-- Rings with separate ids. -/
theorem Separate.kept (separate : Separate faults.granted configs) :
    ((allocRings faults.granted configs (.initial configs)).2.owned.Holds ∧
      (allocRings faults.granted configs (.initial configs)).2.owned.Covers ∧
      ∀ slot, (allocRings faults.granted configs (.initial configs)).2.ctrl.base slot ≠ 0 →
        slot.2 ∈ configs.map (·.ringId)) ∧
    ((allocRings faults.granted configs (.initial configs)).1 = true →
      RingsKept configs (allocRings faults.granted configs (.initial configs)).2) := by
  apply (ringsKept_initial configs).rings
  intro before config after split repeated
  obtain ⟨k, le, refused⟩ := separate before config after split repeated
  refine ⟨k, le, ?_⟩
  rw [show (RingMemory.initial configs).heap.calls + k = k from Nat.zero_add k]
  exact refused

/-- Every ring of a kept control block is marked, so each of its blocks is freed. -/
theorem RingsKept.released {memory : RingMemory} (kept : RingsKept configs memory)
    (valid : configs.all RingConfig.valid = true) :
    (deinit ⟨true, memory⟩).memory.heap.live = [] ∧
      (deinit ⟨true, memory⟩).memory.heap.freed.Perm (memory.heap.freed ++ memory.heap.live) := by
  rw [deinit_heap]
  apply kept.holds.releases_all kept.covers
  intro slot some
  obtain ⟨config, listed, own⟩ := List.mem_map.mp (kept.places slot some)
  have small := List.all_eq_true.mp valid config listed
  unfold RingConfig.valid at small
  simp only [Bool.and_eq_true, decide_eq_true_eq] at small
  apply mem_slots.mpr
  rw [← own]
  refine List.mem_filter.mpr ⟨List.mem_map.mpr ⟨config.ringId.toNat, ?_, ?_⟩, ?_⟩
  · exact List.mem_range.mpr (UInt8.lt_iff_toNat_lt.mp small.1.1)
  · exact UInt8.ofNat_toNat
  · exact decide_eq_true (kept.ready config listed).status

/-- A block that is lost stays in use behind the cleanup and behind the deinitialisation. -/
theorem not_initSafe_of_lost (accepted : Accepted configs)
    (lost : ∃ block, block ≠ 0 ∧
      (allocRings faults.granted configs (.initial configs)).2.owned.Lost block) :
    ¬ InitSafe faults configs (.before false ctrl) := by
  intro safe
  obtain ⟨block, positive, lost⟩ := lost
  rcases @slaveInit_accepted faults configs ctrl accepted with ⟨-, -, run⟩ | ⟨-, failed, run⟩
  · have state : (slaveInit faults configs (.before false ctrl)).2 =
      ⟨true, (allocRings faults.granted configs (.initial configs)).2⟩ := by rw [run]
    have released := (safe.released (by rw [run])).1
    rw [state, deinit_heap] at released
    generalize allocRings faults.granted configs (.initial configs) = outcome at lost released
    have live := (lost.releases positive ((marked outcome.2).flatMap slots)).live
    rw [released] at live
    cases live
  · have cleaned := (safe.failed failed).1
    have live := (lost.releases positive ((configs.map RingConfig.ringId).flatMap slots)).live
    rw [run] at cleaned
    dsimp only at cleaned
    rw [cleanup_heap] at cleaned
    rw [cleaned] at live
    cases live

theorem InitSafe.separate (safe : InitSafe faults configs (.before false ctrl))
    (accepted : Accepted configs) :
    Separate faults.granted configs := by
  intro before config after split repeated
  by_contra never
  have all : ∀ k ≤ 4 * before.length, faults.granted k = true := by
    intro k le
    by_contra refused
    exact never ⟨k, le, Bool.eq_false_iff.mpr refused⟩
  refine not_initSafe_of_lost accepted ?_ safe
  have lost := @allocRings_lost faults.granted config (.initial configs) before after
    (ringsKept_initial configs).holds (.inr repeated) (by simpa [RingMemory.initial] using all)
  rwa [← split] at lost

/-- An initialisation that fails, with rings of their own ids. -/
theorem Separate.cleaned (separate : Separate faults.granted configs) :
    (cleanup configs (allocRings faults.granted configs (.initial configs)).2).heap.live = [] := by
  obtain ⟨⟨holds, covers, places⟩, -⟩ := separate.kept
  rw [cleanup_heap]
  exact (holds.releases_all covers fun slot some => mem_slots.mpr (places slot some)).1

/-- One that succeeds. -/
theorem Separate.freed (separate : Separate faults.granted configs) (accepted : Accepted configs)
    (ok : (allocRings faults.granted configs (.initial configs)).1 = true) :
    (deinit
        ⟨true, (allocRings faults.granted configs (.initial configs)).2⟩).memory.heap.live = [] ∧
      (deinit ⟨true, (allocRings faults.granted configs
        (.initial configs)).2⟩).memory.heap.freed.Perm
      (allocRings faults.granted configs (.initial configs)).2.heap.live := by
  have released := (separate.kept.2 ok).released accepted.2.2
  have unfreed : (allocRings faults.granted configs (.initial configs)).2.heap.freed = [] :=
    (allocRings_allocated faults.granted configs (.initial configs)).freed
  rwa [unfreed, List.nil_append] at released

/-- The initialisation gives back what it allocates, sets up rings that carry messages, and the
deinitialisation releases each block once, if and only if no ring id is configured twice before an
allocation fails and no ring of a successful initialisation has one descriptor; a refused call
leaves a control block of zeros only if it was one. -/
theorem initSafe_iff (faults : InitFaults) (configs : List RingConfig) (initialized : Bool)
    (ctrl : RingControlBlock) :
    InitSafe faults configs (.before initialized ctrl) ↔
      Provided faults configs (.before initialized ctrl) := by
  unfold Provided
  by_cases refused : Refused configs (.before initialized ctrl)
  · rw [or_iff_left fun both => both.1 refused, and_iff_right refused]
    obtain ⟨failed, kept⟩ := @slaveInit_refused faults configs _ refused
    constructor
    · intro safe
      have zero := (safe.failed failed).2
      rwa [kept] at zero
    · intro zero
      refine ⟨fun _ => ?_, fun ok => absurd ok failed, fun ok => absurd ok failed⟩
      rw [kept]
      exact ⟨rfl, zero⟩
  · rw [or_iff_right fun both => refused both.1, and_iff_right refused]
    obtain ⟨fresh, accepted⟩ := not_or.mp refused
    obtain rfl : initialized = false := Bool.eq_false_iff.mpr fresh
    have accepted := not_not.mp accepted
    have valid := List.all_eq_true.mp accepted.2.2
    rcases @slaveInit_accepted faults configs ctrl accepted with
      ⟨succeeds, ok, run⟩ | ⟨fails, failed, run⟩
    · have ends : (slaveInit faults configs (.before false ctrl)).1 = .ok := by rw [run]
      have state : (slaveInit faults configs (.before false ctrl)).2 =
        ⟨true, (allocRings faults.granted configs (.initial configs)).2⟩ := by rw [run]
      constructor
      · intro safe
        have separate := safe.separate accepted
        refine ⟨separate, fun _ config listed => ?_⟩
        have carries := safe.carries ends config listed
        rw [state] at carries
        have ready := (separate.kept.2 ok).ready config listed
        exact (ready.carries_iff (valid config listed)).mp carries
      · rintro ⟨separate, many⟩
        refine ⟨fun no => absurd ends no, fun _ config listed => ?_, fun _ => ?_⟩
        · rw [state]
          have ready := (separate.kept.2 ok).ready config listed
          exact (ready.carries_iff (valid config listed)).mpr (many succeeds config listed)
        · obtain ⟨empty, freed⟩ := separate.freed accepted ok
          rw [state]
          exact ⟨empty, freed.nodup_iff.mpr separate.kept.1.1.nodup, freed⟩
    · constructor
      · intro safe
        exact ⟨safe.separate accepted, fun succeeds => absurd succeeds fails⟩
      · rintro ⟨separate, -⟩
        refine ⟨fun _ => ?_, fun ok => absurd ok failed, fun ok => absurd ok failed⟩
        rw [run]
        exact ⟨separate.cleaned, rfl⟩

/-- A ring of one descriptor takes no message, of two rings with one id the first one's blocks
stay in use, and a call without rings leaves what the memory held at the start. -/
theorem initSafe_not_checked :
    ¬ InitSafe ⟨fun _ => true, true, 0, fun _ => 0⟩ [⟨0, 1, 64⟩] (.before false .zero) ∧
      ¬ InitSafe ⟨fun _ => true, true, 0, fun _ => 0⟩ [⟨0, 4, 64⟩, ⟨0, 4, 64⟩]
        (.before false .zero) ∧
      ¬ InitSafe ⟨fun _ => true, true, 0, fun _ => 0⟩ []
        (.before false { RingControlBlock.zero with magic := 0xFFFFFFFF }) := by
  refine ⟨fun safe => ?_, fun safe => ?_, fun safe => ?_⟩
  · have carries := safe.carries (by decide) ⟨0, 1, 64⟩ List.mem_cons_self
    exact carries.send.1 (by decide)
  · have released := (safe.released (by decide)).1
    exact absurd released (by decide)
  · have zero := (safe.failed (by decide)).2
    exact absurd (congrArg RingControlBlock.magic zero) (by decide)

end Service

end QHal.Qring
