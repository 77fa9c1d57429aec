/-
Module: QHal.Proofs.DescPool
Purpose: Runs of calls on the descriptor pool: no call reads through a null pointer, the
  free list and the rings of the channels share out the pool, and a call that takes no
  descriptors leaves them as they were.
Trusted boundary: none
Main exports: Owned, SameLists, configChannel_cases, descriptors_owned
-/
import QHal.Lib.Linked
import QHal.Lib.Runs
import QHal.Dxe.DescPool

namespace QHal.Dxe

open Linked

variable {pool after : DescPool}

/-! ## What the loops leave alone -/

/-- Nothing changed but buffers and the words of descriptors. -/
structure SameLinks (pool after : DescPool) : Prop where
  head : after.pFreeXfrDescPoolHead = pool.pFreeXfrDescPoolHead
  count : after.pFreeDescPoolCount = pool.pFreeDescPoolCount
  channels : after.channels = pool.channels
  configured : after.configured = pool.configured
  next : ∀ position, after.next position = pool.next position

theorem SameLinks.refl (pool : DescPool) : SameLinks pool pool :=
  ⟨rfl, rfl, rfl, rfl, fun _ => rfl⟩

theorem SameLinks.trans {middle : DescPool} (first : SameLinks pool middle)
    (second : SameLinks middle after) : SameLinks pool after where
  head := second.head.trans first.head
  count := second.count.trans first.count
  channels := second.channels.trans first.channels
  configured := second.configured.trans first.configured
  next := fun position => (second.next position).trans (first.next position)

theorem sameLinks_setWords (pool : DescPool) (position : Nat) (change : DescWords → DescWords) :
    SameLinks pool (pool.setWords position change) :=
  ⟨rfl, rfl, rfl, rfl, fun _ => rfl⟩

/-- A control block with the same link. -/
theorem sameLinks_setDescCB {position : Nat} {cb : DescCB} (same : cb.next = pool.next position) :
    SameLinks pool (pool.setDescCB position cb) where
  head := rfl
  count := rfl
  channels := rfl
  configured := rfl
  next := by
    intro other
    show (Function.update pool.xfrDescPool position cb other).next = pool.next other
    by_cases here : other = position
    · rw [here, Function.update_self, same]
    · rw [Function.update_of_ne here]
      rfl

/-- One round of the loop over the free list. -/
theorem takeLoop_succ (cfg : DxeChannelCfg) (alloc : RxAlloc) (more i dcb : Nat)
    (pPrevDCB : Option Nat) (pool : DescPool) :
    takeLoop cfg alloc (more + 1) i (some dcb) pPrevDCB pool = .noBuffer pool ∨
      ∃ after, SameLinks pool after ∧
        takeLoop cfg alloc (more + 1) i (some dcb) pPrevDCB pool =
          match pool.next dcb with
          | some following => takeLoop cfg alloc more (i + 1) (some following) (some dcb) after
          | none => .taken after none (some dcb) := by
  rw [takeLoop]
  dsimp only
  split
  · exact Or.inl rfl
  · refine Or.inr ?_
    generalize stage : (if cfg.xfrType = .bmuToHost then
      pool.setDescCB dcb { pool.xfrDescPool dcb with stagingBuffer := alloc.staging i }
      else pool) = staged
    have same : SameLinks pool staged := by
      rw [← stage]
      split
      · exact sameLinks_setDescCB rfl
      · exact SameLinks.refl pool
    cases link : pool.next dcb with
    | none =>
        refine ⟨_, ?_, rfl⟩
        exact same.trans (sameLinks_setWords ..)
    | some following =>
        refine ⟨_, ?_, rfl⟩
        exact (same.trans (sameLinks_setWords ..)).trans (sameLinks_setWords ..)

/-- The loop over the free list goes behind the descriptors it was asked for, or ends
without a buffer. -/
theorem takeLoop_spec (cfg : DxeChannelCfg) (alloc : RxAlloc) (taken rest : List Nat) (i : Nat)
    (pDCB pPrevDCB : Option Nat) (pool : DescPool)
    (chain : Segment pool.next pDCB (taken ++ rest) none) :
    ∃ after, SameLinks pool after ∧
      (takeLoop cfg alloc taken.length i pDCB pPrevDCB pool = .noBuffer after ∨
        takeLoop cfg alloc taken.length i pDCB pPrevDCB pool =
          .taken after rest.head? (taken.getLast?.or pPrevDCB)) := by
  induction taken generalizing i pDCB pPrevDCB pool with
  | nil =>
      refine ⟨pool, SameLinks.refl pool, Or.inr ?_⟩
      rw [segment_head chain]
      rfl
  | cons dcb taken ih =>
      obtain ⟨here, behind⟩ := chain
      subst here
      have latest : (dcb :: taken).getLast?.or pPrevDCB = taken.getLast?.or (some dcb) := by
        cases taken with
        | nil => rfl
        | cons later taken => simp [List.getLast?_cons]
      rw [List.length_cons, latest]
      rcases takeLoop_succ cfg alloc taken.length i dcb pPrevDCB pool with
        failed | ⟨middle, same, round⟩
      · exact ⟨pool, SameLinks.refl pool, Or.inl failed⟩
      · rw [round]
        have follows : Segment middle.next (pool.next dcb) (taken ++ rest) none :=
          segment_congr (fun position _ => same.next position) behind
        cases link : pool.next dcb with
        | none =>
            -- The list ends here, so this was the last descriptor to take.
            rw [link] at follows
            have ends : taken ++ rest = [] :=
              List.head?_eq_none_iff.mp (segment_head follows).symm
            obtain ⟨noneTaken, noneLeft⟩ := List.append_eq_nil_iff.mp ends
            rw [noneTaken, noneLeft]
            exact ⟨middle, same, Or.inr rfl⟩
        | some following =>
            rw [link] at follows
            obtain ⟨after, rest, result⟩ :=
              ih (i + 1) (some following) (some dcb) middle follows
            exact ⟨after, same.trans rest, result⟩

/-- The loop over a ring comes back to its head. -/
theorem receiveLoop_spec (ccb : ChannelCB) (cells : List Nat) (head : Nat) (pDCB : Option Nat)
    (pool : DescPool) (segment : Segment pool.next pDCB cells (some head)) :
    ∃ after, receiveLoop ccb cells.length pDCB pool = some after ∧ SameLinks pool after := by
  induction cells generalizing pDCB pool with
  | nil =>
      refine ⟨pool, ?_, SameLinks.refl pool⟩
      rw [show pDCB = some head from segment]
      rfl
  | cons dcb cells ih =>
      obtain ⟨here, behind⟩ := segment
      subst here
      have same := sameLinks_setWords pool dcb fun words => { words with
        srcMemAddrL := ccb.refWQ
        dstMemAddrL := (pool.xfrDescPool dcb).stagingBuffer
        ctrl := ccb.cwCtrlValid }
      obtain ⟨after, loop, rest⟩ := ih (pool.next dcb) _
        (segment_congr (fun position _ => same.next position) behind)
      exact ⟨after, loop, same.trans rest⟩

/-! ## Who owns the descriptors -/

/-- A configured channel has a ring of as many distinct descriptors as it was asked for. -/
structure OwnsRing (pool : DescPool) (ccb : ChannelCB) (cells : List Nat) : Prop where
  ring : Ring pool.next ccb.pRingFreeHead cells
  used : ccb.pRingUsedHead = ccb.pRingFreeHead
  length : cells.length = ccb.nDescs
  distinct : cells.Nodup

/-- The pool is shared out between the free list, whose length is the count, and the rings
of the channels. -/
structure Owned (pool : DescPool) (free : List Nat) (rings : Nat → List Nat) : Prop where
  chain : Segment pool.next pool.pFreeXfrDescPoolHead free none
  count : free.length = pool.pFreeDescPoolCount
  distinct : free.Nodup
  ring : ∀ channel, (pool.channels channel).chConfigured = true →
    OwnsRing pool (pool.channels channel) (rings channel)
  noRing : ∀ channel, (pool.channels channel).chConfigured = false → rings channel = []
  freeApart : ∀ channel, ∀ position ∈ free, position ∉ rings channel
  ringsApart : ∀ channel other, channel ≠ other →
    ∀ position ∈ rings channel, position ∉ rings other
  all : ∀ position, position < ntDxeTotalDescNo ↔
    position ∈ free ∨ ∃ channel, position ∈ rings channel

/-- The free list and all rings are as they were. -/
structure SameLists (pool after : DescPool) : Prop where
  head : after.pFreeXfrDescPoolHead = pool.pFreeXfrDescPoolHead
  count : after.pFreeDescPoolCount = pool.pFreeDescPoolCount
  next : ∀ position, after.next position = pool.next position
  configured : ∀ channel,
    (after.channels channel).chConfigured = (pool.channels channel).chConfigured
  rings : ∀ channel, (pool.channels channel).chConfigured = true →
    after.channels channel = pool.channels channel

theorem SameLists.refl (pool : DescPool) : SameLists pool pool :=
  ⟨rfl, rfl, fun _ => rfl, fun _ => rfl, fun _ _ => rfl⟩

theorem OwnsRing.congr {ccb : ChannelCB} {cells : List Nat}
    (same : ∀ position ∈ cells, after.next position = pool.next position)
    (owns : OwnsRing pool ccb cells) : OwnsRing after ccb cells :=
  ⟨ring_congr same owns.ring, owns.used, owns.length, owns.distinct⟩

theorem Owned.of_sameLists {free : List Nat} {rings : Nat → List Nat}
    (owned : Owned pool free rings) (same : SameLists pool after) : Owned after free rings where
  chain := by
    rw [same.head]
    exact segment_congr (fun position _ => same.next position) owned.chain
  count := by rw [same.count, owned.count]
  distinct := owned.distinct
  ring := by
    intro channel configured
    rw [same.configured] at configured
    rw [same.rings channel configured]
    exact (owned.ring channel configured).congr fun position _ => same.next position
  noRing := by
    intro channel unconfigured
    rw [same.configured] at unconfigured
    exact owned.noRing channel unconfigured
  freeApart := owned.freeApart
  ringsApart := owned.ringsApart
  all := owned.all

@[simp] theorem channels_setChannel (pool : DescPool) (channel : Nat) (ccb : ChannelCB) :
    (pool.setChannel channel ccb).channels channel = ccb :=
  Function.update_self ..

/-- A change of a channel that is not configured and stays so. -/
theorem sameLists_setChannel {channel : Nat} {ccb : ChannelCB}
    (before : (pool.channels channel).chConfigured = false) (later : ccb.chConfigured = false) :
    SameLists pool (pool.setChannel channel ccb) where
  head := rfl
  count := rfl
  next := fun _ => rfl
  configured := by
    intro other
    show (Function.update pool.channels channel ccb other).chConfigured = _
    by_cases here : other = channel
    · rw [here, Function.update_self, before, later]
    · rw [Function.update_of_ne here]
  rings := by
    intro other configured
    refine Function.update_of_ne ?_ _ _
    rintro rfl
    exact absurd (configured.symm.trans before) nofun

theorem SameLists.trans_sameLinks {middle : DescPool} (first : SameLists pool middle)
    (second : SameLinks middle after) : SameLists pool after where
  head := second.head.trans first.head
  count := second.count.trans first.count
  next := fun position => (second.next position).trans (first.next position)
  configured := fun channel => by rw [second.channels, first.configured]
  rings := fun channel configured => by rw [second.channels, first.rings channel configured]

/-! ## The free list of a new pool -/

theorem linkLoop_next (more i : Nat) (phyRun : UInt32) (xfrDescPool : Nat → DescCB)
    (position : Nat) :
    (linkLoop more i phyRun xfrDescPool position).next =
      if i ≤ position ∧ position < i + more then some (position + 1)
      else (xfrDescPool position).next := by
  induction more generalizing i phyRun xfrDescPool with
  | zero =>
      rw [if_neg (by omega)]
      rfl
  | succ more ih =>
      rw [linkLoop, ih]
      by_cases here : position = i
      · rw [here, Function.update_self, if_neg (by omega), if_pos (by omega)]
      · rw [Function.update_of_ne here]
        by_cases inside : i + 1 ≤ position ∧ position < i + 1 + more
        · rw [if_pos inside, if_pos (by omega)]
        · rw [if_neg inside, if_neg (by omega)]

/-- Cells in a row, the last of them with a null pointer, are a list. -/
theorem segment_range {next : Nat → Option Nat} (count start : Nat)
    (links : ∀ position, start ≤ position → position < start + count →
      next position = if position + 1 < start + count then some (position + 1) else none)
    (positive : 0 < count) : Segment next (some start) (List.range' start count) none := by
  induction count generalizing start with
  | zero => exact absurd positive (Nat.lt_irrefl 0)
  | succ count ih =>
      refine ⟨rfl, ?_⟩
      rw [links start (Nat.le_refl start) (by omega)]
      by_cases last : count = 0
      · rw [if_neg (by omega), last]
        exact rfl
      · rw [if_pos (by omega)]
        refine ih (start + 1) (fun position low high => ?_) (Nat.pos_of_ne_zero last)
        rw [links position (by omega) (by omega)]
        congr 2
        omega

/-- A new pool has all descriptors in its free list. -/
theorem owned_allocate (unconfigured : pool.configured = false)
    (noChannel : ∀ channel, (pool.channels channel).chConfigured = false) :
    Owned (ntNdxeAllocateDesc pool).1 (List.range' 0 ntDxeTotalDescNo) fun _ => [] := by
  have links : ∀ position < 60, (ntNdxeAllocateDesc pool).1.next position =
      if position + 1 < 60 then some (position + 1) else none := by
    intro position bound
    have allocated : (ntNdxeAllocateDesc pool).1.next position =
        (Function.update (linkLoop ntDxeTotalDescNo 0 pool.descBase fun _ => ⟨none, 0, 0, 0⟩) 59
          { linkLoop ntDxeTotalDescNo 0 pool.descBase (fun _ => ⟨none, 0, 0, 0⟩) 59 with
            next := none } position).next := by
      rw [ntNdxeAllocateDesc, unconfigured]
      rfl
    rw [allocated]
    by_cases last : position = 59
    · rw [last, Function.update_self]
      rfl
    · rw [Function.update_of_ne last, linkLoop_next, if_pos ⟨Nat.zero_le _, by
        rw [Nat.zero_add]
        exact bound⟩, if_pos (by omega)]
  have fields : (ntNdxeAllocateDesc pool).1.pFreeXfrDescPoolHead = some 0 ∧
      (ntNdxeAllocateDesc pool).1.pFreeDescPoolCount = 60 ∧
      (ntNdxeAllocateDesc pool).1.channels = pool.channels := by
    rw [ntNdxeAllocateDesc, unconfigured]
    exact ⟨rfl, rfl, rfl⟩
  obtain ⟨head, count, channels⟩ := fields
  exact
    { chain := by
        rw [head]
        refine segment_range 60 0 (fun position _ bound => ?_) (by decide)
        rw [Nat.zero_add] at bound ⊢
        exact links position bound
      count := by rw [List.length_range', count]; rfl
      distinct := List.nodup_range'
      ring := by
        intro channel configured
        rw [channels, noChannel channel] at configured
        exact absurd configured nofun
      noRing := fun _ _ => rfl
      freeApart := fun _ _ _ => List.not_mem_nil
      ringsApart := fun _ _ _ _ member => absurd member List.not_mem_nil
      all := by
        intro position
        simp }

/-! ## The ring of a channel -/

/-- The front of the free list, closed to a ring, goes to a channel. -/
theorem owned_of_closed {front rest : List Nat} {first last channel : Nat}
    {rings : Nat → List Nat} {ccb : ChannelCB}
    (owned : Owned pool (front ++ [last] ++ rest) rings)
    (unconfigured : (pool.channels channel).chConfigured = false)
    (begin : pool.pFreeXfrDescPoolHead = some first)
    (configured : ccb.chConfigured = true)
    (heads : ccb.pRingFreeHead = some first ∧ ccb.pRingUsedHead = some first)
    (length : (front ++ [last]).length = ccb.nDescs)
    (head : after.pFreeXfrDescPoolHead = rest.head?)
    (count : after.pFreeDescPoolCount = pool.pFreeDescPoolCount - ccb.nDescs)
    (next : after.next = Function.update pool.next last (some first))
    (channels : after.channels = Function.update pool.channels channel ccb) :
    Owned after rest (Function.update rings channel (front ++ [last])) := by
  obtain ⟨distinctTaken, distinctRest, apart⟩ := List.nodup_append.mp owned.distinct
  obtain ⟨middle, taken, left⟩ := segment_append.mp owned.chain
  have nothing : rings channel = [] := owned.noRing channel unconfigured
  have lastTaken : last ∈ front ++ [last] := List.mem_append_right _ List.mem_cons_self
  -- Only the link of the last descriptor that is taken changes.
  have same : ∀ position, position ≠ last → after.next position = pool.next position := by
    intro position elsewhere
    rw [next, Function.update_of_ne elsewhere]
  have restSame : ∀ position ∈ rest, after.next position = pool.next position := by
    intro position member
    exact same position fun here => apart last lastTaken position member here.symm
  have ringSame : ∀ other, ∀ position ∈ rings other,
      after.next position = pool.next position := by
    intro other position member
    refine same position ?_
    rintro rfl
    exact owned.freeApart other position (List.mem_append_left rest lastTaken) member
  refine ⟨?_, ?_, distinctRest, ?_, ?_, ?_, ?_, ?_⟩
  · rw [head, ← segment_head left]
    exact segment_congr restSame left
  · have total := owned.count
    rw [List.length_append, length] at total
    omega
  · intro other ready
    by_cases here : other = channel
    · rw [channels, here, Function.update_self, Function.update_self]
      refine ⟨?_, heads.2.trans heads.1.symm, length, distinctTaken⟩
      rw [heads.1, next]
      rw [begin] at taken
      exact ring_of_segment distinctTaken taken
    · rw [channels, Function.update_of_ne here] at ready ⊢
      rw [Function.update_of_ne here]
      exact (owned.ring other ready).congr (ringSame other)
  · intro other idle
    by_cases here : other = channel
    · rw [channels, here, Function.update_self, configured] at idle
      exact absurd idle nofun
    · rw [channels, Function.update_of_ne here] at idle
      rw [Function.update_of_ne here]
      exact owned.noRing other idle
  · intro other position member
    by_cases here : other = channel
    · rw [here, Function.update_self]
      exact fun inTaken => apart position inTaken position member rfl
    · rw [Function.update_of_ne here]
      exact owned.freeApart other position (List.mem_append_right _ member)
  · intro one other different position member
    by_cases here : one = channel
    · rw [here, Function.update_self] at member
      rw [Function.update_of_ne (fun same => different (here.trans same.symm))]
      exact owned.freeApart other position (List.mem_append_left rest member)
    · rw [Function.update_of_ne here] at member
      by_cases there : other = channel
      · rw [there, Function.update_self]
        exact fun inTaken =>
          owned.freeApart one position (List.mem_append_left rest inTaken) member
      · rw [Function.update_of_ne there]
        exact owned.ringsApart one other different position member
  · intro position
    rw [owned.all]
    constructor
    · rintro (inFree | ⟨other, member⟩)
      · rcases List.mem_append.mp inFree with inTaken | inRest
        · exact Or.inr ⟨channel, by rwa [Function.update_self]⟩
        · exact Or.inl inRest
      · refine Or.inr ⟨other, ?_⟩
        rw [Function.update_of_ne]
        · exact member
        · rintro rfl
          rw [nothing] at member
          exact List.not_mem_nil member
    · rintro (inRest | ⟨other, member⟩)
      · exact Or.inl (List.mem_append_right _ inRest)
      · by_cases here : other = channel
        · rw [here, Function.update_self] at member
          exact Or.inl (List.mem_append_left rest member)
        · rw [Function.update_of_ne here] at member
          exact Or.inr ⟨other, member⟩

/-- The links behind a write to a control block. -/
theorem next_setDescCB (pool : DescPool) (position : Nat) (cb : DescCB) :
    (pool.setDescCB position cb).next = Function.update pool.next position cb.next := by
  funext other
  show (Function.update pool.xfrDescPool position cb other).next = _
  by_cases here : other = position
  · rw [here, Function.update_self, Function.update_self]
  · rw [Function.update_of_ne here, Function.update_of_ne here]
    rfl

/-- The rest of the configuration closes the ring and configures the channel. -/
theorem closeRing_spec {front rest : List Nat} {first last channel : Nat}
    {rings : Nat → List Nat} {cfg : DxeChannelCfg} (alloc : RxAlloc)
    (owned : Owned pool (front ++ [last] ++ rest) rings)
    (unconfigured : (pool.channels channel).chConfigured = false)
    (begin : pool.pFreeXfrDescPoolHead = some first)
    (asked : (pool.channels channel).nDescs = cfg.nDescs)
    (length : (front ++ [last]).length = cfg.nDescs) :
    ∃ after, pool.closeRing channel cfg alloc rest.head? first last = some after ∧
      (after.channels channel).chConfigured = true ∧ after.configured = pool.configured ∧
      Owned after rest (Function.update rings channel (front ++ [last])) := by
  have closed : ∀ (words : Nat → DescWords) (ccb : ChannelCB), ccb.chConfigured = true →
      ccb.pRingFreeHead = some first → ccb.pRingUsedHead = some first →
      ccb.nDescs = cfg.nDescs →
      Owned { pool.setDescCB last { pool.xfrDescPool last with next := some first } with
          pFreeXfrDescPoolHead := rest.head?
          pFreeDescPoolCount := pool.pFreeDescPoolCount - cfg.nDescs
          dxeDescPool := words
          channels := Function.update pool.channels channel ccb }
        rest (Function.update rings channel (front ++ [last])) := by
    intro words ccb configured free used wanted
    refine owned_of_closed owned unconfigured begin configured ⟨free, used⟩
      (length.trans wanted.symm) rfl ?_ ?_ rfl
    · rw [wanted]
    · exact next_setDescCB pool last _
  unfold DescPool.closeRing
  dsimp only
  split
  case isTrue receive =>
    generalize start : DescPool.setChannel _ channel _ = ready
    have shared : Owned ready rest (Function.update rings channel (front ++ [last])) := by
      rw [← start]
      exact closed _ _ rfl rfl rfl asked
    have configured : (ready.channels channel).chConfigured = true := by
      rw [← start]
      rw [channels_setChannel]
    have ringHead : (ready.channels channel).pRingFreeHead = some first := by
      rw [← start]
      rw [channels_setChannel]
    have flag : ready.configured = pool.configured := by
      rw [← start]
      rfl
    have ring := (shared.ring channel configured).ring.2
    rw [ringHead, Function.update_self] at ring
    obtain ⟨after, loop, same⟩ := receiveLoop_spec _ (front ++ [last]) first (some first) ready ring
    rw [length] at loop
    refine ⟨after, loop, ?_, same.configured.trans flag, ?_⟩
    · rw [same.channels]
      exact configured
    · exact shared.of_sameLists ((SameLists.refl ready).trans_sameLinks same)
  case isFalse other =>
    refine ⟨_, rfl, ?_, rfl, closed _ _ rfl rfl rfl asked⟩
    rw [channels_setChannel]

/-- One call of `nt_ndxe_config_channel`: the lists stay as they are, or the channel gets
the front of the free list. -/
theorem configChannel_cases {free : List Nat} {rings : Nat → List Nat}
    (owned : Owned pool free rings) (channel : Nat) (cfg : DxeChannelCfg) (alloc : RxAlloc) :
    ∃ after, pool.configChannel channel cfg alloc = some after ∧
      after.configured = pool.configured ∧
      (SameLists pool after ∨
        ∃ taken rest, free = taken ++ rest ∧
          (pool.channels channel).chConfigured = false ∧
          (after.channels channel).chConfigured = true ∧
          Owned after rest (Function.update rings channel taken)) := by
  unfold DescPool.configChannel
  dsimp only
  split
  · exact ⟨pool, rfl, rfl, Or.inl (SameLists.refl pool)⟩
  split
  · exact ⟨pool, rfl, rfl, Or.inl (SameLists.refl pool)⟩
  case isFalse.isFalse known fresh =>
  have unconfigured : (pool.channels channel).chConfigured = false := by simpa using fresh
  have same : SameLists pool
      (pool.setChannel channel ((pool.channels channel).applyCfg cfg)) :=
    sameLists_setChannel unconfigured unconfigured
  split
  · exact ⟨_, rfl, rfl, Or.inl same⟩
  split
  case isFalse => exact ⟨_, rfl, rfl, Or.inl same⟩
  case isTrue positive enough =>
  -- The descriptors that the loop takes, and the last of them.
  obtain ⟨taken, rest, split, length⟩ : ∃ taken rest, free = taken ++ rest ∧
      taken.length = cfg.nDescs := by
    refine ⟨free.take cfg.nDescs, free.drop cfg.nDescs, (List.take_append_drop ..).symm, ?_⟩
    rw [List.length_take, owned.count]
    exact Nat.min_eq_left enough
  obtain ⟨front, last, ends⟩ : ∃ front last, taken = front ++ [last] := by
    rcases List.eq_nil_or_concat taken with empty | ⟨front, last, ends⟩
    · rw [empty] at length
      exact absurd length.symm positive
    · exact ⟨front, last, by simpa using ends⟩
  subst split
  have ready := owned.of_sameLists same
  obtain ⟨first, begin⟩ : ∃ first, pool.pFreeXfrDescPoolHead = some first := by
    rw [segment_head owned.chain, ends]
    cases front with
    | nil => exact ⟨last, rfl⟩
    | cons first front => exact ⟨first, rfl⟩
  obtain ⟨walked, sameWalk, loop⟩ := takeLoop_spec cfg alloc taken rest 0 _
    (some first) _ ready.chain
  have head : (pool.setChannel channel
      ((pool.channels channel).applyCfg cfg)).pFreeXfrDescPoolHead = some first := begin
  rw [length, head] at loop
  rw [head]
  have flag : walked.configured = pool.configured := sameWalk.configured
  have kept := same.trans_sameLinks sameWalk
  rcases loop with failed | done
  · rw [failed]
    exact ⟨walked, rfl, flag, Or.inl kept⟩
  · have latest : taken.getLast?.or (some first) = some last := by
      rw [ends, List.getLast?_concat]
      rfl
    rw [done, latest]
    have idle : (walked.channels channel).chConfigured = false := by
      rw [kept.configured, unconfigured]
    have asked : (walked.channels channel).nDescs = cfg.nDescs := by
      rw [sameWalk.channels, channels_setChannel]
      rfl
    rw [ends] at length
    have walkedOwned : Owned walked (front ++ [last] ++ rest) rings := by
      rw [← ends]
      exact owned.of_sameLists kept
    obtain ⟨after, closed, configured, final, shared⟩ := closeRing_spec alloc walkedOwned idle
      (kept.head.trans begin) asked length
    refine ⟨after, closed, final.trans flag,
      Or.inr ⟨taken, rest, rfl, unconfigured, configured, ?_⟩⟩
    rw [ends]
    exact shared

/-! ## Runs -/

/-- The pool before its allocation has no channel, and behind it is shared out. -/
def PoolInv (pool : DescPool) : Prop :=
  (pool.configured = false ∧ pool.pFreeDescPoolCount = 0 ∧
      ∀ channel, (pool.channels channel).chConfigured = false) ∨
    (pool.configured = true ∧ ∃ free rings, Owned pool free rings)

/-- The call takes no descriptors: the pool was allocated before, or the channel is not
newly configured. -/
def Failed (pool after : DescPool) : PoolEvent → Prop
  | .allocate => (ntNdxeAllocateDesc pool).2 = .fail
  | .config channel _ _ =>
      (after.channels channel).chConfigured = (pool.channels channel).chConfigured

/-- Before the allocation there is nothing to take. -/
theorem configChannel_empty (empty : pool.pFreeDescPoolCount = 0) (channel : Nat)
    (cfg : DxeChannelCfg) (alloc : RxAlloc) :
    ∃ after, pool.configChannel channel cfg alloc = some after ∧
      after.configured = pool.configured ∧ SameLists pool after := by
  unfold DescPool.configChannel
  dsimp only
  split
  · exact ⟨pool, rfl, rfl, SameLists.refl pool⟩
  split
  · exact ⟨pool, rfl, rfl, SameLists.refl pool⟩
  case isFalse.isFalse known fresh =>
  have unconfigured : (pool.channels channel).chConfigured = false := by simpa using fresh
  have same : SameLists pool
      (pool.setChannel channel ((pool.channels channel).applyCfg cfg)) :=
    sameLists_setChannel unconfigured unconfigured
  split
  · exact ⟨_, rfl, rfl, same⟩
  split
  case isTrue positive enough =>
    have none : cfg.nDescs ≤ 0 := empty ▸ enough
    exact absurd (Nat.le_zero.mp none) positive
  case isFalse => exact ⟨_, rfl, rfl, same⟩

/-- Every call goes through, keeps the invariant, and leaves the lists as they were when
it takes no descriptors. -/
theorem step_spec (inv : PoolInv pool) (event : PoolEvent) :
    ∃ after, pool.step event = some after ∧ PoolInv after ∧
      (after.configured = true ↔ pool.configured = true ∨ event = .allocate) ∧
      (Failed pool after event → SameLists pool after) := by
  cases event with
  | allocate =>
      refine ⟨_, rfl, ?_⟩
      rcases inv with ⟨unconfigured, -, noChannel⟩ | ⟨configured, free, rings, owned⟩
      · have flag : (ntNdxeAllocateDesc pool).1.configured = true := by
          rw [ntNdxeAllocateDesc, unconfigured]
          rfl
        refine ⟨Or.inr ⟨flag, _, _, owned_allocate unconfigured noChannel⟩,
          iff_of_true flag (Or.inr rfl), ?_⟩
        · intro failed
          simp only [Failed, ntNdxeAllocateDesc, unconfigured] at failed
          exact absurd failed nofun
      · have same : (ntNdxeAllocateDesc pool).1 = pool := by
          rw [ntNdxeAllocateDesc, if_pos configured]
        rw [same]
        exact ⟨Or.inr ⟨configured, free, rings, owned⟩, iff_of_true configured (Or.inl configured),
          fun _ => SameLists.refl pool⟩
  | config channel cfg alloc =>
      have flags : ∀ {after : DescPool}, after.configured = pool.configured →
          (after.configured = true ↔
            pool.configured = true ∨ PoolEvent.config channel cfg alloc = .allocate) := by
        intro after flag
        rw [flag]
        exact ⟨Or.inl, fun either => either.resolve_right nofun⟩
      rcases inv with ⟨unconfigured, empty, noChannel⟩ | ⟨configured, free, rings, owned⟩
      · obtain ⟨after, stepped, flag, same⟩ := configChannel_empty empty channel cfg alloc
        refine ⟨after, stepped, Or.inl ⟨flag.trans unconfigured, ?_, ?_⟩, flags flag,
          fun _ => same⟩
        · rw [same.count, empty]
        · intro other
          rw [same.configured, noChannel]
      · obtain ⟨after, stepped, flag, cases⟩ := configChannel_cases owned channel cfg alloc
        refine ⟨after, stepped, ?_⟩
        rcases cases with same | ⟨taken, rest, -, before, behind, shared⟩
        · exact ⟨Or.inr ⟨flag.trans configured, free, rings, owned.of_sameLists same⟩,
            flags flag, fun _ => same⟩
        · refine ⟨Or.inr ⟨flag.trans configured, _, _, shared⟩, flags flag, fun failed => ?_⟩
          have unchanged : (after.channels channel).chConfigured =
            (pool.channels channel).chConfigured := failed
          rw [before, behind] at unchanged
          exact absurd unchanged nofun

/-- What a run of calls preserves. -/
theorem run_owned (events : List PoolEvent) (pool : DescPool) (inv : PoolInv pool) :
    ∃ last, Runs.exec DescPool.step pool events = some last ∧ PoolInv last ∧
      (last.configured = true ↔ pool.configured = true ∨ PoolEvent.allocate ∈ events) := by
  induction events generalizing pool with
  | nil => exact ⟨pool, rfl, inv, by simp⟩
  | cons event events ih =>
      obtain ⟨after, stepped, kept, flag, -⟩ := step_spec inv event
      obtain ⟨last, rest, final, flags⟩ := ih after kept
      refine ⟨last, Runs.exec_cons.mpr ⟨after, stepped, rest⟩, final, ?_⟩
      rw [flags, flag, List.mem_cons, eq_comm (a := PoolEvent.allocate), or_assoc]

/-- Every run of calls goes through; behind the allocation of the pool the free list and the
rings share it out, and a further call that takes no descriptors leaves them as they are. -/
theorem descriptors_owned (descBase : UInt32) (events : List PoolEvent) :
    ∃ pool, Runs.exec DescPool.step (DescPool.start descBase) events = some pool ∧
      (PoolEvent.allocate ∈ events → ∃ free rings, Owned pool free rings) ∧
      ∀ event, ∃ after, pool.step event = some after ∧
        (Failed pool after event → SameLists pool after) := by
  obtain ⟨pool, run, inv, flag⟩ := run_owned events (DescPool.start descBase)
    (Or.inl ⟨rfl, rfl, fun _ => rfl⟩)
  refine ⟨pool, run, fun allocated => ?_, fun event => ?_⟩
  · rcases inv with ⟨unconfigured, -⟩ | ⟨-, shared⟩
    · rw [flag.mpr (Or.inr allocated)] at unconfigured
      exact absurd unconfigured nofun
    · exact shared
  · obtain ⟨after, stepped, -, -, failed⟩ := step_spec inv event
    exact ⟨after, stepped, failed⟩

example : (Runs.exec DescPool.step (DescPool.start 0x1000)
    [.allocate, .config 3 ⟨5, 0, .hostToBmu, 0, 0, .heap, true⟩ ⟨fun _ => 0, 0⟩,
      .config 4 ⟨2, 0, .bmuToHost, 0, 0, .heap, true⟩ ⟨fun _ => 1, 1⟩]).map
      (fun pool => (pool.pFreeXfrDescPoolHead, pool.pFreeDescPoolCount, pool.next 4, pool.next 6)) =
    some (some 7, 53, some 0, some 5) := by
  rfl

end QHal.Dxe
