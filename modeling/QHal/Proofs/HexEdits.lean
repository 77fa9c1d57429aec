/-
Module: QHal.Proofs.HexEdits
Purpose: The operations that change a hex file as updates of its map from addresses to bytes.
Trusted boundary: none
Main exports: Bytes, modify_put, delete_cut, fill_fillUp, offsetAddress_shift
-/
import QHal.Proofs.HexMap
import Mathlib.Tactic.ByContra

namespace QHal.Hex.HexFile

/-! ## The map and its updates -/

/-- What a hex file stands for: the bytes at their addresses. -/
abbrev Bytes := Int → Option UInt8

namespace Bytes

/-- Data is put over what is there. -/
def put (bytes : Bytes) (address : Int) (data : List UInt8) : Bytes := fun place =>
  if address ≤ place ∧ place < address + data.length then data[(place - address).toNat]?
  else bytes place

/-- A range is removed. -/
def cut (bytes : Bytes) (address : Int) (length : Nat) : Bytes := fun place =>
  if address ≤ place ∧ place < address + length then none else bytes place

/-- The addresses of a range without a byte get one. -/
def fillUp (bytes : Bytes) (address dataEnd : Int) (byte : UInt8) : Bytes := fun place =>
  if address ≤ place ∧ place < dataEnd then some ((bytes place).getD byte) else bytes place

/-- The bytes of both. -/
def union (bytes other : Bytes) : Bytes := fun place => (bytes place).or (other place)

/-- The bytes at addresses that are moved. -/
def shift (bytes : Bytes) (offset : Int) : Bytes := fun place => bytes (place - offset)

/-- A byte is at an address of the range. -/
def Meets (bytes : Bytes) (address : Int) (length : Nat) : Prop :=
  ∃ place, address ≤ place ∧ place < address + length ∧ bytes place ≠ none

theorem put_eq (bytes : Bytes) (address : Int) (data : List UInt8) (kind : Buffer)
    (place : Int) :
    bytes.put address data place =
      ((⟨address, data, kind⟩ : HexBlock).byte place).or (bytes place) := by
  have start : (⟨address, data, kind⟩ : HexBlock).start = address := rfl
  have stop : (⟨address, data, kind⟩ : HexBlock).stop = address + data.length := rfl
  unfold put
  split
  · rename_i inside
    have some := HexBlock.isSome_byte (start ▸ inside.1) (stop ▸ inside.2)
    rw [Option.or_of_isSome some]
    exact (if_pos inside.1).symm
  · rename_i outside
    rw [HexBlock.byte_outside (by rw [start, stop]; omega), Option.none_or]

end Bytes

/-! ## Blocks in front of others -/

section Lists

variable {blocks front back rest : List HexBlock} {block new : HexBlock} {address place : Int}
  {gap : Nat}

theorem canonical_append : Canonical gap (front ++ back) ↔
    Canonical gap front ∧ Canonical gap back ∧
      ∀ block ∈ front, ∀ next ∈ back, block.stop + (gap : Int) ≤ next.start := by
  refine ⟨fun canonical => ?_, fun ⟨first, second, between⟩ => ?_⟩
  · obtain ⟨first, second, between⟩ := List.pairwise_append.mp canonical.separate
    obtain ⟨filled, others⟩ := List.forall_mem_append.mp canonical.filled
    exact ⟨⟨first, filled⟩, ⟨second, others⟩, between⟩
  · exact ⟨List.pairwise_append.mpr ⟨first.separate, second.separate, between⟩,
      List.forall_mem_append.mpr ⟨first.filled, second.filled⟩⟩

theorem byteIn_passed (behind : ∀ block ∈ front, block.stop ≤ place) :
    byteIn front place = none := by
  induction front with
  | nil => rfl
  | cons block front ih =>
      rw [byteIn_cons, HexBlock.byte_outside (Or.inr (behind block List.mem_cons_self)),
        Option.none_or]
      exact ih fun other member => behind other (List.mem_cons_of_mem block member)

/-- A block that is apart from others can come first. -/
theorem byteIn_concat (apart : ∀ block ∈ blocks, Apart block new)
    (separate : blocks.Pairwise Apart) (place : Int) :
    byteIn (blocks ++ [new]) place = (new.byte place).or (byteIn blocks place) := by
  have all : (blocks ++ [new]).Pairwise Apart := by
    apply List.pairwise_append.mpr
    refine ⟨separate, List.pairwise_singleton _ _, fun block member other single => ?_⟩
    rw [List.mem_singleton.mp single]
    exact apart block member
  rw [byteIn_perm all (List.perm_append_singleton new blocks), byteIn_cons]

/-- What is put behind blocks can be put in front of them. -/
theorem or_passed (behind : ∀ block ∈ front, block.stop ≤ new.start) (other : Option UInt8) :
    (byteIn front place).or ((new.byte place).or other) =
      (new.byte place).or ((byteIn front place).or other) := by
  cases here : new.byte place with
  | none => rw [Option.none_or, Option.none_or]
  | some byte =>
      have inside := HexBlock.inside_of_byte here
      rw [byteIn_passed fun block member => by
        have before := behind block member
        omega]
      rfl

end Lists

/-! ## Putting data -/

section Modify

variable {file : HexFile} {block : HexBlock} {rest passed : List HexBlock} {address : Int}
  {data : List UInt8} {gap : Nat}

/-- Merging the next blocks into one that reaches them keeps the bytes of this one, and those of
the others behind it. -/
theorem mergeNext_spec (small : gap ≤ 1) (filled : block.data ≠ [])
    (canonical : Canonical gap rest)
    (behind : ∀ next ∈ rest, block.start ≤ next.start) :
    Canonical gap (mergeNext block rest) ∧
      (∀ other ∈ mergeNext block rest, block.start ≤ other.start) ∧
      ∀ place, byteIn (mergeNext block rest) place = byteIn (block :: rest) place := by
  induction rest generalizing block with
  | nil =>
      rw [mergeNext]
      refine ⟨canonical_cons.mpr ⟨nofun, filled, canonical_nil⟩, ?_, fun _ => rfl⟩
      intro other member
      rw [List.mem_singleton.mp member]
  | cons next rest ih =>
      obtain ⟨gap, own, later⟩ := canonical_cons.mp canonical
      have order := behind next List.mem_cons_self
      have mine := start_le_stop block
      rw [mergeNext]
      split
      · rename_i reaches
        have nonempty : block.data ++ next.data.drop (block.stop - next.start).toNat ≠ [] :=
          fun none => filled (List.append_eq_nil_iff.mp none).1
        obtain ⟨merged, starts, same⟩ := @ih
          { block with data := block.data ++ next.data.drop (block.stop - next.start).toNat }
          nonempty later fun other member => behind other (List.mem_cons_of_mem next member)
        refine ⟨merged, starts, fun place => ?_⟩
        rw [same, byteIn_cons, byteIn_cons, byteIn_cons,
          block.byte_append _ next.kind, ← Option.or_assoc]
        congr 1
        by_cases above : block.stop ≤ place
        · rw [HexBlock.byte_drop reaches next.kind above]
        · -- In front of its end the block has a byte, or neither has one.
          by_cases here : block.start ≤ place
          · rw [Option.or_of_isSome (HexBlock.isSome_byte here (by omega)),
              Option.or_of_isSome (HexBlock.isSome_byte here (by omega))]
          · have noNext : next.byte place = none := HexBlock.byte_outside (by omega)
            have noDropped : (⟨block.stop, next.data.drop (block.stop - next.start).toNat,
                next.kind⟩ : HexBlock).byte place = none :=
              HexBlock.byte_outside (Or.inl (show place < block.stop by omega))
            rw [noNext, noDropped]
      · rename_i apart
        refine ⟨canonical_cons.mpr ⟨?_, filled, canonical⟩, ?_, fun _ => rfl⟩
        · intro other member
          rcases List.mem_cons.mp member with rfl | inRest
          · omega
          · have further := gap other inRest
            have long := start_le_stop next
            omega
        · intro other member
          rcases List.mem_cons.mp member with rfl | inRest
          · exact Int.le_refl _
          · exact behind other inRest

theorem start_joinBlock (block : HexBlock) (address : Int) (data : List UInt8) :
    (joinBlock block address data).start = min address block.start := rfl

/-- A block with new data over it, which touches it, has the new data and else its own. -/
theorem byte_joinBlock (filled : data ≠ []) (low : address ≤ block.stop)
    (high : address + data.length ≥ block.start) (place : Int) :
    (joinBlock block address data).byte place =
      ((⟨address, data, .bytearray⟩ : HexBlock).byte place).or (block.byte place) := by
  have size := block.stop_eq
  have positive := List.length_pos_iff.mpr filled
  have newStart : (⟨address, data, .bytearray⟩ : HexBlock).start = address := rfl
  have newStop : (⟨address, data, .bytearray⟩ : HexBlock).stop = address + data.length := rfl
  -- The end of the old data, as a block of its own.
  have back : ((⟨address + data.length, if address + data.length < block.stop then
      block.data.drop (block.data.length - (block.stop - (address + data.length)).toNat) else [],
      .bytearray⟩ : HexBlock).byte place) =
        if address + data.length ≤ place then block.byte place else none := by
    split
    · rename_i inside
      have same : block.data.length - (block.stop - (address + data.length)).toNat =
          (address + data.length - block.start).toNat := by omega
      rw [same]
      split
      · rename_i behind
        exact HexBlock.byte_drop high .bytearray behind
      · rename_i front
        exact HexBlock.byte_outside (Or.inl (Int.not_le.mp front))
    · rename_i none
      have nothing : (⟨address + data.length, [], .bytearray⟩ : HexBlock).byte place = .none := by
        apply HexBlock.byte_outside
        show place < address + data.length ∨ address + data.length + 0 ≤ place
        omega
      rw [nothing]
      split
      · exact (HexBlock.byte_outside (Or.inr (by omega))).symm
      · rfl
  -- Its beginning, which ends where the new data begins.
  have front : ∃ first : HexBlock, first.stop = address ∧
      joinBlock block address data =
        { first with
          data := (first.data ++ data) ++ if address + data.length < block.stop then
            block.data.drop (block.data.length - (block.stop - (address + data.length)).toNat)
            else [] } ∧
      first.byte place = if place < address then block.byte place else none := by
    by_cases inside : address > block.start
    · refine ⟨{ block with data := block.data.take (address - block.start).toNat }, ?_, ?_, ?_⟩
      · show block.address + (block.data.take (address - block.start).toNat).length = address
        rw [List.length_take]
        unfold HexBlock.start at *
        omega
      · unfold joinBlock
        rw [if_pos inside, if_pos inside, Int.min_eq_right (Int.le_of_lt inside)]
        rfl
      · split
        · rename_i before
          exact HexBlock.byte_take before
        · apply HexBlock.byte_outside
          right
          show block.address + (block.data.take (address - block.start).toNat).length ≤ place
          rw [List.length_take]
          unfold HexBlock.start at *
          omega
    · refine ⟨⟨address, [], .bytearray⟩, ?_, ?_, ?_⟩
      · exact Int.add_zero address
      · unfold joinBlock
        rw [if_neg inside, if_neg inside, Int.min_eq_left (Int.not_lt.mp inside)]
      · have nothing : (⟨address, [], .bytearray⟩ : HexBlock).byte place = none := by
          apply HexBlock.byte_outside
          show place < address ∨ address + 0 ≤ place
          omega
        rw [nothing]
        split
        · exact (HexBlock.byte_outside (Or.inl (by omega))).symm
        · rfl
  obtain ⟨first, stop, shape, bytes⟩ := front
  have second : { first with data := first.data ++ data }.stop = address + data.length := by
    rw [HexBlock.stop_eq, ← stop, HexBlock.stop_eq first]
    show first.start + ((first.data ++ data).length : Int) = _
    rw [List.length_append]
    omega
  rw [shape, HexBlock.byte_append { first with data := first.data ++ data } _ .bytearray, second,
    back, first.byte_append data .bytearray, stop, bytes]
  by_cases before : place < address
  · have noNew : (⟨address, data, .bytearray⟩ : HexBlock).byte place = none :=
      HexBlock.byte_outside (Or.inl before)
    rw [if_pos before, if_neg (by omega), Option.or_none, noNew, Option.or_none, Option.none_or]
  · rw [if_neg before, Option.none_or]
    by_cases behind : address + data.length ≤ place
    · rw [if_pos behind]
    · rw [if_neg behind, Option.or_none]
      have some := HexBlock.isSome_byte (newStart ▸ Int.not_lt.mp before)
        (newStop ▸ Int.not_le.mp behind)
      rw [Option.or_of_isSome some]

/-- The loop puts the data over the blocks behind those that it has passed. -/
theorem modifyLoop_spec (small : gap ≤ 1) (filled : data ≠ [])
    (canonical : Canonical gap (passed ++ rest))
    (behind : ∀ block ∈ passed, block.stop < address) :
    Canonical gap (modifyLoop address data passed rest) ∧
      ∀ place, byteIn (modifyLoop address data passed rest) place =
        ((⟨address, data, .bytearray⟩ : HexBlock).byte place).or
          (byteIn (passed ++ rest) place) := by
  have newStart : (⟨address, data, .bytearray⟩ : HexBlock).start = address := rfl
  have newStop : (⟨address, data, .bytearray⟩ : HexBlock).stop = address + data.length := rfl
  induction rest generalizing passed with
  | nil =>
      rw [modifyLoop, if_pos filled]
      rw [List.append_nil] at canonical
      refine ⟨canonical_append.mpr ⟨canonical, canonical_cons.mpr ⟨nofun, filled, canonical_nil⟩,
        fun block member other single => ?_⟩, fun place => ?_⟩
      · have before := behind block member
        rw [List.mem_singleton.mp single, newStart]
        omega
      · have apart : ∀ block ∈ passed, Apart block ⟨address, data, .bytearray⟩ :=
          fun block member => Or.inl (Int.le_of_lt (behind block member))
        rw [List.append_nil]
        exact byteIn_concat apart canonical.apart place
  | cons block rest ih =>
      obtain ⟨front, back, between⟩ := canonical_append.mp canonical
      obtain ⟨further, own, later⟩ := canonical_cons.mp back
      have long := start_le_stop block
      rw [modifyLoop]
      split
      · rename_i touches
        have joined := start_joinBlock block address data
        have nonempty : (joinBlock block address data).data ≠ [] := by
          unfold joinBlock
          intro none
          obtain ⟨none, -⟩ := List.append_eq_nil_iff.mp none
          exact filled (List.append_eq_nil_iff.mp none).2
        obtain ⟨merged, starts, same⟩ := mergeNext_spec small nonempty later fun next member => by
          have above := further next member
          omega
        refine ⟨canonical_append.mpr ⟨front, merged, fun before member other inMerged => ?_⟩,
          fun place => ?_⟩
        · have low := behind before member
          have high := between before member block List.mem_cons_self
          have first := starts other inMerged
          omega
        · have inFront : ∀ before ∈ passed,
              before.stop ≤ (⟨address, data, .bytearray⟩ : HexBlock).start :=
            fun before member => Int.le_of_lt (behind before member)
          rw [byteIn_append, same, byteIn_cons, byte_joinBlock filled touches.1 touches.2,
            Option.or_assoc, or_passed inFront, byteIn_append, byteIn_cons]
      · rename_i apart
        split
        · rename_i before
          have far : ∀ other ∈ passed ++ block :: rest,
              Far gap other ⟨address, data, .bytearray⟩ := by
            intro other member
            rcases List.mem_append.mp member with inPassed | inRest
            · have low := behind other inPassed
              left
              rw [newStart]
              omega
            · right
              rw [newStop]
              rcases List.mem_cons.mp inRest with rfl | inLater
              · omega
              · have above := further other inLater
                omega
          have all : (passed ++ block :: rest ++
              [(⟨address, data, .bytearray⟩ : HexBlock)]).Pairwise (Far gap) := by
            apply List.pairwise_append.mpr
            refine ⟨canonical.far, List.pairwise_singleton _ _, fun other member new single => ?_⟩
            rw [List.mem_singleton.mp single]
            exact far other member
          have some : ∀ other ∈ passed ++ block :: rest ++
              [(⟨address, data, .bytearray⟩ : HexBlock)], other.data ≠ [] :=
            List.forall_mem_append.mpr ⟨canonical.filled, List.forall_mem_cons.mpr ⟨filled, nofun⟩⟩
          refine ⟨canonical_sortBlocks all some, fun place => ?_⟩
          rw [byteIn_sortBlocks (all.imp Far.apart)]
          exact byteIn_concat (fun other member => (far other member).apart) canonical.apart place
        · rename_i after
          have split : passed ++ block :: rest = passed ++ [block] ++ rest := by
            rw [List.append_assoc]
            rfl
          rw [split] at canonical ⊢
          apply ih canonical
          intro other member
          rcases List.mem_append.mp member with inPassed | single
          · exact behind other inPassed
          · rw [List.mem_singleton.mp single]
            omega

/-- `modify` puts data over what is there. -/
theorem modify_put (small : gap ≤ 1) (canonical : Canonical gap file.blocks) (filled : data ≠ [])
    (address : Int) :
    Canonical gap (file.modify address data).blocks ∧
      (file.modify address data).byteAt = Bytes.put file.byteAt address data := by
  obtain ⟨kept, same⟩ :=
    @modifyLoop_spec file.blocks [] address data gap small filled canonical nofun
  refine ⟨kept, funext fun place => ?_⟩
  rw [Bytes.put_eq _ _ _ .bytearray]
  exact same place

/-- Empty data would become a block of its own: it touches no block, and is not behind all. -/
def Stray (blocks : List HexBlock) (address : Int) (data : List UInt8) : Prop :=
  data = [] ∧ (∀ block ∈ blocks, ¬ (block.start ≤ address ∧ address ≤ block.stop)) ∧
    ∃ block ∈ blocks, address ≤ block.stop

theorem modifyLoop_empty (small : gap ≤ 1) (canonical : Canonical gap (passed ++ rest))
    (behind : ∀ block ∈ passed, block.stop < address)
    (place : ¬ Stray (passed ++ rest) address []) :
    Canonical gap (modifyLoop address [] passed rest) := by
  induction rest generalizing passed with
  | nil =>
      rw [modifyLoop, if_neg (not_not.mpr rfl)]
      rwa [List.append_nil] at canonical
  | cons block rest ih =>
      obtain ⟨front, back, between⟩ := canonical_append.mp canonical
      obtain ⟨further, own, later⟩ := canonical_cons.mp back
      have long := HexBlock.start_lt_stop own
      have size := block.stop_eq
      have none : address + (([] : List UInt8).length : Int) = address := Int.add_zero address
      rw [modifyLoop, none]
      split
      · rename_i touches
        have joined := start_joinBlock block address []
        have filled : (joinBlock block address []).data ≠ [] := by
          unfold joinBlock
          rw [none]
          dsimp only
          intro nothing
          obtain ⟨first, second⟩ := List.append_eq_nil_iff.mp nothing
          obtain ⟨first, -⟩ := List.append_eq_nil_iff.mp first
          by_cases inside : address > block.start
          · rw [if_pos inside, List.take_eq_nil_iff] at first
            rcases first with zero | empty
            · omega
            · exact own empty
          · rw [if_pos (by omega), List.drop_eq_nil_iff] at second
            omega
        obtain ⟨merged, starts, -⟩ := mergeNext_spec small filled later fun next member => by
          have above := further next member
          omega
        refine canonical_append.mpr ⟨front, merged, fun before member other inMerged => ?_⟩
        have high := between before member block List.mem_cons_self
        have first := starts other inMerged
        omega
      · rename_i apart
        split
        · rename_i before
          refine (place ⟨rfl, fun other member inside => ?_, block,
            List.mem_append_right passed List.mem_cons_self, by omega⟩).elim
          rcases List.mem_append.mp member with inPassed | inRest
          · have low := behind other inPassed
            omega
          · rcases List.mem_cons.mp inRest with rfl | inLater
            · omega
            · have above := further other inLater
              omega
        · rename_i after
          have split : passed ++ block :: rest = passed ++ [block] ++ rest := by
            rw [List.append_assoc]
            rfl
          rw [split] at canonical place
          refine ih canonical (fun other member => ?_) place
          rcases List.mem_append.mp member with inPassed | single
          · exact behind other inPassed
          · rw [List.mem_singleton.mp single]
            omega

/-- `modify` keeps the blocks in order, but for stray empty data. -/
theorem canonical_modify (small : gap ≤ 1) (canonical : Canonical gap file.blocks)
    (place : ¬ Stray file.blocks address data) :
    Canonical gap (file.modify address data).blocks := by
  cases data with
  | nil => exact modifyLoop_empty small canonical nofun place
  | cons byte data => exact (modify_put small canonical (List.cons_ne_nil byte data) address).1

end Modify

/-! ## Adding and merging -/

section Merge

variable {file other : HexFile} {block : HexBlock} {blocks : List HexBlock} {address : Int}
  {length gap : Nat} {data : List UInt8}

/-- The byte of a block is one of the blocks that it is among. -/
theorem byteIn_ne_none (canonical : Canonical gap blocks) (place : Int) :
    byteIn blocks place ≠ none ↔ ∃ block ∈ blocks, block.start ≤ place ∧ place < block.stop := by
  refine ⟨fun found => ?_, fun ⟨block, member, start, stop⟩ => ?_⟩
  · obtain ⟨byte, here⟩ := Option.ne_none_iff_exists'.mp found
    obtain ⟨block, member, same⟩ := (byteIn_eq_some canonical.apart).mp here
    exact ⟨block, member, HexBlock.inside_of_byte same⟩
  · obtain ⟨byte, here⟩ := Option.isSome_iff_exists.mp (HexBlock.isSome_byte start stop)
    rw [(byteIn_eq_some canonical.apart).mpr ⟨block, member, here⟩]
    exact Option.some_ne_none byte

/-- The check for an overlap looks for a byte in the range. -/
theorem overlaps_iff (canonical : Canonical gap file.blocks) (positive : 0 < length)
    (address : Int) :
    file.overlaps address length = true ↔ Bytes.Meets file.byteAt address length := by
  unfold overlaps Bytes.Meets
  rw [List.any_eq_true]
  refine ⟨fun ⟨block, member, clash⟩ => ?_, fun ⟨place, low, high, found⟩ => ?_⟩
  · simp only [Bool.and_eq_true, decide_eq_true_eq] at clash
    have long := HexBlock.start_lt_stop (canonical.filled block member)
    exact ⟨max address block.start, by omega, by omega,
      (byteIn_ne_none canonical _).mpr ⟨block, member, by omega, by omega⟩⟩
  · obtain ⟨block, member, start, stop⟩ := (byteIn_ne_none canonical place).mp found
    refine ⟨block, member, ?_⟩
    simp only [Bool.and_eq_true, decide_eq_true_eq]
    omega

theorem add_put (canonical : Canonical gap file.blocks) (filled : data ≠ [])
    (free : ¬ Bytes.Meets file.byteAt address data.length) :
    file.add address data = .ok (file.modify address data) := by
  have positive := List.length_pos_iff.mpr filled
  unfold add
  rw [if_neg fun clash => free ((overlaps_iff canonical positive address).mp clash)]
  rfl

theorem add_overlap (canonical : Canonical gap file.blocks) (filled : data ≠ [])
    (taken : Bytes.Meets file.byteAt address data.length) :
    file.add address data = .error "Data overlaps with existing data." := by
  have positive := List.length_pos_iff.mpr filled
  unfold add
  rw [if_pos ((overlaps_iff canonical positive address).mpr taken)]
  rfl

/-- Both maps have a byte at an address. -/
def Bytes.Overlap (bytes other : Bytes) : Prop := ∃ place, bytes place ≠ none ∧ other place ≠ none

theorem merge_overlaps (canonical : Canonical gap file.blocks)
    (others : Canonical 0 other.blocks) :
    (other.blocks.any fun block => file.overlaps block.start block.data.length) = true ↔
      Bytes.Overlap file.byteAt other.byteAt := by
  rw [List.any_eq_true]
  refine ⟨fun ⟨block, member, clash⟩ => ?_, fun ⟨place, mine, its⟩ => ?_⟩
  · have positive := List.length_pos_iff.mpr (others.filled block member)
    obtain ⟨place, low, high, found⟩ := (overlaps_iff canonical positive _).mp clash
    exact ⟨place, found, (byteIn_ne_none others place).mpr ⟨block, member, low, high⟩⟩
  · obtain ⟨block, member, start, stop⟩ := (byteIn_ne_none others place).mp its
    have positive := List.length_pos_iff.mpr (others.filled block member)
    exact ⟨block, member, (overlaps_iff canonical positive _).mpr ⟨place, start, stop, mine⟩⟩

/-- The data of canonical blocks is put over what is there. -/
theorem foldl_modify (small : gap ≤ 1) (others : Canonical 0 blocks)
    (canonical : Canonical gap file.blocks) :
    Canonical gap
        (blocks.foldl (fun file block => file.modify block.start block.data) file).blocks ∧
      ∀ place,
        (blocks.foldl (fun file block => file.modify block.start block.data) file).byteAt place =
          (byteIn blocks place).or (file.byteAt place) := by
  induction blocks generalizing file with
  | nil => exact ⟨canonical, fun _ => rfl⟩
  | cons block rest ih =>
      obtain ⟨gap, own, later⟩ := canonical_cons.mp others
      obtain ⟨kept, put⟩ := modify_put small canonical own block.start
      obtain ⟨all, same⟩ := ih later kept
      rw [List.foldl_cons]
      refine ⟨all, fun place => ?_⟩
      rw [same, put, Bytes.put_eq _ _ _ .bytearray, byteIn_cons, Option.or_assoc]
      have mine : (⟨block.start, block.data, .bytearray⟩ : HexBlock).byte place =
        block.byte place := rfl
      rw [mine]
      cases here : block.byte place with
      | none => rw [Option.none_or, Option.none_or]
      | some byte =>
          have inside := HexBlock.inside_of_byte here
          rw [byteIn_before fun next member => by
            have behind := gap next member
            omega]
          rfl

theorem merge_overlap (canonical : Canonical gap file.blocks)
    (others : Canonical 0 other.blocks)
    (clash : Bytes.Overlap file.byteAt other.byteAt) :
    file.merge other = .error "Data overlaps with existing data." := by
  unfold merge
  rw [if_pos ((merge_overlaps canonical others).mpr clash)]
  rfl

/-- `merge` has the bytes of both. -/
theorem merge_union (small : gap ≤ 1) (canonical : Canonical gap file.blocks)
    (others : Canonical 0 other.blocks)
    (free : ¬ Bytes.Overlap file.byteAt other.byteAt) :
    ∃ after, file.merge other = .ok after ∧ Canonical gap after.blocks ∧
      after.byteAt = Bytes.union file.byteAt other.byteAt := by
  obtain ⟨kept, same⟩ := foldl_modify small others canonical
  unfold merge
  rw [if_neg fun clash => free ((merge_overlaps canonical others).mp clash)]
  refine ⟨_, rfl, kept, funext fun place => (same place).trans ?_⟩
  unfold Bytes.union
  show (other.byteAt place).or (file.byteAt place) = _
  cases mine : file.byteAt place with
  | none => rw [Option.or_none, Option.none_or]
  | some byte =>
      have nothing : other.byteAt place = none := by
        by_contra found
        exact free ⟨place, by rw [mine]; exact Option.some_ne_none byte, found⟩
      rw [nothing]
      rfl

end Merge

/-! ## Moving -/

section Offset

variable {file : HexFile} {blocks : List HexBlock} {offset : Int} {gap : Nat}

/-- A byte would be moved out of the addresses of 32 bits. -/
def Bytes.LeavesRange (bytes : Bytes) (offset : Int) : Prop :=
  ∃ place, bytes place ≠ none ∧ (place + offset < 0 ∨ 0x100000000 ≤ place + offset)

/-- A block at an address that is moved. -/
def moved (offset : Int) (block : HexBlock) : HexBlock :=
  { block with address := block.address + offset }

theorem byteIn_moved (blocks : List HexBlock) (offset place : Int) :
    byteIn (blocks.map (moved offset)) place = byteIn blocks (place - offset) := by
  induction blocks with
  | nil => rfl
  | cons block rest ih =>
      have first : (moved offset block).byte place = block.byte (place - offset) := by
        unfold HexBlock.byte moved HexBlock.start
        dsimp only
        by_cases inside : block.address + offset ≤ place
        · rw [if_pos inside, if_pos (by omega)]
          congr 1
          omega
        · rw [if_neg inside, if_neg (by omega)]
      rw [List.map_cons, byteIn_cons, byteIn_cons, first, ih]

theorem canonical_moved (canonical : Canonical gap blocks) (offset : Int) :
    Canonical gap (blocks.map (moved offset)) := by
  refine ⟨List.pairwise_map.mpr (canonical.separate.imp fun gap => ?_), fun block member => ?_⟩
  · unfold moved HexBlock.stop HexBlock.start at *
    dsimp only
    omega
  · obtain ⟨source, inside, rfl⟩ := List.mem_map.mp member
    exact canonical.filled source inside

/-- The last block of blocks in order ends behind every other. -/
theorem stop_le_last {last : HexBlock} (canonical : Canonical gap blocks)
    (final : blocks.getLast? = some last) : ∀ block ∈ blocks, block.stop ≤ last.stop := by
  obtain ⟨front, rfl⟩ := List.getLast?_eq_some_iff.mp final
  obtain ⟨-, -, before⟩ := canonical_append.mp canonical
  intro block member
  rcases List.mem_append.mp member with inFront | single
  · have gap := before block inFront last List.mem_cons_self
    have long := start_le_stop last
    omega
  · rw [List.mem_singleton.mp single]

/-- The first block of blocks in order begins in front of every other. -/
theorem first_le_start {first : HexBlock} (canonical : Canonical gap blocks)
    (head : blocks.head? = some first) : ∀ block ∈ blocks, first.start ≤ block.start := by
  obtain ⟨rest, rfl⟩ := List.head?_eq_some_iff.mp head
  obtain ⟨behind, -, -⟩ := canonical_cons.mp canonical
  intro block member
  rcases List.mem_cons.mp member with rfl | inRest
  · exact Int.le_refl _
  · have gap := behind block inRest
    have long := start_le_stop first
    omega

/-- The check of an offset looks at the first and the last byte. -/
theorem leavesRange_iff {first last : HexBlock} (canonical : Canonical gap file.blocks)
    (head : file.blocks.head? = some first) (final : file.blocks.getLast? = some last) :
    first.start + offset < 0 ∨ last.stop + offset > 0x100000000 ↔
      Bytes.LeavesRange file.byteAt offset := by
  have inside := canonical.filled
  have firstIn := List.mem_of_mem_head? (Option.mem_def.mpr head)
  have lastIn := List.mem_of_mem_getLast? (Option.mem_def.mpr final)
  have firstLong := HexBlock.start_lt_stop (inside first firstIn)
  have lastLong := HexBlock.start_lt_stop (inside last lastIn)
  refine ⟨fun out => ?_, fun ⟨place, found, out⟩ => ?_⟩
  · rcases out with low | high
    · exact ⟨first.start, (byteIn_ne_none canonical _).mpr
        ⟨first, firstIn, Int.le_refl _, firstLong⟩, Or.inl low⟩
    · exact ⟨last.stop - 1, (byteIn_ne_none canonical _).mpr
        ⟨last, lastIn, by omega, by omega⟩, Or.inr (by omega)⟩
  · obtain ⟨block, member, start, stop⟩ := (byteIn_ne_none canonical place).mp found
    have low := first_le_start canonical head block member
    have high := stop_le_last canonical final block member
    omega

theorem offsetAddress_refused (canonical : Canonical gap file.blocks)
    (leaves : Bytes.LeavesRange file.byteAt offset) :
    file.offsetAddress offset = .error "Invalid offset" := by
  obtain ⟨place, found, out⟩ := id leaves
  obtain ⟨block, member, -⟩ := (byteIn_ne_none canonical place).mp found
  unfold offsetAddress
  split
  · rename_i first last head final
    rw [if_pos ((leavesRange_iff canonical head final).mpr leaves)]
    rfl
  · rename_i none
    cases shape : file.blocks with
    | nil =>
        rw [shape] at member
        cases member
    | cons first rest =>
        obtain ⟨last, final⟩ := Option.isSome_iff_exists.mp
          (show (file.blocks.getLast?).isSome by rw [shape]; rfl)
        exact (none first last (by rw [shape]; rfl) final).elim

/-- `offset_address` moves the bytes. -/
theorem offsetAddress_shift (canonical : Canonical gap file.blocks)
    (stays : ¬ Bytes.LeavesRange file.byteAt offset) :
    ∃ after, file.offsetAddress offset = .ok after ∧ Canonical gap after.blocks ∧
      after.byteAt = Bytes.shift file.byteAt offset := by
  unfold offsetAddress
  split
  · rename_i first last head final
    rw [if_neg fun out => stays ((leavesRange_iff canonical head final).mp out)]
    exact ⟨_, rfl, canonical_moved canonical offset, funext fun place => byteIn_moved _ _ place⟩
  · rename_i none
    have empty : file.blocks = [] := by
      cases shape : file.blocks with
      | nil => rfl
      | cons first rest =>
          obtain ⟨last, final⟩ := Option.isSome_iff_exists.mp
            (show (file.blocks.getLast?).isSome by rw [shape]; rfl)
          exact (none first last (by rw [shape]; rfl) final).elim
    refine ⟨file, rfl, canonical, funext fun place => ?_⟩
    show byteIn file.blocks place = byteIn file.blocks (place - offset)
    rw [empty]
    rfl

end Offset

end QHal.Hex.HexFile
