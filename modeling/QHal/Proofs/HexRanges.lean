/-
Module: QHal.Proofs.HexRanges
Purpose: Removing a range of a hex file, and filling one.
Trusted boundary: none
Main exports: HexBlock.Touches, delete_cut, delete_raises, fill_fillUp
-/
import QHal.Proofs.HexEdits

namespace QHal.Hex.HexFile

variable {file : HexFile} {blocks rest : List HexBlock} {block : HexBlock}
  {address endAddr dataEnd place : Int} {byte : UInt8} {gap : Nat}

/-! ## Deleting -/

/-- A block has an address of the range, or the range ends or begins where it begins or ends. -/
def Touches (address endAddr : Int) (block : HexBlock) : Prop :=
  block.start ≤ endAddr ∧ address ≤ block.stop

instance (address endAddr : Int) (block : HexBlock) : Decidable (Touches address endAddr block) :=
  inferInstanceAs (Decidable (_ ∧ _))

/-- The range comes upon a block that cannot be changed in place. -/
def Frozen (address endAddr : Int) (blocks : List HexBlock) : Prop :=
  ∃ block ∈ blocks, block.kind = .bytes ∧ Touches address endAddr block

theorem delData_bytearray (changeable : block.kind = .bytearray) (data : List UInt8) :
    delData block data = .ok { block with data := data } := by
  unfold delData
  rw [changeable]
  rfl

theorem delData_bytes (frozen : block.kind = .bytes) (data : List UInt8) :
    delData block data = .error "'bytes' object does not support item deletion" := by
  unfold delData
  rw [frozen]
  rfl

/-- The front of a block. -/
def headPiece (block : HexBlock) (stop : Int) : HexBlock :=
  { block with data := block.data.take (stop - block.start).toNat }

/-- The back of a block. -/
def tailPiece (block : HexBlock) (start : Int) : HexBlock :=
  ⟨start, block.data.drop (start - block.start).toNat, block.kind⟩

/-- What the loop of `delete` does at a block. -/
inductive DeleteStep (address endAddr : Int) (block : HexBlock) (rest : List HexBlock) :
    Deleted → Prop
  | ended (before : endAddr < block.start) :
      DeleteStep address endAddr block rest ⟨block :: rest, [], none⟩
  | passed (behind : block.stop < address) (own : block.start ≤ address) :
      DeleteStep address endAddr block rest ((deleteLoop address endAddr rest).cons block)
  | raised (frozen : block.kind = .bytes) (touches : Touches address endAddr block)
      (deleted : Deleted) (error : deleted.error ≠ none) :
      DeleteStep address endAddr block rest deleted
  | front (changeable : block.kind = .bytearray) (touches : Touches address endAddr block)
      (own : address ≤ block.start) :
      DeleteStep address endAddr block rest
        ((deleteLoop block.start endAddr rest).cons (tailPiece block (min endAddr block.stop)))
  | back (changeable : block.kind = .bytearray) (touches : Touches address endAddr block)
      (own : block.start < address) (above : block.stop ≤ endAddr) :
      DeleteStep address endAddr block rest
        ((deleteLoop address endAddr rest).cons (headPiece block address))
  | middle (changeable : block.kind = .bytearray) (touches : Touches address endAddr block)
      (own : block.start < address) (inside : endAddr < block.stop) :
      DeleteStep address endAddr block rest
        ⟨headPiece block address :: rest, [tailPiece block endAddr], none⟩

theorem deleteLoop_step (address endAddr : Int) (block : HexBlock) (rest : List HexBlock) :
    DeleteStep address endAddr block rest (deleteLoop address endAddr (block :: rest)) := by
  have long := start_le_stop block
  have size := block.stop_eq
  have moved : ∀ stop : Int,
      ({ block with
          data := block.data.drop (stop - block.start).toNat
          address := block.address + (stop - block.start) } : HexBlock) = tailPiece block stop := by
    intro stop
    have sum : block.address + (stop - block.start) = stop := by
      unfold HexBlock.start
      omega
    unfold tailPiece
    rw [sum]
  rw [deleteLoop]
  by_cases ended : endAddr < block.start
  · rw [if_pos ended]
    exact .ended ended
  rw [if_neg ended]
  by_cases low : address < block.start
  · have touches : Touches address endAddr block := ⟨by omega, by omega⟩
    simp only [if_pos low, if_pos long]
    cases kind : block.kind with
    | bytes =>
        rw [delData_bytes kind]
        exact .raised kind touches _ (Option.some_ne_none _)
    | bytearray =>
        rw [delData_bytearray kind]
        have piece : DeleteStep address endAddr block rest
            ((deleteLoop block.start endAddr rest).cons
              (tailPiece block (min endAddr block.stop))) :=
          .front kind touches (Int.le_of_lt low)
        rw [← moved] at piece
        exact piece
  simp only [if_neg low]
  by_cases behind : block.stop < address
  · rw [if_neg (by omega)]
    exact .passed behind (by omega)
  rw [if_pos (by omega)]
  have touches : Touches address endAddr block := ⟨by omega, by omega⟩
  cases kind : block.kind with
  | bytes =>
      simp only [delData_bytes kind]
      split
      · exact .raised kind touches _ (Option.some_ne_none _)
      · split <;> exact .raised kind touches _ (Option.some_ne_none _)
  | bytearray =>
      simp only [delData_bytearray kind]
      split
      · rename_i begins
        have piece : DeleteStep address endAddr block rest
            ((deleteLoop block.start endAddr rest).cons
              (tailPiece block (min endAddr block.stop))) :=
          .front kind touches (Int.le_of_eq begins)
        rw [← moved, ← begins] at piece
        rw [begins] at piece ⊢
        exact piece
      · rename_i inside
        have own : block.start < address := by omega
        split
        · rename_i above
          exact .back kind touches own above
        · rename_i short
          have drop : block.data.length - (block.stop - endAddr).toNat =
              (endAddr - block.start).toNat := by omega
          rw [drop, ← kind]
          exact .middle kind touches own (by omega)

section Pieces

variable {stop start : Int}

theorem stop_headPiece (low : block.start ≤ stop) (high : stop ≤ block.stop) :
    (headPiece block stop).stop = stop := by
  have size := block.stop_eq
  show block.address + ((block.data.take (stop - block.start).toNat).length : Int) = stop
  rw [List.length_take]
  unfold HexBlock.start at *
  omega

theorem byte_headPiece (low : block.start ≤ stop) (high : stop ≤ block.stop) (place : Int) :
    (headPiece block stop).byte place = if place < stop then block.byte place else none := by
  split
  · rename_i before
    exact HexBlock.byte_take before
  · rename_i behind
    apply HexBlock.byte_outside
    rw [stop_headPiece low high]
    omega

theorem stop_tailPiece (low : block.start ≤ start) (high : start ≤ block.stop) :
    (tailPiece block start).stop = block.stop := by
  have size := block.stop_eq
  show start + ((block.data.drop (start - block.start).toNat).length : Int) = block.stop
  rw [List.length_drop]
  omega

theorem byte_tailPiece (low : block.start ≤ start) (place : Int) :
    (tailPiece block start).byte place = if start ≤ place then block.byte place else none := by
  split
  · rename_i behind
    exact HexBlock.byte_drop low block.kind behind
  · rename_i before
    exact HexBlock.byte_outside (Or.inl (Int.not_le.mp before))

end Pieces

/-- What is left of blocks in order without a range. -/
structure Cut (gap : Nat) (address endAddr : Int) (blocks pieces : List HexBlock) : Prop where
  far : pieces.Pairwise (Far gap)
  low : ∀ bound, (∀ block ∈ blocks, bound ≤ block.start) → ∀ piece ∈ pieces, bound ≤ piece.start
  bytes : ∀ place, byteIn pieces place =
    if address ≤ place ∧ place < endAddr then none else byteIn blocks place

section Cut

variable {pieces others lefts : List HexBlock} {next : Int}

theorem Cut.perm (cut : Cut gap address endAddr blocks pieces) (same : pieces.Perm others) :
    Cut gap address endAddr blocks others where
  far := same.pairwise cut.far Far.symm
  low bound starts piece member := cut.low bound starts piece (same.mem_iff.mpr member)
  bytes place := (byteIn_perm (cut.far.imp Far.apart) same place).symm.trans (cut.bytes place)

/-- Nothing is cut in front of the blocks. -/
theorem Cut.behind (canonical : Canonical gap blocks)
    (behind : ∀ block ∈ blocks, endAddr ≤ block.start) : Cut gap address endAddr blocks blocks where
  far := canonical.far
  low _ starts := starts
  bytes place := by
    split
    · rename_i inside
      exact byteIn_before fun block member => Int.lt_of_lt_of_le inside.2 (behind block member)
    · rfl

/-- What is left of the first block, and of the others. -/
theorem Cut.append (canonical : Canonical gap (block :: rest)) (far : lefts.Pairwise (Far gap))
    (inside : ∀ left ∈ lefts, block.start ≤ left.start ∧ left.stop ≤ block.stop)
    (own : ∀ place, byteIn lefts place =
      if address ≤ place ∧ place < endAddr then none else block.byte place)
    (cut : Cut gap next endAddr rest pieces)
    (agree : ∀ place, block.stop ≤ place → (next ≤ place ↔ address ≤ place)) :
    Cut gap address endAddr (block :: rest) (lefts ++ pieces) where
  far := by
    obtain ⟨behind, -, -⟩ := canonical_cons.mp canonical
    refine List.pairwise_append.mpr ⟨far, cut.far, fun left member piece inPieces => Or.inl ?_⟩
    have before := (inside left member).2
    have after := cut.low _ behind piece inPieces
    omega
  low bound starts piece member := by
    obtain ⟨first, later⟩ := List.forall_mem_cons.mp starts
    rcases List.mem_append.mp member with inLefts | inPieces
    · exact Int.le_trans first (inside piece inLefts).1
    · exact cut.low bound later piece inPieces
  bytes place := by
    obtain ⟨behind, -, -⟩ := canonical_cons.mp canonical
    rw [byteIn_append, own, cut.bytes, byteIn_cons]
    by_cases after : block.stop ≤ place
    · rw [HexBlock.byte_outside (Or.inr after), ite_self, Option.none_or, Option.none_or]
      simp only [agree place after]
    · have nothing : byteIn rest place = none := byteIn_before fun other member => by
        have gap := behind other member
        omega
      rw [nothing, ite_self, Option.or_none, Option.or_none]

theorem Cut.cons {left : HexBlock} (canonical : Canonical gap (block :: rest))
    (inside : block.start ≤ left.start ∧ left.stop ≤ block.stop)
    (own : ∀ place, left.byte place =
      if address ≤ place ∧ place < endAddr then none else block.byte place)
    (cut : Cut gap next endAddr rest pieces)
    (agree : ∀ place, block.stop ≤ place → (next ≤ place ↔ address ≤ place)) :
    Cut gap address endAddr (block :: rest) (left :: pieces) := by
  refine Cut.append canonical (List.pairwise_singleton _ left) ?_ ?_ cut agree
  · intro piece single
    rw [List.mem_singleton.mp single]
    exact inside
  · intro place
    rw [byteIn_cons, byteIn_nil, Option.or_none]
    exact own place

end Cut

/-- The loop of `delete` leaves what is outside of the range. -/
theorem deleteLoop_cut (canonical : Canonical gap blocks) (small : gap ≤ 1)
    (reach : address < endAddr ∨
      ∀ block ∈ blocks, ¬ (block.start < address ∧ endAddr < block.stop))
    (free : ¬ Frozen address endAddr blocks) :
    (deleteLoop address endAddr blocks).error = none ∧
      Cut gap address endAddr blocks
        ((deleteLoop address endAddr blocks).blocks ++
          (deleteLoop address endAddr blocks).appended) := by
  induction blocks generalizing address with
  | nil => exact ⟨rfl, List.Pairwise.nil, fun _ _ => nofun, fun _ => (ite_self _).symm⟩
  | cons block rest ih =>
      obtain ⟨behind, own, later⟩ := canonical_cons.mp canonical
      have size := HexBlock.start_lt_stop own
      have freeRest : ∀ next, address ≤ next → ¬ Frozen next endAddr rest :=
        fun next le ⟨other, member, kind, low, high⟩ =>
          free ⟨other, List.mem_cons_of_mem block member, kind, low, Int.le_trans le high⟩
      have reachRest : address < endAddr ∨
          ∀ other ∈ rest, ¬ (other.start < address ∧ endAddr < other.stop) :=
        reach.imp_right fun all other member => all other (List.mem_cons_of_mem block member)
      have step := deleteLoop_step address endAddr block rest
      generalize deleteLoop address endAddr (block :: rest) = deleted at step
      cases step with
      | ended before =>
          refine ⟨rfl, ?_⟩
          show Cut gap address endAddr (block :: rest) (block :: rest ++ [])
          rw [List.append_nil]
          apply Cut.behind canonical
          intro other member
          rcases List.mem_cons.mp member with rfl | inRest
          · exact Int.le_of_lt before
          · have after := behind other inRest
            omega
      | passed after low =>
          obtain ⟨error, cut⟩ := ih later reachRest (freeRest address (Int.le_refl _))
          refine ⟨error, Cut.cons canonical ⟨Int.le_refl _, Int.le_refl _⟩ (fun place => ?_) cut
            fun _ _ => Iff.rfl⟩
          split
          · exact HexBlock.byte_outside (Or.inr (by omega))
          · rfl
      | raised kind touches _ _ =>
          exact (free ⟨block, List.mem_cons_self, kind, touches⟩).elim
      | front kind touches low =>
          obtain ⟨reaches, -⟩ := touches
          have further : block.start < endAddr ∨
              ∀ other ∈ rest, ¬ (other.start < block.start ∧ endAddr < other.stop) := by
            rcases Int.lt_or_eq_of_le reaches with before | here
            · exact Or.inl before
            · right
              intro other member
              have after := behind other member
              omega
          obtain ⟨error, cut⟩ := ih later further (freeRest block.start low)
          have start : block.start ≤ min endAddr block.stop := by omega
          refine ⟨error, Cut.cons canonical ⟨start, ?_⟩ (fun place => ?_) cut fun place after => ?_⟩
          · rw [stop_tailPiece start (by omega)]
          · rw [byte_tailPiece start]
            by_cases own : block.start ≤ place ∧ place < block.stop
            · split <;> split <;> first | rfl | omega
            · rw [HexBlock.byte_outside (by omega), ite_self, ite_self]
          · omega
      | back kind touches low above =>
          obtain ⟨error, cut⟩ := ih later reachRest (freeRest address (Int.le_refl _))
          have stop := stop_headPiece (Int.le_of_lt low) touches.2
          refine ⟨error, Cut.cons canonical ⟨Int.le_refl _, by rw [stop]; exact touches.2⟩
            (fun place => ?_) cut fun _ _ => Iff.rfl⟩
          rw [byte_headPiece (Int.le_of_lt low) touches.2]
          by_cases own : place < block.stop
          · split <;> split <;> first | rfl | omega
          · rw [HexBlock.byte_outside (by omega), ite_self, ite_self]
      | middle kind touches low inside =>
          have positive : address < endAddr := by
            rcases reach with positive | none
            · exact positive
            · exact (none block List.mem_cons_self ⟨low, inside⟩).elim
          have frontStop := stop_headPiece (Int.le_of_lt low) touches.2
          have backStart : block.start ≤ endAddr := by omega
          have backStop := stop_tailPiece backStart (Int.le_of_lt inside)
          have none : Cut gap address endAddr rest rest := Cut.behind later fun other member => by
            have after := behind other member
            omega
          have both : Cut gap address endAddr (block :: rest)
              ([headPiece block address, tailPiece block endAddr] ++ rest) := by
            refine Cut.append canonical ?_ ?_ (fun place => ?_) none fun _ _ => Iff.rfl
            · refine List.pairwise_pair.mpr (Or.inl ?_)
              show (headPiece block address).stop + (gap : Int) ≤ endAddr
              omega
            · intro piece member
              rcases List.mem_cons.mp member with rfl | single
              · exact ⟨Int.le_refl _, by omega⟩
              · rw [List.mem_singleton.mp single]
                exact ⟨backStart, by omega⟩
            · rw [byteIn_cons, byteIn_cons, byteIn_nil, Option.or_none,
                byte_headPiece (Int.le_of_lt low) touches.2, byte_tailPiece backStart]
              by_cases front : place < address
              · rw [if_pos front, if_neg (by omega), if_neg (by omega), Option.or_none]
              · rw [if_neg front, Option.none_or]
                split <;> split <;> first | rfl | omega
          refine ⟨rfl, both.perm ?_⟩
          show (headPiece block address :: tailPiece block endAddr :: rest).Perm
            (headPiece block address :: rest ++ [tailPiece block endAddr])
          exact (List.perm_append_singleton _ _).symm.cons _

/-- The loop of `delete` raises when it comes upon a block that cannot be changed. -/
theorem deleteLoop_frozen (canonical : Canonical gap blocks)
    (frozen : Frozen address endAddr blocks) :
    (deleteLoop address endAddr blocks).error ≠ none := by
  induction blocks generalizing address with
  | nil =>
      obtain ⟨block, none, -⟩ := frozen
      cases none
  | cons block rest ih =>
      obtain ⟨behind, own, later⟩ := canonical_cons.mp canonical
      have size := HexBlock.start_lt_stop own
      obtain ⟨other, member, kind, low, high⟩ := frozen
      have inRest : other ≠ block → other ∈ rest := fun different =>
        (List.mem_cons.mp member).resolve_left different
      have step := deleteLoop_step address endAddr block rest
      generalize deleteLoop address endAddr (block :: rest) = deleted at step
      cases step with
      | ended before =>
          rcases List.mem_cons.mp member with rfl | inRest
          · omega
          · have after := behind other inRest
            omega
      | passed after _ =>
          have different : other ≠ block := by
            rintro rfl
            omega
          exact ih later ⟨other, inRest different, kind, low, high⟩
      | raised _ _ _ error => exact error
      | front changeable _ _ =>
          have different : other ≠ block := by
            rintro rfl
            rw [kind] at changeable
            cases changeable
          have after := behind other (inRest different)
          have long := start_le_stop other
          exact ih later ⟨other, inRest different, kind, low, by omega⟩
      | back changeable _ _ _ =>
          have different : other ≠ block := by
            rintro rfl
            rw [kind] at changeable
            cases changeable
          exact ih later ⟨other, inRest different, kind, low, high⟩
      | middle changeable _ _ inside =>
          have different : other ≠ block := by
            rintro rfl
            rw [kind] at changeable
            cases changeable
          have after := behind other (inRest different)
          omega

theorem byteIn_filled (blocks : List HexBlock) (place : Int) :
    byteIn (blocks.filter fun block => block.data ≠ []) place = byteIn blocks place := by
  induction blocks with
  | nil => rfl
  | cons block rest ih =>
      rw [List.filter_cons, byteIn_cons]
      split
      · rw [byteIn_cons, ih]
      · rename_i empty
        have nothing : block.byte place = none := by
          have size := block.stop_eq
          rw [List.length_eq_zero_iff.mpr (by simpa using empty)] at size
          exact HexBlock.byte_outside (by omega)
        rw [nothing, ih, Option.none_or]

/-- `delete` removes the bytes of the range. -/
theorem delete_cut {length : Nat} (small : gap ≤ 1) (canonical : Canonical gap file.blocks)
    (reach : 0 < length ∨ ∀ block ∈ file.blocks, ¬ (block.start < address ∧ address < block.stop))
    (free : ¬ Frozen address (address + length) file.blocks) :
    (file.delete address length).2 = none ∧
      Canonical gap (file.delete address length).1.blocks ∧
      (file.delete address length).1.byteAt = Bytes.cut file.byteAt address length := by
  have reaches : address < address + length ∨
      ∀ block ∈ file.blocks, ¬ (block.start < address ∧ address + length < block.stop) := by
    refine reach.imp (fun positive => by omega) fun whole block member inside => ?_
    exact whole block member (by omega)
  obtain ⟨error, cut⟩ := deleteLoop_cut canonical small reaches free
  unfold delete
  simp only [error]
  have far := cut.far.filter fun block => block.data ≠ []
  refine ⟨trivial, canonical_sortBlocks far fun block member => ?_, funext fun place => ?_⟩
  · exact of_decide_eq_true (List.mem_filter.mp member).2
  · exact (byteIn_sortBlocks (far.imp Far.apart) place).trans
      ((byteIn_filled _ place).trans (cut.bytes place))

theorem delete_raises {length : Nat} (canonical : Canonical gap file.blocks)
    (frozen : Frozen address (address + length) file.blocks) :
    (file.delete address length).2 ≠ none := by
  obtain ⟨error, raised⟩ := Option.ne_none_iff_exists'.mp (deleteLoop_frozen canonical frozen)
  unfold delete
  simp only [raised]
  exact Option.some_ne_none error

/-! ## Filling -/

section Fill

/-- The blocks that `fill` puts between others and behind them. -/
def gaps (dataEnd : Int) (byte : UInt8) (address : Int) : List HexBlock → List HexBlock
  | [] => [fillBlock address (dataEnd - address) byte]
  | block :: rest =>
      (if address < block.start then
        [fillBlock address (min dataEnd block.start - address) byte] else []) ++
      if dataEnd ≤ block.stop then [] else gaps dataEnd byte (max address block.stop) rest

theorem stop_fillBlock {length : Int} (positive : 0 ≤ length) :
    (fillBlock address length byte).stop = address + length := by
  show address + ((List.replicate length.toNat byte).length : Int) = _
  rw [List.length_replicate]
  omega

theorem byte_fillBlock {length : Int} (place : Int) :
    (fillBlock address length byte).byte place =
      if address ≤ place ∧ place < address + length then some byte else none := by
  have start : (fillBlock address length byte).start = address := rfl
  unfold HexBlock.byte
  rw [start]
  by_cases low : address ≤ place
  · rw [if_pos low]
    show (List.replicate length.toNat byte)[(place - address).toNat]? = _
    rw [List.getElem?_replicate]
    by_cases high : place < address + length
    · rw [if_pos (by omega), if_pos ⟨low, high⟩]
    · rw [if_neg (by omega), if_neg (by omega)]
  · rw [if_neg low, if_neg (by omega)]

theorem filled_fillBlock {length : Int} (positive : 0 < length) :
    (fillBlock address length byte).data ≠ [] := by
  apply List.length_pos_iff.mp
  show 0 < (List.replicate length.toNat byte).length
  rw [List.length_replicate]
  omega

/-- The loop of `fill` and what is put behind the last block give the gaps. -/
theorem fillLoop_gaps {last : HexBlock} (canonical : Canonical gap blocks)
    (final : blocks.getLast? = some last) (positive : address < dataEnd) :
    (fillLoop dataEnd byte address blocks).1 ++
        (if dataEnd > last.stop then
          [fillBlock (max (fillLoop dataEnd byte address blocks).2 last.stop)
            (dataEnd - max (fillLoop dataEnd byte address blocks).2 last.stop) byte] else []) =
      gaps dataEnd byte address blocks := by
  induction blocks generalizing address with
  | nil => cases final
  | cons block rest ih =>
      obtain ⟨behind, own, later⟩ := canonical_cons.mp canonical
      have size := HexBlock.start_lt_stop own
      rw [fillLoop, gaps]
      by_cases reached : dataEnd ≤ block.stop
      · have low := stop_le_last canonical final block List.mem_cons_self
        have short : ¬ dataEnd > last.stop := by omega
        simp only [if_pos reached, if_neg short, List.append_nil]
      · have same : max (if address < block.start then block.stop else address) block.stop =
            max address block.stop := by
          split <;> omega
        simp only [if_neg reached, same]
        rw [List.append_assoc]
        congr 1
        cases rest with
        | nil =>
            rw [List.getLast?_singleton, Option.some_inj] at final
            subst final
            rw [fillLoop, gaps, if_pos (by omega), List.nil_append]
            congr 2 <;> omega
        | cons next rest =>
            exact ih later (by rw [← final, List.getLast?_cons_cons]) (by omega)

/-- Blocks in order with what fills a range. -/
structure Filled (address dataEnd : Int) (byte : UInt8) (blocks pieces : List HexBlock) :
    Prop where
  apart : pieces.Pairwise Apart
  filled : ∀ piece ∈ pieces, piece.data ≠ []
  low : ∀ bound, bound ≤ address → (∀ block ∈ blocks, bound ≤ block.start) →
    ∀ piece ∈ pieces, bound ≤ piece.start
  bytes : byteIn pieces = Bytes.fillUp (byteIn blocks) address dataEnd byte

theorem Filled.perm {pieces others : List HexBlock}
    (filled : Filled address dataEnd byte blocks pieces) (same : pieces.Perm others) :
    Filled address dataEnd byte blocks others where
  apart := same.pairwise filled.apart Apart.symm
  filled piece member := filled.filled piece (same.mem_iff.mpr member)
  low bound below starts piece member :=
    filled.low bound below starts piece (same.mem_iff.mpr member)
  bytes := by
    rw [← filled.bytes]
    exact funext fun place => (byteIn_perm filled.apart same place).symm

/-- An empty range has nothing to fill. -/
theorem Filled.empty (canonical : Canonical gap blocks) (none : dataEnd ≤ address) :
    Filled address dataEnd byte blocks blocks where
  apart := canonical.apart
  filled := canonical.filled
  low _ _ starts := starts
  bytes := funext fun place => (if_neg (by omega)).symm

/-- What fills the range in front of a block, the block, and what fills it behind. -/
theorem Filled.cons {pieces : List HexBlock} (canonical : Canonical gap (block :: rest))
    (positive : address < dataEnd)
    (filled : Filled (max address block.stop) dataEnd byte rest pieces) :
    Filled address dataEnd byte (block :: rest)
      ((if address < block.start then
        [fillBlock address (min dataEnd block.start - address) byte] else []) ++
          block :: pieces) := by
  obtain ⟨behind, own, later⟩ := canonical_cons.mp canonical
  have size := HexBlock.start_lt_stop own
  have above : ∀ piece ∈ block :: pieces, block.start ≤ piece.start := by
    intro piece member
    rcases List.mem_cons.mp member with rfl | inPieces
    · exact Int.le_refl _
    · refine Int.le_trans (Int.le_of_lt size) (filled.low block.stop (by omega) ?_ piece inPieces)
      intro other inRest
      have after := behind other inRest
      omega
  have apart : (block :: pieces).Pairwise Apart := by
    refine List.pairwise_cons.mpr ⟨fun piece member => Or.inl ?_, filled.apart⟩
    refine filled.low block.stop (by omega) (fun other inRest => ?_) piece member
    have after := behind other inRest
    omega
  have bytes : ∀ place, byteIn (if address < block.start then
      [fillBlock address (min dataEnd block.start - address) byte] else []) place =
        if address ≤ place ∧ place < min dataEnd block.start then some byte else none := by
    intro place
    split
    · rw [byteIn_cons, byteIn_nil, Option.or_none, byte_fillBlock]
      congr 1
      apply propext
      omega
    · rw [if_neg (by omega)]
      rfl
  refine ⟨?_, ?_, ?_, funext fun place => ?_⟩
  · refine List.pairwise_append.mpr ⟨?_, apart, fun piece inNew other inOld => ?_⟩
    · split
      · exact List.pairwise_singleton _ _
      · exact List.Pairwise.nil
    · split at inNew
      · left
        rw [List.mem_singleton.mp inNew, stop_fillBlock (by omega)]
        have after := above other inOld
        omega
      · cases inNew
  · refine List.forall_mem_append.mpr ⟨?_, List.forall_mem_cons.mpr ⟨own, filled.filled⟩⟩
    intro piece inNew
    split at inNew
    · rw [List.mem_singleton.mp inNew]
      exact filled_fillBlock (by omega)
    · cases inNew
  · intro bound below starts piece member
    rcases List.mem_append.mp member with inNew | inOld
    · split at inNew
      · rw [List.mem_singleton.mp inNew]
        exact below
      · cases inNew
    · exact Int.le_trans (starts block List.mem_cons_self) (above piece inOld)
  · rw [byteIn_append, bytes, byteIn_cons, filled.bytes]
    unfold Bytes.fillUp
    rw [byteIn_cons]
    have front : place < block.stop → byteIn rest place = none := fun before =>
      byteIn_before fun other member => by
        have after := behind other member
        omega
    by_cases before : place < block.start
    · rw [HexBlock.byte_outside (Or.inl before), front (by omega), Option.none_or, Option.none_or]
      split <;> split <;> split <;> first | rfl | omega
    · by_cases inside : place < block.stop
      · obtain ⟨found, here⟩ :=
          Option.isSome_iff_exists.mp (HexBlock.isSome_byte (Int.not_lt.mp before) inside)
        rw [here, if_neg (by omega), Option.none_or, Option.some_or, Option.some_or]
        split <;> rfl
      · rw [HexBlock.byte_outside (Or.inr (Int.not_lt.mp inside)), if_neg (by omega),
          Option.none_or, Option.none_or, Option.none_or]
        split <;> split <;> first | rfl | omega

/-- The gaps fill the range. -/
theorem gaps_filled (canonical : Canonical gap blocks) (positive : address < dataEnd) :
    Filled address dataEnd byte blocks (blocks ++ gaps dataEnd byte address blocks) := by
  induction blocks generalizing address with
  | nil =>
      refine ⟨List.pairwise_singleton _ _, ?_, ?_, funext fun place => ?_⟩
      · intro piece single
        rw [List.mem_singleton.mp single]
        exact filled_fillBlock (by omega)
      · intro bound below _ piece single
        rw [List.mem_singleton.mp single]
        exact below
      · show byteIn [fillBlock address (dataEnd - address) byte] place = _
        rw [byteIn_cons, byteIn_nil, Option.or_none, byte_fillBlock]
        unfold Bytes.fillUp
        rw [byteIn_nil]
        congr 1
        apply propext
        omega
  | cons block rest ih =>
      obtain ⟨-, -, later⟩ := canonical_cons.mp canonical
      have tail : Filled (max address block.stop) dataEnd byte rest
          (rest ++ if dataEnd ≤ block.stop then []
            else gaps dataEnd byte (max address block.stop) rest) := by
        split
        · rename_i reached
          rw [List.append_nil]
          exact Filled.empty later (by omega)
        · exact ih later (by omega)
      exact (Filled.cons canonical positive tail).perm
        (List.perm_append_comm_assoc _ (block :: rest) _)

/-- Sorting and merging the blocks and what fills a range. -/
theorem mergeTouching_filled {pieces : List HexBlock} {first : HexBlock} (small : gap ≤ 1)
    (filled : Filled address dataEnd byte blocks pieces)
    (sorted : sortBlocks pieces = first :: rest) :
    Canonical gap (mergeTouching first rest) ∧
      byteIn (mergeTouching first rest) = Bytes.fillUp (byteIn blocks) address dataEnd byte := by
  have ordered := ordered_sortBlocks filled.apart filled.filled
  have some : ∀ block ∈ sortBlocks pieces, block.data ≠ [] := fun block member =>
    filled.filled block ((sortBlocks_perm pieces).mem_iff.mp member)
  rw [sorted] at ordered some
  obtain ⟨canonical, -, same⟩ := canonical_mergeTouching ordered some
  refine ⟨canonical.mono small, funext fun place => ?_⟩
  rw [same, ← sorted, byteIn_sortBlocks filled.apart, filled.bytes]

/-- An empty range at a block has no gaps. -/
theorem fillLoop_none (canonical : Canonical gap blocks) (none : dataEnd ≤ address)
    (covered : ∃ block ∈ blocks, block.start ≤ address ∧ dataEnd ≤ block.stop) :
    (fillLoop dataEnd byte address blocks).1 = [] := by
  induction blocks generalizing address with
  | nil => rfl
  | cons block rest ih =>
      obtain ⟨behind, own, later⟩ := canonical_cons.mp canonical
      obtain ⟨other, member, start, stop⟩ := covered
      have long := start_le_stop block
      rw [fillLoop]
      rcases List.mem_cons.mp member with rfl | inRest
      · simp only [if_neg (Int.not_lt.mpr start), if_pos stop]
      · have after := behind other inRest
        have begun : block.start ≤ address := by omega
        simp only [if_neg (Int.not_lt.mpr begun)]
        split
        · rfl
        · rw [List.nil_append]
          exact ih later (by omega) ⟨other, inRest, by omega, stop⟩

/-- The range that a call of `fill` means. -/
def fillRange (file : HexFile) (address length : Option Int) : Int × Int :=
  let address := address.getD file.startAddress
  (address, address + length.getD (file.endAddress - address))

/-- The range has an address, or it is at a block. -/
def Fills (blocks : List HexBlock) (lo hi : Int) : Prop :=
  lo < hi ∨ ∃ block ∈ blocks, block.start ≤ lo ∧ hi ≤ block.stop

/-- A range up to the end of a file with blocks. -/
theorem fills_default {start : Option Int} {lo hi : Int} (canonical : Canonical gap file.blocks)
    (range : file.fillRange start none = (lo, hi)) (some : file.blocks ≠ []) :
    Fills file.blocks lo hi := by
  obtain ⟨last, final⟩ := Option.ne_none_iff_exists'.mp fun none =>
    some (List.getLast?_eq_none_iff.mp none)
  have inside := List.mem_of_mem_getLast? (Option.mem_def.mpr final)
  have long := HexBlock.start_lt_stop (canonical.filled last inside)
  have ends : file.endAddress = last.stop - 1 := by
    unfold endAddress
    rw [final]
    rfl
  have hiEq : start.getD file.startAddress +
      (file.endAddress - start.getD file.startAddress) = hi := (Prod.mk.inj range).2
  by_cases positive : lo < hi
  · exact Or.inl positive
  · exact Or.inr ⟨last, inside, by omega, by omega⟩

/-- What `fill` adds to the blocks fills the range, or there is nothing to fill. -/
theorem fillLoop_filled {last : HexBlock} (canonical : Canonical gap blocks)
    (final : blocks.getLast? = some last) (fills : Fills blocks address dataEnd) :
    Filled address dataEnd byte blocks
      (blocks ++ ((fillLoop dataEnd byte address blocks).1 ++
        if dataEnd > last.stop then
          [fillBlock (max (fillLoop dataEnd byte address blocks).2 last.stop)
            (dataEnd - max (fillLoop dataEnd byte address blocks).2 last.stop) byte] else [])) := by
  by_cases positive : address < dataEnd
  · rw [fillLoop_gaps canonical final positive]
    exact gaps_filled canonical positive
  · have covered := fills.resolve_left positive
    obtain ⟨block, member, start, stop⟩ := covered
    have before := stop_le_last canonical final block member
    rw [fillLoop_none canonical (Int.not_lt.mp positive) ⟨block, member, start, stop⟩,
      if_neg (by omega), List.nil_append, List.append_nil]
    exact Filled.empty canonical (by omega)

/-- `fill` gives the addresses of the range that have no byte one. -/
theorem fill_fillUp {start length : Option Int} {lo hi : Int} (small : gap ≤ 1)
    (canonical : Canonical gap file.blocks) (range : file.fillRange start length = (lo, hi))
    (fills : Fills file.blocks lo hi) :
    Canonical gap (file.fill start length byte).blocks ∧
      (file.fill start length byte).byteAt = Bytes.fillUp file.byteAt lo hi byte := by
  have ends : start.getD file.startAddress +
      length.getD (file.endAddress - start.getD file.startAddress) = hi := (Prod.mk.inj range).2
  obtain rfl : start.getD file.startAddress = lo := (Prod.mk.inj range).1
  unfold fill
  dsimp only
  rw [ends]
  split
  · rename_i none
    have empty : file.blocks = [] := List.getLast?_eq_none_iff.mp none
    have grows := fills.resolve_right fun ⟨block, member, _⟩ => by
      rw [empty] at member
      cases member
    have size : length.getD (file.endAddress - start.getD file.startAddress) =
      hi - start.getD file.startAddress := by omega
    have filled := @gaps_filled [] _ _ byte gap canonical_nil grows
    have own := filled.filled _ List.mem_cons_self
    rw [size]
    refine ⟨canonical_cons.mpr ⟨nofun, own, canonical_nil⟩, ?_⟩
    show byteIn (gaps hi byte (start.getD file.startAddress) []) =
      Bytes.fillUp (byteIn file.blocks) _ _ _
    rw [empty]
    exact filled.bytes
  · rename_i last final
    have filled := @fillLoop_filled file.blocks _ hi byte gap last canonical final fills
    split
    · rename_i none
      have nothing := (sortBlocks_perm _).symm.trans (List.Perm.of_eq none)
      have empty := (List.append_eq_nil_iff.mp nothing.eq_nil).1
      rw [empty] at final
      cases final
    · rename_i first rest sorted
      exact mergeTouching_filled small filled sorted

/-- Filling an empty range of a file without blocks leaves a block without data. -/
theorem fill_leaves_empty {start length : Option Int} {lo hi : Int} (empty : file.blocks = [])
    (range : file.fillRange start length = (lo, hi)) (nothing : hi ≤ lo) :
    ¬ Canonical gap (file.fill start length byte).blocks := by
  have ends : start.getD file.startAddress +
      length.getD (file.endAddress - start.getD file.startAddress) = hi := (Prod.mk.inj range).2
  obtain rfl : start.getD file.startAddress = lo := (Prod.mk.inj range).1
  have final : file.blocks.getLast? = none := by
    rw [empty]
    rfl
  unfold fill
  dsimp only
  rw [final]
  intro canonical
  apply canonical.filled _ List.mem_cons_self
  apply List.length_eq_zero_iff.mp
  show (List.replicate _ byte).length = 0
  rw [List.length_replicate]
  omega

end Fill

end QHal.Hex.HexFile
