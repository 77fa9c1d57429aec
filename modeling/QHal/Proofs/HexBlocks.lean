/-
Module: QHal.Proofs.HexBlocks
Purpose: The blocks of a hex file that lie in order as a map from addresses to bytes, and
  what is read from them.
Trusted boundary: none
Main exports: HexFile.Ordered, HexFile.byteIn, HexFile.byteAt_block, HexFile.get_block
-/
import QHal.Hex.HexFile

namespace QHal.Hex.HexFile

variable {file : HexFile} {block : HexBlock}

/-- The blocks lie in order, and none reaches into the next. -/
def Ordered (blocks : List HexBlock) : Prop :=
  blocks.Pairwise fun block next => block.stop ≤ next.start

/-- The byte at an address of some blocks. -/
def byteIn (blocks : List HexBlock) (address : Int) : Option UInt8 :=
  blocks.findSome? fun block =>
    if block.start ≤ address then block.data[(address - block.start).toNat]? else none

theorem start_le_stop (block : HexBlock) : block.start ≤ block.stop := by
  unfold HexBlock.start HexBlock.stop
  omega

section ByteIn

variable {rest blocks : List HexBlock} {address : Int}

/-- Nothing is stored in front of the blocks. -/
theorem byteIn_before (before : ∀ block ∈ blocks, address < block.start) :
    byteIn blocks address = none := by
  apply List.findSome?_eq_none_iff.mpr
  intro block member
  exact if_neg (Int.not_le.mpr (before block member))

/-- A block has no byte behind its end. -/
theorem byteIn_behind (behind : block.stop ≤ address) :
    byteIn (block :: rest) address = byteIn rest address := by
  have here := start_le_stop block
  have stop : block.start + block.data.length = block.stop := rfl
  have missing : block.data[(address - block.start).toNat]? = none :=
    List.getElem?_eq_none (by omega)
  unfold byteIn
  rw [List.findSome?_cons, if_pos (Int.le_trans here behind), missing]

/-- The bytes of a block are at its addresses. -/
theorem byteIn_inside (start : block.start ≤ address) (stop : address < block.stop) :
    byteIn (block :: rest) address = block.data[(address - block.start).toNat]? := by
  have size : block.start + block.data.length = block.stop := rfl
  have found : block.data[(address - block.start).toNat]? =
      some (block.data.get ⟨(address - block.start).toNat, by omega⟩) :=
    List.getElem?_eq_getElem (by omega)
  unfold byteIn
  rw [List.findSome?_cons, if_pos start, found]

end ByteIn

/-- A block that lies in front of an address is passed over. -/
theorem getLoop_passed {dataEnd address : Int} {byte : UInt8} {passed rest : List HexBlock}
    (behind : ∀ block ∈ passed, block.stop ≤ address) (more : address < dataEnd) :
    getLoop dataEnd byte address (passed ++ rest) = getLoop dataEnd byte address rest := by
  induction passed with
  | nil => rfl
  | cons block passed ih =>
      have above := behind block List.mem_cons_self
      have here := start_le_stop block
      rw [List.cons_append, getLoop]
      rw [if_neg (show ¬ address < block.start by omega), Int.natCast_zero, Int.add_zero,
        if_neg (show ¬ (block.start ≤ address ∧ address < block.stop) by omega), Int.natCast_zero,
        Int.add_zero, if_neg (show ¬ address = dataEnd by omega), List.take_zero]
      exact ih fun other member => behind other (List.mem_cons_of_mem _ member)

/-- Nothing is read of an empty range. -/
theorem getLoop_empty (address : Int) (byte : UInt8) (blocks : List HexBlock) :
    getLoop address byte address blocks = [] := by
  cases blocks with
  | nil =>
      rw [getLoop, Int.sub_self]
      rfl
  | cons block rest =>
      have before : (if address < block.start then (min address block.start - address).toNat
          else 0) = 0 := by
        split
        · omega
        · rfl
      have copied : (if block.start ≤ address ∧ address < block.stop then
          (min address block.stop - address).toNat else 0) = 0 := by
        split
        · omega
        · rfl
      rw [getLoop]
      simp only [before, Int.natCast_zero, Int.add_zero, copied, List.take_zero, if_pos,
        List.replicate_zero, List.append_nil]

/-- The range of a block has its data. -/
theorem get_block (ordered : Ordered file.blocks) (member : block ∈ file.blocks) (byte : UInt8) :
    file.get block.start block.data.length byte = block.data := by
  unfold get
  by_cases empty : block.data = []
  · rw [empty, List.length_nil, Int.natCast_zero, Int.add_zero, getLoop_empty]
  have positive := List.length_pos_iff.mpr empty
  obtain ⟨passed, rest, split⟩ := List.append_of_mem member
  rw [split] at ordered
  have behind : ∀ other ∈ passed, other.stop ≤ block.start := fun other inside =>
    (List.pairwise_append.mp ordered).2.2 other inside block List.mem_cons_self
  rw [split, getLoop_passed behind (by omega), getLoop]
  have stop : block.start + block.data.length = block.stop := rfl
  have long : (block.stop - block.start).toNat = block.data.length := by omega
  simp only [Int.lt_irrefl, if_false, Int.natCast_zero, Int.add_zero, stop, Int.min_self,
    Int.sub_self, Int.toNat_zero, List.drop_zero, long, List.replicate_zero, List.nil_append]
  rw [if_pos (show block.start ≤ block.start ∧ block.start < block.stop by omega), stop,
    if_pos rfl, List.take_length, List.append_nil]

/-- A byte of a block is the one at its address. -/
theorem byteAt_block (ordered : Ordered file.blocks) (member : block ∈ file.blocks) {i : Nat}
    {byte : UInt8} (found : block.data[i]? = some byte) :
    file.byteAt (block.start + i) = some byte := by
  obtain ⟨inside, -⟩ := List.getElem?_eq_some_iff.mp found
  obtain ⟨passed, rest, split⟩ := List.append_of_mem member
  rw [split] at ordered
  have missing : passed.findSome? (fun other =>
      if other.start ≤ block.start + i then other.data[(block.start + i - other.start).toNat]?
      else none) = none := by
    apply List.findSome?_eq_none_iff.mpr
    intro other earlier
    have behind := (List.pairwise_append.mp ordered).2.2 other earlier block List.mem_cons_self
    have stop : other.start + other.data.length = other.stop := rfl
    rw [if_pos (by omega)]
    exact List.getElem?_eq_none (by omega)
  unfold byteAt
  rw [split, List.findSome?_append, missing, Option.none_or, List.findSome?_cons,
    if_pos (Int.le_add_of_nonneg_right (Int.natCast_nonneg i)),
    show (block.start + i - block.start).toNat = i by omega, found]

/-- Data that is added to the empty object. -/
theorem empty_add (address : Int) (data : List UInt8) :
    empty.add address data =
      .ok { empty with blocks := if data ≠ [] then [⟨address, data, .bytearray⟩] else [] } := rfl

end QHal.Hex.HexFile
