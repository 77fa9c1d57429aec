/-
Module: QHal.Proofs.HexImage
Purpose: What is read of a range of a hex file, and what is written to a binary file: the
  stored bytes, and the fill byte in the gaps.
Trusted boundary: none
Main exports: HexFile.image, HexFile.getLoop_image, HexFile.writeBinLoop_eq,
  HexFile.get_and_writeBin
-/
import QHal.Proofs.HexBlocks

namespace QHal.Hex.HexFile

/-! ## The bytes of a range -/

section Image

/-- The bytes of a range: those that are stored, and the fill byte everywhere else. -/
def image (blocks : List HexBlock) (byte : UInt8) (address : Int) (length : Nat) : List UInt8 :=
  (List.range length).map fun i : Nat => (byteIn blocks (address + i)).getD byte

variable {block : HexBlock} {rest blocks : List HexBlock} {address : Int} {byte : UInt8}
  {length : Nat}

theorem image_length : (image blocks byte address length).length = length := by
  unfold image
  rw [List.length_map, List.length_range]

theorem image_get {i : Nat} (inside : i < length) :
    (image blocks byte address length)[i]? =
      some ((byteIn blocks (address + i)).getD byte) := by
  unfold image
  rw [List.getElem?_map, List.getElem?_range inside, Option.map_some]

/-- A range is its first bytes and the range behind them. -/
theorem image_add (first length : Nat) :
    image blocks byte address (first + length) =
      image blocks byte address first ++ image blocks byte (address + first) length := by
  unfold image
  rw [List.range_add, List.map_append, List.map_map]
  congr 1
  apply List.map_congr_left
  intro i _
  simp only [Function.comp_apply, Int.natCast_add, Int.add_assoc]

/-- Where nothing is stored the range has the fill byte. -/
theorem image_gap (empty : ∀ i < length, byteIn blocks (address + (i : Nat)) = none) :
    image blocks byte address length = List.replicate length byte := by
  apply List.eq_replicate_iff.mpr
  refine ⟨image_length, ?_⟩
  intro found member
  obtain ⟨i, inside, same⟩ := List.mem_map.mp member
  rw [empty i (List.mem_range.mp inside)] at same
  exact same.symm

theorem image_behind (behind : block.stop ≤ address) :
    image (block :: rest) byte address length = image rest byte address length := by
  unfold image
  apply List.map_congr_left
  intro i _
  rw [byteIn_behind (by omega)]

/-- A range that lies in a block is a piece of its data. -/
theorem image_inside (start : block.start ≤ address) (stop : address + length ≤ block.stop) :
    image (block :: rest) byte address length =
      (block.data.drop (address - block.start).toNat).take length := by
  have size : block.start + block.data.length = block.stop := rfl
  apply List.ext_getElem?
  intro i
  by_cases inside : i < length
  · have index : (address + i - block.start).toNat = (address - block.start).toNat + i := by omega
    have found : (address - block.start).toNat + i < block.data.length := by omega
    rw [image_get inside, byteIn_inside (by omega) (by omega), index,
      List.getElem?_take_of_lt inside, List.getElem?_drop, List.getElem?_eq_getElem found]
    rfl
  · rw [List.getElem?_eq_none (by rw [image_length]; omega),
      List.getElem?_eq_none (by rw [List.length_take]; omega)]

end Image

/-! ## The loops -/

section Loops

variable {block : HexBlock} {rest blocks : List HexBlock} {address dataEnd : Int} {byte : UInt8}

theorem ordered_behind (ordered : Ordered (block :: rest)) {next : HexBlock}
    (member : next ∈ rest) : block.stop ≤ next.start :=
  (List.pairwise_cons.mp ordered).1 next member

/-- The bytes in front of a block are fill bytes. -/
theorem image_front (ordered : Ordered (block :: rest)) (front : address < block.start) :
    image (block :: rest) byte address (min dataEnd block.start - address).toNat =
      List.replicate (min dataEnd block.start - address).toNat byte := by
  apply image_gap
  intro i inside
  apply byteIn_before
  have here := start_le_stop block
  intro other member
  rcases List.mem_cons.mp member with rfl | later
  · omega
  · have behind := ordered_behind ordered later
    omega

/-- A block that the address has come to: its bytes, and the range that is left behind them. -/
theorem image_turn {copyLen : Nat} (more : address ≤ dataEnd)
    (reached : block.start ≤ address ∨ address = dataEnd)
    (copied : copyLen = if block.start ≤ address ∧ address < block.stop then
      (min dataEnd block.stop - address).toNat else 0) :
    image (block :: rest) byte address (dataEnd - address).toNat =
      (block.data.drop (address - block.start).toNat).take copyLen ++
        image rest byte (address + copyLen) (dataEnd - (address + copyLen)).toNat := by
  by_cases inside : block.start ≤ address ∧ address < block.stop
  · rw [if_pos inside] at copied
    have parts : (dataEnd - address).toNat =
        copyLen + (dataEnd - (address + copyLen)).toNat := by omega
    rw [parts, image_add, image_inside inside.1 (by omega)]
    congr 1
    by_cases done : address + copyLen = dataEnd
    · rw [done, Int.sub_self]
      rfl
    · exact image_behind (by omega)
  · rw [if_neg inside] at copied
    rw [copied, List.take_zero, List.nil_append, Int.natCast_zero, Int.add_zero]
    by_cases behind : block.stop ≤ address
    · exact image_behind behind
    · have done : address = dataEnd := by omega
      rw [done, Int.sub_self]
      rfl

/-- The loop of `get` reads the range. -/
theorem getLoop_image (ordered : Ordered blocks) (more : address ≤ dataEnd) :
    getLoop dataEnd byte address blocks =
      image blocks byte address (dataEnd - address).toNat := by
  induction blocks generalizing address with
  | nil =>
      rw [getLoop, image_gap]
      intro i _
      rfl
  | cons block rest ih =>
      obtain ⟨-, later⟩ := List.pairwise_cons.mp ordered
      rw [getLoop]
      generalize front :
        (if address < block.start then (min dataEnd block.start - address).toNat else 0) = before
      generalize turn :
        (if block.start ≤ address + before ∧ address + before < block.stop then
          (min dataEnd block.stop - (address + before)).toNat else 0) = copyLen
      have within : address + before ≤ dataEnd := by
        split at front <;> omega
      have reached : block.start ≤ address + before ∨ address + before = dataEnd := by
        split at front <;> omega
      have left : address + before + copyLen ≤ dataEnd := by
        split at turn <;> omega
      -- The break leaves out what is empty.
      have tail : (if address + before + copyLen = dataEnd then []
          else getLoop dataEnd byte (address + before + copyLen) rest) =
          image rest byte (address + before + copyLen)
            (dataEnd - (address + before + copyLen)).toNat := by
        split
        · rename_i done
          rw [done, Int.sub_self]
          rfl
        · exact ih later left
      have parts : (dataEnd - address).toNat = before + (dataEnd - (address + before)).toNat := by
        omega
      have filled : image (block :: rest) byte address before = List.replicate before byte := by
        split at front
        · rename_i before_block
          rw [← front]
          exact image_front ordered before_block
        · rw [← front]
          rfl
      rw [tail, parts, image_add, filled, image_turn within reached turn.symm, List.append_assoc]

/-- The loop of `write_bin` writes what the loop of `get` reads. -/
theorem writeBinLoop_eq (written : List UInt8) :
    writeBinLoop dataEnd byte address written blocks =
      written ++ getLoop dataEnd byte address blocks := by
  induction blocks generalizing address written with
  | nil =>
      rw [writeBinLoop, getLoop]
      split
      · rfl
      · rename_i above
        rw [Int.toNat_of_nonpos (by omega), List.replicate_zero, List.append_nil]
  | cons block rest ih =>
      rw [writeBinLoop, getLoop]
      generalize (if address < block.start then (min dataEnd block.start - address).toNat
        else 0) = before
      by_cases inside : block.start ≤ address + before ∧ address + before < block.stop
      · simp only [if_pos inside]
        split
        · rw [List.append_nil, List.append_assoc]
        · rw [ih]
          simp only [List.append_assoc]
      · simp only [if_neg inside, List.take_zero, List.append_nil]
        split
        · rw [List.append_nil]
        · rw [ih]
          simp only [List.append_assoc]

end Loops

/-! ## The two operations -/

section Operations

variable {file : HexFile}

/-- `write_bin` writes what `get` returns for the same arguments. -/
theorem writeBin_eq (address : Option Int) (length : Option Nat) (byte : List UInt8) :
    file.writeBin address length byte = file.getBytes address length byte := by
  unfold writeBin getBytes
  split
  · simp only [writeBinLoop_eq, List.nil_append]
  · rfl

/-- What `get` returns of a range. -/
theorem getBytes_image (ordered : Ordered file.blocks) (address : Int) (length : Nat)
    (byte : UInt8) :
    file.getBytes (some address) (some length) [byte] =
      .ok (image file.blocks byte address length) := by
  have size : (address + length - address).toNat = length := by omega
  unfold getBytes bounds
  dsimp only [Option.getD_some]
  rw [getLoop_image ordered (by omega), size]
  rfl

/-- Of every range `get` returns the stored bytes, with the fill byte where no block is, and
`write_bin` writes the same bytes, also where arguments are left out. -/
theorem get_and_writeBin (ordered : Ordered file.blocks) (byte : UInt8) :
    (∀ (address : Int) (length : Nat), ∃ data,
      file.getBytes (some address) (some length) [byte] = .ok data ∧
      file.writeBin (some address) (some length) [byte] = .ok data ∧
      data.length = length ∧
      ∀ i < length, data[i]? = some ((file.byteAt (address + (i : Nat))).getD byte)) ∧
    ∀ (address : Option Int) (length : Option Nat),
      file.writeBin address length [byte] = file.getBytes address length [byte] := by
  refine ⟨?_, fun address length => writeBin_eq address length [byte]⟩
  intro address length
  refine ⟨image file.blocks byte address length, getBytes_image ordered address length byte,
    ?_, image_length, ?_⟩
  · rw [writeBin_eq]
    exact getBytes_image ordered address length byte
  · intro i inside
    exact image_get inside

/-- Two blocks with a gap between them. -/
def twoBlocks : HexFile where
  blocks := [⟨2, [1, 2], .bytearray⟩, ⟨6, [3], .bytearray⟩]
  fileType := .i8hex
  start := none

theorem get_and_writeBin_twoBlocks :
    Ordered twoBlocks.blocks ∧
      ∃ data, twoBlocks.getBytes (some 1) (some 7) [0xFF] = .ok data ∧
        twoBlocks.writeBin (some 1) (some 7) [0xFF] = .ok data ∧ data.length = 7 := by
  have ordered : Ordered twoBlocks.blocks := by
    unfold Ordered
    decide
  obtain ⟨data, read, written, size, -⟩ := (get_and_writeBin ordered 0xFF).1 1 7
  exact ⟨ordered, data, read, written, size⟩

example : twoBlocks.writeBin (some 1) (some 7) [0xFF] =
    .ok [0xFF, 1, 2, 0xFF, 0xFF, 3, 0xFF] := by rfl

end Operations

end QHal.Hex.HexFile
