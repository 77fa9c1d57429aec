/-
Module: QHal.Lib.Files
Purpose: The contents of a file that is read and written at offsets: a write behind the end fills
  the gap with zeros, a read stops at the end.
Trusted boundary: none
Main exports: Files.readAt, Files.writeAt, Files.byteAt, Files.Holds, Files.holds_writeAt_self,
  Files.holds_writeAt_other, Files.readAt_of_holds, Files.writeAll, Files.holds_writeAll
-/
import QHal.Lib.Bytes

namespace QHal.Files

/-- `seek` and `read`. -/
def readAt (file : List UInt8) (offset count : Nat) : List UInt8 := (file.drop offset).take count

/-- `seek` and `write`; nothing to write leaves the file as it is. -/
def writeAt (file : List UInt8) (offset : Nat) (data : List UInt8) : List UInt8 :=
  if data = [] then file
  else
    (file ++ List.replicate (offset - file.length) 0).take offset ++ data ++
      file.drop (offset + data.length)

/-- A byte of a file, which is 0 behind the end. -/
def byteAt (file : List UInt8) (i : Nat) : UInt8 := file.getD i 0

/-- The file holds some bytes from an offset on. -/
structure Holds (file : List UInt8) (offset : Nat) (data : List UInt8) : Prop where
  placed : Bytes.Placed (byteAt file) offset data
  inside : data ≠ [] → offset + data.length ≤ file.length

variable {file other data first second : List UInt8} {offset place : Nat}

theorem length_readAt (file : List UInt8) (offset count : Nat) :
    (readAt file offset count).length = min count (file.length - offset) := by
  rw [readAt, List.length_take, List.length_drop]

theorem readAt_all (file : List UInt8) : readAt file 0 file.length = file := by
  rw [readAt, List.drop_zero, List.take_length]

theorem length_writeAt (nonempty : data ≠ []) :
    (writeAt file offset data).length = max file.length (offset + data.length) := by
  rw [writeAt, if_neg nonempty]
  simp only [List.length_append, List.length_take, List.length_replicate, List.length_drop]
  omega

theorem length_le_writeAt : file.length ≤ (writeAt file offset data).length := by
  by_cases empty : data = []
  · rw [writeAt, if_pos empty]
  · rw [length_writeAt empty]
    exact Nat.le_max_left _ _

/-- What a write changes. -/
theorem byteAt_writeAt (i : Nat) :
    byteAt (writeAt file offset data) i =
      if offset ≤ i ∧ i < offset + data.length then byteAt data (i - offset)
      else byteAt file i := by
  by_cases empty : data = []
  · subst empty
    rw [writeAt, if_pos rfl, if_neg (by simp)]
  have front : ((file ++ List.replicate (offset - file.length) 0).take offset).length = offset := by
    simp only [List.length_append, List.length_take, List.length_replicate]
    omega
  unfold byteAt
  rw [writeAt, if_neg empty]
  by_cases before : i < offset
  · rw [if_neg (by omega), List.append_assoc, List.getD_append _ _ _ _ (by omega),
      List.getD_eq_getElem?_getD, List.getElem?_take_of_lt before, ← List.getD_eq_getElem?_getD]
    by_cases old : i < file.length
    · rw [List.getD_append _ _ _ _ old]
    · rw [List.getD_append_right _ _ _ _ (by omega), List.getD_eq_default file 0 (by omega),
        List.getD_eq_getElem?_getD, List.getElem?_getD_replicate_default_eq]
  · by_cases within : i < offset + data.length
    · rw [if_pos ⟨by omega, within⟩, List.append_assoc, List.getD_append_right _ _ _ _ (by omega),
        front, List.getD_append _ _ _ _ (by omega)]
    · have position : offset + data.length + (i - (offset + data.length)) = i := by omega
      rw [if_neg (by omega), List.getD_append_right _ _ _ _ (by
          rw [List.length_append, front]
          omega), List.length_append, front, List.getD_eq_getElem?_getD, List.getElem?_drop,
        position, ← List.getD_eq_getElem?_getD]

/-- Bytes in front of others are replaced by as many. -/
theorem writeAt_front {front rest : List UInt8} (nonempty : data ≠ [])
    (size : front.length = data.length) : writeAt (front ++ rest) 0 data = data ++ rest := by
  rw [writeAt, if_neg nonempty, List.take_zero, List.nil_append, Nat.zero_add, ← size,
    List.drop_left]

theorem holds_nil (file : List UInt8) (offset : Nat) : Holds file offset [] where
  placed := fun i below => absurd below (Nat.not_lt_zero i)
  inside := fun nonempty => absurd rfl nonempty

/-- What was written is there. -/
theorem holds_writeAt_self (file : List UInt8) (offset : Nat) (data : List UInt8) :
    Holds (writeAt file offset data) offset data where
  placed := by
    intro i below
    rw [byteAt_writeAt, if_pos ⟨Nat.le_add_right _ _, by omega⟩, Nat.add_sub_cancel_left]
    exact List.getD_eq_getElem data 0 below
  inside := by
    intro nonempty
    rw [length_writeAt nonempty]
    exact Nat.le_max_right _ _

/-- A write leaves what is apart from it. -/
theorem holds_writeAt_other (holds : Holds file place other)
    (apart : place + other.length ≤ offset ∨ offset + data.length ≤ place) :
    Holds (writeAt file offset data) place other where
  placed := by
    intro i below
    rw [byteAt_writeAt, if_neg (by omega)]
    exact holds.placed i below
  inside := fun nonempty => Nat.le_trans (holds.inside nonempty) length_le_writeAt

theorem holds_append :
    Holds file offset (first ++ second) ↔
      Holds file offset first ∧ Holds file (offset + first.length) second := by
  constructor
  · rintro ⟨placed, inside⟩
    obtain ⟨front, back⟩ := Bytes.placed_append.mp placed
    rw [List.length_append] at inside
    refine ⟨⟨front, fun some => ?_⟩, back, fun some => ?_⟩
    · have bound := inside (List.append_ne_nil_of_left_ne_nil some _)
      omega
    · have bound := inside (List.append_ne_nil_of_right_ne_nil _ some)
      omega
  · rintro ⟨front, back⟩
    refine ⟨Bytes.placed_append.mpr ⟨front.placed, back.placed⟩, fun some => ?_⟩
    rw [List.length_append]
    by_cases empty : second = []
    · have bound := front.inside (by simpa [empty] using some)
      rw [empty, List.length_nil]
      omega
    · have bound := back.inside empty
      omega

/-- Bytes that a file holds are read back. -/
theorem readAt_of_holds (holds : Holds file offset data) :
    readAt file offset data.length = data := by
  by_cases empty : data = []
  · subst empty
    exact List.take_zero
  · exact Bytes.slice_of_placed holds.placed (holds.inside empty)

/-- A byte of what was read. -/
theorem getElem_readAt {count i : Nat} (below : i < (readAt file offset count).length) :
    (readAt file offset count)[i] = byteAt file (offset + i) := by
  have length := length_readAt file offset count
  rw [byteAt, List.getD_eq_getElem file 0 (by omega)]
  simp only [readAt, List.getElem_take, List.getElem_drop]

theorem holds_self (file : List UInt8) : Holds file 0 file where
  placed := Bytes.placed_self file 0
  inside _ := Nat.le_of_eq (Nat.zero_add _)

/-- A part of what was read. -/
theorem readAt_readAt {count inner size : Nat} (inside : inner + size ≤ count) :
    readAt (readAt file offset count) inner size = readAt file (offset + inner) size := by
  rw [readAt, readAt, readAt, List.drop_take, List.take_take, List.drop_drop,
    Nat.min_eq_left (by omega)]

/-- A part of what a file holds. -/
theorem readAt_part {inner size : Nat} (holds : Holds file offset data)
    (inside : inner + size ≤ data.length) :
    readAt file (offset + inner) size = readAt data inner size := by
  rw [← readAt_readAt inside, readAt_of_holds holds]

theorem readAt_append (file : List UInt8) (offset first second : Nat) :
    readAt file offset first ++ readAt file (offset + first) second =
      readAt file offset (first + second) := by
  rw [readAt, readAt, readAt, List.take_add, List.drop_drop]

/-! ## Several writes -/

def writeAll (file : List UInt8) (writes : List (Nat × List UInt8)) : List UInt8 :=
  writes.foldl (fun file write => writeAt file write.1 write.2) file

/-- Two writes of disjoint parts of a file. -/
def Apart (first second : Nat × List UInt8) : Prop :=
  first.1 + first.2.length ≤ second.1 ∨ second.1 + second.2.length ≤ first.1

theorem Apart.symm {first second : Nat × List UInt8} (apart : Apart first second) :
    Apart second first :=
  Or.symm apart

@[simp]
theorem writeAll_nil (file : List UInt8) : writeAll file [] = file :=
  rfl

@[simp]
theorem writeAll_cons (file : List UInt8) (write : Nat × List UInt8)
    (writes : List (Nat × List UInt8)) :
    writeAll file (write :: writes) = writeAll (writeAt file write.1 write.2) writes :=
  rfl

theorem writeAll_append (file : List UInt8) (first second : List (Nat × List UInt8)) :
    writeAll file (first ++ second) = writeAll (writeAll file first) second :=
  List.foldl_append

/-- Writes leave what is apart from all of them. -/
theorem holds_writeAll_other {writes : List (Nat × List UInt8)} (holds : Holds file place other)
    (apart : ∀ write ∈ writes, Apart (place, other) write) :
    Holds (writeAll file writes) place other := by
  induction writes generalizing file with
  | nil => exact holds
  | cons write writes ih =>
      refine ih (holds_writeAt_other holds (apart write List.mem_cons_self)) ?_
      intro later here
      exact apart later (List.mem_cons_of_mem _ here)

/-- Of writes of disjoint parts each one is there in the end. -/
theorem holds_writeAll {writes : List (Nat × List UInt8)} (disjoint : writes.Pairwise Apart)
    (mem : (offset, data) ∈ writes) : Holds (writeAll file writes) offset data := by
  induction writes generalizing file with
  | nil => exact absurd mem List.not_mem_nil
  | cons write writes ih =>
      obtain ⟨first, rest⟩ := List.pairwise_cons.mp disjoint
      rcases List.mem_cons.mp mem with here | later
      · subst here
        have written := holds_writeAll_other (holds_writeAt_self file offset data) first
        exact written
      · exact ih rest later

end QHal.Files
