/-
Module: QHal.Proofs.FlashCopy
Purpose: What the flash read handlers do to memory.  A handler copies in chunks
  of 2048 bytes; if it reports success, its effect is one write of the whole
  range, with gaps where the store of a chunk was refused.
Trusted boundary: none
Main exports: chunkGranted, flashRead_memory
-/
import QHal.Boot.ElfMem

namespace QHal.Boot

/-- Whether the byte at an offset is stored: its chunk must be. -/
def chunkGranted (stores : UInt32 → UInt32 → Bool) (data bytes : UInt32) (offset : Nat) :
    Bool :=
  stores (data + UInt32.ofNat (2048 * (offset / 2048)))
    (UInt32.ofNat (min 2048 (bytes.toNat - 2048 * (offset / 2048))))

/-- The bytes of the flash from an address on. -/
def flashBytes (storage : Storage) (nvmAdd : UInt32) (offset : Nat) : UInt8 :=
  storage.flash (nvmAdd + UInt32.ofNat offset)

theorem flashReadChunk_of_granted {storage : Storage} (store : Store)
    {nvmAdd done count : UInt32} (data : UInt32) (memory : Mem UInt8)
    (granted : storage.flashReadStatus (nvmAdd + done) count = 0) :
    flashReadChunk storage store nvmAdd data done count memory =
      (blErrNone, store memory (data + done) count fun i =>
        storage.flash (nvmAdd + done + UInt32.ofNat i)) := by
  simp [flashReadChunk, bootSblFlashRead, granted, blErrNone]

theorem flashReadChunk_of_refused {storage : Storage} (store : Store)
    {nvmAdd done count : UInt32} (data : UInt32) (memory : Mem UInt8)
    (refused : storage.flashReadStatus (nvmAdd + done) count ≠ 0) :
    flashReadChunk storage store nvmAdd data done count memory =
      (blErrElfMemRead, memory) := by
  simp [flashReadChunk, bootSblFlashRead, refused, blErrNone]

theorem flashReadChunk_status (storage : Storage) (store : Store)
    (nvmAdd data done count : UInt32) (memory other : Mem UInt8) :
    (flashReadChunk storage store nvmAdd data done count memory).1 =
      (flashReadChunk storage store nvmAdd data done count other).1 := by
  by_cases granted : storage.flashReadStatus (nvmAdd + done) count = 0
  · rw [flashReadChunk_of_granted store data _ granted,
      flashReadChunk_of_granted store data _ granted]
  · rw [flashReadChunk_of_refused store data _ granted,
      flashReadChunk_of_refused store data _ granted]

theorem flashReadLoop_status (storage : Storage) (store : Store) (nvmAdd data bytes : UInt32)
    (fuel : Nat) (done : UInt32) (memory other : Mem UInt8) :
    (flashReadLoop storage store nvmAdd data bytes fuel done memory).1 =
        (flashReadLoop storage store nvmAdd data bytes fuel done other).1 ∧
      (flashReadLoop storage store nvmAdd data bytes fuel done memory).2.1 =
        (flashReadLoop storage store nvmAdd data bytes fuel done other).2.1 := by
  induction fuel generalizing done memory other with
  | zero => exact ⟨rfl, rfl⟩
  | succ fuel ih =>
      have chunk := flashReadChunk_status storage store nvmAdd data done rramReadBufSize
        memory other
      unfold flashReadLoop
      split_ifs
      · simp only [chunk]
        split_ifs
        · exact ⟨rfl, rfl⟩
        · exact ih _ _ _
      · exact ⟨rfl, rfl⟩

/-- The status of a flash read does not depend on the memory it writes to. -/
theorem flashRead_status (storage : Storage) (store : Store) (address data bytes : UInt32)
    (memory other : Mem UInt8) :
    (flashRead storage store memory address data bytes).1 =
      (flashRead storage store other address data bytes).1 := by
  obtain ⟨status, done⟩ := flashReadLoop_status storage store (address - appImageFlashAddress)
    data bytes (bytes.toNat / 2048 + 1) 0 memory other
  have last := fun done memory other => flashReadChunk_status storage store
    (address - appImageFlashAddress) data done (bytes - done) memory other
  unfold flashRead
  split_ifs
  · simp only [status, done]
    split_ifs
    · rfl
    · exact congrArg some (last _ _ _)
    · rfl
  · simp only [ne_eq, not_true_eq_false, if_false]
    split_ifs
    · rfl
    · exact congrArg some (last _ _ _)

/-- The bytes that are left after the full chunks are the last chunk. -/
theorem lastBytes_eq {bytes : UInt32} {last : Nat} (present : 2048 * last < bytes.toNat)
    (final : bytes.toNat ≤ 2048 * last + 2048) :
    bytes - UInt32.ofNat (2048 * last) =
        UInt32.ofNat (min 2048 (bytes.toNat - 2048 * last)) ∧
      bytes - UInt32.ofNat (2048 * last) ≠ 0 := by
  have total : bytes.toNat < 2 ^ 32 := bytes.toNat_lt
  have position : (UInt32.ofNat (2048 * last)).toNat = 2048 * last := by
    rw [UInt32.toNat_ofNat']
    exact Nat.mod_eq_of_lt (by omega)
  have low : UInt32.ofNat (2048 * last) ≤ bytes := by
    rw [UInt32.le_iff_toNat_le, position]
    exact Nat.le_of_lt present
  have rest : (bytes - UInt32.ofNat (2048 * last)).toNat = bytes.toNat - 2048 * last := by
    rw [UInt32.toNat_sub_of_le _ _ low, position]
  constructor
  · apply UInt32.toNat_inj.mp
    rw [rest, UInt32.toNat_ofNat', Nat.mod_eq_of_lt (by omega)]
    omega
  · intro none
    rw [none] at rest
    simp at rest
    omega

section Chunks

variable {storage : Storage} {store : Store} {stores : UInt32 → UInt32 → Bool}
variable (storeSpec : ∀ memory destination length source,
  store memory destination length source =
    memory.writeIf destination length.toNat (fun _ => stores destination length) source)

include storeSpec

/-- A chunk at offset `2048 * k` continues the write of the bytes before it. -/
theorem flashReadChunk_memory {nvmAdd data bytes : UInt32} {k count : Nat}
    (memory : Mem UInt8) (isChunk : count = min 2048 (bytes.toNat - 2048 * k))
    (present : 2048 * k < bytes.toNat)
    (ok : (flashReadChunk storage store nvmAdd data (UInt32.ofNat (2048 * k))
      (UInt32.ofNat count)
      (memory.writeIf data (2048 * k) (chunkGranted stores data bytes)
        (flashBytes storage nvmAdd))).1 = blErrNone) :
    (flashReadChunk storage store nvmAdd data (UInt32.ofNat (2048 * k))
        (UInt32.ofNat count)
        (memory.writeIf data (2048 * k) (chunkGranted stores data bytes)
          (flashBytes storage nvmAdd))).2 =
      memory.writeIf data (2048 * k + count) (chunkGranted stores data bytes)
        (flashBytes storage nvmAdd) := by
  have total : bytes.toNat < 2 ^ 32 := bytes.toNat_lt
  have length : (UInt32.ofNat count).toNat = count := by
    rw [UInt32.toNat_ofNat']
    exact Nat.mod_eq_of_lt (by omega)
  by_cases granted : storage.flashReadStatus (nvmAdd + UInt32.ofNat (2048 * k))
      (UInt32.ofNat count) = 0
  · rw [flashReadChunk_of_granted store data _ granted]
    dsimp only
    rw [storeSpec, length,
      ← Mem.writeIf_append memory data (2048 * k) count _ _ (by omega) (by omega)]
    apply Mem.writeIf_congr
    · intro i below
      have chunk : (2048 * k + i) / 2048 = k := by omega
      simp only [chunkGranted, chunk, isChunk]
    · intro i _
      simp only [flashBytes, UInt32.ofNat_add, UInt32.add_assoc]
  · rw [flashReadChunk_of_refused store data _ granted] at ok
    cases ok

/-- The loop over the full chunks, from offset `2048 * k` on. -/
theorem flashReadLoop_memory {nvmAdd data bytes : UInt32} (memory : Mem UInt8)
    (fuel k : Nat) (enough : bytes.toNat ≤ 2048 * (k + fuel) + 2048)
    (present : 2048 * k < bytes.toNat)
    (ok : (flashReadLoop storage store nvmAdd data bytes fuel (UInt32.ofNat (2048 * k))
      (memory.writeIf data (2048 * k) (chunkGranted stores data bytes)
        (flashBytes storage nvmAdd))).1 = blErrNone) :
    ∃ last, 2048 * last < bytes.toNat ∧ bytes.toNat ≤ 2048 * last + 2048 ∧
      flashReadLoop storage store nvmAdd data bytes fuel (UInt32.ofNat (2048 * k))
          (memory.writeIf data (2048 * k) (chunkGranted stores data bytes)
            (flashBytes storage nvmAdd)) =
        (blErrNone, UInt32.ofNat (2048 * last),
          memory.writeIf data (2048 * last) (chunkGranted stores data bytes)
            (flashBytes storage nvmAdd)) := by
  have total : bytes.toNat < 2 ^ 32 := bytes.toNat_lt
  induction fuel generalizing k with
  | zero => exact ⟨k, present, enough, rfl⟩
  | succ fuel ih =>
      have position : (UInt32.ofNat (2048 * k)).toNat = 2048 * k := by
        rw [UInt32.toNat_ofNat']
        exact Nat.mod_eq_of_lt (by omega)
      have low : UInt32.ofNat (2048 * k) ≤ bytes := by
        rw [UInt32.le_iff_toNat_le, position]
        exact Nat.le_of_lt present
      have rest : (bytes - UInt32.ofNat (2048 * k)).toNat = bytes.toNat - 2048 * k := by
        rw [UInt32.toNat_sub_of_le _ _ low, position]
      by_cases more : 2048 * (k + 1) < bytes.toNat
      · have goes : UInt32.ofNat (2048 * k) ≤ bytes ∧
            bytes - UInt32.ofNat (2048 * k) > rramReadBufSize := by
          refine ⟨low, ?_⟩
          rw [gt_iff_lt, UInt32.lt_iff_toNat_lt, rest]
          simp [rramReadBufSize]
          omega
        have size : rramReadBufSize = UInt32.ofNat 2048 := rfl
        have next : UInt32.ofNat (2048 * k) + rramReadBufSize = UInt32.ofNat (2048 * (k + 1)) := by
          rw [size, ← UInt32.ofNat_add]
          rfl
        rw [flashReadLoop] at ok ⊢
        simp only [goes, and_self, if_true] at ok ⊢
        by_cases chunkOk : (flashReadChunk storage store nvmAdd data (UInt32.ofNat (2048 * k))
            rramReadBufSize (memory.writeIf data (2048 * k) (chunkGranted stores data bytes)
              (flashBytes storage nvmAdd))).1 = blErrNone
        · have full : 2048 = min 2048 (bytes.toNat - 2048 * k) := by omega
          have stored := flashReadChunk_memory storeSpec memory full present chunkOk
          rw [← size] at stored
          simp only [chunkOk, ne_eq, not_true_eq_false, if_false, stored, next] at ok ⊢
          exact ih (k + 1) (by omega) more ok
        · simp only [ne_eq, chunkOk, not_false_eq_true, if_true] at ok
      · have stops : ¬ (UInt32.ofNat (2048 * k) ≤ bytes ∧
            bytes - UInt32.ofNat (2048 * k) > rramReadBufSize) := by
          rintro ⟨-, large⟩
          rw [gt_iff_lt, UInt32.lt_iff_toNat_lt, rest] at large
          simp [rramReadBufSize] at large
          omega
        refine ⟨k, present, by omega, ?_⟩
        rw [flashReadLoop, if_neg stops]

/-- The part of a flash read after the loop. -/
theorem flashRead_last (nvmAdd data : UInt32) {bytes : UInt32} (memory : Mem UInt8) {last : Nat}
    (present : 2048 * last < bytes.toNat) (final : bytes.toNat ≤ 2048 * last + 2048)
    (ok : (flashReadChunk storage store nvmAdd data (UInt32.ofNat (2048 * last))
      (bytes - UInt32.ofNat (2048 * last))
      (memory.writeIf data (2048 * last) (chunkGranted stores data bytes)
        (flashBytes storage nvmAdd))).1 = blErrNone) :
    (flashReadChunk storage store nvmAdd data (UInt32.ofNat (2048 * last))
        (bytes - UInt32.ofNat (2048 * last))
        (memory.writeIf data (2048 * last) (chunkGranted stores data bytes)
          (flashBytes storage nvmAdd))).2 =
      memory.writeIf data bytes.toNat (chunkGranted stores data bytes)
        (flashBytes storage nvmAdd) := by
  rw [(lastBytes_eq present final).1] at ok ⊢
  rw [flashReadChunk_memory storeSpec memory rfl present ok]
  congr 1
  omega

/-- A flash read that reports success wrote its whole range, except for the
chunks whose store was refused. -/
theorem flashRead_memory {address data bytes : UInt32} (memory : Mem UInt8)
    (ok : (flashRead storage store memory address data bytes).1 = some blErrNone) :
    (flashRead storage store memory address data bytes).2 =
      memory.writeIf data bytes.toNat (chunkGranted stores data bytes)
        (flashBytes storage (address - appImageFlashAddress)) := by
  by_cases empty : bytes.toNat = 0
  · have zero : bytes = 0 := UInt32.toNat_inj.mp empty
    have short : ¬ (0 : UInt32) > rramReadBufSize := by decide
    simp [flashRead, zero, short]
  · have start : memory.writeIf data (2048 * 0) (chunkGranted stores data bytes)
        (flashBytes storage (address - appImageFlashAddress)) = memory :=
      Mem.writeIf_zero _ _ _ _
    have zeroDone : UInt32.ofNat (2048 * 0) = 0 := rfl
    unfold flashRead at ok ⊢
    by_cases long : bytes > rramReadBufSize
    · simp only [long, if_true] at ok ⊢
      by_cases loopOk : (flashReadLoop storage store (address - appImageFlashAddress) data
          bytes (bytes.toNat / 2048 + 1) 0 memory).1 = blErrNone
      · rw [← start, ← zeroDone] at loopOk
        obtain ⟨last, present, final, result⟩ :=
          flashReadLoop_memory storeSpec memory _ 0 (by omega) (by omega) loopOk
        rw [start, zeroDone] at result
        have some := (lastBytes_eq present final).2
        simp only [result, ne_eq, not_true_eq_false, if_false, some, not_false_eq_true,
          if_true] at ok ⊢
        exact flashRead_last storeSpec _ _ memory present final (Option.some.inj ok)
      · simp only [ne_eq, loopOk, not_false_eq_true, if_true] at ok
        exact absurd (Option.some.inj ok) loopOk
    · have bound : bytes.toNat ≤ 2048 * 0 + 2048 := by
        rw [gt_iff_lt, UInt32.lt_iff_toNat_lt] at long
        simp [rramReadBufSize] at long
        omega
      have present : 2048 * 0 < bytes.toNat := by omega
      have some := (lastBytes_eq present bound).2
      rw [zeroDone] at some
      simp only [long, if_false, ne_eq, not_true_eq_false, some, not_false_eq_true,
        if_true] at ok ⊢
      have chunkOk := Option.some.inj ok
      rw [← start, ← zeroDone] at chunkOk
      have stored := flashRead_last storeSpec _ _ memory present bound chunkOk
      rw [start, zeroDone] at stored
      exact stored

end Chunks

end QHal.Boot
