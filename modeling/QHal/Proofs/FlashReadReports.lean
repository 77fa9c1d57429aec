/-
Module: QHal.Proofs.FlashReadReports
Purpose: What the status of the flash read handlers says.  That of the read to RAM tells of
  every failure; the read to RRAM does not tell of a chunk that the RRAM refuses.
Trusted boundary: none
Main exports: ChunkRead, ChunkStored, flashRead_ok_iff, FlashReadReports, flashReads_report_iff
-/
import QHal.Proofs.RramCopy
import QHal.Proofs.SegmentLoad

namespace QHal.Boot

open Mem (InRange Holds)

/-- How many bytes a chunk has. -/
def chunkCount (bytes : UInt32) (chunk : Nat) : UInt32 :=
  UInt32.ofNat (min 2048 (bytes.toNat - 2048 * chunk))

/-- A chunk of the flash can be read. -/
def ChunkRead (storage : Storage) (nvmAdd bytes : UInt32) (chunk : Nat) : Prop :=
  storage.flashReadStatus (nvmAdd + UInt32.ofNat (2048 * chunk)) (chunkCount bytes chunk) = 0

/-- The RRAM takes a chunk. -/
def ChunkStored (storage : Storage) (data bytes : UInt32) (chunk : Nat) : Prop :=
  storage.rramWriteStatus (data + UInt32.ofNat (2048 * chunk)) (chunkCount bytes chunk) = 0

/-! ## The status -/

section Status

variable {storage : Storage} {store : Store} {nvmAdd data bytes : UInt32}

theorem flashReadChunk_ok_iff (memory : Mem UInt8) (chunk : Nat) :
    (flashReadChunk storage store nvmAdd data (UInt32.ofNat (2048 * chunk))
        (chunkCount bytes chunk) memory).1 = blErrNone ↔ ChunkRead storage nvmAdd bytes chunk := by
  by_cases granted : ChunkRead storage nvmAdd bytes chunk
  · rw [flashReadChunk_of_granted store data memory granted]
    exact iff_of_true rfl granted
  · rw [flashReadChunk_of_refused store data memory granted]
    exact iff_of_false (show ¬ blErrElfMemRead = blErrNone by decide) granted

/-- A chunk that is not the last. -/
theorem chunkCount_full {chunk : Nat} (more : 2048 * (chunk + 1) < bytes.toNat) :
    chunkCount bytes chunk = rramReadBufSize := by
  unfold chunkCount
  rw [Nat.min_eq_left (by omega)]
  rfl

/-- The loop ends in front of the last chunk, or at a chunk that cannot be read. -/
theorem flashReadLoop_reports (fuel chunk : Nat) (memory : Mem UInt8)
    (enough : bytes.toNat ≤ 2048 * (chunk + fuel) + 2048) (present : 2048 * chunk < bytes.toNat) :
    (∃ last after, flashReadLoop storage store nvmAdd data bytes fuel (UInt32.ofNat (2048 * chunk))
          memory = (blErrNone, UInt32.ofNat (2048 * last), after) ∧
        2048 * last < bytes.toNat ∧ bytes.toNat ≤ 2048 * last + 2048 ∧
        ∀ other, chunk ≤ other → other < last → ChunkRead storage nvmAdd bytes other) ∨
      ((flashReadLoop storage store nvmAdd data bytes fuel (UInt32.ofNat (2048 * chunk))
          memory).1 ≠ blErrNone ∧
        ∃ other, 2048 * other < bytes.toNat ∧ ¬ ChunkRead storage nvmAdd bytes other) := by
  have total := bytes.toNat_lt
  induction fuel generalizing chunk memory with
  | zero =>
      refine Or.inl ⟨chunk, memory, rfl, present, by omega, fun other low high => ?_⟩
      exact absurd high (Nat.not_lt.mpr low)
  | succ fuel ih =>
      have place : (UInt32.ofNat (2048 * chunk)).toNat = 2048 * chunk :=
        UInt32.toNat_ofNat_of_lt' (by rw [UInt32.size]; omega)
      have low : UInt32.ofNat (2048 * chunk) ≤ bytes := by
        rw [UInt32.le_iff_toNat_le, place]
        exact Nat.le_of_lt present
      have rest : (bytes - UInt32.ofNat (2048 * chunk)).toNat = bytes.toNat - 2048 * chunk := by
        rw [UInt32.toNat_sub_of_le _ _ low, place]
      have size : rramReadBufSize.toNat = 2048 := rfl
      rw [flashReadLoop]
      by_cases more : 2048 * (chunk + 1) < bytes.toNat
      · have next : UInt32.ofNat (2048 * chunk) + rramReadBufSize =
            UInt32.ofNat (2048 * (chunk + 1)) := by
          rw [show rramReadBufSize = UInt32.ofNat 2048 from rfl, ← UInt32.ofNat_add, Nat.mul_succ]
        rw [if_pos ⟨low, UInt32.lt_iff_toNat_lt.mpr (by omega)⟩, ← chunkCount_full more]
        have read := @flashReadChunk_ok_iff storage store nvmAdd data bytes memory chunk
        generalize flashReadChunk storage store nvmAdd data (UInt32.ofNat (2048 * chunk))
          (chunkCount bytes chunk) memory = outcome at read ⊢
        obtain ⟨status, after⟩ := outcome
        dsimp only at read ⊢
        by_cases ok : status = blErrNone
        · rw [if_neg (not_not.mpr ok), chunkCount_full more, next]
          rcases ih (chunk + 1) after (by omega) more with
            ⟨last, after, loop, present, final, reads⟩ | failed
          · refine Or.inl ⟨last, after, loop, present, final, fun other low high => ?_⟩
            by_cases here : other = chunk
            · rw [here]
              exact read.mp ok
            · exact reads other (by omega) high
          · exact Or.inr failed
        · rw [if_pos ok]
          exact Or.inr ⟨ok, chunk, present, mt read.mpr ok⟩
      · rw [if_neg fun goes => more (by
          have large := UInt32.lt_iff_toNat_lt.mp goes.2
          omega)]
        refine Or.inl ⟨chunk, memory, rfl, present, by omega, fun other low high => ?_⟩
        exact absurd high (Nat.not_lt.mpr low)

/-- The read of the last chunk decides if the others could be read. -/
theorem flashRead_last_iff {last : Nat} (memory : Mem UInt8)
    (present : 2048 * last < bytes.toNat) (final : bytes.toNat ≤ 2048 * last + 2048)
    (reads : ∀ other < last, ChunkRead storage nvmAdd bytes other) :
    (flashReadChunk storage store nvmAdd data (UInt32.ofNat (2048 * last))
        (bytes - UInt32.ofNat (2048 * last)) memory).1 = blErrNone ↔
      ∀ chunk, 2048 * chunk < bytes.toNat → ChunkRead storage nvmAdd bytes chunk := by
  rw [(lastBytes_eq present final).1]
  refine (flashReadChunk_ok_iff memory last).trans
    ⟨fun read chunk inside => ?_, fun all => all last present⟩
  by_cases here : chunk = last
  · rw [here]
    exact read
  · exact reads chunk (by omega)

/-- A flash read reports success exactly if every chunk can be read. -/
theorem flashRead_ok_iff (store : Store) (address data : UInt32) (memory : Mem UInt8) :
    (flashRead storage store memory address data bytes).1 = some blErrNone ↔
      ∀ chunk, 2048 * chunk < bytes.toNat →
        ChunkRead storage (address - appImageFlashAddress) bytes chunk := by
  unfold flashRead
  by_cases empty : bytes.toNat = 0
  · obtain rfl : bytes = 0 := UInt32.toNat_inj.mp empty
    refine iff_of_true rfl fun chunk inside => ?_
    exact absurd inside (Nat.not_lt_zero _)
  by_cases long : bytes > rramReadBufSize
  · simp only [long, if_true]
    rcases @flashReadLoop_reports storage store (address - appImageFlashAddress) data bytes
        (bytes.toNat / 2048 + 1) 0 memory (by omega) (by omega) with
      ⟨last, after, loop, present, final, reads⟩ | ⟨failed, other, inside, refused⟩
    · rw [show UInt32.ofNat (2048 * 0) = 0 from rfl] at loop
      have some_ := (lastBytes_eq present final).2
      simp only [loop, ne_eq, not_true_eq_false, if_false, some_, not_false_eq_true, if_true,
        Option.some.injEq]
      exact flashRead_last_iff after present final fun other below =>
        reads other (Nat.zero_le _) below
    · rw [show UInt32.ofNat (2048 * 0) = 0 from rfl] at failed
      simp only [ne_eq, failed, not_false_eq_true, if_true]
      exact iff_of_false (fun ok => failed (Option.some.inj ok)) fun all =>
        refused (all other inside)
  · have final : bytes.toNat ≤ 2048 * 0 + 2048 := by
      rw [gt_iff_lt, UInt32.lt_iff_toNat_lt] at long
      exact Nat.not_lt.mp long
    have present : 2048 * 0 < bytes.toNat := by omega
    have some_ := (lastBytes_eq present final).2
    have whole := @flashRead_last_iff storage store (address - appImageFlashAddress) data bytes 0
      memory present final fun other below => absurd below (Nat.not_lt_zero _)
    rw [show UInt32.ofNat (2048 * 0) = 0 from rfl] at some_ whole
    simp only [long, if_false, ne_eq, not_true_eq_false, some_, not_false_eq_true, if_true,
      Option.some.injEq]
    exact whole

end Status

/-! ## What a success says -/

/-- A handler that reports success only when the destination is the flash byte for byte, and
that does so, with nothing else written, if all operations succeed. -/
def Reports (handler : Storage → Mem UInt8 → UInt32 → UInt32 → UInt32 → HandlerResult)
    (storage : Storage) (address data bytes : UInt32) : Prop :=
  ∀ memory : Mem UInt8,
    ((handler storage memory address data bytes).1 = some blErrNone →
      Holds (handler storage memory address data bytes).2 data bytes.toNat
        (flashBytes storage (address - appImageFlashAddress))) ∧
    ((∀ chunk, 2048 * chunk < bytes.toNat →
        ChunkRead storage (address - appImageFlashAddress) bytes chunk ∧
          ChunkStored storage data bytes chunk) →
      handler storage memory address data bytes = (some blErrNone,
        memory.write data bytes.toNat (flashBytes storage (address - appImageFlashAddress))))

/-- The read to RAM tells of every failure. -/
theorem flashReadToRam_reports (storage : Storage) (address data bytes : UInt32) :
    Reports blElfFlashReadToRam storage address data bytes := by
  have written : ∀ memory : Mem UInt8,
      (blElfFlashReadToRam storage memory address data bytes).1 = some blErrNone →
        (blElfFlashReadToRam storage memory address data bytes).2 =
          memory.write data bytes.toNat
            (flashBytes storage (address - appImageFlashAddress)) := by
    intro memory ok
    rw [Mem.write_eq_writeIf]
    exact flashRead_memory storeRam_spec memory ok
  intro memory
  refine ⟨fun ok cell inside => ?_, fun succeed => ?_⟩
  · rw [written memory ok, Mem.write_hit inside]
  · have ok := (flashRead_ok_iff storeRam address data memory).mpr fun chunk inside =>
      (succeed chunk inside).1
    exact Prod.ext ok (written memory ok)

theorem next_ne (byte : UInt8) : byte + 1 ≠ byte := by
  intro same
  have value := congrArg UInt8.toNat same
  have one : (1 : UInt8).toNat = 1 := rfl
  rw [UInt8.toNat_add, one] at value
  omega

theorem chunkGranted_iff (storage : Storage) (data bytes : UInt32) (offset : Nat) :
    chunkGranted (rramStores storage) data bytes offset = true ↔
      ChunkStored storage data bytes (offset / 2048) :=
  beq_iff_eq

/-- The read to RRAM tells of the chunks that cannot be read only. -/
theorem flashReadToRramDxe_reports_iff (storage : Storage) (address data bytes : UInt32) :
    Reports blElfFlashReadToRramDxe storage address data bytes ↔
      (∃ chunk, 2048 * chunk < bytes.toNat ∧
          ¬ ChunkRead storage (address - appImageFlashAddress) bytes chunk) ∨
        ∀ chunk, 2048 * chunk < bytes.toNat → ChunkStored storage data bytes chunk := by
  have bound := bytes.toNat_lt
  have status : ∀ memory : Mem UInt8,
      (blElfFlashReadToRramDxe storage memory address data bytes).1 = some blErrNone ↔ _ :=
    flashRead_ok_iff (storeRram storage) address data
  have written : ∀ memory : Mem UInt8,
      (blElfFlashReadToRramDxe storage memory address data bytes).1 = some blErrNone →
        (blElfFlashReadToRramDxe storage memory address data bytes).2 =
          memory.writeIf data bytes.toNat (chunkGranted (rramStores storage) data bytes)
            (flashBytes storage (address - appImageFlashAddress)) := by
    intro memory ok
    exact flashRead_memory (storeRram_spec storage) memory ok
  constructor
  · intro reports
    by_contra neither
    obtain ⟨readable, refused⟩ := not_or.mp neither
    have reads : ∀ chunk, 2048 * chunk < bytes.toNat →
        ChunkRead storage (address - appImageFlashAddress) bytes chunk := by
      intro chunk inside
      by_contra failed
      exact readable ⟨chunk, inside, failed⟩
    obtain ⟨chunk, refused⟩ := not_forall.mp refused
    obtain ⟨inside, refused⟩ := Classical.not_imp.mp refused
    -- A memory that has another byte where the chunk begins.
    have ok := (status fun _ => flashBytes storage (address - appImageFlashAddress)
      (2048 * chunk) + 1).mpr reads
    have holds := (reports _).1 ok (data + UInt32.ofNat (2048 * chunk))
      (Mem.inRange_add inside (by omega))
    have here : (data + UInt32.ofNat (2048 * chunk) - data).toNat = 2048 * chunk :=
      Mem.distance_add (by omega)
    rw [written _ ok, Mem.writeIf_miss, here] at holds
    · exact next_ne _ holds
    · rintro ⟨-, granted⟩
      rw [here, chunkGranted_iff, Nat.mul_div_cancel_left _ (by decide)] at granted
      exact refused granted
  · rintro (⟨chunk, inside, failed⟩ | stored) memory
    · refine ⟨fun ok => ?_, fun succeed => absurd (succeed chunk inside).1 failed⟩
      exact absurd ((status memory).mp ok chunk inside) failed
    · have plain : (blElfFlashReadToRramDxe storage memory address data bytes).1 =
          some blErrNone → (blElfFlashReadToRramDxe storage memory address data bytes).2 =
            memory.write data bytes.toNat
              (flashBytes storage (address - appImageFlashAddress)) := by
        intro ok
        rw [written memory ok, Mem.write_eq_writeIf]
        refine Mem.writeIf_congr _ _ (fun i below => ?_) fun _ _ => rfl
        rw [chunkGranted_iff]
        exact stored (i / 2048) (by omega)
      refine ⟨fun ok cell inside => ?_, fun succeed => ?_⟩
      · rw [plain ok, Mem.write_hit inside]
      · have ok := (status memory).mpr fun chunk inside => (succeed chunk inside).1
        exact Prod.ext ok (plain ok)

/-- Both handlers report every failure exactly if a chunk cannot be read, or the RRAM takes
every chunk: a chunk that the RRAM refuses is not told of. -/
theorem flashReads_report_iff (storage : Storage) (address data bytes : UInt32) :
    (Reports blElfFlashReadToRam storage address data bytes ∧
        Reports blElfFlashReadToRramDxe storage address data bytes) ↔
      (∃ chunk, 2048 * chunk < bytes.toNat ∧
          ¬ ChunkRead storage (address - appImageFlashAddress) bytes chunk) ∨
        ∀ chunk, 2048 * chunk < bytes.toNat → ChunkStored storage data bytes chunk := by
  refine Iff.trans ?_ (flashReadToRramDxe_reports_iff storage address data bytes)
  exact ⟨fun both => both.2, fun reports =>
    ⟨flashReadToRam_reports storage address data bytes, reports⟩⟩

/-- The storage that grants everything but RRAM writes. -/
def refusingRram : Storage := { grantingStorage with rramWriteStatus := fun _ _ => 20 }

/-- One refused chunk: the call reports success and the destination is not the flash. -/
theorem flashReadToRram_hides_refusal :
    ¬ (Reports blElfFlashReadToRam refusingRram 0xA00000 0x210000 16 ∧
        Reports blElfFlashReadToRramDxe refusingRram 0xA00000 0x210000 16) := by
  rintro ⟨-, reports⟩
  rcases (flashReadToRramDxe_reports_iff refusingRram 0xA00000 0x210000 16).mp reports with
    ⟨chunk, -, failed⟩ | stored
  · exact failed rfl
  · exact absurd (stored 0 (by decide)) (show ¬ (20 : UInt32) = 0 by decide)

end QHal.Boot
