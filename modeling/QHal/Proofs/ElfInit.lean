/-
Module: QHal.Proofs.ElfInit
Purpose: What `boot_elf_load_init` leaves in the loader, told by the bytes of the flash alone.
Trusted boundary: none
Main exports: flashHdr, flashPhdrs, headersInFlash, bootElfLoadInit_spec
-/
import QHal.Boot.ElfInit
import QHal.Proofs.SegmentLoad

namespace QHal.Boot

open Mem (InRange)
open Qhash (Elf32Ehdr phdrOfBytes elf32HdrSize elf32PhdrSize)

/-! ## The headers in flash -/

/-- The bytes of the flash from an offset behind an address. -/
def flashList (storage : Storage) (nvmAdd : UInt32) (offset count : Nat) : List UInt8 :=
  (List.range count).map fun i => flashBytes storage nvmAdd (offset + i)

def flashHdr (storage : Storage) (elfAddr : UInt32) : Elf32Ehdr :=
  Elf32Ehdr.ofBytes (flashList storage (elfAddr - appImageFlashAddress) 0 elf32HdrSize)

def flashPhdrs (storage : Storage) (tableAddr : UInt32) (phrNum : Nat) : List Elf32Phdr :=
  (List.range phrNum).map fun progIdx =>
    phdrOfBytes (flashList storage (tableAddr - appImageFlashAddress) (elf32PhdrSize * progIdx)
      elf32PhdrSize)

def zeroPhdr : Elf32Phdr := ⟨0, 0, 0, 0, 0, 0, 0, 0⟩

/-- The address and the size of the program headers of an image. -/
def tableAddr (storage : Storage) (elfAddr : UInt32) : UInt32 :=
  elfAddr + (flashHdr storage elfAddr).ePhoff

def tableSize (storage : Storage) (elfAddr : UInt32) : UInt32 :=
  UInt32.ofNat ((flashHdr storage elfAddr).ePhnum * (flashHdr storage elfAddr).ePhentsize.toNat)

/-- Whether the program headers are copied to the loader. -/
def tableServed (storage : Storage) (loaderAddr elfAddr : UInt32) : Bool :=
  readRegionCheck (tableAddr storage elfAddr) (progHdrsAddr loaderAddr)
    (tableSize storage elfAddr) flashRamRegion

/-- The program headers that a valid header points to.  A table that no window accepts is a table of
zeros. -/
def tableInFlash (storage : Storage) (loaderAddr elfAddr : UInt32) :
    Except BlError (List Elf32Phdr) :=
  if (flashHdr storage elfAddr).ePhnum = 0 then .ok []
  else if tableServed storage loaderAddr elfAddr then
    if storage.flashReadStatus (tableAddr storage elfAddr - appImageFlashAddress)
        (tableSize storage elfAddr) ≠ 0 then .error blErrElfMemRead
    else .ok (flashPhdrs storage (tableAddr storage elfAddr) (flashHdr storage elfAddr).ePhnum)
  else .ok (List.replicate (flashHdr storage elfAddr).ePhnum zeroPhdr)

/-- The program headers of an image in flash, or why there are none. -/
def headersInFlash (storage : Storage) (loaderAddr elfAddr : UInt32) :
    Except BlError (List Elf32Phdr) :=
  if storage.flashReadStatus (elfAddr - appImageFlashAddress) (UInt32.ofNat elf32HdrSize) ≠ 0 then
    .error blErrElfMemRead
  else if bootElfValidateElfHeader (flashHdr storage elfAddr) ≠ blErrNone then
    .error (bootElfValidateElfHeader (flashHdr storage elfAddr))
  else tableInFlash storage loaderAddr elfAddr

/-- The status that a call with this outcome returns. -/
def statusOf : Except BlError (List Elf32Phdr) → BlError
  | .error status => status
  | .ok _ => blErrNone

/-! ## Bytes of memory -/

theorem memoryBytes_write {memory : Mem UInt8} {base : UInt32} {count offset size : Nat}
    {data : Nat → UInt8} (inside : offset + size ≤ count) (bound : count ≤ 2 ^ 32) :
    memoryBytes (memory.write base count data) (base + UInt32.ofNat offset) size =
      (List.range size).map fun i => data (offset + i) := by
  refine List.map_congr_left fun i mem => ?_
  have below := List.mem_range.mp mem
  have place : base + UInt32.ofNat offset + UInt32.ofNat i = base + UInt32.ofNat (offset + i) := by
    rw [UInt32.add_assoc, ← UInt32.ofNat_add]
  rw [place, Mem.write_hit (Mem.inRange_add (by omega) (by omega)),
    Mem.distance_add (by omega)]

/-- The two arrays of a loader are apart. -/
theorem elfHdr_apart {loaderAddr : UInt32} {count i : Nat} (small : count ≤ progHdrsSize)
    (below : i < elf32HdrSize) :
    ¬ InRange (progHdrsAddr loaderAddr) count (elfHdrAddr loaderAddr + UInt32.ofNat i) := by
  have place : progHdrsAddr loaderAddr = elfHdrAddr loaderAddr + UInt32.ofNat elf32HdrSize := by
    rw [progHdrsAddr, elfHdrAddr, UInt32.add_assoc]
    rfl
  have limit : progHdrsSize = 1280 := rfl
  have header : elf32HdrSize = 52 := rfl
  rw [place, Mem.inRange_shift (by omega) (by omega), Mem.distance_add (by omega)]
  omega

theorem progHdrs_apart {loaderAddr : UInt32} {i : Nat} (below : i < progHdrsSize) :
    ¬ InRange (elfHdrAddr loaderAddr) elf32HdrSize (progHdrsAddr loaderAddr + UInt32.ofNat i) := by
  have place : progHdrsAddr loaderAddr + UInt32.ofNat i =
      elfHdrAddr loaderAddr + UInt32.ofNat (elf32HdrSize + i) := by
    rw [progHdrsAddr, elfHdrAddr, UInt32.ofNat_add, UInt32.add_assoc, UInt32.add_assoc,
      ← UInt32.add_assoc (4 : UInt32)]
    rfl
  have limit : progHdrsSize = 1280 := rfl
  have header : elf32HdrSize = 52 := rfl
  unfold InRange
  rw [place, Mem.distance_add (by omega)]
  omega

theorem elfHdr_congr {memory other : Mem UInt8} {loaderAddr : UInt32}
    (same : ∀ i < elf32HdrSize, memory (elfHdrAddr loaderAddr + UInt32.ofNat i) =
      other (elfHdrAddr loaderAddr + UInt32.ofNat i)) :
    elfHdr memory loaderAddr = elfHdr other loaderAddr := by
  have bytes : memoryBytes memory (elfHdrAddr loaderAddr) elf32HdrSize =
      memoryBytes other (elfHdrAddr loaderAddr) elf32HdrSize :=
    List.map_congr_left fun i mem => same i (List.mem_range.mp mem)
  rw [elfHdr, elfHdr, bytes]

/-- Program headers that were written as a whole. -/
theorem progHdrs_write {memory : Mem UInt8} {loaderAddr : UInt32} {phrNum count : Nat}
    {data : Nat → UInt8} (inside : elf32PhdrSize * phrNum ≤ count) (bound : count ≤ 2 ^ 32) :
    progHdrs (memory.write (progHdrsAddr loaderAddr) count data) loaderAddr phrNum =
      (List.range phrNum).map fun progIdx =>
        phdrOfBytes ((List.range elf32PhdrSize).map fun i =>
          data (elf32PhdrSize * progIdx + i)) := by
  refine List.map_congr_left fun progIdx mem => ?_
  have below := List.mem_range.mp mem
  have last : elf32PhdrSize * progIdx + elf32PhdrSize ≤ elf32PhdrSize * phrNum := by
    rw [← Nat.mul_succ]
    exact Nat.mul_le_mul_left _ below
  rw [progHdr, memoryBytes_write (by omega) bound]

/-! ## Reads into RAM -/

/-- A read of a few bytes from flash. -/
theorem flashRead_few {storage : Storage} {memory : Mem UInt8} {address data bytes : UInt32}
    (few : bytes ≤ rramReadBufSize) (present : bytes ≠ 0) :
    flashRead storage storeRam memory address data bytes =
      if storage.flashReadStatus (address - appImageFlashAddress) bytes ≠ 0 then
        (some blErrElfMemRead, memory)
      else
        (some blErrNone, memory.write data bytes.toNat
          (flashBytes storage (address - appImageFlashAddress))) := by
  have short : ¬ bytes > rramReadBufSize := UInt32.not_lt.mpr few
  by_cases refused : storage.flashReadStatus (address - appImageFlashAddress) bytes = 0
  · simp [flashRead, short, present, flashReadChunk, bootSblFlashRead, refused, storeRam, blErrNone]
    rfl
  · simp [flashRead, short, present, flashReadChunk, bootSblFlashRead, refused, blErrNone]

/-- Where the loader is, so that both arrays lie in the RAM window. -/
def InRam (loaderAddr : UInt32) : Prop := loaderAddr.toNat + 56 + progHdrsSize ≤ frnRamEnd.toNat

theorem inRam_addr {loaderAddr : UInt32} (ram : InRam loaderAddr) :
    (elfHdrAddr loaderAddr).toNat = loaderAddr.toNat + 4 ∧
      (progHdrsAddr loaderAddr).toNat = loaderAddr.toNat + 56 := by
  have limit : progHdrsSize = 1280 := rfl
  have last : frnRamEnd.toNat = 0x9FFFF := rfl
  unfold InRam at ram
  constructor
  · rw [elfHdrAddr, UInt32.toNat_add]
    exact Nat.mod_eq_of_lt (by simp only [UInt32.toNat_ofNat]; omega)
  · rw [progHdrsAddr, UInt32.toNat_add]
    exact Nat.mod_eq_of_lt (by simp only [UInt32.toNat_ofNat]; omega)

/-- A read from flash to RAM either is served by the RAM row or dropped. -/
theorem bootElfMemRead_flash {storage : Storage} {machine : ElfMachine} {src dst bytes : UInt32}
    (source : Within frnFlashStart frnFlashEnd src bytes) (ram : dst < frnRramStart)
    (few : bytes ≤ rramReadBufSize) (present : bytes ≠ 0) :
    bootElfMemRead storage elfMemOp machine src dst bytes =
      if readRegionCheck src dst bytes flashRamRegion then
        if storage.flashReadStatus (src - appImageFlashAddress) bytes ≠ 0 then
          (some blErrElfMemRead, ⟨machine.memory, machine.dispatched ++ [.read src dst bytes]⟩)
        else
          (some blErrNone,
            ⟨machine.memory.write dst bytes.toNat (flashBytes storage (src - appImageFlashAddress)),
              machine.dispatched ++ [.read src dst bytes]⟩)
      else (some blErrNone, machine) := by
  have noRram : readRegionCheck src dst bytes flashRramRegion = false := by
    have low : ¬ dst ≥ frnRramStart := UInt32.not_le.mpr ram
    simp only [readRegionCheck, flashRramRegion, low, decide_false, Bool.false_and, Bool.and_false]
  have row := @issue_from_flash storage machine src dst bytes source
  simp only [issue, noRram, Bool.false_eq_true, if_false, blElfFlashReadToRam,
    flashRead_few few present] at row
  rw [row]
  split_ifs <;> rfl

/-! ## The calls -/

/-- Where an image is, so that its header lies in the flash window. -/
def InFlash (elfAddr : UInt32) : Prop :=
  frnFlashStart.toNat ≤ elfAddr.toNat ∧ elfAddr.toNat + elf32HdrSize ≤ frnFlashEnd.toNat

theorem elfHdr_write (storage : Storage) (memory : Mem UInt8) (loaderAddr elfAddr : UInt32) :
    elfHdr (memory.write (elfHdrAddr loaderAddr) elf32HdrSize
      (flashBytes storage (elfAddr - appImageFlashAddress))) loaderAddr =
        flashHdr storage elfAddr := by
  have start : elfHdrAddr loaderAddr = elfHdrAddr loaderAddr + UInt32.ofNat 0 :=
    (UInt32.add_zero _).symm
  have bytes := @memoryBytes_write memory (elfHdrAddr loaderAddr) elf32HdrSize 0 elf32HdrSize
    (flashBytes storage (elfAddr - appImageFlashAddress)) (by decide) (by decide)
  rw [← start] at bytes
  rw [elfHdr, bytes, flashHdr, flashList]

theorem bootElfLoadElfHeader_flash {storage : Storage} {loaderAddr elfAddr : UInt32}
    (ram : InRam loaderAddr) (flash : InFlash elfAddr) (machine : ElfMachine) :
    bootElfLoadElfHeader storage elfMemOp loaderAddr elfAddr machine =
      if storage.flashReadStatus (elfAddr - appImageFlashAddress) (UInt32.ofNat elf32HdrSize) ≠ 0
      then
        (some blErrElfMemRead, ⟨machine.memory, machine.dispatched ++
          [.read elfAddr (elfHdrAddr loaderAddr) (UInt32.ofNat elf32HdrSize)]⟩)
      else
        (some (bootElfValidateElfHeader (flashHdr storage elfAddr)),
          ⟨machine.memory.write (elfHdrAddr loaderAddr) elf32HdrSize
            (flashBytes storage (elfAddr - appImageFlashAddress)), machine.dispatched ++
              [.read elfAddr (elfHdrAddr loaderAddr) (UInt32.ofNat elf32HdrSize)]⟩) := by
  obtain ⟨low, high⟩ := flash
  obtain ⟨place, -⟩ := inRam_addr ram
  have size : (UInt32.ofNat elf32HdrSize).toNat = 52 := rfl
  have header : elf32HdrSize = 52 := rfl
  have first : frnFlashStart.toNat = 0x9FFFFF := rfl
  have last : frnFlashEnd.toNat = 0xE00000 := rfl
  have ramEnd : frnRamEnd.toNat = 0x9FFFF := rfl
  have rramStart : frnRramStart.toNat = 0x200000 := rfl
  have limit : progHdrsSize = 1280 := rfl
  unfold InRam at ram
  have present : elfAddr ≠ 0 := by
    intro null
    rw [null, UInt32.toNat_zero] at low
    omega
  have source : Within frnFlashStart frnFlashEnd elfAddr (UInt32.ofNat elf32HdrSize) :=
    ⟨low, by omega⟩
  have served : readRegionCheck elfAddr (elfHdrAddr loaderAddr) (UInt32.ofNat elf32HdrSize)
      flashRamRegion = true := by
    have srcEnd : (elfAddr + UInt32.ofNat elf32HdrSize).toNat = elfAddr.toNat + 52 := by
      rw [UInt32.toNat_add, size]
      exact Nat.mod_eq_of_lt (by omega)
    have dstEnd : (elfHdrAddr loaderAddr + UInt32.ofNat elf32HdrSize).toNat =
        loaderAddr.toNat + 56 := by
      rw [UInt32.toNat_add, size, place]
      exact Nat.mod_eq_of_lt (by omega)
    simp only [readRegionCheck, flashRamRegion, ge_iff_le, UInt32.le_iff_toNat_le, srcEnd, dstEnd,
      place, Bool.and_eq_true, decide_eq_true_eq]
    have ramStart : frnRamStart.toNat = 0 := rfl
    omega
  rw [bootElfLoadElfHeader, if_neg present, bootElfMemRead_flash source
    (by rw [UInt32.lt_iff_toNat_lt]; omega) (by decide) (by decide), if_pos served]
  split_ifs with refused
  · exact andThen_of_failed _ fun none => absurd (Option.some.inj none) (by decide)
  · have same : (UInt32.ofNat elf32HdrSize).toNat = elf32HdrSize := rfl
    rw [andThen_of_ok _ rfl, same]
    dsimp only
    rw [elfHdr_write]

theorem bootElfMemRead_none {storage : Storage} {machine : ElfMachine} {src dst : UInt32}
    (source : Within frnFlashStart frnFlashEnd src 0) :
    (bootElfMemRead storage elfMemOp machine src dst 0).1 = some blErrNone ∧
      (bootElfMemRead storage elfMemOp machine src dst 0).2.memory = machine.memory := by
  have row := @issue_from_flash storage machine src dst 0 source
  have short : ¬ (0 : UInt32) > rramReadBufSize := by decide
  simp only [issue] at row
  rw [row]
  split_ifs
  · simp [blElfFlashReadToRam, flashRead, short]
  · simp [blElfFlashReadToRramDxe, flashRead, short]
  · exact ⟨rfl, rfl⟩

/-- A table in flash, or one that no window accepts. -/
def TablePlaced (storage : Storage) (loaderAddr elfAddr : UInt32) : Prop :=
  Within frnFlashStart frnFlashEnd (tableAddr storage elfAddr) (tableSize storage elfAddr) ∨
    (MemRequest.read (tableAddr storage elfAddr) (progHdrsAddr loaderAddr)
      (tableSize storage elfAddr)).accepted = false

/-- The headers that were validated fit the loader. -/
theorem validated {header : Elf32Ehdr} (valid : bootElfValidateElfHeader header = blErrNone) :
    header.ePhentsize.toNat = elf32PhdrSize ∧ header.ePhnum ≤ miPbtMaxSegments := by
  unfold bootElfValidateElfHeader at valid
  split_ifs at valid with magic type size width count
  · exact absurd valid (by decide)
  · exact absurd valid (by decide)
  · exact absurd valid (by decide)
  · exact absurd valid (by decide)
  · exact absurd valid (by decide)
  · exact ⟨not_not.mp width, Nat.le_of_not_lt count⟩

/-- A call that ends as `headers` says, with these headers in the loader and the rest of the memory
as it was. -/
structure Filled (storage : Storage) (loaderAddr elfAddr : UInt32) (memory : Mem UInt8)
    (headers : Except BlError (List Elf32Phdr)) (result : ElfResult) : Prop where
  status : result.1 = some (statusOf headers)
  header : elfHdr result.2.memory loaderAddr = flashHdr storage elfAddr
  table : ∀ list, headers = .ok list →
    progHdrs result.2.memory loaderAddr (flashHdr storage elfAddr).ePhnum = list
  frame : ∀ address, ¬ InRange (progHdrsAddr loaderAddr) progHdrsSize address →
    result.2.memory address = memory address

theorem progHdrs_zeros {memory : Mem UInt8} {loaderAddr : UInt32} {phrNum : Nat}
    (few : phrNum ≤ miPbtMaxSegments)
    (zeros : ∀ i < progHdrsSize, memory (progHdrsAddr loaderAddr + UInt32.ofNat i) = 0) :
    progHdrs memory loaderAddr phrNum = List.replicate phrNum zeroPhdr := by
  have one : ∀ progIdx ∈ List.range phrNum, progHdr memory loaderAddr progIdx = zeroPhdr := by
    intro progIdx mem
    have below := List.mem_range.mp mem
    have bytes : memoryBytes memory
        (progHdrsAddr loaderAddr + UInt32.ofNat (elf32PhdrSize * progIdx)) elf32PhdrSize =
          (List.range elf32PhdrSize).map fun _ => 0 := by
      refine List.map_congr_left fun i inside => ?_
      have less := List.mem_range.mp inside
      rw [UInt32.add_assoc, ← UInt32.ofNat_add]
      apply zeros
      simp only [progHdrsSize, elf32PhdrSize, miPbtMaxSegments] at few less ⊢
      omega
    rw [progHdr, bytes]
    rfl
  rw [progHdrs, List.map_congr_left one, List.map_const', List.length_range]

theorem bootElfLoadProgHdrs_filled {storage : Storage} {loaderAddr elfAddr : UInt32}
    {machine : ElfMachine} (ram : InRam loaderAddr) (flash : InFlash elfAddr)
    (placed : TablePlaced storage loaderAddr elfAddr)
    (valid : bootElfValidateElfHeader (flashHdr storage elfAddr) = blErrNone)
    (header : elfHdr machine.memory loaderAddr = flashHdr storage elfAddr)
    (zeros : ∀ i < progHdrsSize, machine.memory (progHdrsAddr loaderAddr + UInt32.ofNat i) = 0) :
    Filled storage loaderAddr elfAddr machine.memory (tableInFlash storage loaderAddr elfAddr)
      (bootElfLoadProgHdrs storage elfMemOp loaderAddr elfAddr machine) := by
  obtain ⟨width, few⟩ := validated valid
  have present : elfAddr ≠ 0 := by
    intro null
    have low := flash.1
    rw [null] at low
    exact absurd low (by decide)
  have call : bootElfLoadProgHdrs storage elfMemOp loaderAddr elfAddr machine =
      bootElfMemRead storage elfMemOp machine (tableAddr storage elfAddr)
        (progHdrsAddr loaderAddr) (tableSize storage elfAddr) := by
    rw [bootElfLoadProgHdrs, if_neg present]
    dsimp only
    rw [header]
    rfl
  have size : (tableSize storage elfAddr).toNat =
      elf32PhdrSize * (flashHdr storage elfAddr).ePhnum := by
    rw [tableSize, width, Nat.mul_comm]
    apply UInt32.toNat_ofNat_of_lt'
    simp only [elf32PhdrSize, miPbtMaxSegments, UInt32.size] at few ⊢
    omega
  have limit : elf32PhdrSize * (flashHdr storage elfAddr).ePhnum ≤ progHdrsSize :=
    Nat.mul_le_mul_left _ few
  rw [call]
  -- what a call leaves that neither fails nor writes
  have idle : ∀ (list : List Elf32Phdr) (result : ElfResult),
      result.1 = some blErrNone → result.2.memory = machine.memory →
      progHdrs machine.memory loaderAddr (flashHdr storage elfAddr).ePhnum = list →
      Filled storage loaderAddr elfAddr machine.memory (.ok list) result := by
    intro list result ok same table
    refine ⟨ok, by rw [same, header], ?_, fun address _ => by rw [same]⟩
    intro other equal
    cases equal
    rw [same, table]
  have zeroTable := progHdrs_zeros few zeros
  by_cases none : (flashHdr storage elfAddr).ePhnum = 0
  · have empty : tableSize storage elfAddr = 0 := by
      rw [← UInt32.toNat_inj, size, none]
      rfl
    rw [tableInFlash, if_pos none]
    rw [empty]
    have nothing : progHdrs machine.memory loaderAddr (flashHdr storage elfAddr).ePhnum = [] := by
      rw [zeroTable, none]
      rfl
    rcases placed with inFlash | dropped
    · rw [empty] at inFlash
      obtain ⟨ok, same⟩ := @bootElfMemRead_none storage machine _ (progHdrsAddr loaderAddr) inFlash
      exact idle _ _ ok same nothing
    · rw [empty] at dropped
      have result := issue_of_dropped storage machine dropped
      simp only [issue] at result
      rw [result]
      exact idle _ _ rfl rfl nothing
  · have some : tableSize storage elfAddr ≠ 0 := by
      intro zero
      rw [zero] at size
      simp only [elf32PhdrSize, UInt32.toNat_zero] at size
      omega
    have short : tableSize storage elfAddr ≤ rramReadBufSize := by
      rw [UInt32.le_iff_toNat_le, size]
      have buffer : rramReadBufSize.toNat = 2048 := rfl
      simp only [elf32PhdrSize, miPbtMaxSegments] at few ⊢
      omega
    rw [tableInFlash, if_neg none]
    rcases placed with inFlash | dropped
    · have below : progHdrsAddr loaderAddr < frnRramStart := by
        obtain ⟨-, place⟩ := inRam_addr ram
        rw [UInt32.lt_iff_toNat_lt, place]
        have rramStart : frnRramStart.toNat = 0x200000 := rfl
        have ramEnd : frnRamEnd.toNat = 0x9FFFF := rfl
        unfold InRam at ram
        omega
      rw [bootElfMemRead_flash inFlash below short some]
      unfold tableServed
      split_ifs with served refused
      · refine ⟨rfl, header, ?_, fun _ _ => rfl⟩
        intro list equal
        cases equal
      · have total : progHdrsSize = 1280 := rfl
        refine ⟨rfl, ?_, ?_, ?_⟩
        · rw [← header]
          apply elfHdr_congr
          intro i less
          exact Mem.write_miss (elfHdr_apart (size ▸ limit) less)
        · intro list equal
          dsimp only
          rw [← Except.ok.inj equal, size, progHdrs_write (Nat.le_refl _) (by omega)]
          rfl
        · intro address outside
          apply Mem.write_miss
          intro inside
          exact outside (Nat.lt_of_lt_of_le inside (size ▸ limit))
      · exact idle _ _ rfl rfl zeroTable
    · have result := issue_of_dropped storage machine dropped
      simp only [issue] at result
      have refuses : tableServed storage loaderAddr elfAddr = false := by
        have rows := List.any_eq_false.mp dropped
        exact Bool.eq_false_iff.mpr
          (rows ⟨.flashRam, flashRamRegion, blElfFlashReadToRam, Option.none⟩
            (by simp [elfMemOp, flashRamRegion]))
      rw [result, refuses, if_neg Bool.false_ne_true]
      exact idle _ _ rfl rfl zeroTable

theorem clearHeaders_zeros (loaderAddr : UInt32) (machine : ElfMachine) :
    ∀ i < progHdrsSize,
      (clearHeaders loaderAddr machine).memory (progHdrsAddr loaderAddr + UInt32.ofNat i) = 0 := by
  intro i below
  have limit : progHdrsSize = 1280 := rfl
  simp only [clearHeaders]
  exact Mem.write_hit (Mem.inRange_add below (by omega))

theorem bootElfMemOpInit_elfMemOp : bootElfMemOpInit elfMemOp = (blErrNone, elfMemOp) :=
  rfl

/-- An outcome without headers is an error. -/
theorem statusOf_headersInFlash {storage : Storage} {loaderAddr elfAddr : UInt32} {error : BlError}
    (failed : headersInFlash storage loaderAddr elfAddr = .error error) : error ≠ blErrNone := by
  unfold headersInFlash tableInFlash at failed
  split_ifs at failed with refused invalid
  · rw [← Except.error.inj failed]
    decide
  · rw [← Except.error.inj failed]
    exact invalid
  · rw [← Except.error.inj failed]
    decide

/-- The calls behind the registration, from a loader whose table is zero. -/
theorem loadHeaders_flash {storage : Storage} {machine : ElfMachine} {loaderAddr elfAddr : UInt32}
    (ram : InRam loaderAddr) (flash : InFlash elfAddr)
    (placed : bootElfValidateElfHeader (flashHdr storage elfAddr) = blErrNone →
      TablePlaced storage loaderAddr elfAddr)
    (zeros : ∀ i < progHdrsSize, machine.memory (progHdrsAddr loaderAddr + UInt32.ofNat i) = 0) :
    let result := loadHeaders storage elfMemOp loaderAddr elfAddr machine
    let headers := headersInFlash storage loaderAddr elfAddr
    result.1 = some (statusOf headers) ∧
      (∀ list, headers = .ok list →
        bootElfValidateElfHeader (flashHdr storage elfAddr) = blErrNone ∧
        elfHdr result.2.memory loaderAddr = flashHdr storage elfAddr ∧
        progHdrs result.2.memory loaderAddr (flashHdr storage elfAddr).ePhnum = list) ∧
      ∀ address, ¬ InRange (elfHdrAddr loaderAddr) elf32HdrSize address →
        ¬ InRange (progHdrsAddr loaderAddr) progHdrsSize address →
          result.2.memory address = machine.memory address := by
  dsimp only
  rw [loadHeaders, bootElfLoadElfHeader_flash ram flash, headersInFlash]
  split_ifs with refused invalid
  · rw [andThen_of_failed _ fun none => absurd (Option.some.inj none) (by decide)]
    refine ⟨rfl, ?_, fun _ _ _ => rfl⟩
    intro list equal
    cases equal
  · rw [andThen_of_failed _ fun none => invalid (Option.some.inj none)]
    refine ⟨rfl, ?_, fun address outHdr _ => Mem.write_miss outHdr⟩
    intro list equal
    cases equal
  · have valid := not_not.mp invalid
    have header := elfHdr_write storage machine.memory loaderAddr elfAddr
    have others : ∀ address, ¬ InRange (elfHdrAddr loaderAddr) elf32HdrSize address →
        machine.memory.write (elfHdrAddr loaderAddr) elf32HdrSize
          (flashBytes storage (elfAddr - appImageFlashAddress)) address =
            machine.memory address := fun address => Mem.write_miss
    rw [andThen_of_ok _ (congrArg some valid)]
    dsimp only
    generalize machine.memory.write (elfHdrAddr loaderAddr) elf32HdrSize
      (flashBytes storage (elfAddr - appImageFlashAddress)) = memory at header others
    generalize machine.dispatched ++ _ = dispatched
    have filled := @bootElfLoadProgHdrs_filled storage loaderAddr elfAddr ⟨memory, dispatched⟩ ram
      flash (placed valid) valid header
      (fun i below => (others _ (progHdrs_apart below)).trans (zeros i below))
    generalize bootElfLoadProgHdrs storage elfMemOp loaderAddr elfAddr ⟨memory, dispatched⟩ =
      result at filled
    refine ⟨filled.status, fun list equal => ⟨valid, filled.header, filled.table list equal⟩, ?_⟩
    intro address outHdr outTable
    exact (filled.frame address outTable).trans (others address outHdr)

theorem bootElfLoadInit_eq (storage : Storage) (machine : ElfMachine) {loaderAddr elfAddr : UInt32}
    (present : elfAddr ≠ 0) :
    bootElfLoadInit storage elfMemOp loaderAddr elfAddr machine =
      let result :=
        loadHeaders storage elfMemOp loaderAddr elfAddr (clearHeaders loaderAddr machine)
      (result, if result.1 = some blErrNone then loaderOf result.2.memory loaderAddr elfAddr
        else none) := by
  rw [bootElfLoadInit, if_neg present, bootElfMemOpInit_elfMemOp]
  dsimp only
  rw [if_neg (not_not.mpr rfl)]
  by_cases ok : (loadHeaders storage elfMemOp loaderAddr elfAddr
      (clearHeaders loaderAddr machine)).1 = some blErrNone
  · rw [if_pos ok, if_pos ok]
  · rw [if_neg ok, if_neg ok]

/-- The outcome of `boot_elf_load_init` for an image in flash: the headers that lie there, or an
error, and nothing outside the loader is written. -/
theorem bootElfLoadInit_spec (storage : Storage) (machine : ElfMachine)
    {loaderAddr elfAddr : UInt32}
    (ram : InRam loaderAddr) (flash : InFlash elfAddr)
    (placed : bootElfValidateElfHeader (flashHdr storage elfAddr) = blErrNone →
      TablePlaced storage loaderAddr elfAddr) :
    let result := bootElfLoadInit storage elfMemOp loaderAddr elfAddr machine
    let headers := headersInFlash storage loaderAddr elfAddr
    result.1.1 = some (statusOf headers) ∧
      result.2.map BootElfLoader.progHdrs = headers.toOption ∧
      (∀ loader, result.2 = some loader → loader.elfAddr = elfAddr) ∧
      ∀ address, ¬ InRange (elfHdrAddr loaderAddr) elf32HdrSize address →
        ¬ InRange (progHdrsAddr loaderAddr) progHdrsSize address →
          result.1.2.memory address = machine.memory address := by
  have present : elfAddr ≠ 0 := by
    intro null
    have low := flash.1
    rw [null] at low
    exact absurd low (by decide)
  obtain ⟨status, table, frame⟩ :=
    loadHeaders_flash ram flash placed (clearHeaders_zeros loaderAddr machine)
  rw [bootElfLoadInit_eq storage machine present]
  dsimp only
  have errors := @statusOf_headersInFlash storage loaderAddr elfAddr
  generalize headersInFlash storage loaderAddr elfAddr = headers at status table errors
  have cleared : ∀ address, ¬ InRange (elfHdrAddr loaderAddr) elf32HdrSize address →
      ¬ InRange (progHdrsAddr loaderAddr) progHdrsSize address →
        (loadHeaders storage elfMemOp loaderAddr elfAddr
          (clearHeaders loaderAddr machine)).2.memory address = machine.memory address := by
    intro address outHdr outTable
    rw [frame address outHdr outTable]
    simp only [clearHeaders]
    exact (Mem.write_miss outTable).trans (Mem.write_miss outHdr)
  clear frame
  generalize loadHeaders storage elfMemOp loaderAddr elfAddr (clearHeaders loaderAddr machine) =
    result at status table cleared
  cases headers with
  | error error =>
      have failed : ¬ result.1 = some blErrNone := by
        rw [status]
        exact fun none => errors rfl (Option.some.inj none)
      refine ⟨status, by rw [if_neg failed]; rfl, ?_, cleared⟩
      intro loader loads
      rw [if_neg failed] at loads
      cases loads
  | ok list =>
      obtain ⟨valid, header, rows⟩ := table list rfl
      have bounded : (flashHdr storage elfAddr).ePhnum ≤ miPbtMaxSegments := (validated valid).2
      have succeeded : result.1 = some blErrNone := status
      refine ⟨status, ?_, ?_, cleared⟩
      · simp only [if_pos succeeded, loaderOf, header, dif_pos bounded, rows]
        rfl
      · intro loader loads
        simp only [if_pos succeeded, loaderOf, header, dif_pos bounded, Option.some.injEq] at loads
        rw [← loads]

end QHal.Boot
