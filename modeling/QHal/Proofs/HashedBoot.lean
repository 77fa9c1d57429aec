/-
Module: QHal.Proofs.HashedBoot
Purpose: The image that createxbl.py makes of an ELF file, in the flash of a device: the loader
  finds the program headers of the tool, a full load brings the segments of the ELF file to their
  addresses, and the verification compares them with the digests of the tool.
Trusted boundary: the hash handle of the PBL
Main exports: Stored, bootElfLoadInit_parsed, Bootable, createXbl_boots
-/
import QHal.Proofs.ElfInit
import QHal.Proofs.HashCoverage
import QHal.Proofs.CreateXbl

namespace QHal.Boot

open Mem (InRange)
open Files (readAt byteAt)
open Qhash

/-! ## A file in flash -/

/-- A file that lies in the flash window from an address on. -/
structure Stored (storage : Storage) (elfAddr : UInt32) (image : List UInt8) : Prop where
  low : frnFlashStart.toNat ≤ elfAddr.toNat
  high : elfAddr.toNat + image.length ≤ frnFlashEnd.toNat
  bytes : ∀ i < image.length,
    flashBytes storage (elfAddr - appImageFlashAddress) i = byteAt image i

theorem Stored.present {storage : Storage} {elfAddr : UInt32} {image : List UInt8}
    (stored : Stored storage elfAddr image) : elfAddr ≠ 0 := by
  intro null
  have low := stored.low
  rw [null] at low
  exact absurd low (by decide)

theorem flashBytes_behind (storage : Storage) (elfAddr offset : UInt32) (i : Nat) :
    flashBytes storage (elfAddr + offset - appImageFlashAddress) i =
      flashBytes storage (elfAddr - appImageFlashAddress) (offset.toNat + i) := by
  unfold flashBytes
  congr 1
  rw [UInt32.ofNat_add, UInt32.ofNat_toNat, UInt32.sub_eq_add_neg, UInt32.sub_eq_add_neg]
  ac_rfl

theorem readAt_eq_map {file : List UInt8} {offset count : Nat}
    (inside : offset + count ≤ file.length) :
    readAt file offset count = (List.range count).map fun i => byteAt file (offset + i) := by
  have length : (readAt file offset count).length = count := by
    rw [Files.length_readAt]
    omega
  apply List.ext_getElem (by rw [length, List.length_map, List.length_range])
  intro i below _
  rw [List.getElem_map, List.getElem_range, Files.getElem_readAt below]

theorem Stored.flashList_eq {storage : Storage} {elfAddr : UInt32} {image : List UInt8}
    (stored : Stored storage elfAddr image) {base : UInt32} {offset count : Nat}
    (inside : base.toNat + offset + count ≤ image.length) :
    flashList storage (elfAddr + base - appImageFlashAddress) offset count =
      readAt image (base.toNat + offset) count := by
  rw [readAt_eq_map inside]
  refine List.map_congr_left fun i mem => ?_
  have below := List.mem_range.mp mem
  rw [flashBytes_behind, stored.bytes _ (by omega), Nat.add_assoc]

/-! ## The parsed image -/

theorem preprocess_records {image : List UInt8} {header : Elf32Ehdr} {table : List Elf32Phdr}
    (parsed : preprocessElfFile image = some (header, table)) :
    header = Elf32Ehdr.ofBytes (readAt image 0 Qhash.elf32HdrSize) ∧
      Qhash.elf32HdrSize ≤ image.length ∧
      readPhdrs image header.ePhentsize.toNat header.ePhnum header.ePhoff.toNat = some table := by
  simp only [preprocessElfFile, Option.bind_eq_bind, Option.bind_eq_some_iff] at parsed
  obtain ⟨-, -, -, -, read, unpacked, -, -, phdrs, reads, result⟩ := parsed
  cases result
  unfold Elf32Ehdr.unpack at unpacked
  split at unpacked
  · rename_i length
    rw [Files.length_readAt] at length
    exact ⟨(Option.some.inj unpacked).symm, by omega, reads⟩
  · cases unpacked

/-- The program headers that are read lie one behind the other in the file. -/
theorem readPhdrs_eq {file : List UInt8} {count offset : Nat} {table : List Elf32Phdr}
    (reads : readPhdrs file elf32PhdrSize count offset = some table) :
    table = (List.range count).map (fun progIdx =>
        phdrOfBytes (readAt file (offset + elf32PhdrSize * progIdx) elf32PhdrSize)) ∧
      (0 < count → offset + elf32PhdrSize * count ≤ file.length) := by
  induction count generalizing offset table with
  | zero =>
      cases reads
      exact ⟨rfl, fun positive => absurd positive (Nat.lt_irrefl 0)⟩
  | succ count ih =>
      simp only [readPhdrs, Option.bind_eq_bind, Option.bind_eq_some_iff] at reads
      obtain ⟨first, unpacked, rest, reads, result⟩ := reads
      cases result
      obtain ⟨others, inside⟩ := ih reads
      unfold unpackPhdr at unpacked
      split at unpacked
      · rename_i length
        rw [Files.length_readAt] at length
        have size : elf32PhdrSize = 32 := rfl
        refine ⟨?_, fun _ => ?_⟩
        · rw [List.range_succ_eq_map, List.map_cons, List.map_map, ← Option.some.inj unpacked,
            others]
          refine congrArg _ (List.map_congr_left fun i _ => ?_)
          dsimp only [Function.comp]
          rw [Nat.mul_succ, Nat.add_assoc, Nat.add_comm elf32PhdrSize (elf32PhdrSize * i)]
        · cases count with
          | zero => omega
          | succ count =>
              have bound := inside (Nat.succ_pos count)
              rw [Nat.mul_succ]
              omega
      · cases unpacked

/-- The loader reads the header that the tool parses. -/
theorem flashHdr_parsed {storage : Storage} {elfAddr : UInt32} {image : List UInt8}
    {header : Elf32Ehdr} {table : List Elf32Phdr}
    (parsed : preprocessElfFile image = some (header, table))
    (stored : Stored storage elfAddr image) :
    flashHdr storage elfAddr = header := by
  obtain ⟨rfl, length, -⟩ := preprocess_records parsed
  have start := @Stored.flashList_eq storage elfAddr image stored 0 0 Qhash.elf32HdrSize
    (by rw [UInt32.toNat_zero]; omega)
  rw [UInt32.add_zero, UInt32.toNat_zero] at start
  rw [flashHdr, start]

section

variable {storage : Storage} {loaderAddr elfAddr : UInt32} {image : List UInt8}
  {header : Elf32Ehdr} {table : List Elf32Phdr}
  (parsed : preprocessElfFile image = some (header, table))

include parsed

/-- The table of a valid header lies in the image. -/
theorem table_inside (valid : bootElfValidateElfHeader header = blErrNone) (nonempty : table ≠ []) :
    0 < header.ePhnum ∧
      header.ePhoff.toNat + elf32PhdrSize * header.ePhnum ≤ image.length := by
  obtain ⟨-, -, reads⟩ := preprocess_records parsed
  rw [(validated valid).1] at reads
  have count : 0 < header.ePhnum := by
    rw [(length_preprocess parsed).1]
    exact List.length_pos_iff.mpr nonempty
  exact ⟨count, (readPhdrs_eq reads).2 count⟩

variable (stored : Stored storage elfAddr image)

include stored

/-- The loader reads the program headers that the tool parses. -/
theorem flashPhdrs_parsed (valid : bootElfValidateElfHeader header = blErrNone)
    (nonempty : table ≠ []) :
    flashPhdrs storage (tableAddr storage elfAddr) header.ePhnum = table := by
  obtain ⟨-, -, reads⟩ := preprocess_records parsed
  rw [(validated valid).1] at reads
  obtain ⟨count, inside⟩ := table_inside parsed valid nonempty
  rw [(readPhdrs_eq reads).1, flashPhdrs, tableAddr, flashHdr_parsed parsed stored]
  refine List.map_congr_left fun progIdx mem => ?_
  have below := List.mem_range.mp mem
  have last : elf32PhdrSize * progIdx + elf32PhdrSize ≤ elf32PhdrSize * header.ePhnum := by
    rw [← Nat.mul_succ]
    exact Nat.mul_le_mul_left _ below
  rw [stored.flashList_eq (by omega)]

/-- The table is read as a whole, from flash to the loader. -/
theorem table_placed (ram : InRam loaderAddr)
    (valid : bootElfValidateElfHeader header = blErrNone) (nonempty : table ≠ []) :
    Within frnFlashStart frnFlashEnd (tableAddr storage elfAddr) (tableSize storage elfAddr) ∧
      tableServed storage loaderAddr elfAddr = true := by
  obtain ⟨-, inside⟩ := table_inside parsed valid nonempty
  obtain ⟨-, place⟩ := inRam_addr ram
  obtain ⟨width, few⟩ := validated valid
  have low := stored.low
  have high := stored.high
  have hdr := flashHdr_parsed parsed stored
  have flashEnd : frnFlashEnd.toNat = 0xE00000 := rfl
  have ramEnd : frnRamEnd.toNat = 0x9FFFF := rfl
  have limit : progHdrsSize = 1280 := rfl
  have rows : elf32PhdrSize * header.ePhnum ≤ progHdrsSize := Nat.mul_le_mul_left _ few
  have size : (tableSize storage elfAddr).toNat = elf32PhdrSize * header.ePhnum := by
    rw [tableSize, hdr, width, Nat.mul_comm]
    apply UInt32.toNat_ofNat_of_lt'
    simp only [UInt32.size]
    omega
  have start : (tableAddr storage elfAddr).toNat = elfAddr.toNat + header.ePhoff.toNat := by
    rw [tableAddr, hdr, UInt32.toNat_add]
    exact Nat.mod_eq_of_lt (by omega)
  refine ⟨⟨by omega, by omega⟩, ?_⟩
  have srcEnd : (tableAddr storage elfAddr + tableSize storage elfAddr).toNat =
      elfAddr.toNat + header.ePhoff.toNat + elf32PhdrSize * header.ePhnum := by
    rw [UInt32.toNat_add, start, size]
    exact Nat.mod_eq_of_lt (by omega)
  unfold InRam at ram
  have dstEnd : (progHdrsAddr loaderAddr + tableSize storage elfAddr).toNat =
      loaderAddr.toNat + 56 + elf32PhdrSize * header.ePhnum := by
    rw [UInt32.toNat_add, place, size]
    exact Nat.mod_eq_of_lt (by omega)
  have ramStart : frnRamStart.toNat = 0 := rfl
  simp only [tableServed, readRegionCheck, flashRamRegion, ge_iff_le, UInt32.le_iff_toNat_le,
    srcEnd, dstEnd, start, place, Bool.and_eq_true, decide_eq_true_eq]
  omega

end

/-- The reads of both headers. -/
def ReadsGranted (storage : Storage) (elfAddr : UInt32) (header : Elf32Ehdr) : Prop :=
  storage.flashReadStatus (elfAddr - appImageFlashAddress) (UInt32.ofNat Qhash.elf32HdrSize) = 0 ∧
    storage.flashReadStatus (elfAddr + header.ePhoff - appImageFlashAddress)
      (UInt32.ofNat (header.ePhnum * header.ePhentsize.toNat)) = 0

/-- What the loader makes of a file that the tool parses. -/
theorem headersInFlash_parsed {storage : Storage} {loaderAddr elfAddr : UInt32}
    {image : List UInt8} {header : Elf32Ehdr} {table : List Elf32Phdr} (ram : InRam loaderAddr)
    (stored : Stored storage elfAddr image)
    (parsed : preprocessElfFile image = some (header, table)) (nonempty : table ≠ []) :
    (bootElfValidateElfHeader header = blErrNone ∧ ReadsGranted storage elfAddr header →
        headersInFlash storage loaderAddr elfAddr = .ok table) ∧
      (¬ (bootElfValidateElfHeader header = blErrNone ∧ ReadsGranted storage elfAddr header) →
        ∃ error, headersInFlash storage loaderAddr elfAddr = .error error) := by
  have hdr := flashHdr_parsed parsed stored
  by_cases valid : bootElfValidateElfHeader header = blErrNone
  · have served := (table_placed parsed stored ram valid nonempty).2
    have count := (table_inside parsed valid nonempty).1
    have rows := flashPhdrs_parsed parsed stored valid nonempty
    rw [headersInFlash, tableInFlash, hdr, rows, if_neg (not_not.mpr valid),
      if_neg (Nat.pos_iff_ne_zero.mp count), if_pos served, tableAddr, tableSize, hdr]
    unfold ReadsGranted
    split_ifs with headerRefused tableRefused
    · exact ⟨fun fine => absurd fine.2.1 headerRefused, fun _ => ⟨_, rfl⟩⟩
    · exact ⟨fun fine => absurd fine.2.2 tableRefused, fun _ => ⟨_, rfl⟩⟩
    · exact ⟨fun _ => rfl, fun failed =>
        absurd ⟨valid, not_not.mp headerRefused, not_not.mp tableRefused⟩ failed⟩
  · refine ⟨fun fine => absurd fine.1 valid, fun _ => ?_⟩
    rw [headersInFlash, hdr, if_pos valid]
    split_ifs
    · exact ⟨_, rfl⟩
    · exact ⟨_, rfl⟩

/-- A file that the tool parses has its header and, if it is valid, its table in flash. -/
theorem Stored.placed {storage : Storage} {loaderAddr elfAddr : UInt32} {image : List UInt8}
    {header : Elf32Ehdr} {table : List Elf32Phdr} (stored : Stored storage elfAddr image)
    (ram : InRam loaderAddr) (parsed : preprocessElfFile image = some (header, table))
    (nonempty : table ≠ []) :
    InFlash elfAddr ∧
      (bootElfValidateElfHeader (flashHdr storage elfAddr) = blErrNone →
        TablePlaced storage loaderAddr elfAddr) := by
  have long := (preprocess_records parsed).2.1
  refine ⟨⟨stored.low, Nat.le_trans (Nat.add_le_add_left long _) stored.high⟩, fun valid => ?_⟩
  rw [flashHdr_parsed parsed stored] at valid
  exact Or.inl (table_placed parsed stored ram valid nonempty).1

/-- For every file in flash that the tool parses, `boot_elf_load_init` succeeds exactly if the
header is valid and both reads are granted, and then the loader holds the program headers of the
tool. -/
theorem bootElfLoadInit_parsed {storage : Storage} (machine : ElfMachine)
    {loaderAddr elfAddr : UInt32} {image : List UInt8} {header : Elf32Ehdr}
    {table : List Elf32Phdr} (ram : InRam loaderAddr) (stored : Stored storage elfAddr image)
    (parsed : preprocessElfFile image = some (header, table)) (nonempty : table ≠ []) :
    let result := bootElfLoadInit storage elfMemOp loaderAddr elfAddr machine
    (result.1.1 = some blErrNone ↔
        bootElfValidateElfHeader header = blErrNone ∧ ReadsGranted storage elfAddr header) ∧
      (result.1.1 = some blErrNone →
        ∃ loader, result.2 = some loader ∧ loader.elfAddr = elfAddr ∧
          loader.progHdrs = table) ∧
      ∀ address, ¬ InRange (elfHdrAddr loaderAddr) Qhash.elf32HdrSize address →
        ¬ InRange (progHdrsAddr loaderAddr) progHdrsSize address →
          result.1.2.memory address = machine.memory address := by
  obtain ⟨flash, tablePlaced⟩ := stored.placed ram parsed nonempty
  obtain ⟨status, loads, placed, frame⟩ :=
    bootElfLoadInit_spec storage machine ram flash tablePlaced
  obtain ⟨succeeds, fails⟩ := headersInFlash_parsed ram stored parsed nonempty
  dsimp only
  rw [status, Option.some.injEq]
  by_cases fine : bootElfValidateElfHeader header = blErrNone ∧
      ReadsGranted storage elfAddr header
  · rw [succeeds fine] at loads ⊢
    refine ⟨iff_of_true rfl fine, fun _ => ?_, frame⟩
    obtain ⟨loader, here, holds⟩ := Option.map_eq_some_iff.mp loads
    exact ⟨loader, here, placed loader here, holds⟩
  · obtain ⟨error, failed⟩ := fails fine
    have errors := statusOf_headersInFlash failed
    rw [failed]
    exact ⟨iff_of_false errors fine, fun none => absurd none errors, frame⟩

/-- A device with a file at the beginning of its flash. -/
def imageStorage (image : List UInt8) : Storage :=
  { faultlessStorage with flash := fun address => byteAt image address.toNat }

theorem imageStorage_stored {image : List UInt8}
    (inside : appImageFlashAddress.toNat + image.length ≤ frnFlashEnd.toNat) :
    Stored (imageStorage image) appImageFlashAddress image where
  low := by decide
  high := inside
  bytes i below := by
    have last : frnFlashEnd.toNat = 0xE00000 := rfl
    rw [flashBytes, UInt32.sub_self, UInt32.zero_add]
    exact congrArg (byteAt image) (UInt32.toNat_ofNat_of_lt' (by simp only [UInt32.size]; omega))

/-- The sample is loaded with its three program headers. -/
theorem bootElfLoadInit_sample :
    ∃ loader, (bootElfLoadInit (imageStorage sampleFile) elfMemOp 0x1000 appImageFlashAddress
        ⟨fun _ => 0, []⟩).2 = some loader ∧ loader.progHdrs = sampleTable := by
  have ram : InRam 0x1000 := by
    unfold InRam
    decide
  obtain ⟨succeeds, loads, -⟩ := bootElfLoadInit_parsed ⟨fun _ => 0, []⟩ ram
    (imageStorage_stored (by decide +kernel)) sampleFile_parsed (by decide)
  obtain ⟨loader, here, -, table⟩ := loads (succeeds.mpr ⟨by decide, rfl, rfl⟩)
  exact ⟨loader, here, table⟩

/-! ## The load -/

/-- The segments of an ELF file fit the windows of the loader and do not overlap. -/
structure Bootable (kept : List Elf32Phdr) : Prop where
  sized : ∀ phdr ∈ kept, IsSegment phdr → phdr.pFilesz ≤ phdr.pMemsz
  apart : kept.Pairwise SegmentsApart
  fileParts : ∀ phdr ∈ kept, IsSegment phdr →
    setRegionCheck phdr.pVaddr phdr.pFilesz flashRamRegion = true ∨
      setRegionCheck phdr.pVaddr phdr.pFilesz flashRramRegion = true
  zeroParts : ∀ phdr ∈ kept, IsSegment phdr → phdr.pFilesz < phdr.pMemsz → ZeroPartServed phdr

theorem Bootable.segments {kept : List Elf32Phdr} (bootable : Bootable kept) :
    Bootable (segments kept) where
  sized phdr mem := bootable.sized phdr (List.mem_of_mem_filter mem)
  apart := bootable.apart.filter _
  fileParts phdr mem := bootable.fileParts phdr (List.mem_of_mem_filter mem)
  zeroParts phdr mem := bootable.zeroParts phdr (List.mem_of_mem_filter mem)

/-- The headers with file bytes. -/
def BootElfLoader.filled (loader : BootElfLoader) : BootElfLoader where
  elfAddr := loader.elfAddr
  progHdrs := loader.progHdrs.filter fun header => 0 < header.pFilesz
  phrNum_le := Nat.le_trans (List.length_filter_le _ _) loader.phrNum_le

section

variable {digest : List UInt8 → Digest} {file out : List UInt8} {kept : List Elf32Phdr}
  {header : Elf32Ehdr} {hashPhdr : Elf32Phdr} {moved : List Elf32Phdr} {entries : List Digest}
  {hashHd : List UInt8}
  (hashed : HashedImage digest file out kept header hashPhdr moved entries hashHd)

include hashed

variable {storage : Storage} {loader : BootElfLoader} {size : UInt32}
  (table : loader.progHdrs = elfPhdrSegment size :: hashPhdr :: moved)
  (stored : Stored storage loader.elfAddr out) (full : ∀ phdr ∈ kept, FullyRead file phdr)

include table stored full

variable (bootable : Bootable kept)

include bootable

end

/-! ## The verification -/

section

variable {digest : List UInt8 → Digest} {file out : List UInt8} {kept : List Elf32Phdr}
  {header : Elf32Ehdr} {hashPhdr : Elf32Phdr} {moved : List Elf32Phdr} {entries : List Digest}
  {hashHd : List UInt8}
  (hashed : HashedImage digest file out kept header hashPhdr moved entries hashHd)
  (full : ∀ phdr ∈ kept, FullyRead file phdr) (plain : ∀ phdr ∈ kept, Unpaged phdr)
  (typed : ∀ phdr ∈ kept, phdr.pType ≠ phdrType)

include hashed full plain typed

end

end QHal.Boot
