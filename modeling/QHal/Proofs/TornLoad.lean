/-
Module: QHal.Proofs.TornLoad
Purpose: The memory after a load that need not succeed.  Whatever
  `boot_elf_load_image` reports, each byte is the old one or the byte of the image
  at its address, so a load of the code is always one of the loads that a boot is
  modelled with.
Trusted boundary: none
Main exports: flashRead_torn, load_tears_patch, load_is_modelled
-/
import QHal.Proofs.ResidentBoot

namespace QHal.Boot

open Mem (InRange)

/-- The contents of a range of addresses. -/
def rangePatch (base : UInt32) (count : Nat) (data : Nat → UInt8) : Patch UInt32 UInt8 :=
  fun address => if InRange base count address then some (data (address - base).toNat) else none

/-- The bytes a request asks for. -/
def requestPatch (storage : Storage) (request : MemRequest) : Patch UInt32 UInt8 :=
  rangePatch request.dst request.count.toNat (requestData storage request)

theorem rangePatch_eq_some {base address : UInt32} {count : Nat} {data : Nat → UInt8}
    {value : UInt8} : rangePatch base count data address = some value ↔
      InRange base count address ∧ data (address - base).toNat = value := by
  unfold rangePatch
  split_ifs with hit
  · simp [hit]
  · simp [hit]

/-- A write with gaps tears what it writes. -/
theorem writeIf_torn (memory : Mem UInt8) (base : UInt32) (count : Nat)
    (granted : Nat → Bool) (data : Nat → UInt8) :
    (rangePatch base count data).Torn memory (memory.writeIf base count granted data) := by
  intro address
  by_cases hit : InRange base count address ∧ granted (address - base).toNat = true
  · exact Or.inr (rangePatch_eq_some.mpr ⟨hit.1, (Mem.writeIf_hit hit.1 hit.2).symm⟩)
  · exact Or.inl (Mem.writeIf_miss hit)

section Chunks

variable (storage : Storage) {store : Store} {stores : UInt32 → UInt32 → Bool}
variable (storeSpec : ∀ memory destination length source,
  store memory destination length source =
    memory.writeIf destination length.toNat (fun _ => stores destination length) source)

include storeSpec

/-- A chunk within the bytes that are left. -/
theorem flashReadChunk_torn (nvmAdd data : UInt32) {bytes : UInt32} (done : UInt32)
    {count : UInt32} (memory : Mem UInt8) (low : done ≤ bytes) (fits : count ≤ bytes - done) :
    (rangePatch data bytes.toNat (flashBytes storage nvmAdd)).Torn memory
      (flashReadChunk storage store nvmAdd data done count memory).2 := by
  by_cases granted : storage.flashReadStatus (nvmAdd + done) count = 0
  · rw [flashReadChunk_of_granted store data memory granted]
    dsimp only
    rw [storeSpec]
    refine (writeIf_torn memory (data + done) count.toNat _ _).mono ?_
    intro address value inside
    obtain ⟨hit, byte⟩ := rangePatch_eq_some.mp inside
    have left : (bytes - done).toNat = bytes.toNat - done.toNat :=
      UInt32.toNat_sub_of_le _ _ low
    have doneLe := UInt32.le_iff_toNat_le.mp low
    have countLe := UInt32.le_iff_toNat_le.mp fits
    have total : bytes.toNat < 2 ^ 32 := bytes.toNat_lt
    have shift : InRange (data + UInt32.ofNat done.toNat) count.toNat address ↔ _ :=
      Mem.inRange_shift (by omega) (by omega)
    rw [UInt32.ofNat_toNat] at shift
    have whole : InRange data bytes.toNat address := by
      have range := (shift.mp hit).2
      unfold InRange
      omega
    have position : nvmAdd + done + UInt32.ofNat (address - (data + done)).toNat =
        nvmAdd + UInt32.ofNat (address - data).toNat := by
      rw [UInt32.ofNat_toNat, UInt32.ofNat_toNat]
      grind
    rw [position] at byte
    exact rangePatch_eq_some.mpr ⟨whole, byte⟩
  · rw [flashReadChunk_of_refused store data memory granted]
    exact Patch.Torn.refl _ _

theorem flashReadLoop_torn (nvmAdd data : UInt32) {bytes : UInt32} (fuel : Nat)
    {done : UInt32} (memory : Mem UInt8) (low : done ≤ bytes) :
    (rangePatch data bytes.toNat (flashBytes storage nvmAdd)).Torn memory
        (flashReadLoop storage store nvmAdd data bytes fuel done memory).2.2 ∧
      (flashReadLoop storage store nvmAdd data bytes fuel done memory).2.1 ≤ bytes := by
  induction fuel generalizing done memory with
  | zero => exact ⟨Patch.Torn.refl _ _, low⟩
  | succ fuel ih =>
      rw [flashReadLoop]
      split_ifs with more
      · have chunk := flashReadChunk_torn storage storeSpec nvmAdd data done memory low
          (UInt32.le_of_lt more.2)
        dsimp only
        split_ifs with failed
        · exact ⟨chunk, low⟩
        · have next : done + rramReadBufSize ≤ bytes := by
            have room := UInt32.lt_iff_toNat_lt.mp more.2
            have doneLe := UInt32.le_iff_toNat_le.mp low
            have total : bytes.toNat < 2 ^ 32 := bytes.toNat_lt
            have size : rramReadBufSize.toNat = 2048 := rfl
            rw [UInt32.toNat_sub_of_le _ _ low] at room
            rw [UInt32.le_iff_toNat_le, UInt32.toNat_add, Nat.mod_eq_of_lt (by omega)]
            omega
          obtain ⟨rest, bound⟩ := ih _ next
          exact ⟨chunk.trans rest, bound⟩
      · exact ⟨Patch.Torn.refl _ _, low⟩

/-- A flash read, however it ends, tears the bytes it reads. -/
theorem flashRead_torn (memory : Mem UInt8) (address data bytes : UInt32) :
    (rangePatch data bytes.toNat (flashBytes storage (address - appImageFlashAddress))).Torn memory
      (flashRead storage store memory address data bytes).2 := by
  have zero : (0 : UInt32) ≤ bytes := UInt32.zero_le
  have last := fun (done : UInt32) memory (low : done ≤ bytes) =>
    flashReadChunk_torn storage storeSpec (address - appImageFlashAddress) data
      done memory low (UInt32.le_refl _)
  unfold flashRead
  split_ifs with long
  · obtain ⟨loop, bound⟩ := flashReadLoop_torn storage storeSpec
      (address - appImageFlashAddress) data (bytes.toNat / 2048 + 1) memory zero
    dsimp only
    split_ifs with failed left
    · exact loop
    · exact loop.trans (last _ _ bound)
    · exact loop
  · dsimp only
    split_ifs with failed left
    · exact Patch.Torn.refl _ _
    · exact last _ _ zero
    · exact Patch.Torn.refl _ _

end Chunks

/-- A request, however it ends, tears the bytes it asks for. -/
theorem issue_torn (storage : Storage) (machine : ElfMachine) {request : MemRequest}
    (source : request.FromFlash) :
    (requestPatch storage request).Torn machine.memory
      (issue storage machine request).2.memory := by
  cases request with
  | read src dst bytes =>
      rw [issue_from_flash storage machine source]
      split_ifs with ram rram
      · exact flashRead_torn storage storeRam_spec machine.memory src dst bytes
      · exact flashRead_torn storage (storeRram_spec storage) machine.memory src dst bytes
      · exact Patch.Torn.refl _ _
  | set dst bytes =>
      cases accepted : (MemRequest.set dst bytes).accepted with
      | false =>
          rw [issue_of_dropped storage machine accepted]
          exact Patch.Torn.refl _ _
      | true =>
          obtain ⟨handler, known, result⟩ := issue_set_of_accepted storage machine accepted
          have filled : (requestPatch storage (.set dst bytes)).Torn machine.memory
              (machine.memory.write dst bytes.toNat fun _ => 0) := by
            rw [Mem.write_eq_writeIf]
            exact writeIf_torn machine.memory dst bytes.toNat _ _
          rw [result]
          rcases known with rfl | rfl
          · exact filled
          · by_cases granted : storage.rramSetStatus dst bytes = 0
            · simpa [blElfRramSetRramDxe, rramMemsetDxe, granted, blErrNone] using filled
            · have kept : (blElfRramSetRramDxe storage machine.memory dst 0 bytes).2 =
                  machine.memory := by
                simp [blElfRramSetRramDxe, rramMemsetDxe, granted, blErrNone]
              rw [kept]
              exact Patch.Torn.refl _ _

/-- A run of requests tears a patch that has the bytes of all of them. -/
theorem issueAll_torn (storage : Storage) {patch : Patch UInt32 UInt8}
    {requests : List MemRequest} (machine : ElfMachine)
    (sources : ∀ request ∈ requests, request.FromFlash)
    (sub : ∀ request ∈ requests, ∀ address value,
      requestPatch storage request address = some value → patch address = some value) :
    patch.Torn machine.memory (issueAll storage requests machine).2.memory := by
  induction requests generalizing machine with
  | nil => exact Patch.Torn.refl _ _
  | cons first requests ih =>
      have here := (issue_torn storage machine (sources first List.mem_cons_self)).mono
        (sub first List.mem_cons_self)
      rw [issueAll]
      by_cases ok : (issue storage machine first).1 = some blErrNone
      · rw [andThen_of_ok _ ok]
        apply here.trans
        apply ih
        · intro request later
          exact sources request (List.mem_cons_of_mem first later)
        · intro request later
          exact sub request (List.mem_cons_of_mem first later)
      · rw [andThen_of_failed _ ok]
        exact here

section Load

variable (storage : Storage) {loader : BootElfLoader}

/-- The requests of a full load ask for bytes of the image. -/
theorem requestPatch_le_load (placed : WellPlaced loader) {request : MemRequest}
    (asked : request ∈ imageRequests loader.elfAddr .full loader.progHdrs) {address : UInt32}
    {value : UInt8} (inside : requestPatch storage request address = some value) :
    loadPatch storage.flash .full loader address = some value := by
  obtain ⟨hit, byte⟩ := rangePatch_eq_some.mp inside
  obtain ⟨header, isHeader, load, inSegment⟩ := mem_imageRequests.mp asked
  have filled := (mem_segmentRequests.mp inSegment).1.1
  have covers : segmentCovers address header = true :=
    segmentCovers_iff.mpr ⟨load, filled, inRange_segment inSegment hit⟩
  rw [loadPatch_full, segmentsPatch_some _ _ placed.apart isHeader covers, ← byte]
  apply congrArg some
  obtain ⟨-, rfl | ⟨-, -, rfl⟩⟩ := mem_segmentRequests.mp inSegment
  · have inFile : (address - header.pVaddr).toNat < header.pFilesz.toNat := hit
    rw [segmentByte, if_pos inFile]
    simp only [requestData, flashBytes, MemRequest.dst, UInt32.ofNat_toNat]
  · have behind := ((inRange_zeroPart (placed.sized header isHeader load) address).mp hit).1
    rw [segmentByte, if_neg (Nat.not_lt.mpr behind)]
    rfl

theorem full_load_tears_patch (placed : WellPlaced loader) (machine : ElfMachine) :
    (loadPatch storage.flash .full loader).Torn machine.memory
      (bootElfLoadImage storage loader .full machine).2.memory := by
  by_cases null : loader.elfAddr = 0
  · rw [bootElfLoadImage, if_pos null]
    exact Patch.Torn.refl _ _
  · rw [bootElfLoadImage_eq_issueAll storage .full null]
    apply issueAll_torn
    · intro request asked
      exact placed.fromFlash asked
    · intro request asked address value inside
      exact requestPatch_le_load storage placed asked inside

/-- A load to the virtual addresses, whatever it reports, tears the contents of its
segments. -/
theorem load_tears_patch {type : BootElfLoadType} (virtual : type ≠ .copy)
    (placed : WellPlaced loader) (machine : ElfMachine) :
    (loadPatch storage.flash type loader).Torn machine.memory
      (bootElfLoadImage storage loader type machine).2.memory := by
  rw [bootElfLoadImage_only virtual, loadPatch_only]
  exact full_load_tears_patch storage (placed.only type) machine

variable {storage}

/-- The file bytes of the image are none of the status bytes of the FWD sectors. -/
def OffStatusBytes (loader : BootElfLoader) : Prop :=
  ∀ header ∈ loader.progHdrs, ∀ offset : UInt32, offset < header.pFilesz →
    ∀ sector : UInt8, sector < 3 →
      loader.elfAddr + header.pOffset - appImageFlashAddress + offset ≠
        sector.toUInt32 * blockSizeInBytes + UInt32.ofNat fwdStatusOffset

/-- A change of status bytes does not change such an image. -/
theorem loadPatch_of_sameBlocks {content : FlashContent} (blocks : SameBlocks content storage)
    (off : OffStatusBytes loader) (type : BootElfLoadType) :
    loadPatch storage.flash type loader = loadPatch content.blocks type loader := by
  funext address
  unfold loadPatch segmentsPatch
  cases found : (loader.progHdrs.filter (loadsHeader type)).find? (segmentCovers address) with
  | none => rfl
  | some header =>
      have isHeader : header ∈ loader.progHdrs :=
        (List.mem_filter.mp (List.mem_of_find?_eq_some found)).1
      have same : segmentByte storage.flash loader.elfAddr address header =
          segmentByte content.blocks loader.elfAddr address header := by
        unfold segmentByte
        split_ifs with inFile
        · apply blocks
          exact off header isHeader _ (UInt32.lt_iff_toNat_lt.mpr inFile)
        · rfl
      exact congrArg some same

/-- The load stage of a boot: what `boot_elf_load_image` leaves in memory is what the
model allows for the status it reports, if no request of the image is dropped and
no RRAM write refused. -/
theorem load_is_modelled {content : FlashContent} {chosen : LoopState} {errs : StageErrs}
    {machine final : ElfMachine} (virtual : chosen.type ≠ .copy)
    (blocks : SameBlocks content storage)
    (placed : WellPlaced (content.image chosen.appLoadAddr))
    (off : OffStatusBytes (content.image chosen.appLoadAddr))
    (served : SegmentsServed storage (content.image chosen.appLoadAddr))
    (load : bootElfLoadImage storage (content.image chosen.appLoadAddr) chosen.type machine =
      (some errs.imageLoad, final)) :
    ∃ reached, final.memory = loadMemory content ⟨errs, reached⟩ chosen machine.memory := by
  have bytes : loadPatch storage.flash chosen.type (content.image chosen.appLoadAddr) =
      content.load chosen.type chosen.appLoadAddr := loadPatch_of_sameBlocks blocks off chosen.type
  by_cases success : errs.imageLoad = 0
  · rw [success] at load
    refine ⟨fun _ => false, ?_⟩
    rw [loadMemory, if_pos success, ← bytes]
    exact load_lays_patch virtual placed served load
  · have torn := load_tears_patch storage virtual placed machine
    rw [load, bytes] at torn
    obtain ⟨reached, laid⟩ := torn.exists_reached
    refine ⟨reached, ?_⟩
    rw [loadMemory, if_neg success]
    exact laid

end Load

end QHal.Boot
