/-
Module: QHal.Proofs.ImagePatch
Purpose: The contents of memory that an image stands for, split into the part
  in RAM and the part in RRAM, and what a load does in these terms: a full or a
  RAM-only load whose requests are all served lays the contents of its segments
  over the memory.
Trusted boundary: none
Main exports: loadPatch, rramPatch, loadPatch_full_eq_or, load_lays_patch
-/
import QHal.Lib.Patch
import QHal.Proofs.SegmentLoad

namespace QHal.Boot

open Mem (InRange)

/-- The segment has file bytes and covers the address. -/
def segmentCovers (address : UInt32) (header : Elf32Phdr) : Bool :=
  decide (header.pType = ptLoad) && decide (0 < header.pFilesz) &&
    decide (InRange header.pVaddr header.pMemsz.toNat address)

/-- The byte of a segment at an address: from flash, or zero behind the file part. -/
def segmentByte (flash : Mem UInt8) (elfAddr address : UInt32) (header : Elf32Phdr) : UInt8 :=
  if (address - header.pVaddr).toNat < header.pFilesz.toNat then
    flash (elfAddr + header.pOffset - appImageFlashAddress + (address - header.pVaddr))
  else 0

/-- The contents of the given segments. -/
def segmentsPatch (flash : Mem UInt8) (elfAddr : UInt32) (headers : List Elf32Phdr) :
    Patch UInt32 UInt8 :=
  fun address => (headers.find? (segmentCovers address)).map (segmentByte flash elfAddr address)

/-- What a load of the given type brings into memory. -/
def loadPatch (flash : Mem UInt8) (type : BootElfLoadType) (loader : BootElfLoader) :
    Patch UInt32 UInt8 :=
  segmentsPatch flash loader.elfAddr (loader.progHdrs.filter (loadsHeader type))

/-- What a RAM-only load leaves out. -/
def rramPatch (flash : Mem UInt8) (loader : BootElfLoader) : Patch UInt32 UInt8 :=
  segmentsPatch flash loader.elfAddr
    (loader.progHdrs.filter fun header => !loadsHeader .ram header)

theorem segmentCovers_iff {address : UInt32} {header : Elf32Phdr} :
    segmentCovers address header = true ↔
      header.pType = ptLoad ∧ 0 < header.pFilesz ∧
        InRange header.pVaddr header.pMemsz.toNat address := by
  simp [segmentCovers, and_assoc]

section

variable {flash : Mem UInt8} {elfAddr : UInt32} {headers : List Elf32Phdr}

/-- An address outside every segment. -/
theorem segmentsPatch_none {address : UInt32}
    (outside : ∀ header ∈ headers, segmentCovers address header = false) :
    segmentsPatch flash elfAddr headers address = none := by
  have absent : headers.find? (segmentCovers address) = none := by
    rw [List.find?_eq_none]
    intro header isHeader covers
    rw [outside header isHeader] at covers
    cases covers
  rw [segmentsPatch, absent]
  rfl

/-- Segments do not overlap, so at most one covers an address. -/
theorem covers_unique (apart : headers.Pairwise SegmentsApart) {address : UInt32}
    {header other : Elf32Phdr} (isHeader : header ∈ headers) (isOther : other ∈ headers)
    (covers : segmentCovers address header = true)
    (otherCovers : segmentCovers address other = true) : other = header := by
  by_contra differ
  obtain ⟨load, -, inside⟩ := segmentCovers_iff.mp covers
  obtain ⟨otherLoad, -, otherInside⟩ := segmentCovers_iff.mp otherCovers
  exact apart.forall isOther isHeader differ otherLoad load address otherInside inside

variable (flash elfAddr) in
theorem segmentsPatch_some (apart : headers.Pairwise SegmentsApart) {address : UInt32}
    {header : Elf32Phdr} (isHeader : header ∈ headers)
    (covers : segmentCovers address header = true) :
    segmentsPatch flash elfAddr headers address =
      some (segmentByte flash elfAddr address header) := by
  cases found : headers.find? (segmentCovers address) with
  | none =>
      rw [List.find?_eq_none] at found
      exact absurd covers (found header isHeader)
  | some other =>
      have same := covers_unique apart isHeader (List.mem_of_find?_eq_some found) covers
        (List.find?_some found)
      rw [segmentsPatch, found, same]
      rfl

/-- Where the contents of segments come from. -/
theorem segmentsPatch_eq_some {address : UInt32} {value : UInt8}
    (inside : segmentsPatch flash elfAddr headers address = some value) :
    ∃ header ∈ headers, segmentCovers address header = true ∧
      value = segmentByte flash elfAddr address header := by
  cases found : headers.find? (segmentCovers address) with
  | none =>
      rw [segmentsPatch, found] at inside
      cases inside
  | some header =>
      rw [segmentsPatch, found] at inside
      exact ⟨header, List.mem_of_find?_eq_some found, List.find?_some found,
        (Option.some.inj inside).symm⟩

/-- The segments with a property and the others share no address. -/
theorem segmentsPatch_apart (apart : headers.Pairwise SegmentsApart)
    (keep : Elf32Phdr → Bool) {address : UInt32} {value : UInt8}
    (inside : segmentsPatch flash elfAddr (headers.filter fun header => !keep header) address =
      some value) :
    segmentsPatch flash elfAddr (headers.filter keep) address = none := by
  obtain ⟨header, inHalf, covers, -⟩ := segmentsPatch_eq_some inside
  obtain ⟨isHeader, dropped⟩ := List.mem_filter.mp inHalf
  apply segmentsPatch_none
  intro other inOther
  obtain ⟨isOther, kept⟩ := List.mem_filter.mp inOther
  by_contra alsoCovers
  rw [Bool.not_eq_false] at alsoCovers
  have same := covers_unique apart isHeader isOther covers alsoCovers
  rw [← same, kept] at dropped
  cases dropped

/-- The contents of all segments are those of the segments with a property and those
of the others. -/
theorem segmentsPatch_split (apart : headers.Pairwise SegmentsApart)
    (keep : Elf32Phdr → Bool) (address : UInt32) :
    segmentsPatch flash elfAddr headers address =
      (segmentsPatch flash elfAddr (headers.filter keep) address).or
        (segmentsPatch flash elfAddr (headers.filter fun header => !keep header) address) := by
  by_cases covered : ∃ header ∈ headers, segmentCovers address header = true
  · obtain ⟨header, isHeader, covers⟩ := covered
    rw [segmentsPatch_some flash elfAddr apart isHeader covers]
    cases kept : keep header with
    | true =>
        rw [segmentsPatch_some flash elfAddr (apart.filter keep)
          (List.mem_filter.mpr ⟨isHeader, kept⟩) covers]
        rfl
    | false =>
        have dropped : header ∈ headers.filter fun header => !keep header :=
          List.mem_filter.mpr ⟨isHeader, by rw [kept]; rfl⟩
        have byte := segmentsPatch_some flash elfAddr
          (apart.filter fun header => !keep header) dropped covers
        rw [byte, segmentsPatch_apart apart keep byte]
        rfl
  · have outside : ∀ header ∈ headers, segmentCovers address header = false := by
      intro header isHeader
      by_contra covers
      exact covered ⟨header, isHeader, Bool.not_eq_false _ ▸ covers⟩
    have outsideHalf : ∀ half : Elf32Phdr → Bool,
        segmentsPatch flash elfAddr (headers.filter half) address = none := by
      intro half
      apply segmentsPatch_none
      intro header inHalf
      exact outside header (List.mem_filter.mp inHalf).1
    rw [segmentsPatch_none outside, outsideHalf, outsideHalf]
    rfl

end

section

variable (flash : Mem UInt8) {loader : BootElfLoader}
  (apart : loader.progHdrs.Pairwise SegmentsApart)

theorem loadPatch_full (loader : BootElfLoader) :
    loadPatch flash .full loader = segmentsPatch flash loader.elfAddr loader.progHdrs := by
  have all : loader.progHdrs.filter (loadsHeader .full) = loader.progHdrs :=
    List.filter_eq_self.mpr fun _ _ => rfl
  rw [loadPatch, all]

include apart

/-- A full load is a RAM-only load and the RRAM segments. -/
theorem loadPatch_full_eq_or (address : UInt32) :
    loadPatch flash .full loader address =
      (loadPatch flash .ram loader address).or (rramPatch flash loader address) := by
  rw [loadPatch_full]
  exact segmentsPatch_split apart (loadsHeader .ram) address

/-- A RAM-only load stays off the RRAM segments. -/
theorem loadPatch_ram_of_rram {address : UInt32} {value : UInt8}
    (inside : rramPatch flash loader address = some value) :
    loadPatch flash .ram loader address = none :=
  segmentsPatch_apart apart (loadsHeader .ram) inside

theorem rramPatch_le_full {address : UInt32} {value : UInt8}
    (inside : rramPatch flash loader address = some value) :
    loadPatch flash .full loader address = some value := by
  rw [loadPatch_full_eq_or flash apart, loadPatch_ram_of_rram flash apart inside, inside]
  rfl

end

section

variable {storage : Storage} {loader : BootElfLoader}

/-- Exactly loaded segments are the contents of the image. -/
theorem LoadedExactly.present {memory : Mem UInt8} (placed : WellPlaced loader)
    (loaded : LoadedExactly storage loader memory) :
    (loadPatch storage.flash .full loader).Present memory := by
  intro address value inside
  rw [loadPatch_full] at inside
  obtain ⟨header, isHeader, covers, rfl⟩ := segmentsPatch_eq_some inside
  obtain ⟨load, filled, hit⟩ := segmentCovers_iff.mp covers
  obtain ⟨file, zero⟩ := loaded header isHeader load filled
  unfold segmentByte
  split_ifs with inFile
  · rw [file address inFile, flashBytes, UInt32.ofNat_toNat]
  · apply zero address
    rw [inRange_zeroPart (placed.sized header isHeader load)]
    exact ⟨Nat.not_lt.mp inFile, hit⟩

/-- A full load whose requests are all served lays the contents of the image over
the memory. -/
theorem full_load_lays_patch (placed : WellPlaced loader)
    (served : SegmentsServed storage loader) {machine final : ElfMachine}
    (success : bootElfLoadImage storage loader .full machine = (some blErrNone, final)) :
    final.memory = (loadPatch storage.flash .full loader).apply machine.memory := by
  obtain ⟨present, ok⟩ := load_ok_of_returns placed ⟨machine, final, success⟩
  rw [bootElfLoadImage_eq_issueAll storage .full present] at success
  have loaded := loadedExactly_of_served placed served (ok machine)
  have sources : ∀ request ∈ imageRequests loader.elfAddr .full loader.progHdrs,
      request.FromFlash := fun request asked => placed.fromFlash asked
  have frame : ∀ address, loadPatch storage.flash .full loader address = none →
      (issueAll storage (imageRequests loader.elfAddr .full loader.progHdrs)
        machine).2.memory address = machine.memory address := by
    intro address outside
    refine issueAll_frame sources (ok machine) ?_
    intro request asked reached
    obtain ⟨header, isHeader, load, inSegment⟩ := mem_imageRequests.mp asked
    have filled := (mem_segmentRequests.mp inSegment).1.1
    have covers : segmentCovers address header = true :=
      segmentCovers_iff.mpr ⟨load, filled, inRange_segment inSegment reached.1⟩
    rw [loadPatch_full, segmentsPatch_some _ _ placed.apart isHeader covers] at outside
    cases outside
  rw [success] at loaded frame
  exact Patch.eq_apply (loaded.present placed) frame

/-- The image without the segments that a load of this type leaves out. -/
def BootElfLoader.only (loader : BootElfLoader) (type : BootElfLoadType) : BootElfLoader where
  elfAddr := loader.elfAddr
  progHdrs := loader.progHdrs.filter (loadsHeader type)
  phrNum_le := Nat.le_trans (List.length_filter_le _ _) loader.phrNum_le

theorem WellPlaced.only (placed : WellPlaced loader) (type : BootElfLoadType) :
    WellPlaced (loader.only type) where
  sized header isHeader := placed.sized header (List.mem_filter.mp isHeader).1
  sources header isHeader := placed.sources header (List.mem_filter.mp isHeader).1
  apart := placed.apart.filter _

/-- A load to the virtual addresses is a full load of the segments it loads. -/
theorem imageRequests_only {type : BootElfLoadType} (virtual : type ≠ .copy)
    (elfAddr : UInt32) (headers : List Elf32Phdr) :
    imageRequests elfAddr type headers =
      imageRequests elfAddr .full (headers.filter (loadsHeader type)) := by
  have segment : segmentRequests elfAddr type = segmentRequests elfAddr .full := by
    funext header
    cases type with
    | copy => exact absurd rfl virtual
    | ram => simp [segmentRequests, headerDest]
    | full => rfl
    | max => simp [segmentRequests, headerDest]
  have full : ∀ header, loadsHeader .full header = true := fun _ => rfl
  simp only [imageRequests, segment, full, and_true]
  induction headers with
  | nil => rfl
  | cons header headers ih =>
      cases loads : loadsHeader type header with
      | true => simp [loads, ih]
      | false => simp [loads, ih]

theorem bootElfLoadImage_only {type : BootElfLoadType} (virtual : type ≠ .copy)
    (machine : ElfMachine) :
    bootElfLoadImage storage loader type machine =
      bootElfLoadImage storage (loader.only type) .full machine := by
  by_cases null : loader.elfAddr = 0
  · have partNull : (loader.only type).elfAddr = 0 := null
    rw [bootElfLoadImage, bootElfLoadImage, if_pos null, if_pos partNull]
  · have present : (loader.only type).elfAddr ≠ 0 := null
    rw [bootElfLoadImage_eq_issueAll storage type null, imageRequests_only virtual,
      bootElfLoadImage_eq_issueAll storage .full present]
    rfl

theorem loadPatch_only (flash : Mem UInt8) (type : BootElfLoadType) (loader : BootElfLoader) :
    loadPatch flash type loader = loadPatch flash .full (loader.only type) := by
  rw [loadPatch_full]
  rfl

/-- A load to the virtual addresses whose requests are all served lays the contents
of the segments of its type over the memory. -/
theorem load_lays_patch {type : BootElfLoadType} (virtual : type ≠ .copy)
    (placed : WellPlaced loader) (served : SegmentsServed storage loader)
    {machine final : ElfMachine}
    (success : bootElfLoadImage storage loader type machine = (some blErrNone, final)) :
    final.memory = (loadPatch storage.flash type loader).apply machine.memory := by
  have partServed : SegmentsServed storage (loader.only type) :=
    fun header isHeader => served header (List.mem_filter.mp isHeader).1
  rw [bootElfLoadImage_only virtual] at success
  rw [loadPatch_only]
  exact full_load_lays_patch (placed.only type) partServed success

end

end QHal.Boot
