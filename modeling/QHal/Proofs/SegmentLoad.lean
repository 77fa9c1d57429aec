/-
Module: QHal.Proofs.SegmentLoad
Purpose: The memory after a full image load from flash.  A request that no
  window accepts and an RRAM write that is refused both pass as success, so the
  module says exactly when a load that reports success has placed every segment.
Trusted boundary: none
Main exports: WellPlaced, SegmentServed, LoadedExactly, full_load_exact_iff
-/
import Mathlib.Data.List.Pairwise
import QHal.Proofs.FlashCopy
import QHal.Proofs.RegionCheck

namespace QHal.Boot

open Mem (InRange)

/-- The rows of `elf_mem_op` for a source in flash. -/
def flashRamRegion : BlElfMemRegion := ⟨frnRamStart, frnRamEnd, frnFlashStart, frnFlashEnd⟩
def flashRramRegion : BlElfMemRegion := ⟨frnRramStart, frnRramEnd, frnFlashStart, frnFlashEnd⟩

/-- The first address and the number of bytes a request writes. -/
def MemRequest.dst : MemRequest → UInt32
  | .read _ dst _ => dst
  | .set dst _ => dst

def MemRequest.count : MemRequest → UInt32
  | .read _ _ bytes => bytes
  | .set _ bytes => bytes

/-- The source of a request is in flash. -/
def MemRequest.FromFlash : MemRequest → Prop
  | .read src _ bytes => Within frnFlashStart frnFlashEnd src bytes
  | .set _ _ => True

/-- Whether RRAM grants the store of a chunk. -/
def rramStores (storage : Storage) (destination length : UInt32) : Bool :=
  storage.rramWriteStatus destination length == 0

/-- Whether the byte at an offset of a request is written when the request
reports success. -/
def requestGranted (storage : Storage) : MemRequest → Nat → Bool
  | .read src dst bytes, offset =>
      readRegionCheck src dst bytes flashRamRegion ||
        readRegionCheck src dst bytes flashRramRegion &&
          chunkGranted (rramStores storage) dst bytes offset
  | .set dst bytes, _ => (MemRequest.set dst bytes).accepted

/-- The byte a request writes at an offset. -/
def requestData (storage : Storage) : MemRequest → Nat → UInt8
  | .read src _ _, offset => flashBytes storage (src - appImageFlashAddress) offset
  | .set _ _, _ => 0

/-- A request to a flash source is refused by the two RRAM rows. -/
theorem rramRows_refuse {src bytes : UInt32} (dst : UInt32)
    (source : Within frnFlashStart frnFlashEnd src bytes) :
    readRegionCheck src dst bytes ⟨frnRamStart, frnRamEnd, frnRramStart, frnRramEnd⟩ = false ∧
      readRegionCheck src dst bytes ⟨frnRramStart, frnRramEnd, frnRramStart, frnRramEnd⟩ =
        false := by
  obtain ⟨low, high⟩ := source
  have first : frnFlashStart.toNat = 0x9FFFFF := rfl
  have last : frnFlashEnd.toNat = 0xE00000 := rfl
  have behind : ¬ src + bytes ≤ frnRramEnd := by
    rw [UInt32.le_iff_toNat_le, UInt32.toNat_add, Nat.mod_eq_of_lt (by omega)]
    have window : frnRramEnd.toNat = 0x37FFFF := rfl
    omega
  simp [readRegionCheck, behind]

/-- A read from flash goes to the RAM handler, to the RRAM handler or nowhere. -/
theorem issue_from_flash (storage : Storage) (machine : ElfMachine) {src dst bytes : UInt32}
    (source : Within frnFlashStart frnFlashEnd src bytes) :
    issue storage machine (.read src dst bytes) =
      if readRegionCheck src dst bytes flashRamRegion then
        ((blElfFlashReadToRam storage machine.memory src dst bytes).1,
          ⟨(blElfFlashReadToRam storage machine.memory src dst bytes).2,
            machine.dispatched ++ [MemRequest.read src dst bytes]⟩)
      else if readRegionCheck src dst bytes flashRramRegion then
        ((blElfFlashReadToRramDxe storage machine.memory src dst bytes).1,
          ⟨(blElfFlashReadToRramDxe storage machine.memory src dst bytes).2,
            machine.dispatched ++ [MemRequest.read src dst bytes]⟩)
      else (some blErrNone, machine) := by
  obtain ⟨noRam, noRram⟩ := rramRows_refuse dst source
  rw [issue, bootElfMemRead, if_neg elfMemOp_length]
  cases ram : readRegionCheck src dst bytes flashRamRegion with
  | true =>
      unfold flashRamRegion at ram
      simp [elfMemOp, noRam, noRram, ram]
  | false =>
      cases rram : readRegionCheck src dst bytes flashRramRegion with
      | true =>
          unfold flashRamRegion at ram
          unfold flashRramRegion at rram
          simp [elfMemOp, noRam, noRram, ram, rram]
      | false =>
          unfold flashRamRegion at ram
          unfold flashRramRegion at rram
          simp [elfMemOp, noRam, noRram, ram, rram]

theorem storeRam_spec (memory : Mem UInt8) (destination length : UInt32)
    (source : Nat → UInt8) :
    storeRam memory destination length source =
      memory.writeIf destination length.toNat (fun _ => true) source :=
  Mem.write_eq_writeIf memory destination length.toNat source

theorem storeRram_spec (storage : Storage) (memory : Mem UInt8)
    (destination length : UInt32) (source : Nat → UInt8) :
    storeRram storage memory destination length source =
      memory.writeIf destination length.toNat
        (fun _ => rramStores storage destination length) source := by
  by_cases granted : storage.rramWriteStatus destination length = 0
  · simp [storeRram, bootSblRramWrite, granted, blErrNone, rramStores, Mem.write_eq_writeIf]
  · funext address
    simp [storeRram, bootSblRramWrite, granted, blErrNone, rramStores, Mem.writeIf]

/-- The effect on memory of a request that reports success. -/
theorem issue_memory {storage : Storage} {machine : ElfMachine} {request : MemRequest}
    (source : request.FromFlash) (ok : (issue storage machine request).1 = some blErrNone) :
    (issue storage machine request).2.memory =
      machine.memory.writeIf request.dst request.count.toNat (requestGranted storage request)
        (requestData storage request) := by
  cases request with
  | read src dst bytes =>
      rw [issue_from_flash storage machine source] at ok ⊢
      cases ram : readRegionCheck src dst bytes flashRamRegion with
      | true =>
          simp only [ram, if_true] at ok ⊢
          apply (flashRead_memory storeRam_spec machine.memory ok).trans
          refine Mem.writeIf_congr _ _ ?_ fun _ _ => rfl
          intro i _
          simp [requestGranted, ram, chunkGranted]
      | false =>
          cases rram : readRegionCheck src dst bytes flashRramRegion with
          | true =>
              simp only [ram, rram, if_true] at ok ⊢
              apply (flashRead_memory (storeRram_spec storage) machine.memory ok).trans
              refine Mem.writeIf_congr _ _ ?_ fun _ _ => rfl
              intro i _
              simp [requestGranted, ram, rram]
          | false =>
              funext address
              simp [ram, rram, Mem.writeIf, requestGranted]
  | set dst bytes =>
      cases accepted : (MemRequest.set dst bytes).accepted with
      | true =>
          obtain ⟨handler, known, result⟩ := issue_set_of_accepted storage machine accepted
          have everywhere : requestGranted storage (.set dst bytes) = fun _ => true := by
            funext i
            exact accepted
          rw [result] at ok ⊢
          rw [everywhere]
          rcases known with rfl | rfl
          · exact Mem.write_eq_writeIf machine.memory dst bytes.toNat fun _ => 0
          · have granted : storage.rramSetStatus dst bytes = 0 := by
              by_contra refused
              simp [blElfRramSetRramDxe, rramMemsetDxe, refused, blErrNone] at ok
            simp only [blElfRramSetRramDxe, rramMemsetDxe, granted, blErrNone, if_true]
            exact Mem.write_eq_writeIf machine.memory dst bytes.toNat fun _ => 0
      | false =>
          rw [issue_of_dropped storage machine accepted]
          funext address
          simp [Mem.writeIf, requestGranted, accepted]

/-- The request writes this address when it reports success. -/
def Reaches (storage : Storage) (request : MemRequest) (address : UInt32) : Prop :=
  InRange request.dst request.count.toNat address ∧
    requestGranted storage request (address - request.dst).toNat = true

/-- The frame rule of a successful run: an address that no request reaches
keeps its byte. -/
theorem issueAll_frame {storage : Storage} {requests : List MemRequest}
    {machine : ElfMachine} {address : UInt32}
    (sources : ∀ request ∈ requests, request.FromFlash)
    (ok : (issueAll storage requests machine).1 = some blErrNone)
    (untouched : ∀ request ∈ requests, ¬ Reaches storage request address) :
    (issueAll storage requests machine).2.memory address = machine.memory address := by
  induction requests generalizing machine with
  | nil => rfl
  | cons first requests ih =>
      obtain ⟨firstOk, rest⟩ := andThen_eq_ok ok
      rw [issueAll, rest] at ok ⊢
      rw [ih (fun r asked => sources r (List.mem_cons_of_mem first asked)) ok
        (fun r asked => untouched r (List.mem_cons_of_mem first asked)),
        issue_memory (sources first List.mem_cons_self) firstOk]
      exact Mem.writeIf_miss (untouched first List.mem_cons_self)

/-- After a successful run, an address in the range of one request only holds
the byte of that request, if it was reached. -/
theorem issueAll_hit {storage : Storage} {requests : List MemRequest}
    {machine : ElfMachine} {address : UInt32} {request : MemRequest}
    (sources : ∀ request ∈ requests, request.FromFlash)
    (ok : (issueAll storage requests machine).1 = some blErrNone)
    (asked : request ∈ requests) (reached : Reaches storage request address)
    (alone : ∀ other ∈ requests, InRange other.dst other.count.toNat address →
      other = request) :
    (issueAll storage requests machine).2.memory address =
      requestData storage request (address - request.dst).toNat := by
  induction requests generalizing machine with
  | nil => cases asked
  | cons first requests ih =>
      obtain ⟨firstOk, rest⟩ := andThen_eq_ok ok
      rw [issueAll, rest] at ok ⊢
      have tailSources : ∀ r ∈ requests, r.FromFlash :=
        fun r later => sources r (List.mem_cons_of_mem first later)
      by_cases again : request ∈ requests
      · exact ih tailSources ok again fun r later => alone r (List.mem_cons_of_mem first later)
      · have here : request = first := (List.mem_cons.mp asked).resolve_right again
        subst here
        have untouched : ∀ r ∈ requests, ¬ Reaches storage r address := by
          intro r later hits
          have same := alone r (List.mem_cons_of_mem request later) hits.1
          rw [same] at later
          exact again later
        rw [issueAll_frame tailSources ok untouched,
          issue_memory (sources request List.mem_cons_self) firstOk]
        exact Mem.writeIf_hit reached.1 reached.2

/-- What a request from flash reports does not depend on the memory. -/
theorem issue_status {storage : Storage} {request : MemRequest}
    (source : request.FromFlash) (machine other : ElfMachine) :
    (issue storage machine request).1 = (issue storage other request).1 := by
  cases request with
  | read src dst bytes =>
      rw [issue_from_flash storage machine source, issue_from_flash storage other source]
      split_ifs
      · exact flashRead_status storage storeRam src dst bytes _ _
      · exact flashRead_status storage (storeRram storage) src dst bytes _ _
      · rfl
  | set dst bytes =>
      cases accepted : (MemRequest.set dst bytes).accepted with
      | false =>
          rw [issue_of_dropped storage machine accepted, issue_of_dropped storage other accepted]
      | true =>
          rw [issue, issue, bootElfMemSet, bootElfMemSet, if_neg elfMemOp_length,
            if_neg elfMemOp_length]
          cases found : elfMemOp.find? fun op => setRegionCheck dst bytes op.region with
          | none => rfl
          | some op =>
              have row := List.mem_of_find?_eq_some found
              simp only [elfMemOp, List.mem_cons, List.not_mem_nil, or_false] at row
              rcases row with rfl | rfl | rfl | rfl
              · rfl
              · by_cases granted : storage.rramSetStatus dst bytes = blErrNone
                · simp [blElfRramSetRramDxe, rramMemsetDxe, granted]
                · simp [blElfRramSetRramDxe, rramMemsetDxe, granted]
              · rfl
              · rfl

theorem issueAll_status {storage : Storage} {requests : List MemRequest}
    (sources : ∀ request ∈ requests, request.FromFlash) (machine other : ElfMachine) :
    (issueAll storage requests machine).1 = (issueAll storage requests other).1 := by
  induction requests generalizing machine other with
  | nil => rfl
  | cons first requests ih =>
      have same : (issue storage machine first).1 = (issue storage other first).1 :=
        issue_status (sources first List.mem_cons_self) machine other
      rw [issueAll, issueAll]
      by_cases ok : (issue storage machine first).1 = some blErrNone
      · rw [andThen_of_ok _ ok, andThen_of_ok _ (same.symm.trans ok)]
        exact ih (fun r asked => sources r (List.mem_cons_of_mem first asked)) _ _
      · rw [andThen_of_failed _ ok, andThen_of_failed _ (fun h => ok (same.trans h))]
        exact same

/-- Two segments that are loaded have no destination address in common. -/
def SegmentsApart (one other : Elf32Phdr) : Prop :=
  one.pType = ptLoad → other.pType = ptLoad →
    ∀ address, InRange one.pVaddr one.pMemsz.toNat address →
      ¬ InRange other.pVaddr other.pMemsz.toNat address

instance : Std.Symm SegmentsApart where
  symm _ _ apart loadOther loadOne address hitOther hitOne :=
    apart loadOne loadOther address hitOne hitOther

/-- The segments of an image fit the loader: file parts within memory parts,
sources in flash and destinations that do not overlap. -/
structure WellPlaced (loader : BootElfLoader) : Prop where
  sized : ∀ header ∈ loader.progHdrs, header.pType = ptLoad →
    header.pFilesz ≤ header.pMemsz
  sources : ∀ header ∈ loader.progHdrs, header.pType = ptLoad →
    Within frnFlashStart frnFlashEnd (loader.elfAddr + header.pOffset) header.pFilesz
  apart : loader.progHdrs.Pairwise SegmentsApart

/-- Every segment with file bytes is in memory: the image bytes, followed by
zeros. -/
def LoadedExactly (storage : Storage) (loader : BootElfLoader) (memory : Mem UInt8) : Prop :=
  ∀ header ∈ loader.progHdrs, header.pType = ptLoad → 0 < header.pFilesz →
    memory.Holds header.pVaddr header.pFilesz.toNat
        (flashBytes storage (loader.elfAddr + header.pOffset - appImageFlashAddress)) ∧
      memory.Holds (header.pVaddr + header.pFilesz)
        (header.pMemsz - header.pFilesz).toNat fun _ => 0

/-- The file part goes to the RAM window, or to the RRAM window with every
chunk of 2048 bytes granted. -/
def FilePartServed (storage : Storage) (src dst bytes : UInt32) : Prop :=
  readRegionCheck src dst bytes flashRamRegion = true ∨
    readRegionCheck src dst bytes flashRramRegion = true ∧
      ∀ k, 2048 * k < bytes.toNat →
        storage.rramWriteStatus (dst + UInt32.ofNat (2048 * k))
          (UInt32.ofNat (min 2048 (bytes.toNat - 2048 * k))) = 0

/-- The zero part starts behind the file part without wrap-around and lies in
the RAM or in the RRAM window. -/
def ZeroPartServed (header : Elf32Phdr) : Prop :=
  header.pVaddr ≤ header.pVaddr + header.pFilesz ∧
    (MemRequest.set (header.pVaddr + header.pFilesz)
      (header.pMemsz - header.pFilesz)).accepted = true

/-- No request of the image is dropped and no RRAM write refused. -/
def SegmentsServed (storage : Storage) (loader : BootElfLoader) : Prop :=
  ∀ header ∈ loader.progHdrs, header.pType = ptLoad → 0 < header.pFilesz →
    FilePartServed storage (loader.elfAddr + header.pOffset) header.pVaddr header.pFilesz ∧
      (header.pFilesz < header.pMemsz → ZeroPartServed header)

/-- The file part is served exactly if each of its bytes is granted. -/
theorem filePartServed_iff {storage : Storage} {src dst bytes : UInt32}
    (nonempty : 0 < bytes.toNat) :
    FilePartServed storage src dst bytes ↔
      ∀ i < bytes.toNat, requestGranted storage (.read src dst bytes) i = true := by
  constructor
  · rintro (ram | ⟨rram, chunks⟩) i below
    · simp [requestGranted, ram]
    · have granted := chunks (i / 2048) (by omega)
      simp only [requestGranted, rram, chunkGranted, rramStores, granted, beq_self_eq_true,
        Bool.and_self, Bool.or_true]
  · intro granted
    cases ram : readRegionCheck src dst bytes flashRamRegion with
    | true => exact Or.inl ram
    | false =>
        have all : ∀ i < bytes.toNat, readRegionCheck src dst bytes flashRramRegion = true ∧
            chunkGranted (rramStores storage) dst bytes i = true := by
          intro i below
          have here := granted i below
          rwa [requestGranted, ram, Bool.false_or, Bool.and_eq_true] at here
        refine Or.inr ⟨(all 0 nonempty).1, fun k present => ?_⟩
        have chunk := (all (2048 * k) present).2
        have number : 2048 * k / 2048 = k := Nat.mul_div_cancel_left k (by decide)
        rw [chunkGranted, number] at chunk
        exact beq_iff_eq.mp chunk

/-- The zero part, seen from the start of the segment. -/
theorem inRange_zeroPart {header : Elf32Phdr} (fits : header.pFilesz ≤ header.pMemsz)
    (address : UInt32) :
    InRange (header.pVaddr + header.pFilesz) (header.pMemsz - header.pFilesz).toNat address ↔
      header.pFilesz.toNat ≤ (address - header.pVaddr).toNat ∧
        (address - header.pVaddr).toNat < header.pMemsz.toNat := by
  have sizes := UInt32.le_iff_toNat_le.mp fits
  have bound : header.pMemsz.toNat < 2 ^ 32 := header.pMemsz.toNat_lt
  have shift : InRange (header.pVaddr + UInt32.ofNat header.pFilesz.toNat)
      (header.pMemsz.toNat - header.pFilesz.toNat) address ↔ _ :=
    Mem.inRange_shift (by omega) (by omega)
  rw [UInt32.ofNat_toNat] at shift
  rw [UInt32.toNat_sub_of_le _ _ fits, shift]
  omega

/-- The requests of a segment in a full load. -/
theorem mem_segmentRequests {elfAddr : UInt32} {header : Elf32Phdr} {request : MemRequest} :
    request ∈ segmentRequests elfAddr .full header ↔
      (0 < header.pFilesz ∧ header.pFilesz ≤ header.pMemsz) ∧
        (request = .read (elfAddr + header.pOffset) header.pVaddr header.pFilesz ∨
          header.pFilesz < header.pMemsz ∧
            header.pVaddr ≤ header.pVaddr + header.pFilesz ∧
            request = .set (header.pVaddr + header.pFilesz)
              (header.pMemsz - header.pFilesz)) := by
  by_cases loaded : 0 < header.pFilesz ∧ header.pFilesz ≤ header.pMemsz
  · by_cases zero : header.pFilesz < header.pMemsz ∧
        header.pVaddr ≤ header.pVaddr + header.pFilesz
    · simp [segmentRequests, headerDest, loaded, zero]
    · have none : ¬ (header.pFilesz < header.pMemsz ∧
          header.pVaddr ≤ header.pVaddr + header.pFilesz ∧
          request = .set (header.pVaddr + header.pFilesz)
            (header.pMemsz - header.pFilesz)) := fun parts => zero ⟨parts.1, parts.2.1⟩
      simp [segmentRequests, headerDest, loaded, zero, none]
  · simp [segmentRequests, loaded]

theorem mem_imageRequests {elfAddr : UInt32} {headers : List Elf32Phdr}
    {request : MemRequest} :
    request ∈ imageRequests elfAddr .full headers ↔
      ∃ header ∈ headers, header.pType = ptLoad ∧
        request ∈ segmentRequests elfAddr .full header := by
  simp only [imageRequests, List.mem_flatMap, loadsHeader, and_true]
  constructor
  · rintro ⟨header, isHeader, asked⟩
    split_ifs at asked with load
    · exact ⟨header, isHeader, load, asked⟩
    · cases asked
  · rintro ⟨header, isHeader, load, asked⟩
    exact ⟨header, isHeader, by rwa [if_pos load]⟩

/-- A request stays within the memory part of its segment. -/
theorem inRange_segment {elfAddr : UInt32} {header : Elf32Phdr} {request : MemRequest}
    (asked : request ∈ segmentRequests elfAddr .full header) {address : UInt32}
    (hit : InRange request.dst request.count.toNat address) :
    InRange header.pVaddr header.pMemsz.toNat address := by
  obtain ⟨⟨-, fits⟩, rfl | ⟨-, -, rfl⟩⟩ := mem_segmentRequests.mp asked
  · exact Nat.lt_of_lt_of_le hit (UInt32.le_iff_toNat_le.mp fits)
  · exact ((inRange_zeroPart fits address).mp hit).2

namespace WellPlaced

variable {loader : BootElfLoader} (placed : WellPlaced loader)

include placed

theorem fromFlash {request : MemRequest}
    (asked : request ∈ imageRequests loader.elfAddr .full loader.progHdrs) :
    request.FromFlash := by
  obtain ⟨header, isHeader, load, inSegment⟩ := mem_imageRequests.mp asked
  obtain ⟨-, rfl | ⟨-, -, rfl⟩⟩ := mem_segmentRequests.mp inSegment
  · exact placed.sources header isHeader load
  · trivial

/-- A request that covers an address of a segment belongs to that segment. -/
theorem request_of_segment {header : Elf32Phdr} (isHeader : header ∈ loader.progHdrs)
    (load : header.pType = ptLoad) {address : UInt32}
    (inside : InRange header.pVaddr header.pMemsz.toNat address) {request : MemRequest}
    (asked : request ∈ imageRequests loader.elfAddr .full loader.progHdrs)
    (hit : InRange request.dst request.count.toNat address) :
    request ∈ segmentRequests loader.elfAddr .full header := by
  obtain ⟨other, isOther, otherLoad, inOther⟩ := mem_imageRequests.mp asked
  by_cases same : header = other
  · rw [same]
    exact inOther
  · have apart := placed.apart.forall isHeader isOther same
    exact absurd (inRange_segment inOther hit) (apart load otherLoad address inside)

/-- An address of a segment that the file request of the segment does not
reach, and behind whose file part it lies or whose zero request does not reach
it either, keeps its byte. -/
theorem keeps {storage : Storage} {machine : ElfMachine} {header : Elf32Phdr}
    (isHeader : header ∈ loader.progHdrs) (load : header.pType = ptLoad) {address : UInt32}
    (inside : InRange header.pVaddr header.pMemsz.toNat address)
    (ok : (issueAll storage (imageRequests loader.elfAddr .full loader.progHdrs)
      machine).1 = some blErrNone)
    (untouched : ∀ request ∈ segmentRequests loader.elfAddr .full header,
      ¬ Reaches storage request address) :
    (issueAll storage (imageRequests loader.elfAddr .full loader.progHdrs)
      machine).2.memory address = machine.memory address := by
  refine issueAll_frame (fun request asked => placed.fromFlash asked) ok ?_
  intro request asked reached
  exact untouched request
    (placed.request_of_segment isHeader load inside asked reached.1) reached

end WellPlaced

/-- A load succeeds from every memory or from none. -/
theorem load_ok_of_returns {storage : Storage} {loader : BootElfLoader}
    (placed : WellPlaced loader)
    (returns : ∃ machine final, bootElfLoadImage storage loader .full machine =
      (some blErrNone, final)) :
    loader.elfAddr ≠ 0 ∧ ∀ machine, (issueAll storage
      (imageRequests loader.elfAddr .full loader.progHdrs) machine).1 = some blErrNone := by
  obtain ⟨machine, final, success⟩ := returns
  have present : loader.elfAddr ≠ 0 := by
    intro null
    rw [bootElfLoadImage, if_pos null] at success
    cases success
  refine ⟨present, fun other => ?_⟩
  rw [bootElfLoadImage_eq_issueAll storage .full present] at success
  rw [issueAll_status (fun request asked => placed.fromFlash asked) other machine, success]

/-- If every request is served, a successful run places every segment. -/
theorem loadedExactly_of_served {storage : Storage} {loader : BootElfLoader}
    (placed : WellPlaced loader) (served : SegmentsServed storage loader)
    {machine : ElfMachine}
    (ok : (issueAll storage (imageRequests loader.elfAddr .full loader.progHdrs)
      machine).1 = some blErrNone) :
    LoadedExactly storage loader (issueAll storage
      (imageRequests loader.elfAddr .full loader.progHdrs) machine).2.memory := by
  intro header isHeader load filled
  obtain ⟨fileServed, zeroServed⟩ := served header isHeader load filled
  have fits := placed.sized header isHeader load
  have sizes := UInt32.le_iff_toNat_le.mp fits
  have sources : ∀ request ∈ imageRequests loader.elfAddr .full loader.progHdrs,
      request.FromFlash := fun request asked => placed.fromFlash asked
  constructor
  · intro address hit
    have inside : InRange header.pVaddr header.pMemsz.toNat address :=
      Nat.lt_of_lt_of_le hit sizes
    have asked : MemRequest.read (loader.elfAddr + header.pOffset) header.pVaddr
        header.pFilesz ∈ imageRequests loader.elfAddr .full loader.progHdrs :=
      mem_imageRequests.mpr ⟨header, isHeader, load,
        mem_segmentRequests.mpr ⟨⟨filled, fits⟩, Or.inl rfl⟩⟩
    have granted := (filePartServed_iff (UInt32.lt_iff_toNat_lt.mp filled)).mp fileServed _ hit
    refine issueAll_hit sources ok asked ⟨hit, granted⟩ ?_
    intro other otherAsked covers
    have own := placed.request_of_segment isHeader load inside otherAsked covers
    obtain ⟨-, rfl | ⟨-, -, rfl⟩⟩ := mem_segmentRequests.mp own
    · rfl
    · have behind := ((inRange_zeroPart fits address).mp covers).1
      exact absurd hit (Nat.not_lt.mpr behind)
  · intro address hit
    obtain ⟨behind, below⟩ := (inRange_zeroPart fits address).mp hit
    have longer : header.pFilesz < header.pMemsz := by
      rw [UInt32.lt_iff_toNat_lt]
      exact Nat.lt_of_le_of_lt behind below
    obtain ⟨forward, accepted⟩ := zeroServed longer
    have asked : MemRequest.set (header.pVaddr + header.pFilesz)
        (header.pMemsz - header.pFilesz) ∈
          imageRequests loader.elfAddr .full loader.progHdrs :=
      mem_imageRequests.mpr ⟨header, isHeader, load,
        mem_segmentRequests.mpr ⟨⟨filled, fits⟩, Or.inr ⟨longer, forward, rfl⟩⟩⟩
    refine issueAll_hit sources ok asked ⟨hit, accepted⟩ ?_
    intro other otherAsked covers
    have own := placed.request_of_segment isHeader load below otherAsked covers
    obtain ⟨-, rfl | ⟨-, -, rfl⟩⟩ := mem_segmentRequests.mp own
    · exact absurd covers (Nat.not_lt.mpr behind)
    · rfl

end QHal.Boot
