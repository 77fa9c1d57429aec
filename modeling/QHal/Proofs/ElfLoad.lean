/-
Module: QHal.Proofs.ElfLoad
Purpose: The normal form of an image load.  Which reads and fills
  `boot_elf_load_image` asks for depends on the program headers only, so a load
  is the run of a list of requests, one after the other until one fails.
Trusted boundary: none
Main exports: segmentRequests, imageRequests, issue, issueAll,
  bootElfLoadImage_eq_issueAll
-/
import QHal.Boot.ElfLoader

namespace QHal.Boot

/-- The requests for one segment of type `PT_LOAD`: the copy of its file part
and, for a load to the virtual address, the fill of its zero part.  A segment
whose memory size is below its file size is not loaded. -/
def segmentRequests (elfAddr : UInt32) (type : BootElfLoadType) (header : Elf32Phdr) :
    List MemRequest :=
  let dest := (headerDest type header).1
  if 0 < header.pFilesz ∧ header.pFilesz ≤ header.pMemsz then
    .read (elfAddr + header.pOffset) dest header.pFilesz ::
      if type ≠ .copy ∧ header.pFilesz < header.pMemsz ∧ dest ≤ dest + header.pFilesz then
        [.set (dest + header.pFilesz) (header.pMemsz - header.pFilesz)]
      else []
  else []

/-- The requests for all segments of an image, in the order of the headers. -/
def imageRequests (elfAddr : UInt32) (type : BootElfLoadType) (headers : List Elf32Phdr) :
    List MemRequest :=
  headers.flatMap fun header =>
    if header.pType = ptLoad ∧ loadsHeader type header = true then
      segmentRequests elfAddr type header
    else []

/-- Run one request. -/
def issue (storage : Storage) (machine : ElfMachine) : MemRequest → ElfResult
  | .read src dst bytes => bootElfMemRead storage elfMemOp machine src dst bytes
  | .set dst bytes => bootElfMemSet storage elfMemOp machine dst 0 bytes

/-- Run requests until one fails. -/
def issueAll (storage : Storage) : List MemRequest → ElfMachine → ElfResult
  | [], machine => (some blErrNone, machine)
  | request :: requests, machine =>
      andThen (issue storage machine request) (issueAll storage requests)

@[simp] theorem andThen_ok (machine : ElfMachine) (next : ElfMachine → ElfResult) :
    andThen (some blErrNone, machine) next = next machine :=
  if_pos rfl

theorem andThen_of_ok {result : ElfResult} (next : ElfMachine → ElfResult)
    (ok : result.1 = some blErrNone) : andThen result next = next result.2 :=
  if_pos ok

theorem andThen_of_failed {result : ElfResult} (next : ElfMachine → ElfResult)
    (failed : result.1 ≠ some blErrNone) : andThen result next = result :=
  if_neg failed

/-- A chain that succeeds had a first part that succeeded. -/
theorem andThen_eq_ok {result : ElfResult} {next : ElfMachine → ElfResult}
    (ok : (andThen result next).1 = some blErrNone) :
    result.1 = some blErrNone ∧ andThen result next = next result.2 := by
  by_cases first : result.1 = some blErrNone
  · exact ⟨first, andThen_of_ok next first⟩
  · rw [andThen_of_failed next first] at ok
    exact absurd ok first

@[simp] theorem andThen_end (result : ElfResult) :
    andThen result (fun machine => (some blErrNone, machine)) = result := by
  by_cases ok : result.1 = some blErrNone
  · rw [andThen_of_ok _ ok, ← ok]
  · exact andThen_of_failed _ ok

theorem andThen_assoc (result : ElfResult) (first second : ElfMachine → ElfResult) :
    andThen (andThen result first) second =
      andThen result fun machine => andThen (first machine) second := by
  by_cases ok : result.1 = some blErrNone
  · rw [andThen_of_ok first ok, andThen_of_ok _ ok]
  · rw [andThen_of_failed first ok, andThen_of_failed _ ok, andThen_of_failed _ ok]

theorem issueAll_append (storage : Storage) (first second : List MemRequest)
    (machine : ElfMachine) :
    issueAll storage (first ++ second) machine =
      andThen (issueAll storage first machine) (issueAll storage second) := by
  induction first generalizing machine with
  | nil => exact (andThen_ok machine (issueAll storage second)).symm
  | cons request requests ih =>
      have tail : issueAll storage (requests ++ second) = fun machine =>
          andThen (issueAll storage requests machine) (issueAll storage second) :=
        funext ih
      calc issueAll storage (request :: requests ++ second) machine
          = andThen (issue storage machine request) (issueAll storage (requests ++ second)) :=
            rfl
        _ = andThen (issueAll storage (request :: requests) machine)
              (issueAll storage second) := by
            rw [tail, ← andThen_assoc]
            rfl

/-- The byte counts of a segment that is loaded to its virtual address. -/
theorem segment_bytes {header : Elf32Phdr} (filled : 0 < header.pFilesz)
    (fits : header.pFilesz ≤ header.pMemsz) :
    bytesToRead header 0 header.pMemsz = header.pFilesz ∧
      bytesToSet header 0 header.pMemsz = header.pMemsz - header.pFilesz := by
  have read : bytesToRead header 0 header.pMemsz = header.pFilesz := by
    simp [bytesToRead, UInt32.not_le.mpr filled, fits]
  refine ⟨read, ?_⟩
  simp only [bytesToSet, read]
  by_cases equal : header.pFilesz = header.pMemsz
  · simp [equal]
  · have strict : ¬ header.pFilesz ≥ header.pMemsz := by
      intro reverse
      exact equal (UInt32.le_antisymm fits reverse)
    simp [strict]

/-- The byte counts of a segment that is copied to its physical address. -/
theorem segment_bytes_copy {header : Elf32Phdr} (filled : 0 < header.pFilesz) :
    bytesToRead header 0 header.pFilesz = header.pFilesz ∧
      bytesToSet header 0 header.pFilesz = 0 := by
  have read : bytesToRead header 0 header.pFilesz = header.pFilesz := by
    simp [bytesToRead, UInt32.not_le.mpr filled]
  refine ⟨read, ?_⟩
  simp [bytesToSet, read]

/-- A segment whose memory size is below its file size, or without file bytes,
asks for nothing. -/
theorem loadSegment_skips (storage : Storage) (elfAddr : UInt32) {header : Elf32Phdr}
    (skipped : ¬ (0 < header.pFilesz ∧ header.pFilesz ≤ header.pMemsz))
    (dest size : UInt32) (machine : ElfMachine) :
    loadSegment storage elfAddr header 0 dest size machine = (some blErrNone, machine) := by
  by_cases empty : header.pFilesz = 0
  · simp [loadSegment, empty]
  · have short : ¬ header.pFilesz ≤ header.pMemsz := by
      intro fits
      exact skipped ⟨UInt32.pos_iff_ne_zero.mpr empty, fits⟩
    have shorter : ¬ header.pMemsz > header.pFilesz := by
      intro longer
      exact short (UInt32.le_of_lt longer)
    simp [loadSegment, loadFilePart, fillZeroPart, empty, short, shorter]

/-- A copy to the physical address has no zero part. -/
theorem fillZeroPart_copy (storage : Storage) {header : Elf32Phdr}
    (filled : 0 < header.pFilesz) (dest : UInt32) :
    fillZeroPart storage header 0 dest header.pFilesz =
      fun machine => (some blErrNone, machine) := by
  funext machine
  simp [fillZeroPart, (segment_bytes_copy filled).2]

theorem fillZeroPart_virtual (storage : Storage) {header : Elf32Phdr}
    (filled : 0 < header.pFilesz) (fits : header.pFilesz ≤ header.pMemsz) (dest : UInt32) :
    fillZeroPart storage header 0 dest header.pMemsz =
      issueAll storage
        (if header.pFilesz < header.pMemsz ∧ dest ≤ dest + header.pFilesz then
          [.set (dest + header.pFilesz) (header.pMemsz - header.pFilesz)]
        else []) := by
  obtain ⟨read, set⟩ := segment_bytes filled fits
  funext machine
  by_cases zero : header.pFilesz < header.pMemsz ∧ dest ≤ dest + header.pFilesz
  · have nonempty : header.pMemsz - header.pFilesz ≠ 0 := by
      intro none
      have equal := UInt32.sub_eq_iff_eq_add.mp none
      rw [UInt32.zero_add] at equal
      rw [equal] at zero
      exact UInt32.lt_irrefl _ zero.1
    simp [fillZeroPart, issueAll, issue, read, set, zero, nonempty]
  · rw [if_neg zero]
    apply if_neg
    rintro ⟨longer, forward, -⟩
    exact zero ⟨longer, forward⟩

/-- Loading a segment is running its requests. -/
theorem loadSegment_eq_issueAll (storage : Storage) (elfAddr : UInt32)
    (type : BootElfLoadType) (header : Elf32Phdr) (machine : ElfMachine) :
    loadSegment storage elfAddr header 0 (headerDest type header).1
        (headerDest type header).2 machine =
      issueAll storage (segmentRequests elfAddr type header) machine := by
  by_cases loaded : 0 < header.pFilesz ∧ header.pFilesz ≤ header.pMemsz
  · obtain ⟨filled, fits⟩ := loaded
    have nonempty : header.pFilesz ≠ 0 := UInt32.pos_iff_ne_zero.mp filled
    have sized : header.pMemsz ≠ 0 := by
      intro zero
      rw [zero] at fits
      exact nonempty (UInt32.le_zero_iff.mp fits)
    by_cases copy : type = .copy
    · subst copy
      simp [loadSegment, loadFilePart, headerDest, segmentRequests, issueAll, issue,
        fillZeroPart_copy storage filled, segment_bytes_copy filled, nonempty, sized, filled,
        fits]
    · have dest : headerDest type header = (header.pVaddr, header.pMemsz) := by
        cases type with
        | copy => exact absurd rfl copy
        | full => rfl
        | ram => rfl
        | max => rfl
      simp [loadSegment, loadFilePart, segmentRequests, dest, issueAll, issue,
        fillZeroPart_virtual storage filled fits, segment_bytes filled fits, nonempty, sized,
        filled, fits, copy]
  · rw [loadSegment_skips storage elfAddr loaded]
    simp [segmentRequests, loaded, issueAll]

/-- The loop over the headers runs the requests of the headers that are left. -/
theorem loadImageLoop_eq_issueAll (storage : Storage) {loader : BootElfLoader}
    (type : BootElfLoadType) (present : loader.elfAddr ≠ 0) (headers : List Elf32Phdr)
    (progIdx : Nat) (left : headers = loader.progHdrs.drop progIdx) (machine : ElfMachine) :
    loadImageLoop storage loader type headers progIdx machine =
      issueAll storage (imageRequests loader.elfAddr type headers) machine := by
  induction headers generalizing progIdx machine with
  | nil => rfl
  | cons header headers ih =>
      have here : loader.progHdrs[progIdx]? = some header := by
        have head := congrArg List.head? left
        rw [List.head?_drop] at head
        exact head.symm
      have rest : headers = loader.progHdrs.drop (progIdx + 1) := by
        have tail := congrArg List.tail left
        rw [List.tail_drop] at tail
        exact tail
      have later : loadImageLoop storage loader type headers (progIdx + 1) =
          issueAll storage (imageRequests loader.elfAddr type headers) :=
        funext (ih (progIdx + 1) rest)
      unfold loadImageLoop
      by_cases loads : header.pType = ptLoad ∧ loadsHeader type header = true
      · have segment : bootElfLoadGenericSegment storage loader progIdx 0
            (headerDest type header).1 (headerDest type header).2 machine =
            issueAll storage (segmentRequests loader.elfAddr type header) machine := by
          simp only [bootElfLoadGenericSegment, present, if_false, here]
          exact loadSegment_eq_issueAll storage loader.elfAddr type header machine
        have split : imageRequests loader.elfAddr type (header :: headers) =
            segmentRequests loader.elfAddr type header ++
              imageRequests loader.elfAddr type headers := by
          simp [imageRequests, loads]
        rw [if_pos loads, segment, later, split, issueAll_append]
      · have skip : imageRequests loader.elfAddr type (header :: headers) =
            imageRequests loader.elfAddr type headers := by
          simp [imageRequests, loads]
        rw [if_neg loads, later, skip]

/-- An image load is the run of the requests of its headers. -/
theorem bootElfLoadImage_eq_issueAll (storage : Storage) {loader : BootElfLoader}
    (type : BootElfLoadType) (present : loader.elfAddr ≠ 0) (machine : ElfMachine) :
    bootElfLoadImage storage loader type machine =
      issueAll storage (imageRequests loader.elfAddr type loader.progHdrs) machine := by
  unfold bootElfLoadImage
  rw [if_neg present]
  exact loadImageLoop_eq_issueAll storage type present loader.progHdrs 0 rfl machine

end QHal.Boot
