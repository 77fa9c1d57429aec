/-
Module: QHal.Proofs.MergeElfs
Purpose: Headers that were packed into a file are what the parser of the hash tool reads there; and
  the merged ELF file is a list of writes of disjoint parts: the header, one program header and one
  segment for each segment that is not skipped.
Trusted boundary: none
Main exports: length_packed, length_packedPhdr, readPhdrs_of_holds, preprocessElfFile_of_holds,
  keptPhdrs, layOut, Carried, Ordered, mergeElfs_eq_some, mergeElfs_spec
-/
import QHal.Qhash.CreateXbl
import QHal.Qhash.ElfFile

namespace QHal.Qhash

open Boot (Elf32Phdr)
open Files (readAt writeAt writeAll Holds holds_append Apart)

variable {file data : List UInt8} {offset : Nat}

@[simp]
theorem length_packed (header : Elf32Ehdr) : header.packed.length = elf32HdrSize := by
  simp [Elf32Ehdr.packed, elf32HdrSize]

@[simp]
theorem length_packedPhdr (header : Elf32Phdr) : (packedPhdr header).length = elf32PhdrSize := by
  simp [packedPhdr, elf32PhdrSize]

theorem length_packedTable (table : List Elf32Phdr) :
    (table.flatMap packedPhdr).length = table.length * elf32PhdrSize := by
  induction table with
  | nil => exact (Nat.zero_mul _).symm
  | cons header table ih =>
      rw [List.flatMap_cons, List.length_append, length_packedPhdr, ih, List.length_cons,
        Nat.succ_mul, Nat.add_comm]

/-! ## Fields -/

theorem field_of_holds {width value : Nat} (holds : Holds data offset (Bytes.ofNat width value))
    (inside : value < 256 ^ width) : field data offset width = value := by
  have read := Files.readAt_of_holds holds
  rw [Bytes.length_ofNat] at read
  rw [field, read, Bytes.toNat_ofNat_of_lt inside]

theorem word_of_holds {value : UInt32} (holds : Holds data offset (Bytes.ofNat 4 value.toNat)) :
    word data offset = value := by
  rw [word, field_of_holds holds value.toNat_lt, UInt32.ofNat_toNat]

theorem halfword_of_holds {value : UInt16} (holds : Holds data offset (Bytes.ofNat 2 value.toNat)) :
    halfword data offset = value := by
  rw [halfword, field_of_holds holds value.toNat_lt, UInt16.ofNat_toNat]

/-! ## Headers -/

theorem phdrOfBytes_of_holds {header : Elf32Phdr} (holds : Holds data 0 (packedPhdr header)) :
    phdrOfBytes data = header := by
  simp only [packedPhdr, holds_append, List.length_append, Bytes.length_ofNat, Nat.zero_add,
    Nat.reduceAdd, and_assoc] at holds
  obtain ⟨type, offset, vaddr, paddr, filesz, memsz, flags, align⟩ := holds
  rw [phdrOfBytes, word_of_holds type, word_of_holds offset, word_of_holds vaddr,
    word_of_holds paddr, word_of_holds filesz, word_of_holds memsz, word_of_holds flags,
    word_of_holds align]

/-- A program header is read back. -/
theorem unpackPhdr_readAt {header : Elf32Phdr} (holds : Holds file offset (packedPhdr header)) :
    unpackPhdr (readAt file offset elf32PhdrSize) = some header := by
  have read := Files.readAt_of_holds holds
  rw [length_packedPhdr] at read
  rw [read, unpackPhdr, if_pos (length_packedPhdr header),
    phdrOfBytes_of_holds (Files.holds_self _)]

theorem readPhdrs_of_holds {table : List Elf32Phdr}
    (holds : Holds file offset (table.flatMap packedPhdr)) :
    readPhdrs file elf32PhdrSize table.length offset = some table := by
  induction table generalizing offset with
  | nil => rfl
  | cons header table ih =>
      rw [List.flatMap_cons, holds_append, length_packedPhdr] at holds
      rw [List.length_cons, readPhdrs, unpackPhdr_readAt holds.1, Option.bind_eq_bind,
        Option.bind_some, ih holds.2]
      rfl

theorem ident_of_holds {ident : Vector UInt8 16} (holds : Holds data 0 ident.toList) :
    (Vector.ofFn fun i : Fin 16 => data.getD i 0) = ident := by
  apply Vector.ext
  intro i below
  have here := holds.placed i (by rw [Vector.length_toList]; exact below)
  rw [Nat.zero_add] at here
  rw [Vector.getElem_ofFn]
  exact here.trans (Vector.getElem_toList _)

theorem ehdrOfBytes_of_holds {header : Elf32Ehdr} (count : header.ePhnum < 2 ^ 16)
    (holds : Holds data 0 header.packed) : Elf32Ehdr.ofBytes data = header := by
  have phnum : (UInt16.ofNat header.ePhnum).toNat = header.ePhnum := UInt16.toNat_ofNat_of_lt' count
  rw [Elf32Ehdr.packed, ← phnum] at holds
  simp only [holds_append, List.length_append, Bytes.length_ofNat, Vector.length_toList,
    Nat.zero_add, Nat.reduceAdd, and_assoc] at holds
  obtain ⟨ident, type, machine, version, entry, phoff, shoff, flags, ehsize, phentsize, phnums,
    shentsize, shnum, shstrndx⟩ := holds
  rw [Elf32Ehdr.ofBytes, ident_of_holds ident, halfword_of_holds type,
    halfword_of_holds machine, word_of_holds version, word_of_holds entry, word_of_holds phoff,
    word_of_holds shoff, word_of_holds flags, halfword_of_holds ehsize, halfword_of_holds phentsize,
    halfword_of_holds phnums, halfword_of_holds shentsize, halfword_of_holds shnum,
    halfword_of_holds shstrndx, phnum]

/-- A file with a header and the table it points to is read as just these. -/
theorem preprocessElfFile_of_holds {header : Elf32Ehdr} {table : List Elf32Phdr}
    (verified : verifyElfHeader header.eIdent = true) (count : header.ePhnum = table.length)
    (few : table.length < 2 ^ 16) (width : header.ePhentsize.toNat = elf32PhdrSize)
    (holdsHeader : Holds file 0 header.packed)
    (holdsTable : Holds file header.ePhoff.toNat (table.flatMap packedPhdr)) :
    preprocessElfFile file = some (header, table) := by
  have long : elf32HdrSize ≤ file.length := by
    have inside := holdsHeader.inside fun empty => by
      have size := length_packed header
      rw [empty] at size
      exact absurd size (by decide)
    rwa [Nat.zero_add, length_packed] at inside
  have common : (readAt file 0 24).length = 24 := by
    rw [Files.length_readAt]
    have size : elf32HdrSize = 52 := rfl
    omega
  have ident : (Vector.ofFn fun i : Fin 16 => file.getD i 0) = header.eIdent := by
    apply ident_of_holds
    simp only [Elf32Ehdr.packed, holds_append, and_assoc] at holdsHeader
    exact holdsHeader.1
  have read := Files.readAt_of_holds holdsHeader
  rw [length_packed] at read
  have unpacked : Elf32Ehdr.unpack (readAt file 0 elf32HdrSize) = some header := by
    rw [read, Elf32Ehdr.unpack, if_pos (length_packed header),
      ehdrOfBytes_of_holds (count ▸ few) (Files.holds_self _)]
  simp only [preprocessElfFile, common, ident, verified, unpacked, guard_true, Option.pure_def,
    Option.bind_eq_bind, Option.bind_some, width, count, readPhdrs_of_holds holdsTable]

/-- The segments that are not skipped. -/
def keptPhdrs (skip : Elf32Phdr → Option Bool) : List Elf32Phdr → Option (List Elf32Phdr)
  | [] => some []
  | curr :: table => do
      let skipped ← skip curr
      let rest ← keptPhdrs skip table
      some (if skipped then rest else curr :: rest)

/-- The headers of segments one behind the other, in whole units of alignment. -/
def layOut : Nat → List Elf32Phdr → List Elf32Phdr
  | _, [] => []
  | start, curr :: table =>
      { curr with pOffset := UInt32.ofNat start } ::
        layOut (start + roundup curr.pFilesz.toNat segmentAlign) table

/-- Each segment begins at an offset that a header can say. -/
def Fits : Nat → List Elf32Phdr → Prop
  | _, [] => True
  | start, curr :: table =>
      start < 2 ^ 32 ∧ Fits (start + roundup curr.pFilesz.toNat segmentAlign) table

instance decidableFits : (start : Nat) → (kept : List Elf32Phdr) → Decidable (Fits start kept)
  | _, [] => isTrue trivial
  | start, curr :: table =>
      have := decidableFits (start + roundup curr.pFilesz.toNat segmentAlign) table
      inferInstanceAs (Decidable (_ ∧ _))

/-- What the loop of the merge writes. -/
def mergeWrites (source : List UInt8) :
    List Elf32Phdr → Nat → Nat → List (Nat × List UInt8)
  | [], _, _ => []
  | curr :: kept, phdrOffset, segmentOffset =>
      (phdrOffset, packedPhdr { curr with pOffset := UInt32.ofNat segmentOffset }) ::
        (segmentOffset, readAt source curr.pOffset.toNat curr.pFilesz.toNat) ::
          mergeWrites source kept (phdrOffset + elf32PhdrSize)
            (segmentOffset + roundup curr.pFilesz.toNat segmentAlign)

/-- A segment of one file in another one: only its offset has changed. -/
structure Carried (source target : List UInt8) (old new : Elf32Phdr) : Prop where
  same : new = { old with pOffset := new.pOffset }
  holds : Holds target new.pOffset.toNat (readAt source old.pOffset.toNat old.pFilesz.toNat)

/-- Segments one behind the other. -/
def Ordered (first second : Elf32Phdr) : Prop :=
  first.pOffset.toNat + first.pFilesz.toNat ≤ second.pOffset.toNat

/-- The bytes of a segment are all in the file. -/
def FullyRead (file : List UInt8) (phdr : Elf32Phdr) : Prop :=
  (readAt file phdr.pOffset.toNat phdr.pFilesz.toNat).length = phdr.pFilesz.toNat

theorem le_roundup {x precision : Nat} (positive : 0 < precision) : x ≤ roundup x precision := by
  have rest := Nat.mod_lt x positive
  unfold roundup
  split_ifs
  · exact Nat.le_refl x
  · omega

theorem precision_le_roundup {x precision : Nat} (positive : 0 < x) :
    precision ≤ roundup x precision := by
  unfold roundup
  split_ifs with whole
  · exact Nat.le_of_dvd positive (Nat.dvd_of_mod_eq_zero whole)
  · have rest := Nat.mod_le x precision
    omega

theorem length_readAt_le (file : List UInt8) (offset count : Nat) :
    (readAt file offset count).length ≤ count := by
  rw [Files.length_readAt]
  exact Nat.min_le_left _ _

theorem packI_eq_some {value : Int} {packed : UInt32} :
    packI value = some packed ↔
      (0 ≤ value ∧ value < 2 ^ 32) ∧ UInt32.ofNat value.toNat = packed := by
  unfold packI
  split_ifs with inside
  · rw [Option.some.injEq, and_iff_right inside]
  · exact iff_of_false (by simp) fun packed => inside packed.1

theorem movePhdr_eq_some {header moved : Elf32Phdr} {offset : Nat} :
    movePhdr header offset = some moved ↔
      offset < 2 ^ 32 ∧ moved = { header with pOffset := UInt32.ofNat offset } := by
  simp only [movePhdr, Option.bind_eq_bind, Option.bind_eq_some_iff, packI_eq_some,
    Int.toNat_natCast, Option.some.injEq]
  constructor
  · rintro ⟨packed, ⟨⟨-, below⟩, rfl⟩, rfl⟩
    exact ⟨by omega, rfl⟩
  · rintro ⟨below, rfl⟩
    exact ⟨_, ⟨⟨by omega, by omega⟩, rfl⟩, rfl⟩

/-! ## The parsed file -/

theorem length_readPhdrs {file : List UInt8} {size count offset : Nat} {table : List Elf32Phdr}
    (read : readPhdrs file size count offset = some table) : table.length = count := by
  induction count generalizing offset table with
  | zero =>
      cases read
      rfl
  | succ count ih =>
      simp only [readPhdrs, Option.bind_eq_bind, Option.bind_eq_some_iff] at read
      obtain ⟨header, -, rest, read, result⟩ := read
      cases result
      rw [List.length_cons, ih read]

/-- As many program headers are read as the header says, and it says so with 16 bits. -/
theorem length_preprocess {file : List UInt8} {header : Elf32Ehdr} {table : List Elf32Phdr}
    (parsed : preprocessElfFile file = some (header, table)) :
    header.ePhnum = table.length ∧ table.length < 2 ^ 16 := by
  simp only [preprocessElfFile, Option.bind_eq_bind, Option.bind_eq_some_iff] at parsed
  obtain ⟨-, -, -, -, read, unpacked, -, -, phdrs, reads, result⟩ := parsed
  cases result
  have length := length_readPhdrs reads
  unfold Elf32Ehdr.unpack at unpacked
  split at unpacked
  · have phnum := congrArg Elf32Ehdr.ePhnum (Option.some.inj unpacked)
    exact ⟨length.symm, length ▸ phnum ▸ UInt16.toNat_lt _⟩
  · cases unpacked

/-! ## The loop -/

variable {source : List UInt8} {skip : Elf32Phdr → Option Bool}

theorem countSkipped_of_kept {table kept : List Elf32Phdr}
    (keeps : keptPhdrs skip table = some kept) :
    kept.length ≤ table.length ∧ countSkipped skip table = some (table.length - kept.length) := by
  induction table generalizing kept with
  | nil =>
      cases keeps
      exact ⟨Nat.le_refl _, rfl⟩
  | cons curr table ih =>
      simp only [keptPhdrs, Option.bind_eq_bind, Option.bind_eq_some_iff] at keeps
      obtain ⟨skipped, asked, rest, keeps, result⟩ := keeps
      obtain ⟨fewer, counted⟩ := ih keeps
      simp only [countSkipped, asked, counted, Option.bind_eq_bind, Option.bind_some]
      cases skipped with
      | true =>
          rw [if_pos rfl] at result ⊢
          cases result
          rw [List.length_cons]
          exact ⟨by omega, congrArg some (by omega)⟩
      | false =>
          rw [if_neg Bool.false_ne_true] at result ⊢
          cases result
          rw [List.length_cons, List.length_cons]
          exact ⟨by omega, congrArg some (by omega)⟩

/-- The loop ends with all of its writes, if every segment that it keeps has an offset. -/
theorem mergeLoop_eq {table kept : List Elf32Phdr} {phdrOffset segmentOffset : Nat}
    {out : List UInt8} (keeps : keptPhdrs skip table = some kept) :
    mergeLoop source skip table phdrOffset segmentOffset out =
      if Fits segmentOffset kept then
        some (writeAll out (mergeWrites source kept phdrOffset segmentOffset))
      else none := by
  induction table generalizing kept phdrOffset segmentOffset out with
  | nil =>
      cases keeps
      exact (if_pos trivial).symm
  | cons curr table ih =>
      simp only [keptPhdrs, Option.bind_eq_bind, Option.bind_eq_some_iff] at keeps
      obtain ⟨skipped, asked, rest, keeps, result⟩ := keeps
      simp only [mergeLoop, asked, Option.bind_eq_bind, Option.bind_some]
      cases skipped with
      | true =>
          rw [if_pos rfl] at result ⊢
          cases result
          exact ih keeps
      | false =>
          rw [if_neg Bool.false_ne_true] at result ⊢
          cases result
          by_cases small : segmentOffset < 2 ^ 32
          · have moved := movePhdr_eq_some.mpr ⟨small, Eq.refl
              { curr with pOffset := UInt32.ofNat segmentOffset }⟩
            have place : (UInt32.ofNat segmentOffset).toNat = segmentOffset :=
              UInt32.toNat_ofNat_of_lt' small
            rw [moved, Option.bind_some, ih keeps]
            simp only [Fits, small, true_and, place, fileCopyOffset]
            rfl
          · have failed : movePhdr curr segmentOffset = none := by
              rw [Option.eq_none_iff_forall_ne_some]
              intro moved fine
              exact small (movePhdr_eq_some.mp fine).1
            rw [failed, Option.bind_none, if_neg fun fits => small fits.1]

/-- Where the first segment of the merged file goes. -/
def mergeStart (header : Elf32Ehdr) : Nat :=
  roundup (elf32HdrSize + header.ePhnum * elf32PhdrSize) pageSize

/-- The merged file as a list of writes. -/
def mergedWrites (file : List UInt8) (header : Elf32Ehdr) (kept : List Elf32Phdr) :
    List (Nat × List UInt8) :=
  (0, (outElfHeader header.eEntry kept.length).packed) ::
    mergeWrites file kept elf32HdrSize (mergeStart header)

theorem mergeElfs_eq {file : List UInt8} {checkNoinitEnabled : Bool} {header : Elf32Ehdr}
    {table kept : List Elf32Phdr} (parsed : preprocessElfFile file = some (header, table))
    (keeps : keptPhdrs (shouldSkipSegment file header checkNoinitEnabled) table = some kept) :
    mergeElfs file checkNoinitEnabled =
      if Fits (mergeStart header) kept then some (writeAll [] (mergedWrites file header kept))
      else none := by
  obtain ⟨count, few⟩ := length_preprocess parsed
  obtain ⟨fewer, counted⟩ := countSkipped_of_kept keeps
  have number : header.ePhnum - (table.length - kept.length) = kept.length := by omega
  have packed : (outElfHeader header.eEntry kept.length).getPackedData =
      some (outElfHeader header.eEntry kept.length).packed :=
    if_pos (Nat.lt_of_le_of_lt fewer few)
  simp only [mergeElfs, parsed, counted, number, packed, Option.bind_eq_bind, Option.bind_some,
    mergeLoop_eq keeps, mergedWrites, Files.writeAll_cons]
  rfl

/-- A file that was merged has segments that are kept. -/
theorem keptPhdrs_of_merged {file merged : List UInt8} {checkNoinitEnabled : Bool}
    {header : Elf32Ehdr} {table : List Elf32Phdr}
    (parsed : preprocessElfFile file = some (header, table))
    (made : mergeElfs file checkNoinitEnabled = some merged) :
    ∃ kept, keptPhdrs (shouldSkipSegment file header checkNoinitEnabled) table = some kept := by
  simp only [mergeElfs, parsed, Option.bind_eq_bind, Option.bind_some,
    Option.bind_eq_some_iff] at made
  obtain ⟨skipped, counted, -⟩ := made
  clear parsed
  induction table generalizing skipped with
  | nil => exact ⟨[], rfl⟩
  | cons curr table ih =>
      simp only [countSkipped, Option.bind_eq_bind, Option.bind_eq_some_iff] at counted
      obtain ⟨answer, asked, rest, counted, -⟩ := counted
      obtain ⟨kept, keeps⟩ := ih rest counted
      simp only [keptPhdrs, asked, keeps, Option.bind_eq_bind, Option.bind_some]
      exact ⟨_, rfl⟩

/-! ## The parts are disjoint -/

theorem mem_mergeWrites {kept : List Elf32Phdr} {phdrOffset segmentOffset : Nat}
    {write : Nat × List UInt8} (mem : write ∈ mergeWrites source kept phdrOffset segmentOffset) :
    (phdrOffset ≤ write.1 ∧
        write.1 + write.2.length ≤ phdrOffset + kept.length * elf32PhdrSize) ∨
      segmentOffset ≤ write.1 := by
  induction kept generalizing phdrOffset segmentOffset with
  | nil => exact absurd mem List.not_mem_nil
  | cons curr kept ih =>
      rw [List.length_cons, Nat.succ_mul]
      rcases List.mem_cons.mp mem with rfl | mem
      · left
        rw [length_packedPhdr]
        exact ⟨Nat.le_refl _, by omega⟩
      · rcases List.mem_cons.mp mem with rfl | mem
        · exact Or.inr (Nat.le_refl _)
        · rcases ih mem with table | segments
          · exact Or.inl ⟨by omega, by omega⟩
          · exact Or.inr (Nat.le_trans (Nat.le_add_right _ _) segments)

theorem pairwise_mergeWrites {kept : List Elf32Phdr} {phdrOffset segmentOffset : Nat}
    (room : phdrOffset + kept.length * elf32PhdrSize ≤ segmentOffset) :
    (mergeWrites source kept phdrOffset segmentOffset).Pairwise Apart := by
  induction kept generalizing phdrOffset segmentOffset with
  | nil => exact List.Pairwise.nil
  | cons curr kept ih =>
      rw [List.length_cons, Nat.succ_mul] at room
      have short := length_readAt_le source curr.pOffset.toNat curr.pFilesz.toNat
      have aligned : curr.pFilesz.toNat ≤ roundup curr.pFilesz.toNat segmentAlign :=
        le_roundup (by decide)
      refine List.Pairwise.cons ?_ (List.Pairwise.cons ?_ (ih (by omega)))
      · intro later mem
        left
        rw [length_packedPhdr]
        rcases List.mem_cons.mp mem with rfl | mem
        · exact Nat.le_trans (by omega) room
        · rcases mem_mergeWrites mem with table | segments
          · exact table.1
          · exact Nat.le_trans (by omega) segments
      · intro later mem
        rcases mem_mergeWrites mem with table | segments
        · exact Or.inr (Nat.le_trans table.2 (by omega))
        · exact Or.inl (Nat.le_trans (Nat.add_le_add_left (Nat.le_trans short aligned) _) segments)

/-- The headers that the writes put one behind the other. -/
theorem holds_layOut {file : List UInt8} {kept : List Elf32Phdr} {phdrOffset segmentOffset : Nat}
    (holds : ∀ write ∈ mergeWrites source kept phdrOffset segmentOffset,
      Holds file write.1 write.2) :
    Holds file phdrOffset ((layOut segmentOffset kept).flatMap packedPhdr) := by
  induction kept generalizing phdrOffset segmentOffset with
  | nil => exact Files.holds_nil _ _
  | cons curr kept ih =>
      rw [layOut, List.flatMap_cons, Files.holds_append, length_packedPhdr]
      refine ⟨holds _ List.mem_cons_self, ih ?_⟩
      intro write mem
      exact holds write (List.mem_cons_of_mem _ (List.mem_cons_of_mem _ mem))

theorem carried_layOut {file : List UInt8} {kept : List Elf32Phdr}
    {phdrOffset segmentOffset : Nat} (fits : Fits segmentOffset kept)
    (holds : ∀ write ∈ mergeWrites source kept phdrOffset segmentOffset,
      Holds file write.1 write.2) :
    List.Forall₂ (Carried source file) kept (layOut segmentOffset kept) := by
  induction kept generalizing phdrOffset segmentOffset with
  | nil => exact List.Forall₂.nil
  | cons curr kept ih =>
      have rest := ih fits.2 fun write mem =>
        holds write (List.mem_cons_of_mem _ (List.mem_cons_of_mem _ mem))
      refine List.Forall₂.cons ⟨rfl, ?_⟩ rest
      have place : (UInt32.ofNat segmentOffset).toNat = segmentOffset :=
        UInt32.toNat_ofNat_of_lt' fits.1
      simp only [place]
      exact holds _ (List.mem_cons_of_mem _ List.mem_cons_self)

theorem le_layOut {kept : List Elf32Phdr} {start : Nat} (fits : Fits start kept)
    {phdr : Elf32Phdr} (mem : phdr ∈ layOut start kept) : start ≤ phdr.pOffset.toNat := by
  induction kept generalizing start with
  | nil => exact absurd mem List.not_mem_nil
  | cons curr kept ih =>
      rcases List.mem_cons.mp mem with rfl | mem
      · exact Nat.le_of_eq (UInt32.toNat_ofNat_of_lt' fits.1).symm
      · exact Nat.le_trans (Nat.le_add_right _ _) (ih fits.2 mem)

theorem ordered_layOut {kept : List Elf32Phdr} {start : Nat} (fits : Fits start kept) :
    (layOut start kept).Pairwise Ordered := by
  induction kept generalizing start with
  | nil => exact List.Pairwise.nil
  | cons curr kept ih =>
      refine List.Pairwise.cons ?_ (ih fits.2)
      intro later mem
      have place : (UInt32.ofNat start).toNat = start := UInt32.toNat_ofNat_of_lt' fits.1
      have aligned : curr.pFilesz.toNat ≤ roundup curr.pFilesz.toNat segmentAlign :=
        le_roundup (by decide)
      have behind := le_layOut fits.2 mem
      simp only [Ordered, place]
      exact Nat.le_trans (Nat.add_le_add_left aligned _) behind

theorem length_layOut (start : Nat) (kept : List Elf32Phdr) :
    (layOut start kept).length = kept.length := by
  induction kept generalizing start with
  | nil => rfl
  | cons curr kept ih => rw [layOut, List.length_cons, ih, List.length_cons]

/-- A merged file has the kept headers in their order, each with its segment, and the segments one
behind the other from a page boundary on. -/
structure Merged (file merged : List UInt8) (header : Elf32Ehdr) (kept : List Elf32Phdr) :
    Prop where
  fits : Fits (mergeStart header) kept
  parsed : preprocessElfFile merged =
    some (outElfHeader header.eEntry kept.length, layOut (mergeStart header) kept)
  carried : List.Forall₂ (Carried file merged) kept (layOut (mergeStart header) kept)

theorem mergeElfs_spec {file merged : List UInt8} {checkNoinitEnabled : Bool}
    {header : Elf32Ehdr} {table kept : List Elf32Phdr}
    (parsed : preprocessElfFile file = some (header, table))
    (keeps : keptPhdrs (shouldSkipSegment file header checkNoinitEnabled) table = some kept)
    (made : mergeElfs file checkNoinitEnabled = some merged) : Merged file merged header kept := by
  rw [mergeElfs_eq parsed keeps] at made
  split_ifs at made with fits
  cases made
  obtain ⟨count, few⟩ := length_preprocess parsed
  obtain ⟨fewer, -⟩ := countSkipped_of_kept keeps
  have start : elf32HdrSize + kept.length * elf32PhdrSize ≤ mergeStart header := by
    have more : elf32HdrSize + header.ePhnum * elf32PhdrSize ≤ mergeStart header :=
      le_roundup (by decide)
    rw [count] at more
    have scaled := Nat.mul_le_mul_right elf32PhdrSize fewer
    omega
  have disjoint : (mergedWrites file header kept).Pairwise Apart := by
    refine List.Pairwise.cons ?_ (pairwise_mergeWrites start)
    intro later mem
    left
    rw [length_packed]
    rcases mem_mergeWrites mem with inTable | inSegments
    · exact Nat.le_trans (Nat.le_of_eq (Nat.zero_add _)) inTable.1
    · exact Nat.le_trans (by omega) inSegments
  have holds : ∀ write ∈ mergedWrites file header kept,
      Holds (writeAll [] (mergedWrites file header kept)) write.1 write.2 :=
    fun write mem => Files.holds_writeAll disjoint mem
  have loop : ∀ write ∈ mergeWrites file kept elf32HdrSize (mergeStart header),
      Holds (writeAll [] (mergedWrites file header kept)) write.1 write.2 :=
    fun write mem => holds write (List.mem_cons_of_mem _ mem)
  refine ⟨fits, ?_, carried_layOut fits loop⟩
  refine preprocessElfFile_of_holds rfl (length_layOut _ _).symm ?_ rfl
    (holds _ List.mem_cons_self) (holds_layOut loop)
  rw [length_layOut]
  exact Nat.lt_of_le_of_lt fewer few

end QHal.Qhash
