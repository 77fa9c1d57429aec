/-
Module: QHal.Proofs.PbootGenElf
Purpose: The file that pboot_gen_elf makes of a merged file, as a list of writes of disjoint parts
  with a gap for the hash segment.
Trusted boundary: none
Main exports: segments, segmentEntries_carried, pbootGenElf_eq_some, Generated, generated_spec
-/
import Mathlib.Data.List.Forall2
import QHal.Qhash.MbnTools
import QHal.Proofs.MergeElfs

namespace QHal.Qhash

open Boot (Elf32Phdr Digest)
open Files (readAt writeAt writeAll Holds Apart)

/-- The program headers that the hash tool keeps. -/
def segments (table : List Elf32Phdr) : List Elf32Phdr :=
  table.filter fun curr => curr.pType ≠ phdrType

/-- A header behind the hash segment. -/
def shifted (shift : Nat) (phdr : Elf32Phdr) : Elf32Phdr :=
  { phdr with pOffset := UInt32.ofNat (phdr.pOffset.toNat + shift) }

/-- Program headers one behind the other. -/
def phdrWrites : Nat → List Elf32Phdr → List (Nat × List UInt8)
  | _, [] => []
  | start, curr :: table => (start, packedPhdr curr) :: phdrWrites (start + elf32PhdrSize) table

/-- The segments, as they are copied. -/
def copyWrites (input : List UInt8) (shift : Nat) (table : List Elf32Phdr) :
    List (Nat × List UInt8) :=
  table.map fun curr =>
    (curr.pOffset.toNat + shift, readAt input curr.pOffset.toNat curr.pFilesz.toNat)

theorem segments_cons_phdr {curr : Elf32Phdr} {table : List Elf32Phdr}
    (type : curr.pType = phdrType) : segments (curr :: table) = segments table := by
  simp [segments, type]

theorem segments_cons_other {curr : Elf32Phdr} {table : List Elf32Phdr}
    (type : curr.pType ≠ phdrType) : segments (curr :: table) = curr :: segments table := by
  simp [segments, type]

theorem length_segments (table : List Elf32Phdr) :
    (segments table).length + table.countP (fun curr => curr.pType = phdrType) = table.length := by
  induction table with
  | nil => rfl
  | cons curr table ih =>
      rw [List.countP_cons, List.length_cons]
      by_cases type : curr.pType = phdrType
      · rw [segments_cons_phdr type, if_pos (decide_eq_true type), ← Nat.add_assoc, ih]
      · rw [segments_cons_other type, if_neg (by simpa using type), List.length_cons]
        omega

/-! ## The writes of `pboot_gen_elf` -/

theorem copySegments_eq (input : List UInt8) (shift : Nat) (table : List Elf32Phdr)
    (out : List UInt8) :
    copySegments input shift table out =
      writeAll out (copyWrites input shift (segments table)) := by
  induction table generalizing out with
  | nil => rfl
  | cons curr table ih =>
      by_cases type : curr.pType = phdrType
      · rw [copySegments, if_pos type, segments_cons_phdr type, ih]
      · rw [copySegments, if_neg type, segments_cons_other type, ih]
        rfl

theorem writePhdrs_eq {shift : Nat} {table : List Elf32Phdr} {phdrStart : Nat}
    {out : List UInt8} :
    writePhdrs elf32PhdrSize shift table phdrStart out =
      if ∀ curr ∈ segments table, curr.pOffset.toNat + shift < 2 ^ 32 then
        some (writeAll out (phdrWrites phdrStart ((segments table).map (shifted shift))))
      else none := by
  induction table generalizing phdrStart out with
  | nil =>
      refine (if_pos ?_).symm
      intro curr mem
      exact absurd mem List.not_mem_nil
  | cons curr table ih =>
      by_cases type : curr.pType = phdrType
      · rw [writePhdrs, if_pos type, segments_cons_phdr type, ih]
      · rw [writePhdrs, if_neg type, segments_cons_other type]
        by_cases small : curr.pOffset.toNat + shift < 2 ^ 32
        · have moved := movePhdr_eq_some.mpr ⟨small, Eq.refl (shifted shift curr)⟩
          simp only [moved, Option.bind_eq_bind, Option.bind_some, ih, List.forall_mem_cons, small,
            true_and, List.map_cons]
          rfl
        · have failed : movePhdr curr (curr.pOffset.toNat + shift) = none := by
            rw [Option.eq_none_iff_forall_ne_some]
            intro moved fine
            exact small (movePhdr_eq_some.mp fine).1
          rw [failed, if_neg fun fits => small (fits curr List.mem_cons_self)]
          rfl

theorem mem_phdrWrites {start : Nat} {table : List Elf32Phdr} {write : Nat × List UInt8}
    (mem : write ∈ phdrWrites start table) :
    start ≤ write.1 ∧ write.1 + write.2.length ≤ start + table.length * elf32PhdrSize := by
  induction table generalizing start with
  | nil => exact absurd mem List.not_mem_nil
  | cons curr table ih =>
      rw [List.length_cons, Nat.succ_mul]
      rcases List.mem_cons.mp mem with rfl | mem
      · rw [length_packedPhdr]
        exact ⟨Nat.le_refl _, by omega⟩
      · obtain ⟨behind, inside⟩ := ih mem
        exact ⟨by omega, by omega⟩

theorem pairwise_phdrWrites (start : Nat) (table : List Elf32Phdr) :
    (phdrWrites start table).Pairwise Apart := by
  induction table generalizing start with
  | nil => exact List.Pairwise.nil
  | cons curr table ih =>
      refine List.Pairwise.cons ?_ (ih _)
      intro later mem
      left
      rw [length_packedPhdr]
      exact (mem_phdrWrites mem).1

theorem holds_phdrWrites {file : List UInt8} {start : Nat} {table : List Elf32Phdr}
    (holds : ∀ write ∈ phdrWrites start table, Holds file write.1 write.2) :
    Holds file start (table.flatMap packedPhdr) := by
  induction table generalizing start with
  | nil => exact Files.holds_nil _ _
  | cons curr table ih =>
      rw [List.flatMap_cons, Files.holds_append, length_packedPhdr]
      exact ⟨holds _ List.mem_cons_self,
        ih fun write mem => holds write (List.mem_cons_of_mem _ mem)⟩

theorem pairwise_copyWrites {input : List UInt8} {shift : Nat} {table : List Elf32Phdr}
    (ordered : table.Pairwise Ordered) : (copyWrites input shift table).Pairwise Apart := by
  refine ordered.map _ ?_
  intro first second behind
  left
  have short := length_readAt_le input first.pOffset.toNat first.pFilesz.toNat
  unfold Ordered at behind
  dsimp only
  omega

/-! ## Where the hash segment ends -/

theorem minOffset_le_of_mem {first curr : Elf32Phdr} {table : List Elf32Phdr}
    (mem : curr ∈ table) : minOffset first table ≤ curr.pOffset.toNat := by
  have least : ∀ (rest : List Elf32Phdr) (bound : Nat),
      rest.foldl (fun least curr => if curr.pOffset.toNat < least then curr.pOffset.toNat
        else least) bound ≤ bound ∧
      ∀ other ∈ rest, rest.foldl (fun least curr => if curr.pOffset.toNat < least then
        curr.pOffset.toNat else least) bound ≤ other.pOffset.toNat := by
    intro rest
    induction rest with
    | nil =>
        intro bound
        exact ⟨Nat.le_refl _, fun other mem => absurd mem List.not_mem_nil⟩
    | cons head rest ih =>
        intro bound
        rw [List.foldl_cons]
        obtain ⟨below, others⟩ := ih (if head.pOffset.toNat < bound then head.pOffset.toNat
          else bound)
        have smaller : (if head.pOffset.toNat < bound then head.pOffset.toNat else bound) ≤
            bound ∧ (if head.pOffset.toNat < bound then head.pOffset.toNat else bound) ≤
            head.pOffset.toNat := by
          split_ifs <;> omega
        refine ⟨Nat.le_trans below smaller.1, ?_⟩
        intro other mem
        rcases List.mem_cons.mp mem with rfl | mem
        · exact Nat.le_trans below smaller.2
        · exact others other mem
  exact (least table first.pOffset.toNat).2 curr mem

/-- Every segment is moved behind the hash segment. -/
theorem hashSegEnd_le_shift {curr : Elf32Phdr} {table : List Elf32Phdr} (size : Nat)
    (mem : curr ∈ table) : hashSegEnd size ≤ curr.pOffset.toNat + hashtableShift table size := by
  cases table with
  | nil => exact absurd mem List.not_mem_nil
  | cons first rest =>
      have least := @minOffset_le_of_mem first _ _ mem
      rw [hashtableShift]
      split_ifs with before
      · omega
      · omega

theorem hashTblEndAddr_lt (size : Nat) : hashTblEndAddr size < hashSegEnd size := by
  have rest := Nat.mod_lt (hashTblEndAddr size) (show 0 < elfBlockAlign by decide)
  simp only [hashSegEnd, bytesToPad]
  omega

theorem initializeHashPhdr_spec {file : List UInt8} {size : Nat} {hashPhdr : Elf32Phdr}
    (made : initializeHashPhdr file size = some hashPhdr) :
    hashPhdr.pType = nullType ∧ hashPhdr.pOffset.toNat = elfBlockAlign ∧
      hashPhdr.pFilesz.toNat = miBootImgHdrSize + size ∧
      hashPhdr.pFlags = miPbtElfHashSegment := by
  simp only [initializeHashPhdr, Option.bind_eq_bind, Option.bind_eq_some_iff,
    packI_eq_some] at made
  obtain ⟨address, -, paddr, -, filesz, ⟨⟨-, small⟩, rfl⟩, memsz, -, result⟩ := made
  cases result
  refine ⟨rfl, rfl, ?_, rfl⟩
  simp only [Int.toNat_natCast]
  exact UInt32.toNat_ofNat_of_lt' (by exact_mod_cast small)

/-! ## The entries of a segment follow its bytes -/

/-- The bytes of a segment are the same in both files. -/
theorem Carried.readAt_eq {source target : List UInt8} {old new : Elf32Phdr}
    (carried : Carried source target old new) (full : FullyRead source old) :
    readAt target new.pOffset.toNat new.pFilesz.toNat =
      readAt source old.pOffset.toNat old.pFilesz.toNat := by
  have read := Files.readAt_of_holds carried.holds
  rw [full] at read
  have size : new.pFilesz = old.pFilesz := by rw [carried.same]
  rw [size]
  exact read

theorem Carried.fullyRead {source target : List UInt8} {old new : Elf32Phdr}
    (carried : Carried source target old new) (full : FullyRead source old) :
    FullyRead target new := by
  have size : new.pFilesz = old.pFilesz := by rw [carried.same]
  unfold FullyRead
  rw [carried.readAt_eq full, full, size]

theorem Carried.trans {first second third : List UInt8} {old middle new : Elf32Phdr}
    (front : Carried first second old middle) (back : Carried second third middle new)
    (full : FullyRead first old) : Carried first third old new where
  same := by
    rw [back.same, front.same]
  holds := by
    rw [← front.readAt_eq full]
    exact back.holds

/-- The blocks of a paged segment that begin behind the first block of the file. -/
theorem pagedLoop_carried {source target : List UInt8} {old new : Elf32Phdr}
    (carried : Carried source target old new) (full : FullyRead source old)
    (oldBehind : elfBlockAlign ≤ old.pOffset.toNat) (newBehind : elfBlockAlign ≤ new.pOffset.toNat)
    (digest : List UInt8 → Digest) (flags : UInt32) (fuel inner blocks : Nat)
    (inside : inner + blocks * elfBlockAlign ≤ old.pFilesz.toNat) :
    pagedLoop digest target flags fuel (new.pOffset.toNat + inner)
        (new.pOffset.toNat + inner + blocks * elfBlockAlign : Nat) =
      pagedLoop digest source flags fuel (old.pOffset.toNat + inner)
        (old.pOffset.toNat + inner + blocks * elfBlockAlign : Nat) := by
  induction fuel generalizing inner blocks with
  | zero => rfl
  | succ fuel ih =>
      cases blocks with
      | zero =>
          rw [pagedLoop, pagedLoop, if_neg (by omega), if_neg (by omega)]
      | succ blocks =>
          rw [Nat.succ_mul] at inside
          have positive : 0 < elfBlockAlign := by decide
          have rest := ih (inner + elfBlockAlign) blocks (by omega)
          have block : readAt target (new.pOffset.toNat + inner) elfBlockAlign =
              readAt source (old.pOffset.toNat + inner) elfBlockAlign := by
            rw [Files.readAt_part carried.holds (by rw [full]; omega),
              Files.readAt_readAt (by omega)]
          have ends (start : Nat) : start + inner + (blocks + 1) * elfBlockAlign =
              start + (inner + elfBlockAlign) + blocks * elfBlockAlign := by
            rw [Nat.succ_mul]
            omega
          have before (start : Nat) : ((start + inner : Nat) : Int) <
              (start + (inner + elfBlockAlign) + blocks * elfBlockAlign : Nat) := by
            omega
          rw [pagedLoop, pagedLoop, ends, ends, if_pos (before _), if_pos (before _)]
          rw [if_neg (show ¬ new.pOffset.toNat + inner < elfBlockAlign by omega),
            if_neg (show ¬ old.pOffset.toNat + inner < elfBlockAlign by omega)]
          dsimp only
          rw [block, Nat.add_assoc new.pOffset.toNat, Nat.add_assoc old.pOffset.toNat, rest]

/-- A segment has the same entries in both files. -/
theorem segmentEntries_carried {source target : List UInt8} {old new : Elf32Phdr}
    (carried : Carried source target old new) (full : FullyRead source old)
    (oldBehind : elfBlockAlign ≤ old.pOffset.toNat) (newBehind : elfBlockAlign ≤ new.pOffset.toNat)
    (digest : List UInt8 → Digest) :
    segmentEntries digest target new = segmentEntries digest source old := by
  have read := carried.readAt_eq full
  have flags : new.pFlags = old.pFlags := by rw [carried.same]
  have type : new.pType = old.pType := by rw [carried.same]
  have size : new.pFilesz = old.pFilesz := by rw [carried.same]
  have skip : pagedSkip new = pagedSkip old := by rw [carried.same]; rfl
  rw [size] at read
  simp only [segmentEntries, flags, type, size, skip, read]
  by_cases paged : miPbtPageModeValue old.pFlags = miPbtPagedSegment
  · rw [if_pos paged, if_pos paged]
    split_ifs with partly
    · rfl
    · by_cases some : pagedSkip old ≤ old.pFilesz.toNat
      · have unit : elfBlockAlign = 2048 := rfl
        obtain ⟨blocks, whole⟩ : elfBlockAlign ∣ old.pFilesz.toNat - pagedSkip old := by
          apply Nat.dvd_of_mod_eq_zero
          rw [unit] at partly ⊢
          omega
        have inside : pagedSkip old + blocks * elfBlockAlign = old.pFilesz.toNat := by
          rw [Nat.mul_comm blocks]
          omega
        have loop := pagedLoop_carried carried full oldBehind newBehind digest old.pFlags
          (old.pFilesz.toNat / elfBlockAlign + 1) (pagedSkip old) blocks (Nat.le_of_eq inside)
        have ends (start : Nat) :
            ((start + pagedSkip old + blocks * elfBlockAlign : Nat) : Int) =
              (start + pagedSkip old : Nat) + ((old.pFilesz.toNat : Int) - pagedSkip old) := by
          omega
        rw [ends, ends] at loop
        exact loop
      · rw [pagedLoop, pagedLoop, if_neg (by omega), if_neg (by omega)]
  · rw [if_neg paged, if_neg paged]

theorem hashEntries_segments {digest : List UInt8 → Digest} {file : List UInt8}
    {table : List Elf32Phdr}
    (unpaged : ∀ phdr ∈ table, phdr.pType = phdrType →
      miPbtPageModeValue phdr.pFlags ≠ miPbtPagedSegment) :
    hashEntries digest file (segments table) = hashEntries digest file table := by
  induction table with
  | nil => rfl
  | cons curr table ih =>
      have rest := ih fun phdr mem => unpaged phdr (List.mem_cons_of_mem _ mem)
      by_cases type : curr.pType = phdrType
      · have none : segmentEntries digest file curr = some [] := by
          rw [segmentEntries, if_neg (unpaged curr List.mem_cons_self type),
            if_neg (not_not.mpr type)]
        rw [segments_cons_phdr type, rest, hashEntries, none]
        cases hashEntries digest file table <;> rfl
      · rw [segments_cons_other type, hashEntries, hashEntries, rest]

theorem hashEntries_carried {source target : List UInt8} {olds news : List Elf32Phdr}
    (carried : List.Forall₂ (Carried source target) olds news)
    (full : ∀ phdr ∈ olds, FullyRead source phdr)
    (oldBehind : ∀ phdr ∈ olds, elfBlockAlign ≤ phdr.pOffset.toNat)
    (newBehind : ∀ phdr ∈ news, elfBlockAlign ≤ phdr.pOffset.toNat)
    (digest : List UInt8 → Digest) :
    hashEntries digest target news = hashEntries digest source olds := by
  induction carried with
  | nil => rfl
  | cons head tail ih =>
      rw [List.forall_mem_cons] at full oldBehind newBehind
      rw [hashEntries, hashEntries,
        segmentEntries_carried head full.1 oldBehind.1 newBehind.1 digest,
        ih full.2 oldBehind.2 newBehind.2]

/-! ## Tables of carried segments -/

theorem carried_segments {source target : List UInt8} {olds news : List Elf32Phdr}
    (carried : List.Forall₂ (Carried source target) olds news) :
    List.Forall₂ (Carried source target) (segments olds) (segments news) := by
  induction carried with
  | nil => exact List.Forall₂.nil
  | @cons old new olds news head tail ih =>
      have type : new.pType = old.pType := by rw [head.same]
      by_cases other : old.pType = phdrType
      · rw [segments_cons_phdr other, segments_cons_phdr (type.trans other)]
        exact ih
      · rw [segments_cons_other other, segments_cons_other (type ▸ other)]
        exact List.Forall₂.cons head ih

theorem carried_trans {first second third : List UInt8} {olds middles news : List Elf32Phdr}
    (front : List.Forall₂ (Carried first second) olds middles)
    (back : List.Forall₂ (Carried second third) middles news)
    (full : ∀ phdr ∈ olds, FullyRead first phdr) :
    List.Forall₂ (Carried first third) olds news := by
  induction front generalizing news with
  | nil =>
      cases back
      exact List.Forall₂.nil
  | cons head tail ih =>
      cases back with
      | cons next rest =>
          rw [List.forall_mem_cons] at full
          exact List.Forall₂.cons (head.trans next full.1) (ih rest full.2)

/-- What a segment hands on to the carried one. -/
theorem forall_carried {source target : List UInt8} {olds news : List Elf32Phdr}
    {first second : Elf32Phdr → Prop}
    (carried : List.Forall₂ (Carried source target) olds news)
    (step : ∀ old new, Carried source target old new → first old → second new)
    (all : ∀ phdr ∈ olds, first phdr) : ∀ phdr ∈ news, second phdr := by
  induction carried with
  | nil =>
      intro phdr mem
      exact absurd mem List.not_mem_nil
  | cons head tail ih =>
      rw [List.forall_mem_cons] at all ⊢
      exact ⟨step _ _ head all.1, ih all.2⟩

/-! ## The file with the headers -/

/-- The size of the ELF header and the program headers. -/
def headersSize (table : List Elf32Phdr) : Nat :=
  elf32HdrSize + (2 + (segments table).length) * elf32PhdrSize

/-- The program headers of the output. -/
def pbootPhdrs (shift : Nat) (hashPhdr : Elf32Phdr) (table : List Elf32Phdr) : List Elf32Phdr :=
  elfPhdrSegment (UInt32.ofNat (headersSize table)) :: hashPhdr ::
    (segments table).map (shifted shift)

/-- The file of `pboot_gen_elf` as a list of writes. -/
def pbootWrites (input : List UInt8) (shift : Nat) (header : Elf32Ehdr) (hashPhdr : Elf32Phdr)
    (table : List Elf32Phdr) : List (Nat × List UInt8) :=
  copyWrites input shift (segments table) ++
    (phdrWrites elf32HdrSize (pbootPhdrs shift hashPhdr table) ++
      [(0, (pbootHeader header table).packed)])

theorem length_pbootPhdrs (shift : Nat) (hashPhdr : Elf32Phdr) (table : List Elf32Phdr) :
    (pbootPhdrs shift hashPhdr table).length = 2 + (segments table).length := by
  rw [pbootPhdrs, List.length_cons, List.length_cons, List.length_map]
  omega

theorem pbootHeader_phnum {header : Elf32Ehdr} {table : List Elf32Phdr}
    (count : header.ePhnum = table.length) :
    (pbootHeader header table).ePhnum = 2 + (segments table).length := by
  have total := length_segments table
  simp only [pbootHeader, count]
  omega

/-- What a run of `pboot_gen_elf` that succeeds has done. -/
theorem pbootGenElf_eq_some {digest : List UInt8 → Digest} {file elf hashTbl : List UInt8}
    {header : Elf32Ehdr} {table : List Elf32Phdr}
    (parsed : preprocessElfFile file = some (header, table))
    (width : header.ePhentsize.toNat = elf32PhdrSize)
    (made : pbootGenElf digest file = some (elf, hashTbl)) :
    ∃ (entries : List Digest) (hashPhdr : Elf32Phdr),
      let size := miProgBootDigestSize * (2 + entries.length)
      hashEntries digest file table = some entries ∧
        initializeHashPhdr file size = some hashPhdr ∧
        header.ePhnum ≤ maxPhdrCount ∧
        (∀ curr ∈ segments table, curr.pOffset.toNat + hashtableShift table size < 2 ^ 32) ∧
        elf = writeAll [] (pbootWrites file (hashtableShift table size) header hashPhdr table) ∧
        hashTbl = writeAt (tableBytes ([noDigest, noDigest] ++ entries)) 0
          (digest (readAt elf 0 (headersSize table))).toList := by
  obtain ⟨count, -⟩ := length_preprocess parsed
  have number := pbootHeader_phnum count
  simp only [pbootGenElf, parsed, width, Option.bind_eq_bind, Option.bind_some,
    Option.bind_eq_some_iff, Option.guard_eq_some', number, Option.some.injEq, Prod.mk.injEq,
    writePhdrs_eq, packI_eq_some] at made
  obtain ⟨-, few, entries, hashed, hashPhdr, initialised, filesz, ⟨-, rfl⟩, out, written, packed,
    packs, final, tableBytes⟩ := made
  rw [final] at tableBytes
  split_ifs at written with fits
  cases written
  unfold Elf32Ehdr.getPackedData at packs
  split_ifs at packs
  obtain rfl := Option.some.inj packs
  have joined := Files.readAt_append elf 0 elf32HdrSize
    ((2 + (segments table).length) * elf32PhdrSize)
  rw [Nat.zero_add] at joined
  rw [joined] at tableBytes
  refine ⟨entries, hashPhdr, hashed, initialised, few, fits, ?_, tableBytes.symm⟩
  have third :
      elf32HdrSize + elf32PhdrSize + elf32PhdrSize = elf32HdrSize + 2 * elf32PhdrSize := rfl
  rw [← final, pbootWrites, Files.writeAll_append, Files.writeAll_append, copySegments_eq,
    pbootPhdrs, phdrWrites, phdrWrites, third, Files.writeAll_cons, Files.writeAll_cons,
    Files.writeAll_cons, Files.writeAll_nil]
  rfl

/-! ## The hash segment -/

theorem length_tableBytes (entries : List Digest) :
    (tableBytes entries).length = miProgBootDigestSize * entries.length := by
  induction entries with
  | nil => rfl
  | cons entry entries ih =>
      rw [tableBytes, List.flatMap_cons, List.length_append, Vector.length_toList]
      rw [tableBytes] at ih
      rw [ih, List.length_cons, Nat.mul_succ, Nat.add_comm]
      rfl

theorem writeAt_tableBytes (first entry : Digest) (entries : List Digest) :
    writeAt (tableBytes (first :: entries)) 0 entry.toList = tableBytes (entry :: entries) := by
  rw [tableBytes, tableBytes, List.flatMap_cons, List.flatMap_cons]
  apply Files.writeAt_front
  · intro empty
    have size := @Vector.length_toList _ _ entry
    rw [empty] at size
    exact absurd size (by decide)
  · rw [Vector.length_toList, Vector.length_toList]

theorem length_mapM {α β : Type} {f : α → Option β} {items : List α} {results : List β}
    (mapped : items.mapM f = some results) : results.length = items.length := by
  induction items generalizing results with
  | nil =>
      cases mapped
      rfl
  | cons item items ih =>
      simp only [List.mapM_cons, Option.bind_eq_bind, Option.bind_eq_some_iff,
        Option.pure_def] at mapped
      obtain ⟨result, -, rest, mapped, made⟩ := mapped
      cases made
      rw [List.length_cons, ih mapped, List.length_cons]

theorem length_imageHeader {file hashHd : List UInt8} {codeSize : Nat}
    (made : imageHeader file codeSize = some hashHd) : hashHd.length = miBootImgHdrSize := by
  simp only [imageHeader, BootHdr.writePackedData, Option.bind_eq_bind,
    Option.bind_eq_some_iff] at made
  obtain ⟨address, -, packed, mapped, result⟩ := made
  cases result
  have count := length_mapM mapped
  have widths : ∀ entries : List UInt32,
      (entries.flatMap fun entry => Bytes.ofNat 4 entry.toNat).length = 4 * entries.length := by
    intro entries
    induction entries with
    | nil => rfl
    | cons entry entries ih =>
        rw [List.flatMap_cons, List.length_append, Bytes.length_ofNat, ih, List.length_cons,
          Nat.mul_succ, Nat.add_comm]
  rw [widths, count]
  rfl

/-! ## The generated file -/

theorem pairwise_imageWrites {input hashSegment : List UInt8} {shift : Nat} {header : Elf32Ehdr}
    {hashPhdr : Elf32Phdr} {table : List Elf32Phdr} (ordered : (segments table).Pairwise Ordered)
    (few : headersSize table ≤ elfBlockAlign)
    (behind : ∀ curr ∈ segments table,
      elfBlockAlign + hashSegment.length ≤ curr.pOffset.toNat + shift) :
    (pbootWrites input shift header hashPhdr table ++ [(elfBlockAlign, hashSegment)]).Pairwise
      Apart := by
  have size := length_pbootPhdrs shift hashPhdr table
  have inFront : ∀ write ∈ phdrWrites elf32HdrSize (pbootPhdrs shift hashPhdr table) ++
      [(0, (pbootHeader header table).packed)], write.1 + write.2.length ≤ elfBlockAlign := by
    intro write mem
    rcases List.mem_append.mp mem with inTable | last
    · have inside := (mem_phdrWrites inTable).2
      rw [size] at inside
      exact Nat.le_trans inside few
    · cases List.mem_singleton.mp last
      rw [length_packed]
      exact (show 0 + elf32HdrSize ≤ elfBlockAlign by decide)
  have copied : ∀ write ∈ copyWrites input shift (segments table),
      elfBlockAlign + hashSegment.length ≤ write.1 := by
    intro write mem
    obtain ⟨curr, inTable, rfl⟩ := List.mem_map.mp mem
    exact behind curr inTable
  refine List.pairwise_append.mpr ⟨List.pairwise_append.mpr ⟨pairwise_copyWrites ordered,
    List.pairwise_append.mpr ⟨pairwise_phdrWrites _ _, List.pairwise_singleton _ _, ?_⟩, ?_⟩,
    List.pairwise_singleton _ _, ?_⟩
  · intro write inTable last mem
    cases List.mem_singleton.mp mem
    right
    rw [length_packed, Nat.zero_add]
    exact (mem_phdrWrites inTable).1
  · intro copy inCopies write mem
    exact Or.inr (Nat.le_trans (inFront write mem)
      (Nat.le_trans (Nat.le_add_right _ _) (copied copy inCopies)))
  · intro write mem last here
    cases List.mem_singleton.mp here
    rcases List.mem_append.mp mem with inCopies | front
    · exact Or.inr (copied write inCopies)
    · exact Or.inl (inFront write front)

theorem place_shifted {shift : Nat} {curr : Elf32Phdr}
    (fits : curr.pOffset.toNat + shift < 2 ^ 32) :
    (shifted shift curr).pOffset.toNat = curr.pOffset.toNat + shift :=
  UInt32.toNat_ofNat_of_lt' fits

/-- What is held of an image that has kept all writes. -/
theorem holds_image {input out : List UInt8} {shift : Nat} {header : Elf32Ehdr}
    {hashPhdr : Elf32Phdr} {table : List Elf32Phdr}
    (holds : ∀ write ∈ pbootWrites input shift header hashPhdr table, Holds out write.1 write.2)
    (fits : ∀ curr ∈ segments table, curr.pOffset.toNat + shift < 2 ^ 32) :
    Holds out 0 (pbootHeader header table).packed ∧
      Holds out elf32HdrSize ((pbootPhdrs shift hashPhdr table).flatMap packedPhdr) ∧
      List.Forall₂ (Carried input out) (segments table)
        ((segments table).map (shifted shift)) := by
  refine ⟨?_, ?_, ?_⟩
  · exact holds _ (List.mem_append_right _ (List.mem_append_right _ (List.mem_singleton_self _)))
  · apply holds_phdrWrites
    intro write mem
    exact holds write (List.mem_append_right _ (List.mem_append_left _ mem))
  · rw [List.forall₂_map_right_iff, List.forall₂_same]
    intro curr mem
    refine ⟨rfl, ?_⟩
    rw [place_shifted (fits curr mem)]
    exact holds _ (List.mem_append_left _ (List.mem_map_of_mem mem))

theorem parsed_image {file : List UInt8} {shift : Nat} {eEntry : UInt32} {hashPhdr : Elf32Phdr}
    {table : List Elf32Phdr} {count : Nat} (few : headersSize table ≤ elfBlockAlign)
    (counted : count = table.length)
    (holdsHeader : Holds file 0 (pbootHeader (outElfHeader eEntry count) table).packed)
    (holdsTable : Holds file elf32HdrSize
      ((pbootPhdrs shift hashPhdr table).flatMap packedPhdr)) :
    preprocessElfFile file =
      some (outElfHeader eEntry (2 + (segments table).length),
        pbootPhdrs shift hashPhdr table) := by
  have length := length_pbootPhdrs shift hashPhdr table
  have number := @pbootHeader_phnum (outElfHeader eEntry count) table counted
  have same : pbootHeader (outElfHeader eEntry count) table =
      outElfHeader eEntry (2 + (segments table).length) := by
    rw [← number]
    rfl
  rw [same] at holdsHeader
  refine preprocessElfFile_of_holds rfl length.symm ?_ rfl holdsHeader holdsTable
  rw [length]
  simp only [headersSize, elf32HdrSize, elf32PhdrSize, elfBlockAlign] at few
  omega

theorem ordered_shifted {shift : Nat} {table : List Elf32Phdr} (ordered : table.Pairwise Ordered)
    (fits : ∀ curr ∈ table, curr.pOffset.toNat + shift < 2 ^ 32) :
    (table.map (shifted shift)).Pairwise Ordered := by
  rw [List.pairwise_map]
  refine ordered.imp_of_mem ?_
  intro first second inFirst inSecond behind
  have size : (shifted shift first).pFilesz = first.pFilesz := rfl
  unfold Ordered at behind ⊢
  rw [place_shifted (fits first inFirst), place_shifted (fits second inSecond), size]
  omega

/-- The second program header is the one that is looked for. -/
theorem find_hashPhdr {shift : Nat} {hashPhdr : Elf32Phdr} {table : List Elf32Phdr}
    (flags : hashPhdr.pFlags = miPbtElfHashSegment) :
    (pbootPhdrs shift hashPhdr table).find?
      (fun curr => decide (curr.pFlags = miPbtElfHashSegment)) = some hashPhdr := by
  have other : decide ((elfPhdrSegment (UInt32.ofNat (headersSize table))).pFlags =
      miPbtElfHashSegment) = false :=
    show decide (miPbtElfPhdrSegment = miPbtElfHashSegment) = false by decide
  rw [pbootPhdrs, List.find?_cons, other]
  exact List.find?_cons_of_pos (decide_eq_true flags)

/-- The bytes that the first entry is the digest of. -/
theorem readAt_headers {file : List UInt8} {shift : Nat} {header : Elf32Ehdr}
    {hashPhdr : Elf32Phdr} {table : List Elf32Phdr} (holdsHeader : Holds file 0 header.packed)
    (holdsTable : Holds file elf32HdrSize
      ((pbootPhdrs shift hashPhdr table).flatMap packedPhdr)) :
    readAt file 0 (headersSize table) =
      header.packed ++ (pbootPhdrs shift hashPhdr table).flatMap packedPhdr := by
  have whole : Holds file 0
      (header.packed ++ (pbootPhdrs shift hashPhdr table).flatMap packedPhdr) := by
    rw [Files.holds_append, length_packed, Nat.zero_add]
    exact ⟨holdsHeader, holdsTable⟩
  have read := Files.readAt_of_holds whole
  rw [List.length_append, length_packed, length_packedTable, length_pbootPhdrs] at read
  exact read

/-- All parts of the image, in the order of their offsets. -/
theorem ordered_pbootPhdrs {shift : Nat} {hashPhdr : Elf32Phdr} {table : List Elf32Phdr}
    (ordered : (segments table).Pairwise Ordered)
    (fits : ∀ curr ∈ segments table, curr.pOffset.toNat + shift < 2 ^ 32)
    (front : headersSize table ≤ elfBlockAlign)
    (hashOffset : hashPhdr.pOffset.toNat = elfBlockAlign)
    (behind : ∀ curr ∈ segments table,
      elfBlockAlign + hashPhdr.pFilesz.toNat ≤ curr.pOffset.toNat + shift) :
    (pbootPhdrs shift hashPhdr table).Pairwise Ordered := by
  have filesz : (elfPhdrSegment (UInt32.ofNat (headersSize table))).pFilesz.toNat =
      headersSize table :=
    UInt32.toNat_ofNat_of_lt' (Nat.lt_of_le_of_lt front (by decide))
  have first : (elfPhdrSegment (UInt32.ofNat (headersSize table))).pOffset.toNat = 0 := rfl
  have later : ∀ moved ∈ (segments table).map (shifted shift),
      elfBlockAlign + hashPhdr.pFilesz.toNat ≤ moved.pOffset.toNat := by
    intro moved mem
    obtain ⟨curr, inTable, rfl⟩ := List.mem_map.mp mem
    rw [place_shifted (fits curr inTable)]
    exact behind curr inTable
  refine List.Pairwise.cons ?_ (List.Pairwise.cons ?_ (ordered_shifted ordered fits))
  · intro other mem
    unfold Ordered
    rw [filesz, first, Nat.zero_add]
    rcases List.mem_cons.mp mem with rfl | mem
    · rw [hashOffset]
      exact front
    · have place := later other mem
      omega
  · intro other mem
    unfold Ordered
    rw [hashOffset]
    exact later other mem

/-- What `pboot_gen_elf` has made of a merged file with room for the hash segment behind its
headers. -/
structure Generated (digest : List UInt8 → Digest) (merged elf hashTbl : List UInt8)
    (header : Elf32Ehdr) (laid : List Elf32Phdr) (entries : List Digest) (hashPhdr : Elf32Phdr)
    (shift : Nat) : Prop where
  hashed : hashEntries digest merged laid = some entries
  elfIs : elf = writeAll [] (pbootWrites merged shift header hashPhdr laid)
  tableIs : hashTbl =
    tableBytes (digest (readAt elf 0 (headersSize laid)) :: noDigest :: entries)
  small : ∀ curr ∈ segments laid, curr.pOffset.toNat + shift < 2 ^ 32
  ordered : (segments laid).Pairwise Ordered
  front : headersSize laid ≤ elfBlockAlign
  behind : ∀ curr ∈ segments laid,
    elfBlockAlign + hashPhdr.pFilesz.toNat ≤ curr.pOffset.toNat + shift
  hashType : hashPhdr.pType = nullType
  hashFlags : hashPhdr.pFlags = miPbtElfHashSegment
  hashOffset : hashPhdr.pOffset.toNat = elfBlockAlign
  hashFilesz : hashPhdr.pFilesz.toNat = miBootImgHdrSize + hashTbl.length

theorem generated_spec {digest : List UInt8 → Digest} {file merged elf hashTbl : List UInt8}
    {header : Elf32Ehdr} {kept : List Elf32Phdr} (spec : Merged file merged header kept)
    (few : (segments kept).length ≤ 60)
    (generated : pbootGenElf digest merged = some (elf, hashTbl)) :
    ∃ (entries : List Digest) (hashPhdr : Elf32Phdr) (shift : Nat),
      Generated digest merged elf hashTbl (outElfHeader header.eEntry kept.length)
        (layOut (mergeStart header) kept) entries hashPhdr shift := by
  obtain ⟨entries, hashPhdr, hashed, initialised, -, small, elfIs, tableIs⟩ :=
    pbootGenElf_eq_some spec.parsed rfl generated
  obtain ⟨hashType, hashOffset, hashFilesz, hashFlags⟩ := initializeHashPhdr_spec initialised
  have same := (carried_segments spec.carried).length_eq
  have two : 2 + entries.length = entries.length + 1 + 1 := Nat.add_comm 2 _
  rw [List.cons_append, List.cons_append, List.nil_append, writeAt_tableBytes] at tableIs
  refine ⟨entries, hashPhdr, _, hashed, elfIs, tableIs, small,
    (ordered_layOut spec.fits).filter _, ?_, ?_, hashType, hashFlags, hashOffset, ?_⟩
  · simp only [headersSize, ← same, elf32HdrSize, elf32PhdrSize, elfBlockAlign]
    omega
  · intro curr mem
    have moved := hashSegEnd_le_shift (miProgBootDigestSize * (2 + entries.length))
      (List.mem_of_mem_filter mem)
    have room := hashTblEndAddr_lt (miProgBootDigestSize * (2 + entries.length))
    rw [hashTblEndAddr] at room
    omega
  · rw [hashFilesz, tableIs, length_tableBytes, two]
    rfl

section Generated

variable {digest : List UInt8 → Digest} {merged elf hashTbl : List UInt8} {eEntry : UInt32}
  {laid : List Elf32Phdr} {entries : List Digest} {hashPhdr : Elf32Phdr} {shift : Nat}

/-- All writes are there, and a hash segment may be put between them. -/
theorem Generated.holds {header : Elf32Ehdr}
    (spec : Generated digest merged elf hashTbl header laid entries hashPhdr shift)
    {write : Nat × List UInt8} (mem : write ∈ pbootWrites merged shift header hashPhdr laid)
    {segment : List UInt8} (size : segment.length ≤ hashPhdr.pFilesz.toNat) :
    Holds (writeAt elf elfBlockAlign segment) write.1 write.2 := by
  have behind : ∀ curr ∈ segments laid,
      elfBlockAlign + segment.length ≤ curr.pOffset.toNat + shift :=
    fun curr mem => Nat.le_trans (Nat.add_le_add_left size _) (spec.behind curr mem)
  obtain ⟨disjoint, -, apart⟩ :=
    List.pairwise_append.mp (pairwise_imageWrites spec.ordered spec.front behind)
  rw [spec.elfIs]
  exact Files.holds_writeAt_other (Files.holds_writeAll disjoint mem)
    (apart write mem _ (List.mem_singleton_self _))

/-- The hash segment goes where its program header says. -/
theorem Generated.pbootAddHash_eq
    (spec : Generated digest merged elf hashTbl (outElfHeader eEntry laid.length) laid entries
      hashPhdr shift) (segment : List UInt8) :
    pbootAddHash elf segment = some (writeAt elf elfBlockAlign segment) := by
  have unchanged : writeAt elf elfBlockAlign [] = elf := if_pos rfl
  have holds : ∀ write ∈ pbootWrites merged shift (outElfHeader eEntry laid.length) hashPhdr laid,
      Holds elf write.1 write.2 := by
    intro write mem
    rw [← unchanged]
    exact spec.holds mem (Nat.zero_le _)
  obtain ⟨holdsHeader, holdsTable, -⟩ := holds_image holds spec.small
  simp only [pbootAddHash, parsed_image spec.front rfl holdsHeader holdsTable,
    find_hashPhdr spec.hashFlags, spec.hashOffset, fileCopyOffset, Files.readAt_all,
    Option.bind_eq_bind, Option.bind_some]

end Generated

end QHal.Qhash
