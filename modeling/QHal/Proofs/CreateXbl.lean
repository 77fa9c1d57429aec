/-
Module: QHal.Proofs.CreateXbl
Purpose: When createxbl.py makes an image of a file without paged segments; and what the image is:
  the segments arrive with their bytes, its parts are disjoint, and the table in it is the one of
  the image itself.
Trusted boundary: none
Main exports: Unpaged, Addressed, segmentHash, createXbl_succeeds, createXbl_isSome_iff,
  HashedImage, hashedImage_of_createXbl, createXbl_spec
-/
import QHal.Proofs.PbootGenElf

namespace QHal.Qhash

open Boot (Elf32Phdr Digest)
open Files (readAt writeAt Holds)

/-- The program header has the digest of its segment as its one entry. -/
def Unpaged (phdr : Elf32Phdr) : Prop := miPbtPageModeValue phdr.pFlags ≠ miPbtPagedSegment

instance (phdr : Elf32Phdr) : Decidable (Unpaged phdr) := inferInstanceAs (Decidable (_ ≠ _))

/-- The hash segment has an address of 32 bits. -/
def Addressed (kept : List Elf32Phdr) : Prop :=
  ∃ first rest, kept = first :: rest ∧ blockBehind (lastSegment kept 0 first) < 2 ^ 32

theorem packI_of_range {value : Int} (range : 0 ≤ value ∧ value < 2 ^ 32) :
    packI value = some (UInt32.ofNat value.toNat) :=
  if_pos range

/-! ## The address -/

theorem lastSegment_carried {source target : List UInt8} {olds news : List Elf32Phdr}
    (carried : List.Forall₂ (Carried source target) olds news) (lastPaddr : UInt32)
    {old new : Elf32Phdr} (head : Carried source target old new) :
    blockBehind (lastSegment news lastPaddr new) =
      blockBehind (lastSegment olds lastPaddr old) := by
  induction carried generalizing lastPaddr old new with
  | nil =>
      rw [lastSegment, lastSegment, blockBehind, blockBehind, head.same]
  | @cons curr moved olds news next tail ih =>
      have paddr : moved.pPaddr = curr.pPaddr := by rw [next.same]
      have flags : moved.pFlags = curr.pFlags := by rw [next.same]
      rw [lastSegment, lastSegment, paddr, flags]
      split_ifs
      · exact ih curr.pPaddr next
      · exact ih lastPaddr head

/-- The merged file has the address of the headers that were kept. -/
theorem getHashAddress_merged {file merged : List UInt8} {header : Elf32Ehdr}
    {first : Elf32Phdr} {rest : List Elf32Phdr} (spec : Merged file merged header (first :: rest)) :
    getHashAddress merged = some (blockBehind (lastSegment (first :: rest) 0 first)) := by
  have carried := spec.carried
  cases carried with
  | cons head tail =>
      have same := lastSegment_carried (List.Forall₂.cons head tail) 0 head
      simp only [getHashAddress, spec.parsed, Option.bind_eq_bind, Option.bind_some, layOut]
      exact congrArg some same

/-- The address is the beginning of a block. -/
theorem blockBehind_block (segment : Elf32Phdr) :
    0 ≤ blockBehind segment ∧ (elfBlockAlign : Int) ∣ blockBehind segment := by
  have unit : elfBlockAlign = 2048 := rfl
  constructor
  · simp only [blockBehind, unit]
    omega
  · exact Int.dvd_add (Int.dvd_mul_left _ _) (Int.dvd_refl _)

/-! ## The parts of the run -/

/-- The digest of a segment in the table. -/
def segmentHash (digest : List UInt8 → Digest) (file : List UInt8) (phdr : Elf32Phdr) : Digest :=
  if miPbtCheckFlagType phdr.pFlags ∧ phdr.pFilesz > 0 then
    digest (readAt file phdr.pOffset.toNat phdr.pFilesz.toNat)
  else noDigest

theorem hashEntries_unpaged (digest : List UInt8 → Digest) (file : List UInt8)
    {table : List Elf32Phdr} (unpaged : ∀ phdr ∈ table, Unpaged phdr) :
    hashEntries digest file table = some ((segments table).map (segmentHash digest file)) := by
  induction table with
  | nil => rfl
  | cons curr table ih =>
      rw [List.forall_mem_cons] at unpaged
      by_cases type : curr.pType = phdrType
      · rw [hashEntries, segmentEntries, if_neg unpaged.1, if_neg (not_not.mpr type),
          ih unpaged.2, segments_cons_phdr type]
        rfl
      · rw [hashEntries, segmentEntries, if_neg unpaged.1, if_pos type, ih unpaged.2,
          segments_cons_other type]
        rfl

theorem le_minOffset {bound : Nat} {first : Elf32Phdr} {table : List Elf32Phdr}
    (head : bound ≤ first.pOffset.toNat) (all : ∀ curr ∈ table, bound ≤ curr.pOffset.toNat) :
    bound ≤ minOffset first table := by
  unfold minOffset
  generalize first.pOffset.toNat = least at head
  induction table generalizing least with
  | nil => exact head
  | cons curr table ih =>
      rw [List.forall_mem_cons] at all
      rw [List.foldl_cons]
      refine ih all.2 _ ?_
      split_ifs
      · exact all.1
      · exact head

/-- A hash table of few entries fits in front of segments that begin on a page boundary. -/
theorem hashtableShift_few {table : List Elf32Phdr} {entries : Nat} (few : entries ≤ 60)
    (behind : ∀ curr ∈ table, pageSize ≤ curr.pOffset.toNat) :
    hashtableShift table (miProgBootDigestSize * (2 + entries)) = 0 := by
  have room : hashSegEnd (miProgBootDigestSize * (2 + entries)) ≤ pageSize := by
    simp only [hashSegEnd, bytesToPad, hashTblEndAddr, elfBlockAlign, miBootImgHdrSize,
      miProgBootDigestSize, pageSize]
    omega
  cases table with
  | nil => rfl
  | cons first rest =>
      have least := le_minOffset (behind first List.mem_cons_self) behind
      rw [hashtableShift, if_neg (by omega)]

theorem initializeHashPhdr_isSome {file : List UInt8} {size : Nat} {address : Int}
    (located : getHashAddress file = some address) (range : 0 ≤ address ∧ address < 2 ^ 32)
    (small : size ≤ 4096) : ∃ hashPhdr, initializeHashPhdr file size = some hashPhdr := by
  have pad : bytesToPad size ≤ elfBlockAlign := Nat.sub_le _ _
  simp only [elfBlockAlign] at pad
  have filesz := @packI_of_range (miBootImgHdrSize + size : Nat)
    (by simp only [miBootImgHdrSize]; omega)
  have memsz := @packI_of_range (miBootImgHdrSize + size + bytesToPad size : Nat)
    (by simp only [miBootImgHdrSize]; omega)
  simp only [initializeHashPhdr, located, packI_of_range range, filesz, memsz,
    Option.bind_eq_bind, Option.bind_some]
  exact ⟨_, rfl⟩

theorem mapM_packI {values : List Int} (range : ∀ value ∈ values, 0 ≤ value ∧ value < 2 ^ 32) :
    ∃ packed, values.mapM packI = some packed := by
  induction values with
  | nil => exact ⟨[], rfl⟩
  | cons value values ih =>
      rw [List.forall_mem_cons] at range
      obtain ⟨packed, mapped⟩ := ih range.2
      simp only [List.mapM_cons, packI_of_range range.1, mapped, Option.bind_eq_bind,
        Option.bind_some, Option.pure_def]
      exact ⟨_, rfl⟩

/-- A header is made for every address, also where the end of the table has none. -/
theorem imageHeader_isSome {file : List UInt8} {codeSize : Nat} {address : Int}
    (located : getHashAddress file = some address) (range : 0 ≤ address ∧ address < 2 ^ 32)
    (block : (elfBlockAlign : Int) ∣ address) (small : codeSize < 2 ^ 32) :
    ∃ hashHd, imageHeader file codeSize = some hashHd := by
  obtain ⟨blocks, rfl⟩ := block
  simp only [imageHeader, located, BootHdr.writePackedData, Option.bind_eq_bind, Option.bind_some]
  obtain ⟨packed, mapped⟩ := mapM_packI (show ∀ value ∈ BootHdr.values
    { imageId := appsblImg
      flashPartiVer := flashPartiVersion
      imageSrc := 0
      imageDestPtr := elfBlockAlign * blocks + miBootImgHdrSize
      imageSize := codeSize
      codeSize := codeSize
      sigPtr := elfBlockAlign * blocks + miBootImgHdrSize + codeSize
      sigSize := 0
      certChainPtr := elfBlockAlign * blocks + miBootImgHdrSize + codeSize + 0
      certChainSize := 0 }, 0 ≤ value ∧ value < 2 ^ 32 by
    have unit : (elfBlockAlign : Int) = 2048 := rfl
    have head : (miBootImgHdrSize : Int) = 40 := rfl
    rw [unit] at range
    simp only [BootHdr.values, List.forall_mem_cons, appsblImg, flashPartiVersion, unit, head]
    refine ⟨by omega, by omega, by omega, ?_, by omega, by omega, ?_, by omega, ?_, by omega, ?_⟩
    · split_ifs <;> omega
    · split_ifs <;> omega
    · split_ifs <;> omega
    · exact fun _ mem => absurd mem List.not_mem_nil)
  rw [mapped]
  exact ⟨_, rfl⟩

theorem pbootGenElf_isSome {digest : List UInt8 → Digest} {file : List UInt8} {header : Elf32Ehdr}
    {table : List Elf32Phdr} {entries : List Digest} {address : Int}
    (parsed : preprocessElfFile file = some (header, table))
    (width : header.ePhentsize.toNat = elf32PhdrSize) (number : table.length ≤ 60)
    (hashed : hashEntries digest file table = some entries) (few : entries.length ≤ 60)
    (behind : ∀ curr ∈ table, pageSize ≤ curr.pOffset.toNat)
    (located : getHashAddress file = some address) (range : 0 ≤ address ∧ address < 2 ^ 32) :
    ∃ elf hashTbl, pbootGenElf digest file = some (elf, hashTbl) := by
  obtain ⟨count, -⟩ := length_preprocess parsed
  have fewSegments : (segments table).length ≤ 60 :=
    Nat.le_trans (List.length_filter_le _ _) number
  have phnum := pbootHeader_phnum count
  have limit : header.ePhnum ≤ maxPhdrCount := by
    rw [count]
    exact Nat.le_trans number (by decide)
  have size : miProgBootDigestSize * (2 + entries.length) ≤ 4096 := by
    simp only [miProgBootDigestSize]
    omega
  obtain ⟨hashPhdr, initialised⟩ := initializeHashPhdr_isSome located range size
  have shift := hashtableShift_few few behind
  have filesz := packI_of_range (show
    0 ≤ ((elf32HdrSize + (2 + (segments table).length) * elf32PhdrSize : Nat) : Int) ∧
      ((elf32HdrSize + (2 + (segments table).length) * elf32PhdrSize : Nat) : Int) < 2 ^ 32 by
    simp only [elf32HdrSize, elf32PhdrSize]
    omega)
  have fits : ∀ curr ∈ segments table, curr.pOffset.toNat + 0 < 2 ^ 32 :=
    fun curr _ => curr.pOffset.toNat_lt
  have packed : (pbootHeader header table).getPackedData =
      some (pbootHeader header table).packed := by
    apply if_pos
    rw [phnum]
    omega
  simp only [pbootGenElf, parsed, width, limit, guard_true, hashed, initialised, shift,
    phnum, filesz, writePhdrs_eq, if_pos fits, packed, Option.pure_def, Option.bind_eq_bind,
    Option.bind_some]
  exact ⟨_, _, rfl⟩

/-! ## The run -/

section

variable {file : List UInt8} {checkNoinitEnabled : Bool} {header : Elf32Ehdr}
  {table kept : List Elf32Phdr}

theorem createXbl_succeeds (digest : List UInt8 → Digest)
    (parsed : preprocessElfFile file = some (header, table))
    (keeps : keptPhdrs (shouldSkipSegment file header checkNoinitEnabled) table = some kept)
    (unpaged : ∀ phdr ∈ kept, Unpaged phdr) (few : kept.length ≤ 60)
    (fits : Fits (mergeStart header) kept) (addressed : Addressed kept) :
    ∃ out, createXbl digest file checkNoinitEnabled = some out := by
  obtain ⟨first, rest, rfl, small⟩ := addressed
  have merges := mergeElfs_eq parsed keeps
  rw [if_pos fits] at merges
  generalize Files.writeAll [] (mergedWrites file header (first :: rest)) = merged at merges
  have spec := mergeElfs_spec parsed keeps merges
  have located := getHashAddress_merged spec
  obtain ⟨positive, block⟩ := blockBehind_block (lastSegment (first :: rest) 0 first)
  have laidUnpaged := forall_carried spec.carried
    (fun old new carried (plain : Unpaged old) => show Unpaged new by
      unfold Unpaged
      rw [carried.same]
      exact plain) unpaged
  have hashed := hashEntries_unpaged digest merged laidUnpaged
  have number := length_layOut (mergeStart header) (first :: rest)
  have fewEntries : ((segments (layOut (mergeStart header) (first :: rest))).map
      (segmentHash digest merged)).length ≤ 60 := by
    rw [List.length_map]
    exact Nat.le_trans (List.length_filter_le _ _) (number ▸ few)
  have behind : ∀ curr ∈ layOut (mergeStart header) (first :: rest),
      pageSize ≤ curr.pOffset.toNat := fun curr mem =>
    Nat.le_trans (precision_le_roundup (Nat.add_pos_left (by decide) _)) (le_layOut fits mem)
  obtain ⟨elf, hashTbl, generates⟩ := pbootGenElf_isSome spec.parsed rfl (number ▸ few) hashed
    fewEntries behind located ⟨positive, small⟩
  have fewSegments : (segments (first :: rest)).length ≤ 60 :=
    Nat.le_trans (List.length_filter_le _ _) few
  obtain ⟨entries', hashPhdr, shift, generated⟩ := generated_spec spec fewSegments generates
  rw [← number] at generated
  have codeSize : hashTbl.length < 2 ^ 32 := by
    have inside := hashPhdr.pFilesz.toNat_lt
    rw [generated.hashFilesz] at inside
    omega
  obtain ⟨hashHd, headed⟩ := imageHeader_isSome located ⟨positive, small⟩ block codeSize
  simp only [createXbl, merges, generates, headed, generated.pbootAddHash_eq,
    Option.bind_eq_bind, Option.bind_some]
  exact ⟨_, rfl⟩

/-- The tool makes an image exactly if every segment has an offset, and the hash segment an address,
of 32 bits. -/
theorem createXbl_isSome_iff (digest : List UInt8 → Digest)
    (parsed : preprocessElfFile file = some (header, table))
    (keeps : keptPhdrs (shouldSkipSegment file header checkNoinitEnabled) table = some kept)
    (unpaged : ∀ phdr ∈ kept, Unpaged phdr) (few : kept.length ≤ 60) :
    (createXbl digest file checkNoinitEnabled).isSome ↔
      Fits (mergeStart header) kept ∧ Addressed kept := by
  constructor
  · intro made
    obtain ⟨out, created⟩ := Option.isSome_iff_exists.mp made
    simp only [createXbl, Option.bind_eq_bind, Option.bind_eq_some_iff] at created
    obtain ⟨merged, merges, ⟨elf, hashTbl⟩, generates, -⟩ := created
    have spec := mergeElfs_spec parsed keeps merges
    obtain ⟨entries, hashPhdr, -, initialised, -⟩ :=
      pbootGenElf_eq_some spec.parsed rfl generates
    refine ⟨spec.fits, ?_⟩
    simp only [initializeHashPhdr, Option.bind_eq_bind, Option.bind_eq_some_iff,
      packI_eq_some] at initialised
    obtain ⟨address, located, -, ⟨⟨-, small⟩, -⟩, -⟩ := initialised
    cases kept with
    | nil =>
        simp only [getHashAddress, spec.parsed, Option.bind_eq_bind, Option.bind_some,
          layOut] at located
        cases located
    | cons first rest =>
        rw [getHashAddress_merged spec] at located
        exact ⟨first, rest, rfl, by rw [Option.some.inj located]; exact small⟩
  · rintro ⟨fits, addressed⟩
    exact Option.isSome_iff_exists.mpr
      (createXbl_succeeds digest parsed keeps unpaged few fits addressed)

end

/-- A file with two segments and the header of its headers. -/
def sampleTable : List Elf32Phdr :=
  [⟨1, 148, 0x10000, 0x10000, 5, 8, 5, 4⟩, ⟨1, 153, 0x10040, 0x10040, 3, 3, 4, 4⟩,
    ⟨6, 52, 0, 0, 96, 96, 4, 4⟩]

def sampleFile : List UInt8 :=
  (outElfHeader 0x10001 3).packed ++ sampleTable.flatMap packedPhdr ++ [1, 2, 3, 4, 5, 6, 7, 8]

/-- A digest that tells the segments of the sample apart. -/
def sumDigest (bytes : List UInt8) : Digest := Vector.replicate 32 (bytes.foldl (· + ·) 0)

theorem sampleFile_parsed :
    preprocessElfFile sampleFile = some (outElfHeader 0x10001 3, sampleTable) := by
  have holds := Files.holds_self sampleFile
  rw [sampleFile, Files.holds_append, Files.holds_append, length_packed, Nat.zero_add] at holds
  exact preprocessElfFile_of_holds rfl rfl (by decide) rfl holds.1.1 holds.1.2

/-- The parts of an image that was made of a file. -/
structure HashedImage (digest : List UInt8 → Digest) (file out : List UInt8)
    (kept : List Elf32Phdr) (header : Elf32Ehdr) (hashPhdr : Elf32Phdr)
    (moved : List Elf32Phdr) (entries : List Digest) (hashHd : List UInt8) : Prop where
  parsed : preprocessElfFile out =
    some (header,
      elfPhdrSegment (UInt32.ofNat (elf32HdrSize + (2 + kept.length) * elf32PhdrSize)) ::
        hashPhdr :: moved)
  /-- The headers, the hash segment and the segments are one behind the other. -/
  disjoint : (elfPhdrSegment
    (UInt32.ofNat (elf32HdrSize + (2 + kept.length) * elf32PhdrSize)) ::
      hashPhdr :: moved).Pairwise Ordered
  carried : List.Forall₂ (Carried file out) kept moved
  hashed : hashEntries digest out moved = some entries
  hashType : hashPhdr.pType = nullType ∧ hashPhdr.pFlags = miPbtElfHashSegment
  lengthHd : hashHd.length = miBootImgHdrSize
  hashSegment : readAt out hashPhdr.pOffset.toNat hashPhdr.pFilesz.toNat =
    hashHd ++ tableBytes
      (digest (readAt out 0 (elf32HdrSize + (2 + kept.length) * elf32PhdrSize)) ::
        noDigest :: entries)

theorem block_le_mergeStart (header : Elf32Ehdr) : elfBlockAlign ≤ mergeStart header := by
  have page : pageSize ≤ mergeStart header := precision_le_roundup (Nat.add_pos_left (by decide) _)
  exact Nat.le_trans (by decide) page

/-- The image of a file whose headers leave room for the hash segment. -/
theorem hashedImage_of_createXbl {digest : List UInt8 → Digest} {file out : List UInt8}
    {checkNoinitEnabled : Bool} {header : Elf32Ehdr} {table kept : List Elf32Phdr}
    (parsed : preprocessElfFile file = some (header, table))
    (keeps : keptPhdrs (shouldSkipSegment file header checkNoinitEnabled) table = some kept)
    (full : ∀ phdr ∈ kept, FullyRead file phdr)
    (unpaged : ∀ phdr ∈ kept, phdr.pType = phdrType →
      miPbtPageModeValue phdr.pFlags ≠ miPbtPagedSegment)
    (few : (segments kept).length ≤ 60)
    (created : createXbl digest file checkNoinitEnabled = some out) :
    ∃ (hashPhdr : Elf32Phdr) (moved : List Elf32Phdr) (entries : List Digest)
      (hashHd : List UInt8),
      HashedImage digest file out (segments kept)
        (outElfHeader header.eEntry (2 + (segments kept).length)) hashPhdr moved
          entries hashHd := by
  simp only [createXbl, Option.bind_eq_bind, Option.bind_eq_some_iff] at created
  obtain ⟨merged, merges, ⟨elf, hashTbl⟩, generates, hashHd, headed, final⟩ := created
  have merge := mergeElfs_spec parsed keeps merges
  obtain ⟨entries, hashPhdr, shift, spec⟩ := generated_spec merge few generates
  rw [← length_layOut (mergeStart header) kept] at spec
  have headSize := length_imageHeader headed
  rw [spec.pbootAddHash_eq, Option.some.injEq] at final
  have carried := carried_segments merge.carried
  have fullSegments : ∀ phdr ∈ segments kept, FullyRead file phdr :=
    fun phdr mem => full phdr (List.mem_of_mem_filter mem)
  generalize laidIs : layOut (mergeStart header) kept = laid at *
  have size : (hashHd ++ hashTbl).length = hashPhdr.pFilesz.toNat := by
    rw [List.length_append, headSize, spec.hashFilesz]
  have segmentHeld : Holds out elfBlockAlign (hashHd ++ hashTbl) :=
    final ▸ Files.holds_writeAt_self _ _ _
  have same := carried.length_eq
  have headers : headersSize laid =
      elf32HdrSize + (2 + (segments kept).length) * elf32PhdrSize := by
    rw [headersSize, same]
  obtain ⟨holdsHeader, holdsTable, moved⟩ := holds_image
    (fun write mem => final ▸ spec.holds mem (Nat.le_of_eq size)) spec.small
  obtain ⟨elfHeader, elfTable, -⟩ := holds_image
    (fun write mem => (show writeAt elf elfBlockAlign [] = elf from if_pos rfl) ▸
      spec.holds mem (Nat.zero_le _)) spec.small
  have sameHead :=
    (readAt_headers elfHeader elfTable).trans (readAt_headers holdsHeader holdsTable).symm
  refine ⟨hashPhdr, (segments laid).map (shifted shift), entries, hashHd, ?_⟩
  constructor
  · rw [parsed_image spec.front rfl holdsHeader holdsTable, pbootPhdrs, headers, same]
  · rw [← headers]
    exact ordered_pbootPhdrs spec.ordered spec.small spec.front spec.hashOffset spec.behind
  · exact carried_trans carried moved fullSegments
  · have fullMerged := forall_carried carried (fun _ _ carried full => carried.fullyRead full)
      fullSegments
    rw [hashEntries_carried moved fullMerged, hashEntries_segments, spec.hashed]
    · subst laidIs
      refine forall_carried merge.carried ?_ unpaged
      intro old new carried unpaged type
      rw [carried.same] at type ⊢
      exact unpaged type
    · intro phdr mem
      subst laidIs
      exact Nat.le_trans (block_le_mergeStart header)
        (le_layOut merge.fits (List.mem_of_mem_filter mem))
    · intro phdr mem
      obtain ⟨curr, inTable, rfl⟩ := List.mem_map.mp mem
      rw [place_shifted (spec.small curr inTable)]
      exact Nat.le_trans (Nat.le_add_right _ _) (spec.behind curr inTable)
  · exact ⟨spec.hashType, spec.hashFlags⟩
  · exact headSize
  · rw [spec.hashOffset, ← size, Files.readAt_of_holds segmentHeld, spec.tableIs, sameHead, headers]

/-- What the tool makes of a file, and when it makes anything of one without paged segments: every
segment and the hash segment have an offset and an address of 32 bits. -/
theorem createXbl_spec (digest : List UInt8 → Digest) {file : List UInt8}
    {checkNoinitEnabled : Bool}
    {header : Elf32Ehdr} {table kept : List Elf32Phdr}
    (parsed : preprocessElfFile file = some (header, table))
    (keeps : keptPhdrs (shouldSkipSegment file header checkNoinitEnabled) table = some kept)
    (full : ∀ phdr ∈ kept, FullyRead file phdr) (few : kept.length ≤ 60)
    (unpaged : ∀ phdr ∈ kept, phdr.pType = phdrType → Unpaged phdr) :
    ((∀ phdr ∈ kept, Unpaged phdr) → ((createXbl digest file checkNoinitEnabled).isSome ↔
        Fits (mergeStart header) kept ∧ Addressed kept)) ∧
      ∀ out, createXbl digest file checkNoinitEnabled = some out →
        ∃ (hashPhdr : Elf32Phdr) (moved : List Elf32Phdr) (entries : List Digest)
          (hashHd : List UInt8),
          HashedImage digest file out (segments kept)
            (outElfHeader header.eEntry (2 + (segments kept).length)) hashPhdr moved entries
            hashHd := by
  refine ⟨fun plain => createXbl_isSome_iff digest parsed keeps plain few, ?_⟩
  intro out created
  exact hashedImage_of_createXbl parsed keeps full unpaged
    (Nat.le_trans (List.length_filter_le _ _) few) created

theorem sampleFile_kept :
    keptPhdrs (shouldSkipSegment sampleFile (outElfHeader 0x10001 3) false) sampleTable =
      some sampleTable :=
  rfl

theorem sampleFile_fullyRead : ∀ phdr ∈ sampleTable, FullyRead sampleFile phdr := by
  unfold FullyRead
  decide

/-- The image of the sample. -/
theorem sampleFile_hashed :
    ∃ (out : List UInt8) (hashPhdr : Elf32Phdr) (moved : List Elf32Phdr) (entries : List Digest)
      (hashHd : List UInt8),
      HashedImage sumDigest sampleFile out (segments sampleTable)
        (outElfHeader 0x10001 4) hashPhdr moved entries hashHd := by
  obtain ⟨made, spec⟩ := createXbl_spec sumDigest sampleFile_parsed sampleFile_kept
    sampleFile_fullyRead (by decide) (by decide)
  obtain ⟨out, created⟩ :=
    Option.isSome_iff_exists.mp ((made (by decide)).mpr ⟨by decide, ⟨_, _, rfl, by decide⟩⟩)
  exact ⟨out, spec out created⟩

end QHal.Qhash
