/-
Module: QHal.Proofs.GenFwdTable
Purpose: The boot loader reads the generated firmware descriptors back: each
  valid table field for field in the slot of its rank.  The generator itself does
  not: the header of every table makes its reader fail.
Trusted boundary: none
Main exports: SameTable, Scanned, getFwdInfo_of_tablesToBinary, ReadsBack, RoundTrips,
  fromBinary_fails, gen_roundTrips_iff
-/
import QHal.Qfdt.GenFwdTable
import QHal.Proofs.ResidentBoot

namespace QHal.Boot

open Qfdt.Gen

section Fields

/-- A byte shifted above a number is added to it. -/
theorem or_shiftLeft {low high shift : Nat} (below : low < 2 ^ shift) :
    low ||| high <<< shift = low + 2 ^ shift * high := by
  rw [Nat.shiftLeft_eq, Nat.mul_comm high, Nat.or_comm, ← Nat.two_pow_add_eq_or_of_lt below,
    Nat.add_comm]

theorem toNat_le32 (buffer : Nat → UInt8) (offset : Nat) :
    (le32 buffer offset).toNat =
      Bytes.toNat
        [buffer offset, buffer (offset + 1), buffer (offset + 2), buffer (offset + 3)] := by
  have first : (buffer offset).toNat < 2 ^ 8 := (buffer offset).toNat_lt
  have second : (buffer (offset + 1)).toNat < 2 ^ 8 := (buffer (offset + 1)).toNat_lt
  have third : (buffer (offset + 2)).toNat < 2 ^ 8 := (buffer (offset + 2)).toNat_lt
  have fourth : (buffer (offset + 3)).toNat < 2 ^ 8 := (buffer (offset + 3)).toNat_lt
  have shift8 : UInt32.toNat 8 % 32 = 8 := rfl
  have shift16 : UInt32.toNat 16 % 32 = 16 := rfl
  have shift24 : UInt32.toNat 24 % 32 = 24 := rfl
  have fits : ∀ {byte shift : Nat}, byte < 2 ^ 8 → shift ≤ 24 →
      byte <<< shift % 2 ^ 32 = byte <<< shift := by
    intro byte shift small within
    apply Nat.mod_eq_of_lt
    rw [Nat.shiftLeft_eq]
    calc byte * 2 ^ shift < 2 ^ 8 * 2 ^ shift :=
          Nat.mul_lt_mul_of_pos_right small (Nat.two_pow_pos shift)
      _ ≤ 2 ^ 8 * 2 ^ 24 := Nat.mul_le_mul_left _ (Nat.pow_le_pow_right (by decide) within)
  simp only [le32, UInt32.toNat_or, UInt32.toNat_shiftLeft, UInt8.toNat_toUInt32, shift8, shift16,
    shift24]
  rw [fits second (by decide), fits third (by decide), fits fourth (by decide)]
  have low : (buffer offset).toNat + 2 ^ 8 * (buffer (offset + 1)).toNat < 2 ^ 16 := by omega
  rw [or_shiftLeft first, or_shiftLeft low, or_shiftLeft (by omega)]
  simp only [Bytes.toNat]
  ring

variable {buffer : Nat → UInt8} {offset : Nat} {bytes : List UInt8} {value : Int}

/-- A packed word is read back by the loader. -/
theorem le32_of_pack (packed : Bytes.pack 4 value = some bytes)
    (placed : Bytes.Placed buffer offset bytes) : ((le32 buffer offset).toNat : Int) = value := by
  have length := Bytes.length_of_pack packed
  have same : [buffer offset, buffer (offset + 1), buffer (offset + 2), buffer (offset + 3)] =
      bytes := by
    apply List.ext_getElem
    · rw [length]
      rfl
    · intro i below inside
      rw [← placed i inside]
      rw [length] at inside
      match i, inside with
      | 0, _ => rfl
      | 1, _ => rfl
      | 2, _ => rfl
      | 3, _ => rfl
  rw [toNat_le32, same, Bytes.toNat_of_pack packed]

theorem byte_of_pack (packed : Bytes.pack 1 value = some bytes)
    (placed : Bytes.Placed buffer offset bytes) : ((buffer offset).toNat : Int) = value := by
  have length := Bytes.length_of_pack packed
  obtain ⟨byte, rfl⟩ := List.length_eq_one_iff.mp length
  have here := placed 0 (Nat.one_pos)
  rw [← Bytes.toNat_of_pack packed]
  simp only [Nat.add_zero, List.getElem_cons_zero] at here
  simp [Bytes.toNat, here]

/-- What the loader reads in erased flash. -/
theorem le32_erased (erased : ∀ i < 4, buffer (offset + i) = 0xFF) :
    le32 buffer offset = 0xFFFFFFFF := by
  have first := erased 0 (by decide)
  rw [Nat.add_zero] at first
  rw [le32, first, erased 1 (by decide), erased 2 (by decide), erased 3 (by decide)]
  decide

end Fields

section Entries

/-- An entry in flash has the fields of a generated one. -/
structure SameEntry (image : ImageEntry) (entry : FirmwareDescriptorEntry) : Prop where
  imageId : (image.imageId.toNat : Int) = entry.imageId
  startBlock : some (image.startBlock.toNat : Int) = entry.startBlock
  totalBlocks : (image.totalBlocks.toNat : Int) = entry.getSizeInBlock
  imgVersion : (image.imgVersion.toNat : Int) = entry.reserved

variable {buffer : Nat → UInt8} {offset : Nat} {bytes : List UInt8}

theorem length_entry {entry : FirmwareDescriptorEntry} (binary : entry.toBinary = some bytes) :
    bytes.length = 16 := by
  simp only [FirmwareDescriptorEntry.toBinary, Option.bind_eq_bind, Option.bind_eq_some_iff,
    Option.pure_def, Option.some.injEq] at binary
  obtain ⟨imageId, packId, start, -, startBlock, packStart, size, packSize, reserved,
    packReserved, rfl⟩ := binary
  simp only [List.length_append, Bytes.length_of_pack packId, Bytes.length_of_pack packStart,
    Bytes.length_of_pack packSize, Bytes.length_of_pack packReserved]

theorem sameEntry_of_toBinary {entry : FirmwareDescriptorEntry}
    (binary : entry.toBinary = some bytes) (placed : Bytes.Placed buffer offset bytes) :
    SameEntry (imageEntryOfBytes buffer offset) entry := by
  simp only [FirmwareDescriptorEntry.toBinary, Option.bind_eq_bind, Option.bind_eq_some_iff,
    Option.pure_def, Option.some.injEq] at binary
  obtain ⟨imageId, packId, start, hasStart, startBlock, packStart, size, packSize, reserved,
    packReserved, rfl⟩ := binary
  simp only [Bytes.placed_append, List.length_append, Bytes.length_of_pack packId,
    Bytes.length_of_pack packStart, Bytes.length_of_pack packSize] at placed
  obtain ⟨⟨⟨atId, atStart⟩, atSize⟩, atReserved⟩ := placed
  exact {
    imageId := le32_of_pack packId atId
    startBlock := by
      rw [hasStart]
      exact congrArg some (le32_of_pack packStart atStart)
    totalBlocks := le32_of_pack packSize atSize
    imgVersion := le32_of_pack packReserved atReserved }

theorem length_entries {entries : List FirmwareDescriptorEntry}
    (binary : entriesToBinary entries = some bytes) : bytes.length = 16 * entries.length := by
  induction entries generalizing bytes with
  | nil =>
      cases binary
      rfl
  | cons entry entries ih =>
      simp only [entriesToBinary, Option.bind_eq_bind, Option.bind_eq_some_iff, Option.pure_def,
        Option.some.injEq] at binary
      obtain ⟨data, head, rest, tail, rfl⟩ := binary
      rw [List.length_append, length_entry head, ih tail, List.length_cons]
      omega

/-- The entries of a table are read back one by one. -/
theorem sameEntry_of_entries {entries : List FirmwareDescriptorEntry}
    (binary : entriesToBinary entries = some bytes) (placed : Bytes.Placed buffer offset bytes)
    (i : Nat) (listed : i < entries.length) :
    SameEntry (imageEntryOfBytes buffer (offset + 16 * i)) entries[i] := by
  induction entries generalizing bytes offset i with
  | nil => exact absurd listed (Nat.not_lt_zero i)
  | cons entry entries ih =>
      simp only [entriesToBinary, Option.bind_eq_bind, Option.bind_eq_some_iff, Option.pure_def,
        Option.some.injEq] at binary
      obtain ⟨data, head, rest, tail, rfl⟩ := binary
      obtain ⟨first, others⟩ := Bytes.placed_append.mp placed
      cases i with
      | zero => exact sameEntry_of_toBinary head first
      | succ i =>
          rw [length_entry head] at others
          have found := ih tail others i (Nat.lt_of_succ_lt_succ listed)
          have position : offset + 16 + 16 * i = offset + 16 * (i + 1) := by ring
          rwa [position] at found

end Entries

section Tables

/-- The entry that erased flash looks like. -/
def erasedEntry : ImageEntry where
  imageId := 0xFFFFFFFF
  startBlock := 0xFFFFFFFF
  totalBlocks := 0xFFFFFFFF
  imgVersion := 0xFFFFFFFF

/-- A descriptor of the loader has the fields of a generated table, and erased
entries behind those of the table. -/
structure SameTable (descriptor : Fwd) (table : FirmwareDescriptorTable) : Prop where
  signature : (descriptor.signature.toNat : Int) = table.signature
  version : (descriptor.version.toNat : Int) = table.version
  rank : (descriptor.rank.toNat : Int) = table.rank
  status : (descriptor.status.toNat : Int) = table.status
  totalImages : (descriptor.totalImages.toNat : Int) = table.numImages
  reserved : descriptor.reserved = table.reserved
  entries : ∀ i (inside : i < 30) (listed : i < table.entries.length),
    SameEntry descriptor.imageEntries[i] table.entries[i]
  padding : ∀ i (inside : i < 30), table.entries.length ≤ i →
    descriptor.imageEntries[i] = erasedEntry

variable {buffer : Nat → UInt8} {bytes : List UInt8} {table : FirmwareDescriptorTable}

theorem length_table (binary : table.toBinary = some bytes) :
    bytes.length = 32 + 16 * table.entries.length := by
  simp only [FirmwareDescriptorTable.toBinary, Option.bind_eq_bind, Option.bind_eq_some_iff,
    Option.pure_def, Option.some.injEq] at binary
  obtain ⟨signature, packSignature, version, packVersion, rank, packRank, status, packStatus,
    numImages, packImages, entries, packEntries, rfl⟩ := binary
  simp only [List.length_append, Bytes.length_of_pack packSignature,
    Bytes.length_of_pack packVersion, Bytes.length_of_pack packRank,
    Bytes.length_of_pack packStatus, Bytes.length_of_pack packImages, length_entries packEntries,
    Vector.length_toList]

theorem sameTable_of_toBinary (binary : table.toBinary = some bytes)
    (few : table.entries.length ≤ 30) (held : ∀ i < 512, buffer i = bytes.getD i 0xFF) :
    SameTable (fwdOfBytes buffer) table := by
  have length := length_table binary
  have placed : Bytes.Placed buffer 0 bytes := by
    intro i inside
    rw [Nat.zero_add, held i (by omega), List.getD_eq_getElem bytes 0xFF inside]
  simp only [FirmwareDescriptorTable.toBinary, Option.bind_eq_bind, Option.bind_eq_some_iff,
    Option.pure_def, Option.some.injEq] at binary
  obtain ⟨signature, packSignature, version, packVersion, rank, packRank, status, packStatus,
    numImages, packImages, entries, packEntries, rfl⟩ := binary
  simp only [Bytes.placed_append, List.length_append, Bytes.length_of_pack packSignature,
    Bytes.length_of_pack packVersion, Bytes.length_of_pack packRank,
    Bytes.length_of_pack packStatus, Bytes.length_of_pack packImages,
    Vector.length_toList] at placed
  obtain ⟨⟨⟨⟨⟨⟨atSignature, atVersion⟩, atRank⟩, atStatus⟩, atImages⟩, atReserved⟩,
    atEntries⟩ := placed
  exact {
    signature := le32_of_pack packSignature atSignature
    version := le32_of_pack packVersion atVersion
    rank := le32_of_pack packRank atRank
    status := byte_of_pack packStatus atStatus
    totalImages := byte_of_pack packImages atImages
    reserved := by
      apply Vector.ext
      intro i inside
      have here := atReserved i (by rwa [Vector.length_toList])
      simpa [fwdOfBytes] using here
    entries := by
      intro i inside listed
      simp only [fwdOfBytes, Vector.getElem_ofFn]
      exact sameEntry_of_entries packEntries atEntries i listed
    padding := by
      intro i inside behind
      have erased : ∀ start, start + 4 ≤ 16 → le32 buffer (32 + 16 * i + start) = 0xFFFFFFFF := by
        intro start within
        apply le32_erased
        intro k below
        rw [held _ (by omega), List.getD_eq_default]
        omega
      have first := erased 0 (by decide)
      rw [Nat.add_zero] at first
      simp only [fwdOfBytes, Vector.getElem_ofFn, imageEntryOfBytes, first, erased 4 (by decide),
        erased 8 (by decide), erased 12 (by decide), erasedEntry] }

/-- The sector of a table: its bytes and erased flash. -/
def sectorOf (t : List UInt8) : List UInt8 :=
  t ++ (List.replicate tableAlignSize 0xFF).drop t.length

theorem length_sectorOf {t : List UInt8} (inside : t.length ≤ 4096) :
    (sectorOf t).length = 4096 := by
  simp only [sectorOf, tableAlignSize, List.length_append, List.length_drop, List.length_replicate]
  omega

theorem getD_sectorOf (t : List UInt8) (i : Nat) : (sectorOf t).getD i 0xFF = t.getD i 0xFF := by
  by_cases inside : i < t.length
  · exact List.getD_append t _ 0xFF i inside
  · have behind : t.length ≤ i := Nat.le_of_not_lt inside
    rw [sectorOf, List.getD_append_right t _ 0xFF i behind, List.getD_eq_default t 0xFF behind,
      List.drop_replicate, List.getD_eq_getElem?_getD, List.getElem?_getD_replicate_default_eq]

theorem tablesToBinary_cons {tables : List FirmwareDescriptorTable}
    (binary : tablesToBinary (table :: tables) = some bytes) :
    ∃ t data, table.toBinary = some t ∧ tablesToBinary tables = some data ∧
      bytes = sectorOf t ++ data := by
  simp only [tablesToBinary, Option.bind_eq_bind, Option.bind_eq_some_iff, Option.pure_def,
    Option.some.injEq] at binary
  obtain ⟨t, head, data, tail, rfl⟩ := binary
  exact ⟨t, data, head, tail, rfl⟩

theorem length_sector (binary : table.toBinary = some bytes)
    (few : table.entries.length ≤ 30) : (sectorOf bytes).length = 4096 := by
  apply length_sectorOf
  rw [length_table binary]
  omega

/-- Each table of the binary stands in a sector of its own, with erased flash
behind it. -/
theorem sector_of_tables {tables : List FirmwareDescriptorTable}
    (binary : tablesToBinary tables = some bytes)
    (few : ∀ table ∈ tables, table.entries.length ≤ 30) {k : Nat}
    (listed : tables[k]? = some table) :
    ∃ t, table.toBinary = some t ∧
      ∀ i < 4096, bytes.getD (4096 * k + i) 0xFF = t.getD i 0xFF := by
  induction tables generalizing bytes k with
  | nil => cases listed
  | cons head tables ih =>
      obtain ⟨t, data, first, rest, rfl⟩ := tablesToBinary_cons binary
      have full := length_sector first (few head List.mem_cons_self)
      cases k with
      | zero =>
          cases listed
          refine ⟨t, first, fun i inside => ?_⟩
          rw [Nat.mul_zero, Nat.zero_add, List.getD_append _ _ _ _ (by omega), getD_sectorOf]
      | succ k =>
          obtain ⟨found, packed, held⟩ := ih rest
            (fun other later => few other (List.mem_cons_of_mem head later)) listed
          refine ⟨found, packed, fun i inside => ?_⟩
          have position : 4096 * (k + 1) + i - 4096 = 4096 * k + i := by omega
          rw [List.getD_append_right _ _ _ _ (by omega), full, position, held i inside]

theorem length_tables {tables : List FirmwareDescriptorTable}
    (binary : tablesToBinary tables = some bytes)
    (few : ∀ table ∈ tables, table.entries.length ≤ 30) :
    bytes.length = 4096 * tables.length := by
  induction tables generalizing bytes with
  | nil =>
      cases binary
      rfl
  | cons head tables ih =>
      obtain ⟨t, data, first, rest, rfl⟩ := tablesToBinary_cons binary
      rw [List.length_append, length_sector first (few head List.mem_cons_self),
        ih rest fun other later => few other (List.mem_cons_of_mem head later), List.length_cons]
      omega

end Tables

section Scan

/-- The test of the sector loop. -/
def isValidFwd (descriptor : Fwd) : Bool :=
  descriptor.signature == fwUpgradeMagicV1 && descriptor.status.toUInt32 == otaImgStateValid

/-- The descriptor of a sector is in the table of the loader. -/
structure Scanned (flash : Mem UInt8) (info : SblInfo) (sector : UInt8) : Prop where
  table : info.flashFwdTable (fwdSlot (sectorFwd flash sector).rank) = sectorFwd flash sector
  boot : info.bootFwd (fwdSlot (sectorFwd flash sector).rank) = sector
  mask : info.validFwdMask &&& fwdMaskBit (fwdSlot (sectorFwd flash sector).rank) =
    fwdMaskBit (fwdSlot (sectorFwd flash sector).rank)

/-- Bits set in a mask stay set. -/
theorem or_and_of_and {mask bit : UInt8} (added : UInt8) (set : mask &&& bit = bit) :
    (mask ||| added) &&& bit = bit := by
  apply UInt8.toBitVec_inj.mp
  apply BitVec.eq_of_getLsbD_eq
  intro i inside
  have here := congrArg (fun byte => byte.toBitVec.getLsbD i) set
  simp only [UInt8.toBitVec_and, UInt8.toBitVec_or, BitVec.getLsbD_and, BitVec.getLsbD_or] at here ⊢
  rw [Bool.and_or_distrib_right, here]
  cases bit.toBitVec.getLsbD i
  · rw [Bool.and_false, Bool.or_false]
  · rw [Bool.true_or]

variable {storage : Storage}

theorem scanned_place (flash : Mem UInt8) (info : SblInfo) (sector : UInt8) :
    Scanned flash (placeFwd info sector (sectorFwd flash sector)) sector where
  table := by simp [placeFwd]
  boot := by simp [placeFwd]
  mask := by
    simp only [placeFwd]
    rw [UInt8.or_comm]
    exact or_and_of_and _ UInt8.and_self

theorem Scanned.place {flash : Mem UInt8} {info : SblInfo} {sector other : UInt8}
    (scanned : Scanned flash info sector)
    (apart : fwdSlot (sectorFwd flash other).rank = fwdSlot (sectorFwd flash sector).rank →
      other = sector) :
    Scanned flash (placeFwd info other (sectorFwd flash other)) sector := by
  by_cases same : other = sector
  · rw [same]
    exact scanned_place flash info sector
  · have free : fwdSlot (sectorFwd flash sector).rank ≠ fwdSlot (sectorFwd flash other).rank :=
      fun equal => same (apart equal.symm)
    exact {
      table := by simpa [placeFwd, free] using scanned.table
      boot := by simpa [placeFwd, free] using scanned.boot
      mask := or_and_of_and _ scanned.mask }

/-- One sector of the scan, when its read succeeds. -/
theorem getFwdInfoLoop_cons {sector : UInt8} (sectors : List UInt8) (status : BlError)
    (info : SblInfo)
    (granted : storage.flashReadStatus (sector.toUInt32 * blockSizeInBytes) sizeofFwd = blErrNone) :
    getFwdInfoLoop storage (sector :: sectors) status info =
      if isValidFwd (sectorFwd storage.flash sector) then
        getFwdInfoLoop storage sectors blErrNone
          (placeFwd info sector (sectorFwd storage.flash sector))
      else getFwdInfoLoop storage sectors status info := by
  rw [getFwdInfoLoop, bootSblFlashRead]
  simp only [granted, if_true, ne_eq, not_true_eq_false, if_false]
  rfl

/-- All reads of the scan succeed. -/
def Readable (storage : Storage) (sectors : List UInt8) : Prop :=
  ∀ sector ∈ sectors,
    storage.flashReadStatus (sector.toUInt32 * blockSizeInBytes) sizeofFwd = blErrNone

theorem getFwdInfoLoop_status (sectors : List UInt8) (readable : Readable storage sectors)
    (status : BlError) (info : SblInfo) :
    (getFwdInfoLoop storage sectors status info).1 = blErrNone ↔
      status = blErrNone ∨
        ∃ sector ∈ sectors, isValidFwd (sectorFwd storage.flash sector) = true := by
  induction sectors generalizing status info with
  | nil => simp [getFwdInfoLoop]
  | cons sector sectors ih =>
      rw [getFwdInfoLoop_cons sectors status info (readable sector List.mem_cons_self)]
      have later := ih fun s listed => readable s (List.mem_cons_of_mem sector listed)
      split_ifs with valid
      · rw [later]
        simp [valid]
      · rw [later]
        simp [valid]

/-- A scanned sector stays in the table while no other sector claims its slot. -/
theorem getFwdInfoLoop_keeps_scanned (sectors : List UInt8) (readable : Readable storage sectors)
    {sector : UInt8}
    (alone : ∀ other ∈ sectors, isValidFwd (sectorFwd storage.flash other) = true →
      fwdSlot (sectorFwd storage.flash other).rank = fwdSlot (sectorFwd storage.flash sector).rank →
        other = sector)
    {status : BlError} {info : SblInfo} (scanned : Scanned storage.flash info sector) :
    Scanned storage.flash (getFwdInfoLoop storage sectors status info).2 sector := by
  induction sectors generalizing status info with
  | nil => exact scanned
  | cons head sectors ih =>
      rw [getFwdInfoLoop_cons sectors status info (readable head List.mem_cons_self)]
      have later := @ih (fun s listed => readable s (List.mem_cons_of_mem head listed))
        fun s listed => alone s (List.mem_cons_of_mem head listed)
      split_ifs with valid
      · exact later (scanned.place (alone head List.mem_cons_self valid))
      · exact later scanned

theorem getFwdInfoLoop_scans (sectors : List UInt8) (readable : Readable storage sectors)
    {sector : UInt8} (listed : sector ∈ sectors)
    (valid : isValidFwd (sectorFwd storage.flash sector) = true)
    (alone : ∀ other ∈ sectors, isValidFwd (sectorFwd storage.flash other) = true →
      fwdSlot (sectorFwd storage.flash other).rank = fwdSlot (sectorFwd storage.flash sector).rank →
        other = sector)
    (status : BlError) (info : SblInfo) :
    Scanned storage.flash (getFwdInfoLoop storage sectors status info).2 sector := by
  induction sectors generalizing status info with
  | nil => cases listed
  | cons head sectors ih =>
      rw [getFwdInfoLoop_cons sectors status info (readable head List.mem_cons_self)]
      have readableLater : Readable storage sectors :=
        fun s isLater => readable s (List.mem_cons_of_mem head isLater)
      have aloneLater := fun s isLater => alone s (List.mem_cons_of_mem head isLater)
      rcases List.mem_cons.mp listed with rfl | isLater
      · rw [if_pos valid]
        exact getFwdInfoLoop_keeps_scanned sectors readableLater aloneLater
          (scanned_place storage.flash info sector)
      · split_ifs
        · exact ih readableLater isLater aloneLater _ _
        · exact ih readableLater isLater aloneLater _ _

end Scan

section Loader

/-- The rank classes of the loader. -/
def rankClass (rank : Int) : Fin 3 :=
  if rank = 0 then indexGolden
  else if rank = 0xFFFFFFFF then indexTrial
  else indexCurrent

theorem fwdSlot_eq_rankClass {rank : UInt32} {value : Int} (same : (rank.toNat : Int) = value) :
    fwdSlot rank = rankClass value := by
  have golden : rank = 0 ↔ value = 0 := by
    rw [← same, ← UInt32.toNat_inj]
    exact Int.natCast_eq_zero.symm
  have trial : rank = 0xFFFFFFFF ↔ value = 0xFFFFFFFF := by
    rw [← same, ← UInt32.toNat_inj]
    exact Int.natCast_inj.symm
  simp only [fwdSlot, rankClass, golden, trial]

/-- The binary of the tables is in flash, the rest of the FWD sectors is erased,
and the sectors can be read. -/
structure Programmed (storage : Storage) (tables : List FirmwareDescriptorTable) : Prop where
  binary : ∃ bytes, tablesToBinary tables = some bytes ∧
    ∀ i < 3 * 4096, storage.flash (UInt32.ofNat i) = bytes.getD i 0xFF
  readable : Readable storage [0, 1, 2]

theorem isValidFwd_iff {descriptor : Fwd} {table : FirmwareDescriptorTable}
    (same : SameTable descriptor table) (signature : table.signature = fwdTableSignature) :
    isValidFwd descriptor = true ↔ table.status = 1 := by
  have magic : descriptor.signature = fwUpgradeMagicV1 := by
    apply UInt32.toNat_inj.mp
    have value := same.signature
    rw [signature] at value
    exact Int.natCast_inj.mp value
  have status : descriptor.status.toUInt32 = otaImgStateValid ↔ table.status = 1 := by
    rw [← same.status, ← UInt32.toNat_inj, UInt8.toNat_toUInt32]
    exact Int.natCast_inj.symm
  rw [isValidFwd, magic, beq_self_eq_true, Bool.true_and, beq_iff_eq, status]

theorem sector_address (sector : UInt8) (i : Nat) :
    sector.toUInt32 * blockSizeInBytes + UInt32.ofNat i =
      UInt32.ofNat (4096 * sector.toNat + i) := by
  apply UInt32.toNat_inj.mp
  have size : blockSizeInBytes.toNat = 4096 := rfl
  simp only [UInt32.toNat_add, UInt32.toNat_mul, UInt8.toNat_toUInt32, size, UInt32.toNat_ofNat']
  omega

variable {storage : Storage} {tables : List FirmwareDescriptorTable}

/-- A FWD sector holds its table or is erased. -/
theorem sector_cases (programmed : Programmed storage tables)
    (few : ∀ table ∈ tables, table.entries.length ≤ 30) {sector : UInt8}
    (inTable : sector.toNat < 3) :
    (∃ table, tables[sector.toNat]? = some table ∧
        SameTable (sectorFwd storage.flash sector) table) ∨
      (tables[sector.toNat]? = none ∧ isValidFwd (sectorFwd storage.flash sector) = false) := by
  obtain ⟨bytes, binary, flash⟩ := programmed.binary
  have held : ∀ i < 4096, storage.flash (sector.toUInt32 * blockSizeInBytes + UInt32.ofNat i) =
      bytes.getD (4096 * sector.toNat + i) 0xFF := by
    intro i inside
    rw [sector_address sector i]
    exact flash _ (by omega)
  cases listed : tables[sector.toNat]? with
  | some table =>
      obtain ⟨t, packed, own⟩ := sector_of_tables binary few listed
      refine .inl ⟨table, rfl, ?_⟩
      have short := few table (List.mem_of_getElem? listed)
      have own512 : ∀ i < 512, storage.flash (sector.toUInt32 * blockSizeInBytes + UInt32.ofNat i) =
          t.getD i 0xFF := by
        intro i inside
        rw [held i (by omega), own i (by omega)]
      rw [sectorFwd]
      exact sameTable_of_toBinary packed short own512
  | none =>
      have behind : tables.length ≤ sector.toNat := List.getElem?_eq_none_iff.mp listed
      have length := length_tables binary few
      have erased : ∀ i < 4, storage.flash (sector.toUInt32 * blockSizeInBytes +
          UInt32.ofNat (0 + i)) = 0xFF := by
        intro i inside
        rw [held (0 + i) (by omega), List.getD_eq_default]
        omega
      refine .inr ⟨rfl, ?_⟩
      simp only [isValidFwd, sectorFwd, fwdOfBytes]
      rw [le32_erased erased]
      rfl

/-- The scan stops at the entry that the table lists first. -/
theorem appEntry_of_sameTable {descriptor : Fwd} {table : FirmwareDescriptorTable}
    (same : SameTable descriptor table) (few : table.entries.length ≤ 30)
    {entry : FirmwareDescriptorEntry}
    (found : table.entries.find? (fun entry => entry.imageId = 10) = some entry) :
    ∃ image, appEntry descriptor = some image ∧ SameEntry image entry := by
  obtain ⟨isApp, position, listed, here, before⟩ := List.find?_eq_some_iff_getElem.mp found
  have inside : position < 30 := by omega
  have entryHere := same.entries position inside listed
  rw [here] at entryHere
  refine ⟨descriptor.imageEntries[position], ?_, entryHere⟩
  have isAppImage : ∀ {image : ImageEntry} {entry : FirmwareDescriptorEntry},
      SameEntry image entry → ((image.imageId == appImgId) = true ↔ entry.imageId = 10) := by
    intro image entry sameEntry
    rw [beq_iff_eq, ← UInt32.toNat_inj, ← sameEntry.imageId]
    exact Int.natCast_inj.symm
  rw [appEntry, List.find?_eq_some_iff_getElem]
  refine ⟨(isAppImage entryHere).mpr (of_decide_eq_true isApp), position, ?_, ?_, ?_⟩
  · rwa [Vector.length_toList]
  · rw [Vector.getElem_toList]
  · intro i early
    have listedEarly : i < table.entries.length := Nat.lt_trans early listed
    have entryEarly := same.entries i (by omega) listedEarly
    have notApp : ¬ table.entries[i].imageId = 10 := by simpa using before i early
    have notImage := mt (isAppImage entryEarly).mp notApp
    rw [Vector.getElem_toList]
    simpa using notImage

/-- The application FDE of a valid slot gets the block of the APP entry, in
bytes, as a 32-bit address. -/
theorem loadAddr_of_sameTable {info : SblInfo} {slot : Fin 3} {table : FirmwareDescriptorTable}
    (same : SameTable (info.flashFwdTable slot) table) (few : table.entries.length ≤ 30)
    (valid : isValidFwd (info.flashFwdTable slot) = true) {entry : FirmwareDescriptorEntry}
    (found : table.entries.find? (fun entry => entry.imageId = 10) = some entry)
    (appFde : FdtEntry) (appLoadAddr : UInt32) :
    some ((bootSblPrepareSetFde info appFde appLoadAddr slot).2.2.toNat : Int) =
      entry.startBlock.map fun startBlock => 4096 * startBlock % 2 ^ 32 := by
  obtain ⟨image, isFirst, sameEntry⟩ := appEntry_of_sameTable same few found
  have size : blockSizeInBytes.toNat = 4096 := rfl
  rw [isValidFwd] at valid
  simp only [bootSblPrepareSetFde, valid, if_true, isFirst]
  rw [← sameEntry.startBlock, Option.map_some, UInt32.toNat_mul, size]
  push_cast
  rw [mul_comm]

theorem mem_sectors {sector : UInt8} (inTable : sector.toNat < 3) :
    sector ∈ ([0, 1, 2] : List UInt8) := by
  rw [List.mem_cons, List.mem_cons, List.mem_cons, ← UInt8.toNat_inj, ← UInt8.toNat_inj,
    ← UInt8.toNat_inj]
  have zero : UInt8.toNat 0 = 0 := rfl
  have one : UInt8.toNat 1 = 1 := rfl
  have two : UInt8.toNat 2 = 2 := rfl
  omega

theorem toNat_of_mem_sectors {sector : UInt8} (listed : sector ∈ ([0, 1, 2] : List UInt8)) :
    sector.toNat < 3 := by
  simp only [List.mem_cons, List.not_mem_nil, or_false] at listed
  rcases listed with rfl | rfl | rfl <;> decide

/-- A valid sector holds one of the tables. -/
theorem table_of_valid (programmed : Programmed storage tables)
    (few : ∀ table ∈ tables, table.entries.length ≤ 30)
    (signatures : ∀ table ∈ tables, table.signature = fwdTableSignature) {sector : UInt8}
    (listed : sector ∈ ([0, 1, 2] : List UInt8))
    (valid : isValidFwd (sectorFwd storage.flash sector) = true) :
    ∃ table, tables[sector.toNat]? = some table ∧ table.status = 1 ∧
      SameTable (sectorFwd storage.flash sector) table := by
  rcases sector_cases programmed few (toNat_of_mem_sectors listed) with
    ⟨table, here, same⟩ | ⟨-, erased⟩
  · have signature := signatures table (List.mem_of_getElem? here)
    exact ⟨table, here, (isValidFwd_iff same signature).mp valid, same⟩
  · rw [erased] at valid
    cases valid

/-- The sector of a table of the list. -/
theorem sector_of_table (count : tables.length ≤ 3) (programmed : Programmed storage tables)
    (few : ∀ table ∈ tables, table.entries.length ≤ 30) {k : Nat}
    {table : FirmwareDescriptorTable} (here : tables[k]? = some table) :
    ∃ sector ∈ ([0, 1, 2] : List UInt8), sector.toNat = k ∧
      SameTable (sectorFwd storage.flash sector) table := by
  have inside : k < tables.length := (List.getElem?_eq_some_iff.mp here).1
  have number : (UInt8.ofNat k).toNat = k := UInt8.toNat_ofNat_of_lt' (show k < 256 by omega)
  have inTable : (UInt8.ofNat k).toNat < 3 := by omega
  refine ⟨UInt8.ofNat k, mem_sectors inTable, number, ?_⟩
  rcases sector_cases programmed few inTable with ⟨found, listed, same⟩ | ⟨absent, -⟩
  · rw [number, here] at listed
    cases listed
    exact same
  · rw [number, here] at absent
    cases absent

/-- The loader finds a valid table in the slot of its rank, and loads the application from the
block the table names, as far as the 32-bit address reaches. -/
theorem getFwdInfo_finds (count : tables.length ≤ 3)
    (signatures : ∀ table ∈ tables, table.signature = fwdTableSignature)
    (ranks : tables.Pairwise fun table other => rankClass table.rank ≠ rankClass other.rank)
    (entries : ∀ table ∈ tables, table.entries.length ≤ 30)
    (programmed : Programmed storage tables) (info : SblInfo) {k : Nat}
    {table : FirmwareDescriptorTable} (here : tables[k]? = some table) (status : table.status = 1) :
    SameTable ((bootSblGetFwdInfo storage info).2.flashFwdTable (rankClass table.rank)) table ∧
      ((bootSblGetFwdInfo storage info).2.bootFwd (rankClass table.rank)).toNat = k ∧
      (bootSblGetFwdInfo storage info).2.validFwdMask &&& fwdMaskBit (rankClass table.rank) =
        fwdMaskBit (rankClass table.rank) ∧
      ∀ entry, table.entries.find? (fun entry => entry.imageId = 10) = some entry →
        ∀ appFde appLoadAddr,
          some ((bootSblPrepareSetFde (bootSblGetFwdInfo storage info).2 appFde appLoadAddr
              (rankClass table.rank)).2.2.toNat : Int) =
            entry.startBlock.map fun startBlock => 4096 * startBlock % 2 ^ 32 := by
  have readable := programmed.readable
  have isTable := List.mem_of_getElem? here
  obtain ⟨sector, listed, number, same⟩ := sector_of_table count programmed entries here
  have valid := (isValidFwd_iff same (signatures table isTable)).mpr status
  have slot := fwdSlot_eq_rankClass same.rank
  have alone : ∀ other ∈ ([0, 1, 2] : List UInt8),
      isValidFwd (sectorFwd storage.flash other) = true →
      fwdSlot (sectorFwd storage.flash other).rank =
          fwdSlot (sectorFwd storage.flash sector).rank →
        other = sector := by
    intro other otherListed otherValid sameSlot
    obtain ⟨otherTable, otherHere, -, otherSame⟩ :=
      table_of_valid programmed entries signatures otherListed otherValid
    rw [slot, fwdSlot_eq_rankClass otherSame.rank] at sameSlot
    obtain ⟨inside, atK⟩ := List.getElem?_eq_some_iff.mp here
    obtain ⟨otherInside, atOther⟩ := List.getElem?_eq_some_iff.mp otherHere
    rw [List.pairwise_iff_getElem] at ranks
    apply UInt8.toNat_inj.mp
    rw [number]
    rcases Nat.lt_trichotomy other.toNat k with less | equal | greater
    · have differ := ranks _ _ otherInside inside less
      rw [atK, atOther] at differ
      exact absurd sameSlot differ
    · exact equal
    · have differ := ranks _ _ inside otherInside greater
      rw [atK, atOther] at differ
      exact absurd sameSlot.symm differ
  have scanned := getFwdInfoLoop_scans [0, 1, 2] readable listed valid alone blErrInvalidParam
    { info with flashFwdTable := fun _ => zeroFwd }
  rw [← bootSblGetFwdInfo] at scanned
  have placed := scanned.table
  rw [slot] at placed
  have sameHere : SameTable ((bootSblGetFwdInfo storage info).2.flashFwdTable
      (rankClass table.rank)) table := by rwa [placed]
  refine ⟨sameHere, ?_, ?_, ?_⟩
  · rw [← slot, scanned.boot, number]
  · rw [← slot]
    exact scanned.mask
  · intro entry found appFde appLoadAddr
    refine loadAddr_of_sameTable sameHere (entries table isTable) ?_ found appFde appLoadAddr
    rwa [placed]

/-- The loader finds exactly the valid tables of the generator's binary, each
in the slot of its rank, and loads the application from the block its table
names, as far as the 32-bit address reaches. -/
theorem getFwdInfo_of_tablesToBinary (count : tables.length ≤ 3)
    (signatures : ∀ table ∈ tables, table.signature = fwdTableSignature)
    (ranks : tables.Pairwise fun table other => rankClass table.rank ≠ rankClass other.rank)
    (entries : ∀ table ∈ tables, table.entries.length ≤ 30)
    (programmed : Programmed storage tables) (info : SblInfo) :
    ((bootSblGetFwdInfo storage info).1 = blErrNone ↔ ∃ table ∈ tables, table.status = 1) ∧
      ∀ sector table, tables[sector]? = some table → table.status = 1 →
        SameTable ((bootSblGetFwdInfo storage info).2.flashFwdTable (rankClass table.rank)) table ∧
        ((bootSblGetFwdInfo storage info).2.bootFwd (rankClass table.rank)).toNat = sector ∧
        (bootSblGetFwdInfo storage info).2.validFwdMask &&& fwdMaskBit (rankClass table.rank) =
          fwdMaskBit (rankClass table.rank) ∧
        ∀ entry, table.entries.find? (fun entry => entry.imageId = 10) = some entry →
          ∀ appFde appLoadAddr,
            some ((bootSblPrepareSetFde (bootSblGetFwdInfo storage info).2 appFde appLoadAddr
                (rankClass table.rank)).2.2.toNat : Int) =
              entry.startBlock.map fun startBlock => 4096 * startBlock % 2 ^ 32 := by
  have readable := programmed.readable
  constructor
  · rw [bootSblGetFwdInfo, getFwdInfoLoop_status [0, 1, 2] readable]
    constructor
    · rintro (failed | ⟨sector, listed, valid⟩)
      · cases failed
      · obtain ⟨table, here, status, -⟩ := table_of_valid programmed entries signatures listed valid
        exact ⟨table, List.mem_of_getElem? here, status⟩
    · rintro ⟨table, isTable, status⟩
      obtain ⟨k, here⟩ := List.getElem?_of_mem isTable
      obtain ⟨sector, listed, -, same⟩ := sector_of_table count programmed entries here
      exact .inr ⟨sector, listed, (isValidFwd_iff same (signatures table isTable)).mpr status⟩
  · intro k table here status
    exact getFwdInfo_finds count signatures ranks entries programmed info here status

/-- A device with the binary of some tables in its flash. -/
def flashOf (tables : List FirmwareDescriptorTable) : Storage where
  flash := fun address => ((tablesToBinary tables).getD []).getD address.toNat 0xFF
  flashReadStatus := fun _ _ => blErrNone
  flashWriteStatus := fun _ _ => blErrNone
  flashTorn := fun _ => 0
  rramWriteStatus := fun _ _ => blErrNone
  rramSetStatus := fun _ _ => blErrNone
  rramReadStatus := fun _ _ => blErrNone

theorem programmed_flashOf (tables : List FirmwareDescriptorTable)
    (packs : (tablesToBinary tables).isSome = true) : Programmed (flashOf tables) tables where
  binary := by
    obtain ⟨bytes, binary⟩ := Option.isSome_iff_exists.mp packs
    refine ⟨bytes, binary, fun i inside => ?_⟩
    have number : (UInt32.ofNat i).toNat = i :=
      UInt32.toNat_ofNat_of_lt' (Nat.lt_trans inside (by decide))
    simp only [flashOf, binary, Option.getD_some, number]
  readable _ _ := rfl

/-- A table of one application image. -/
def appTable (rank : Int) (startBlock : Int) : FirmwareDescriptorTable where
  signature := fwdTableSignature
  version := 1
  rank := rank
  status := 1
  numImages := 1
  reserved := Vector.replicate 18 0
  entries := [
    { imageId := 10
      startBlock := some startBlock
      sizeInKb := 6
      reserved := 0
      blockSize := 4096 }]

theorem getFwdInfo_of_appTables :
    SameTable ((bootSblGetFwdInfo (flashOf [appTable 0xFFFFFFFF 16, appTable 0 32])
        zeroInfo).2.flashFwdTable indexGolden) (appTable 0 32) := by
  have programmed := programmed_flashOf [appTable 0xFFFFFFFF 16, appTable 0 32] (by decide +kernel)
  have slot : rankClass (appTable 0 32).rank = indexGolden := by decide
  rw [← slot]
  exact ((getFwdInfo_of_tablesToBinary (by decide) (by decide) (by decide) (by decide) programmed
    zeroInfo).2 1 (appTable 0 32) rfl rfl).1

/-- An image from block 2^20 on is beyond the 32-bit addresses. -/
theorem getFwdInfo_wraps :
    ¬ ∀ (tables : List FirmwareDescriptorTable) (storage : Storage) (info : SblInfo),
      tables.length ≤ 3 → (∀ table ∈ tables, table.signature = fwdTableSignature) →
      tables.Pairwise (fun table other => rankClass table.rank ≠ rankClass other.rank) →
      (∀ table ∈ tables, table.entries.length ≤ 30) → Programmed storage tables →
      ∀ (sector : Nat) (table : FirmwareDescriptorTable), tables[sector]? = some table →
        table.status = 1 → ∀ entry : FirmwareDescriptorEntry,
          table.entries.find? (fun entry => entry.imageId = 10) = some entry →
          ∀ appFde appLoadAddr,
            some ((bootSblPrepareSetFde (bootSblGetFwdInfo storage info).2 appFde appLoadAddr
                (rankClass table.rank)).2.2.toNat : Int) =
              entry.startBlock.map fun startBlock => 4096 * startBlock := by
  intro reached
  have programmed := programmed_flashOf [appTable 1 (2 ^ 20)] (by decide +kernel)
  have wrapped := reached _ _ zeroInfo (by decide) (by decide) (by decide) (by decide) programmed 0
    (appTable 1 (2 ^ 20)) rfl rfl _ rfl default 0
  obtain ⟨-, -, -, found⟩ := @getFwdInfo_finds _ _ (by decide) (by decide) (by decide) (by decide)
    programmed zeroInfo 0 (appTable 1 (2 ^ 20)) rfl rfl
  rw [found _ rfl default 0] at wrapped
  revert wrapped
  decide

end Loader

end QHal.Boot

namespace QHal.Qfdt.Gen

/-- An entry with the same image id, start block, size in blocks and reserved word. -/
structure ReadsEntry (entry read : FirmwareDescriptorEntry) : Prop where
  imageId : read.imageId = entry.imageId
  startBlock : read.startBlock = entry.startBlock
  size : read.getSizeInBlock = entry.getSizeInBlock
  reserved : read.reserved = entry.reserved

/-- A table with the same version, rank, status, reserved bytes and entries. -/
structure ReadsBack (table : FirmwareDescriptorTable) (read : ReadTable) : Prop where
  version : read.version = .int table.version
  rank : read.rank = .int table.rank
  status : read.status = .int table.status
  reserved : read.reserved = .bytes table.reserved.toList
  entries : List.Forall₂ ReadsEntry table.entries read.entries

/-- What is written for the tables is read back. -/
def RoundTrips (tables : List FirmwareDescriptorTable) : Prop :=
  ∃ data reads, tablesToBinary tables = some data ∧ fromBinary data = .ok reads ∧
    List.Forall₂ ReadsBack tables reads

/-- A field of the format `I`. -/
def IsWord (value : Int) : Prop := 0 ≤ value ∧ value < 2 ^ 32

instance (value : Int) : Decidable (IsWord value) :=
  inferInstanceAs (Decidable (0 ≤ value ∧ value < 2 ^ 32))

/-- The values of an entry fit their fields. -/
structure EntryInRange (entry : FirmwareDescriptorEntry) : Prop where
  imageId : IsWord entry.imageId
  startBlock : ∃ start, entry.startBlock = some start ∧ IsWord start
  size : IsWord entry.getSizeInBlock
  reserved : IsWord entry.reserved

/-- A table with the signature whose values fit their fields, of at most 254 entries that were
added one by one. -/
structure TableInRange (table : FirmwareDescriptorTable) : Prop where
  signature : table.signature = fwdTableSignature
  version : IsWord table.version
  rank : IsWord table.rank
  status : 0 ≤ table.status ∧ table.status < 2 ^ 8
  numImages : table.numImages = table.entries.length
  few : table.entries.length ≤ 254
  entries : ∀ entry ∈ table.entries, EntryInRange entry

/-- A header has six values, and none with the number 8. -/
theorem tableFromBinary_fails {data : List UInt8} (long : headerSize < data.length)
    (blockSize : Nat) : tableFromBinary blockSize data = .error "IndexError" := by
  have whole : (data.take headerSize).length = headerSize :=
    List.length_take_of_le (Nat.le_of_lt long)
  rw [tableFromBinary, unpackHeader, if_pos whole]
  rfl

theorem fromBinary_fails {data : List UInt8} (long : headerSize < data.length) :
    fromBinary data = .error "IndexError" := by
  rw [fromBinary, if_pos long, tableFromBinary_fails long]
  rfl

/-- Every table is written into a sector of its own. -/
theorem tablesToBinary_long {table : FirmwareDescriptorTable}
    {tables : List FirmwareDescriptorTable} {data : List UInt8}
    (binary : tablesToBinary (table :: tables) = some data) : headerSize < data.length := by
  obtain ⟨t, rest, -, -, rfl⟩ := Boot.tablesToBinary_cons binary
  simp only [Boot.sectorOf, tableAlignSize, headerSize, List.length_append, List.length_drop,
    List.length_replicate]
  omega

/-- Only the binary of no table at all is read back. -/
theorem gen_roundTrips_iff (tables : List FirmwareDescriptorTable) :
    RoundTrips tables ↔ tables = [] := by
  constructor
  · rintro ⟨data, reads, binary, read, -⟩
    cases tables with
    | nil => rfl
    | cons table tables =>
        rw [fromBinary_fails (tablesToBinary_long binary)] at read
        cases read
  · rintro rfl
    refine ⟨[], [], rfl, ?_, .nil⟩
    rw [fromBinary]
    rfl

/-- A table of one application image. -/
theorem roundTrips_not_appTable :
    ¬ ∀ tables : List FirmwareDescriptorTable, (∀ table ∈ tables, TableInRange table) →
      RoundTrips tables := by
  intro all
  have entry : EntryInRange
      { imageId := 10, startBlock := some 16, sizeInKb := 6, reserved := 0, blockSize := 4096 } :=
    ⟨by decide, ⟨16, rfl, by decide⟩, by decide +kernel, by decide⟩
  have inRange : TableInRange (Boot.appTable 0 16) :=
    { signature := rfl
      version := by decide
      rank := by decide
      status := by decide
      numImages := rfl
      few := by decide
      entries := fun _ listed => List.mem_singleton.mp listed ▸ entry }
  obtain ⟨data, reads, binary, read, -⟩ :=
    all [Boot.appTable 0 16] fun table listed => List.mem_singleton.mp listed ▸ inRange
  rw [fromBinary_fails (tablesToBinary_long binary)] at read
  cases read

end QHal.Qfdt.Gen
