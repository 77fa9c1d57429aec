/-
Module: QHal.Proofs.Download
Purpose: A download that does not raise leaves the image in the device, and one that fits
  does not raise, but for a binary file whose address `write_int` cuts to 32 bits.
Trusted boundary: none
Main exports: programLoop_written, programLoop_finishes, downloadBlocks_written, Board.Holds,
  Image.Fits, Image.Wraps, download_sound_iff, exists_parsedHex
-/
import QHal.Proofs.HexAddresses
import QHal.Proofs.HexBlocks
import QHal.Proofs.NvmBoard
import Mathlib.Tactic.ByContra

namespace QHal.Nvm

open Flash (FlashConfig)
open Hex (HexBlock HexFile)
open Steps (bind_ok_iff)

variable {config : FlashConfig} {faults : Nat → Option Fault} {target : Target}

/-! ## A block -/

/-- The word that the target finds for an address. -/
def word (address : Int) : Nat := (UInt32.ofNat address.toNat).toNat

theorem word_add {address : Int} {count : Nat} (positive : 0 ≤ address)
    (fits : word address + count < 2 ^ 32) : word (address + count) = word address + count := by
  unfold word at fits ⊢
  rw [UInt32.toNat_ofNat'] at fits ⊢
  rw [UInt32.toNat_ofNat']
  omega

theorem word_eq {address : Int} (positive : 0 ≤ address) (short : address < 2 ^ 32) :
    (word address : Int) = address := by
  unfold word
  rw [UInt32.toNat_ofNat']
  omega

theorem Target.Fits.lt {address : Int} {size : Nat} (fits : target.Fits config address size) :
    address + size < 2 ^ 32 := by
  have bound := (Flash.density_spec config).2.1
  cases target with
  | rram =>
      obtain ⟨-, -, room⟩ := fits
      omega
  | flash =>
      obtain ⟨-, -, room⟩ := fits
      omega

/-- A part of a range that starts at a multiple of 4096 bytes. -/
theorem Target.Fits.part {address : Int} {size : Nat} (fits : target.Fits config address size)
    {skipped count : Nat} (multiple : skipped % 4096 = 0) (inside : skipped + count ≤ size) :
    target.Fits config (address + skipped) count := by
  cases target with
  | rram =>
      obtain ⟨aligned, low, room⟩ := fits
      exact ⟨by omega, by omega, by omega⟩
  | flash =>
      obtain ⟨aligned, low, room⟩ := fits
      exact ⟨by omega, by omega, by omega⟩

/-- Two ranges that follow each other. -/
theorem Target.Fits.append {first : Nat} {front total : Nat} (fits : target.Fits config first front)
    (within : front ≤ total)
    (rest : target.Fits config ((first + front : Nat) : Int) (total - front)) :
    target.Fits config first total := by
  cases target with
  | rram =>
      obtain ⟨aligned, low, -⟩ := fits
      obtain ⟨-, -, room⟩ := rest
      exact ⟨aligned, low, by omega⟩
  | flash =>
      obtain ⟨aligned, low, -⟩ := fits
      obtain ⟨-, -, room⟩ := rest
      exact ⟨aligned, low, by omega⟩

theorem chunk_word {length : Nat} (positive : length ≠ 0) :
    (UInt32.ofNat (min dataBufSize length)).toNat = min dataBufSize length ∧
      min dataBufSize length ≠ 0 := by
  have size : dataBufSize = 32768 := rfl
  rw [UInt32.toNat_ofNat', size]
  omega

/-- What the pieces of a block leave behind them, if none of them fails. -/
theorem programLoop_written {image : Image} {length : Nat} (data : Nat → UInt8)
    {programmer after : Programmer Board} {fileOffset address : Int}
    (waiting : Returned config faults target programmer) (positive : 0 ≤ address)
    (file : ∀ i < length, image.fileByte (fileOffset + i) = some (data i))
    (ran : programLoop (drivers config faults) image fileOffset address length programmer =
      .ok after) :
    Returned config faults target after ∧
      (programmer.deviceTypeAttached = target.word ∨ length ≠ 0 →
        after.deviceTypeAttached = target.word) ∧
      (length ≠ 0 → target.Fits config (word address) length) ∧
      (∀ i < length,
        after.device.byteAt config target (word address + i : Nat) = some (data i)) ∧
      ∀ cell < word address,
        after.device.byteAt config target cell = programmer.device.byteAt config target cell := by
  induction length using Nat.strongRecOn generalizing programmer fileOffset address data with
  | ind length ih =>
  rw [programLoop] at ran
  by_cases empty : length = 0
  · rw [if_pos empty] at ran
    obtain rfl := Except.ok.inj ran
    exact ⟨waiting, fun attached => attached.resolve_right (not_not.mpr empty),
      fun nonempty => absurd empty nonempty, fun i below => by omega, fun _ _ => rfl⟩
  rw [if_neg empty] at ran
  obtain ⟨size, nonempty⟩ := chunk_word empty
  generalize chunk : min dataBufSize length = writeLen at ran size nonempty
  have within : writeLen ≤ length := chunk ▸ Nat.min_le_right _ _
  obtain ⟨⟨status, next⟩, commanded, rest⟩ := bind_ok_iff.mp ran
  dsimp only at rest
  by_cases failed : status ≠ 0
  · rw [if_pos failed] at rest
    split at rest <;> cases rest
  rw [if_neg failed] at rest
  obtain rfl := not_ne_iff.mp failed
  have restored : Returned config faults target (restore image fileOffset writeLen programmer) :=
    ⟨⟨waiting.place, waiting.offset, waiting.attached⟩, waiting.selected⟩
  obtain ⟨returned, attached, device, same, wrote⟩ := command_program restored commanded
  obtain ⟨fits, bytes, kept, -⟩ := write_ok (by omega) wrote
  rw [size] at fits bytes
  -- The pieces follow each other in the words of the target, too.
  have behind : word (address + writeLen) = word address + writeLen :=
    word_add positive (by have := fits.lt; unfold word; omega)
  obtain ⟨done, kind, room, later, earlier⟩ := ih (length - writeLen) (by omega)
    (fun i => data (writeLen + i)) returned (by omega)
    (fun i below => by
      rw [Int.add_assoc, ← Int.natCast_add]
      exact file (writeLen + i) (by omega)) rest
  rw [behind] at room later earlier
  refine ⟨done, fun _ => kind (Or.inl attached), fun _ => ?_, fun i below => ?_,
    fun cell below => ?_⟩
  · by_cases last : length - writeLen = 0
    · rw [show length = writeLen by omega]
      exact fits
    · exact fits.append within (room last)
  · by_cases first : i < writeLen
    · rw [earlier _ (by omega), show word address + i = (UInt32.ofNat address.toNat).toNat + i from
        rfl, bytes i first, restore]
      simp only [if_pos first, file i below, Option.getD_some]
    · have found := later (i - writeLen) (by omega)
      rw [show word address + writeLen + (i - writeLen) = word address + i by omega,
        Nat.add_sub_cancel' (by omega)] at found
      exact found
  · rw [earlier _ (by omega), kept cell below]
    exact same.byteAt cell

/-- The pieces of a block that fits are programmed. -/
theorem programLoop_finishes (image : Image) {length : Nat} {programmer : Programmer Board}
    (fileOffset : Int) {address : Int}
    (waiting : Returned config (fun _ => none) target programmer)
    (packed : 0 ≤ address ∧ address + length < 2 ^ 64)
    (fits : length ≠ 0 → target.Fits config (word address) length)
    (able : length ≠ 0 → programmer.device.Writable config target (word address)) :
    ∃ after, programLoop (drivers config fun _ => none) image fileOffset address length
      programmer = .ok after := by
  induction length using Nat.strongRecOn generalizing programmer fileOffset address with
  | ind length ih =>
  rw [programLoop]
  by_cases empty : length = 0
  · rw [if_pos empty]
    exact ⟨programmer, rfl⟩
  rw [if_neg empty]
  obtain ⟨size, nonempty⟩ := chunk_word empty
  have room := fits empty
  have chunkSize : dataBufSize = 32768 := rfl
  generalize chunk : min dataBufSize length = writeLen at size nonempty ⊢
  have restored : Returned config (fun _ => none) target
      (restore image fileOffset writeLen programmer) :=
    ⟨⟨waiting.place, waiting.offset, waiting.attached⟩, waiting.selected⟩
  have piece : target.Fits config (word address) writeLen := by
    have first := room.part (Nat.zero_mod 4096) (show 0 + writeLen ≤ length by omega)
    rwa [Int.natCast_zero, Int.add_zero] at first
  obtain ⟨next, commanded⟩ := command_program_finishes writeLen restored
    (show 0 ≤ address ∧ address < 2 ^ 64 by omega) (by omega) fun device same =>
      write_accepts _ (by omega) (by rw [size]; exact piece) (same.writable (able empty))
  dsimp only
  rw [commanded]
  obtain ⟨returned, -, device, same, wrote⟩ := command_program restored commanded
  obtain ⟨-, -, -, ready⟩ := write_ok (by omega) wrote
  have behind : word (address + writeLen) = word address + writeLen :=
    word_add packed.1 (by have := piece.lt; omega)
  refine ih (length - writeLen) (by omega) _ returned (by omega) (fun more => ?_)
    fun more flash => ?_
  · rw [behind]
    exact room.part (by omega) (by omega)
  · subst flash
    rw [size] at ready
    rw [behind]
    have aligned : (word address : Int) % 4096 = 0 := room.1
    exact ready (same.writable (able empty)) (by unfold word at aligned; omega) rfl

/-- The reads of a checksum over bytes that the device holds. -/
theorem readRange_held {address length : UInt32} {board : Board} {buffer : Nat → UInt8}
    (data : Nat → UInt8) (fits : length.toNat ≠ 0 → target.Fits config address.toNat length.toNat)
    (held : ∀ i < length.toNat,
      board.byteAt config target (address.toNat + i : Nat) = some (data i)) :
    readRange (target.functions config fun _ => none).read board buffer address length =
      some ((List.range length.toNat).map data) := by
  induction count : length.toNat using Nat.strongRecOn
    generalizing address length board buffer data with
  | ind total ih =>
  subst count
  rw [readRange]
  by_cases empty : length = 0
  · rw [dif_pos empty, empty]
    rfl
  rw [dif_neg empty]
  have nonempty : length.toNat ≠ 0 := fun zero => empty (UInt32.toNat_inj.mp zero)
  have size : bufferSize.toNat = 16384 := rfl
  have block : (blockSize length).toNat = min 16384 length.toNat := by
    unfold blockSize
    split
    case isTrue large =>
      have long := UInt32.lt_iff_toNat_lt.mp large
      omega
    case isFalse small =>
      have short := UInt32.le_iff_toNat_le.mp (UInt32.not_lt.mp small)
      omega
  have left := blockSize_rest empty
  have rest : (length - blockSize length).toNat = length.toNat - (blockSize length).toNat :=
    UInt32.toNat_sub_of_le _ _ (UInt32.le_iff_toNat_le.mpr (by omega))
  have room := fits nonempty
  have next : (address + blockSize length).toNat = address.toNat + (blockSize length).toNat := by
    have limit := room.lt
    rw [UInt32.toNat_add, Nat.mod_eq_of_lt (by omega)]
  have first : target.Fits config address.toNat (blockSize length).toNat := by
    have part := room.part (Nat.zero_mod 4096) (show 0 + (blockSize length).toNat ≤ _ by omega)
    rwa [Int.natCast_zero, Int.add_zero] at part
  obtain ⟨filled, after, read, bytes⟩ :=
    read_accepts board buffer (show (blockSize length).toNat ≠ 0 by omega) first
  have same := read_same config (fun _ => none) target board address buffer (blockSize length)
  rw [read] at same
  have here : ∀ i < (blockSize length).toNat, filled i = data i := by
    intro i below
    exact Option.some.inj ((bytes i below).symm.trans (held i (by omega)))
  rw [read]
  simp only [ne_eq, not_true_eq_false, if_false]
  rw [ih (length - blockSize length).toNat left (fun i => data ((blockSize length).toNat + i))
    (fun more => by
      rw [next, rest, Int.natCast_add]
      exact room.part (by omega) (by omega))
    (fun i below => by
      rw [next, same.byteAt, Nat.add_assoc]
      exact held _ (by omega)) rfl, Option.map_some, rest]
  have split : length.toNat =
      (blockSize length).toNat + (length.toNat - (blockSize length).toNat) := by omega
  conv => rhs; rw [split, List.range_add, List.map_append, List.map_map]
  congr 2
  exact List.map_congr_left fun i member => here i (List.mem_range.mp member)

/-- A block of the image, as the file and the object of the host have it. -/
structure Sourced (image : Image) (hexFile : HexFile) (start : Int) (bytes : List UInt8) :
    Prop where
  file : ∀ (i : Nat) (byte : UInt8), bytes[i]? = some byte →
    image.fileByte (image.fileOffset start + i) = some byte
  content : hexFile.get start bytes.length 0xFF = bytes

theorem map_getD_range (bytes : List UInt8) :
    (List.range bytes.length).map (fun i => bytes.getD i 0) = bytes := by
  refine List.ext_getElem (by rw [List.length_map, List.length_range]) fun i left right => ?_
  rw [List.getElem_map, List.getElem_range, List.getD_eq_getElem?_getD,
    List.getElem?_eq_getElem right, Option.getD_some]

theorem getElem?_getD {bytes : List UInt8} {i : Nat} (inside : i < bytes.length) :
    bytes[i]? = some (bytes.getD i 0) := by
  rw [List.getD_eq_getElem?_getD, List.getElem?_eq_getElem inside, Option.getD_some]

/-- The CRC-32 of no bytes is no error. -/
theorem crc32_nil : crc32 [] = 0 := by decide

/-- What a block leaves that does not raise. -/
theorem downloadBlock_written {image : Image} {hexFile : HexFile} {start : Int}
    {bytes : List UInt8} {programmer after : Programmer Board}
    (waiting : Returned config faults target programmer)
    (sourced : Sourced image hexFile start bytes)
    (ran : downloadBlock (drivers config faults) image hexFile start bytes.length programmer =
      .ok after) :
    (0 ≤ start ∧ start < 2 ^ 64) ∧ Returned config faults target after ∧
      (bytes.length ≠ 0 → target.Fits config (word start) bytes.length) ∧
      (∀ (i : Nat) (byte : UInt8), bytes[i]? = some byte →
        after.device.byteAt config target (word start + i : Nat) = some byte) ∧
      ∀ cell < word start,
        after.device.byteAt config target cell = programmer.device.byteAt config target cell := by
  unfold downloadBlock at ran
  obtain ⟨programmed, looped, ran⟩ := bind_ok_iff.mp ran
  obtain ⟨⟨crc, done⟩, checked, ran⟩ := bind_ok_iff.mp ran
  dsimp only at ran
  by_cases other : crc ≠ crc32 (hexFile.get start bytes.length 0xFF)
  · rw [if_pos other] at ran
    cases ran
  rw [if_neg other] at ran
  obtain rfl := Except.ok.inj ran
  have packed := ((command_ok_iff ..).mp checked).1
  obtain ⟨returned, attached, fits, held, kept⟩ :=
    programLoop_written (fun i => bytes.getD i 0) waiting
    packed.1 (fun i inside => sourced.file i _ (getElem?_getD inside)) looped
  rcases command_crc returned checked with ⟨back, same⟩ | ⟨detached, failed⟩
  · refine ⟨packed, back, fits, fun i byte found => ?_, fun cell below => ?_⟩
    · have inside := (List.getElem?_eq_some_iff.mp found).1
      rw [same.byteAt, held i inside, ← getElem?_getD inside, found]
    · rw [same.byteAt, kept cell below]
  · -- Without a byte nothing was attached before, but then the CRC is another one.
    have empty : bytes = [] := by
      by_cases empty : bytes = []
      · exact empty
      · exact absurd
          (attached (Or.inr fun none => empty (List.length_eq_zero_iff.mp none))) detached
    rw [not_ne_iff.mp other, sourced.content, empty, crc32_nil] at failed
    exact absurd failed (by decide)

/-- A block that fits does not raise. -/
theorem downloadBlock_finishes {image : Image} {hexFile : HexFile} {start : Int}
    {bytes : List UInt8} {programmer : Programmer Board}
    (waiting : Returned config (fun _ => none) target programmer)
    (sourced : Sourced image hexFile start bytes)
    (packed : 0 ≤ start ∧ start + bytes.length < 2 ^ 64)
    (fits : bytes.length ≠ 0 → target.Fits config (word start) bytes.length)
    (able : bytes.length ≠ 0 → programmer.device.Writable config target (word start)) :
    ∃ after, downloadBlock (drivers config fun _ => none) image hexFile start bytes.length
      programmer = .ok after := by
  obtain ⟨programmed, looped⟩ := programLoop_finishes image (image.fileOffset start) waiting
    packed fits able
  obtain ⟨returned, -, -, held, -⟩ := programLoop_written (fun i => bytes.getD i 0) waiting
    packed.1 (fun i inside => sourced.file i _ (getElem?_getD inside)) looped
  have length : (UInt32.ofNat bytes.length).toNat = bytes.length := by
    rw [UInt32.toNat_ofNat']
    by_cases empty : bytes.length = 0
    · rw [empty]
    · have room := (fits empty).lt
      omega
  obtain ⟨after, checked⟩ := command_crc_finishes bytes.length bytes returned
    (show 0 ≤ start ∧ start < 2 ^ 64 by omega) (by omega) fun device same => by
      rw [readRange_held (fun i => bytes.getD i 0) (by rw [length]; exact fits)
        (fun i below => by
          rw [same.byteAt]
          exact held i (by omega)), length, map_getD_range]
  refine ⟨after, bind_ok_iff.mpr ⟨programmed, looped, bind_ok_iff.mpr ⟨_, checked, ?_⟩⟩⟩
  dsimp only
  rw [sourced.content, if_neg (not_not.mpr rfl)]
  rfl

/-! ## The image -/

/-- The device holds the bytes of the image at their addresses. -/
def Board.Holds (config : FlashConfig) (board : Board) (target : Target) (image : Image) : Prop :=
  ∀ start bytes, (start, bytes) ∈ image.blocks → ∀ (i : Nat) (byte : UInt8),
    bytes[i]? = some byte → board.byteAt config target (start + i) = some byte

/-- Every block of the image fits the device. -/
def Image.Fits (config : FlashConfig) (target : Target) (image : Image) : Prop :=
  ∀ start bytes, (start, bytes) ∈ image.blocks → target.Fits config start bytes.length

/-- A binary file whose address has more than 32 bits, and fits the device in its low 32. -/
def Image.Wraps (config : FlashConfig) (target : Target) : Image → Prop
  | .binary beginAddress bytes =>
      bytes ≠ [] ∧ 2 ^ 32 ≤ beginAddress ∧ beginAddress < 2 ^ 64 ∧
        target.Fits config (beginAddress % 2 ^ 32) bytes.length
  | .hex _ => False

/-- The rounds of `download` over some blocks. -/
def downloadBlocks (drivers : Drivers Board) (image : Image) (hexFile : HexFile)
    (blocks : List HexBlock) (programmer : Programmer Board) :
    Except String (Programmer Board) :=
  (blocks.map fun block => (block.start, block.data.length)).foldlM
    (fun programmer (startAddress, size) =>
      downloadBlock drivers image hexFile startAddress size programmer) programmer

/-- Blocks in order: none of them takes back what those in front of it have left. -/
theorem downloadBlocks_written {image : Image} {hexFile : HexFile} {blocks : List HexBlock}
    {programmer after : Programmer Board} (ordered : HexFile.Ordered blocks)
    (short : ∀ block ∈ blocks, block.start < 2 ^ 32)
    (sourced : ∀ block ∈ blocks, Sourced image hexFile block.start block.data)
    (waiting : Returned config faults target programmer)
    (ran : downloadBlocks (drivers config faults) image hexFile blocks programmer = .ok after) :
    Returned config faults target after ∧
      (∀ block ∈ blocks, ∀ (i : Nat) (byte : UInt8), block.data[i]? = some byte →
        after.device.byteAt config target (block.start + i) = some byte) ∧
      ∀ cell : Nat, (∀ block ∈ blocks, (cell : Int) < block.start) →
        after.device.byteAt config target cell = programmer.device.byteAt config target cell := by
  induction blocks generalizing programmer with
  | nil =>
      obtain rfl := Except.ok.inj ran
      exact ⟨waiting, nofun, fun _ _ => rfl⟩
  | cons block blocks ih =>
      obtain ⟨before, later⟩ := List.pairwise_cons.mp ordered
      obtain ⟨next, one, rest⟩ := bind_ok_iff.mp ran
      obtain ⟨packed, returned, -, bytes, kept⟩ :=
        downloadBlock_written waiting (sourced block List.mem_cons_self) one
      have start : (word block.start : Int) = block.start :=
        word_eq packed.1 (short block List.mem_cons_self)
      obtain ⟨done, others, frame⟩ := ih later
        (fun other member => short other (List.mem_cons_of_mem _ member))
        (fun other member => sourced other (List.mem_cons_of_mem _ member)) returned rest
      refine ⟨done, fun other member i byte found => ?_, fun cell below => ?_⟩
      · rcases List.mem_cons.mp member with rfl | member
        · have inside := (List.getElem?_eq_some_iff.mp found).1
          have stop : other.start + other.data.length = other.stop := rfl
          rw [← start, ← Int.natCast_add, frame _ fun further behind => ?_]
          · exact bytes i byte found
          · have apart := before further behind
            omega
        · exact others other member i byte found
      · rw [frame cell fun other member => below other (List.mem_cons_of_mem _ member),
          kept cell (by have := below block List.mem_cons_self; omega)]

/-- Blocks that fit do not raise. -/
theorem downloadBlocks_finishes {image : Image} {hexFile : HexFile} {blocks : List HexBlock}
    {programmer : Programmer Board}
    (able : target = .flash → config.erase4kbOpcode ≠ 0)
    (sourced : ∀ block ∈ blocks, Sourced image hexFile block.start block.data)
    (fits : ∀ block ∈ blocks, target.Fits config block.start block.data.length)
    (waiting : Returned config (fun _ => none) target programmer) :
    ∃ after, downloadBlocks (drivers config fun _ => none) image hexFile blocks programmer =
      .ok after := by
  induction blocks generalizing programmer with
  | nil => exact ⟨programmer, rfl⟩
  | cons block blocks ih =>
      have room := fits block List.mem_cons_self
      have limit := room.lt
      have positive : 0 ≤ block.start := by
        cases target with
        | rram =>
            have low := room.2.1
            omega
        | flash => exact room.2.1
      obtain ⟨next, one⟩ := downloadBlock_finishes waiting (sourced block List.mem_cons_self)
        ⟨positive, by omega⟩ (fun _ => by rw [word_eq positive (by omega)]; exact room)
        fun _ flash => Or.inl (able flash)
      obtain ⟨-, returned, -⟩ :=
        downloadBlock_written waiting (sourced block List.mem_cons_self) one
      obtain ⟨after, rest⟩ := ih (fun other member => sourced other (List.mem_cons_of_mem _ member))
        (fun other member => fits other (List.mem_cons_of_mem _ member)) returned
      exact ⟨after, bind_ok_iff.mpr ⟨next, one, rest⟩⟩

/-- A download is the choice of the target, the check of the address and the rounds. -/
theorem download_ok_iff (drivers : Drivers Board) (target : Target) (image : Image)
    (programmer after : Programmer Board) :
    download drivers target image programmer = .ok after ↔
      checkBegin target image.beginAddress = .ok () ∧
        ∃ hexFile, image.hexFile = .ok hexFile ∧
          downloadBlocks drivers image hexFile hexFile.blocks
            { programmer with deviceType := target.word } = .ok after := by
  have packed := ofNat_word target.word
  unfold download
  simp only [bind_ok_iff, writeInt_ok_iff]
  constructor
  · rintro ⟨selected, ⟨-, rfl⟩, ⟨⟩, checked, hexFile, made, ran⟩
    refine ⟨checked, hexFile, made, ?_⟩
    rw [← ran, packed.2]
    rfl
  · rintro ⟨checked, hexFile, made, ran⟩
    refine ⟨_, ⟨packed.1, rfl⟩, (), checked, hexFile, made, ?_⟩
    rw [← ran, packed.2]
    rfl

/-- The object of the host has the blocks of the image that are not empty, and those of a hex
file as they are. -/
theorem mem_hexFile {image : Image} {hexFile : HexFile} (made : image.hexFile = .ok hexFile) :
    HexFile.Ordered hexFile.blocks ∧
      (∀ block ∈ hexFile.blocks, (block.start, block.data) ∈ image.blocks ∧
        Sourced image hexFile block.start block.data) ∧
      ∀ start bytes, (start, bytes) ∈ image.blocks → bytes ≠ [] →
        ∃ block ∈ hexFile.blocks, (block.start, block.data) = (start, bytes) := by
  cases image with
  | binary beginAddress bytes =>
      rw [Image.hexFile, HexFile.empty_add] at made
      obtain rfl := Except.ok.inj made
      by_cases empty : bytes = []
      · simp only [ne_eq, empty, not_true_eq_false, if_false]
        refine ⟨List.Pairwise.nil, nofun, fun start data member nonempty => ?_⟩
        rw [Image.blocks, List.mem_singleton] at member
        exact absurd (Prod.mk.inj member).2 nonempty
      · simp only [ne_eq, empty, not_false_eq_true, if_true]
        have single : HexFile.Ordered [⟨beginAddress, bytes, .bytearray⟩] :=
          List.pairwise_singleton _ _
        refine ⟨single, fun block member => ?_, fun start data member _ => ?_⟩
        · obtain rfl := List.mem_singleton.mp member
          refine ⟨List.mem_cons_self, ⟨fun i byte found => ?_, ?_⟩⟩
          · rw [Image.fileOffset, Image.fileByte, if_pos (by omega), ← found]
            congr 1
            omega
          · exact HexFile.get_block single List.mem_cons_self 0xFF
        · exact ⟨_, List.mem_cons_self, (List.mem_singleton.mp member).symm⟩
  | hex parsed =>
      obtain rfl := Except.ok.inj made
      have ordered : HexFile.Ordered parsed.file.blocks :=
        parsed.apart.imp fun apart => Int.le_of_lt apart
      refine ⟨ordered, fun block member => ⟨List.mem_map_of_mem member, ?_, ?_⟩,
        fun start bytes member _ => List.mem_map.mp member⟩
      · exact fun i byte found => HexFile.byteAt_block ordered member found
      · exact HexFile.get_block ordered member 0xFF

/-- The programmer with the target selected. -/
theorem Waiting.selected {programmer : Programmer Board}
    (waiting : Waiting config faults programmer) (target : Target) :
    Returned config faults target { programmer with deviceType := target.word } :=
  ⟨⟨waiting.place, waiting.offset, waiting.attached⟩, rfl⟩

/-- A download that does not raise leaves the image in the device, if its addresses have 32
bits. -/
theorem download_holds {image : Image} {programmer after : Programmer Board}
    (short : ∀ start bytes, (start, bytes) ∈ image.blocks → start < 2 ^ 32)
    (waiting : Waiting config faults programmer)
    (ran : download (drivers config faults) target image programmer = .ok after) :
    Waiting config faults after ∧ after.device.Holds config target image := by
  obtain ⟨-, hexFile, made, rounds⟩ := (download_ok_iff ..).mp ran
  obtain ⟨ordered, sourced, all⟩ := mem_hexFile made
  obtain ⟨returned, held, -⟩ := downloadBlocks_written ordered
    (fun block member => short _ _ (sourced block member).1)
    (fun block member => (sourced block member).2) (waiting.selected target) rounds
  refine ⟨returned.toWaiting, fun start bytes member i byte found => ?_⟩
  obtain ⟨block, inside, same⟩ := all start bytes member (by rintro rfl; cases found)
  obtain ⟨rfl, rfl⟩ := Prod.mk.inj same
  exact held block inside i byte found

/-- A board whose flash is blank, so that it is written even where it cannot be erased. -/
def blankBoard : Board where
  rram := fun _ => 0
  flash := ⟨fun _ => 0xFF, false⟩
  flashInited := false
  operations := 0

/-- A binary file whose address is cut to 32 bits is programmed there. -/
theorem download_wrapped {image : Image} (wraps : image.Wraps config target) :
    ∃ after, download (drivers config fun _ => none) target image (start blankBoard) = .ok after ∧
      ¬ after.device.Holds config target image := by
  cases image with
  | hex => exact wraps.elim
  | binary beginAddress bytes =>
      obtain ⟨nonempty, large, packed, fits⟩ := wraps
      have positive := List.length_pos_iff.mpr nonempty
      have limit := fits.lt
      have cut : (word beginAddress : Int) = beginAddress % 2 ^ 32 := by
        unfold word
        rw [UInt32.toNat_ofNat']
        omega
      have waiting := start_waiting config (fun _ => none) blankBoard
      have made : (Image.binary beginAddress bytes).hexFile = _ :=
        HexFile.empty_add beginAddress bytes
      obtain ⟨-, sourced, -⟩ := mem_hexFile made
      simp only [ne_eq, nonempty, not_false_eq_true, if_true] at sourced
      have source : Sourced _ _ beginAddress bytes := (sourced _ List.mem_cons_self).2
      obtain ⟨after, one⟩ := downloadBlock_finishes (waiting.selected target) source
        ⟨by omega, by omega⟩
        (fun _ => by rw [cut]; exact fits) fun _ _ => Or.inr fun _ _ => rfl
      refine ⟨after, (download_ok_iff ..).mpr ⟨?_, _, made, ?_⟩, fun held => ?_⟩
      · cases target with
        | rram =>
            have aligned := fits.1
            exact if_neg (not_not.mpr (show beginAddress % 4 = 0 by omega))
        | flash =>
            have aligned := fits.1
            exact if_neg (not_not.mpr (show beginAddress % 4096 = 0 by omega))
      · simp only [ne_eq, nonempty, not_false_eq_true, if_true]
        exact bind_ok_iff.mpr ⟨after, one, rfl⟩
      · have first := held beginAddress bytes List.mem_cons_self 0 _
          (List.getElem?_eq_getElem positive)
        have bound := (Flash.density_spec config).2.1
        have last : rramEnd.toNat = 0x37FFFF := rfl
        cases target with
        | rram =>
            rw [Board.byteAt, if_neg (by omega)] at first
            cases first
        | flash =>
            rw [Board.byteAt, if_neg (by omega)] at first
            cases first

/-- An image that does not raise although it does not fit: its address is cut. -/
theorem download_fits {image : Image} {programmer after : Programmer Board}
    (waiting : Waiting config faults programmer)
    (ran : download (drivers config faults) target image programmer = .ok after)
    (kept : ¬ image.Wraps config target) :
    after.device.Holds config target image := by
  cases image with
  | hex parsed =>
      refine (download_holds (fun start bytes member => ?_) waiting ran).2
      obtain ⟨block, inside, same⟩ := List.mem_map.mp member
      rw [← (Prod.mk.inj same).1]
      exact (parsed.inside block inside).2
  | binary beginAddress bytes =>
      by_cases short : bytes ≠ [] ∧ 2 ^ 32 ≤ beginAddress
      · -- The round for the file has succeeded, so that the low bits of the address fit.
        obtain ⟨nonempty, large⟩ := short
        obtain ⟨-, hexFile, made, rounds⟩ := (download_ok_iff ..).mp ran
        obtain ⟨-, sourced, all⟩ := mem_hexFile made
        rw [Image.hexFile, HexFile.empty_add] at made
        obtain rfl := Except.ok.inj made
        simp only [ne_eq, nonempty, not_false_eq_true, if_true] at rounds sourced
        obtain ⟨next, one, -⟩ := bind_ok_iff.mp rounds
        obtain ⟨packed, -, fits, -⟩ := downloadBlock_written (waiting.selected target)
          (sourced _ List.mem_cons_self).2 one
        have room := fits (by
          have positive := List.length_pos_iff.mpr nonempty
          exact Nat.ne_of_gt positive)
        refine absurd ⟨nonempty, large, packed.2, ?_⟩ kept
        have cut : (word beginAddress : Int) = beginAddress % 2 ^ 32 := by
          have low : 0 ≤ beginAddress := packed.1
          unfold word
          rw [UInt32.toNat_ofNat']
          omega
        rw [← cut]
        exact room
      · intro start data member i byte found
        by_cases nonempty : bytes = []
        · obtain ⟨rfl, rfl⟩ := Prod.mk.inj (List.mem_singleton.mp member)
          rw [nonempty] at found
          cases found
        · refine (download_holds (fun first content inside => ?_) waiting ran).2 start data member i
            byte found
          rw [(Prod.mk.inj (List.mem_singleton.mp inside)).1]
          by_contra long
          exact short ⟨nonempty, by omega⟩

/-- An image that fits is programmed, whatever the flash holds. -/
theorem download_finishes {image : Image} {programmer : Programmer Board}
    (able : target = .flash → config.erase4kbOpcode ≠ 0) (fits : image.Fits config target)
    (waiting : Waiting config (fun _ => none) programmer) :
    ∃ after, download (drivers config fun _ => none) target image programmer = .ok after := by
  obtain ⟨hexFile, made⟩ : ∃ hexFile, image.hexFile = .ok hexFile := by
    cases image with
    | binary beginAddress bytes => exact ⟨_, HexFile.empty_add beginAddress bytes⟩
    | hex parsed => exact ⟨parsed.file, rfl⟩
  obtain ⟨-, sourced, -⟩ := mem_hexFile made
  obtain ⟨after, rounds⟩ := downloadBlocks_finishes able
    (fun block member => (sourced block member).2)
    (fun block member => fits _ _ (sourced block member).1) (waiting.selected target)
  refine ⟨after, (download_ok_iff ..).mpr ⟨?_, hexFile, made, rounds⟩⟩
  cases image with
  | hex parsed => cases target <;> rfl
  | binary beginAddress bytes =>
      have room := fits beginAddress bytes List.mem_cons_self
      cases target with
      | rram => exact if_neg (not_not.mpr room.1)
      | flash => exact if_neg (not_not.mpr room.1)

/-- For an image and a target: a download that does not raise leaves the image in the device,
and if the image fits and no operation fails then it does not raise.  This is so but for a
binary file at an address of more than 32 bits whose low 32 bits fit. -/
theorem download_sound_iff (config : FlashConfig) (target : Target) (image : Image) :
    ((∀ faults programmer after, Waiting config faults programmer →
        download (drivers config faults) target image programmer = .ok after →
        after.device.Holds config target image) ∧
      (image.Fits config target → (target = .flash → config.erase4kbOpcode ≠ 0) →
        ∀ programmer, Waiting config (fun _ => none) programmer →
          ∃ after, download (drivers config fun _ => none) target image programmer =
            .ok after)) ↔
      ¬ image.Wraps config target := by
  constructor
  · rintro ⟨sound, -⟩ wraps
    obtain ⟨after, ran, lost⟩ := download_wrapped wraps
    exact lost (sound _ _ after (start_waiting config _ blankBoard) ran)
  · intro kept
    exact ⟨fun faults programmer after waiting ran => download_fits waiting ran kept,
      fun fits able programmer waiting => download_finishes able fits waiting⟩

/-- Every hex file that the parser accepts is such an image. -/
theorem exists_parsedHex {lines : List Numerals.Text} {file : HexFile}
    (accepted : HexFile.parse lines = .ok file) : ∃ parsed : ParsedHex, parsed.file = file := by
  obtain ⟨last, spaced⟩ := HexFile.parse_spaced accepted
  exact ⟨⟨file, spaced.apart, spaced.inside⟩, rfl⟩

/-- Four bytes for 0x100200000 are programmed at 0x200000, and nothing is raised. -/
theorem download_cuts_address :
    ∃ after, download (drivers ⟨0x20, 0, 0, 0, 2048⟩ fun _ => none) .rram
          (.binary 0x100200000 [1, 2, 3, 4]) (start blankBoard) = .ok after ∧
        ¬ after.device.Holds ⟨0x20, 0, 0, 0, 2048⟩ .rram (.binary 0x100200000 [1, 2, 3, 4]) :=
  download_wrapped ⟨nofun, by decide, by decide, by decide, by decide, by decide⟩

end QHal.Nvm
