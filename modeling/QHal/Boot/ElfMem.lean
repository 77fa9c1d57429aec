/-
Module: QHal.Boot.ElfMem
Purpose: The memory operations of the ELF loader: the table of source and
  destination windows, the handlers behind it and the dispatch
  (qboot/elf_loader/boot_elf_mem.h and boot_elf_mem.c, SBL build).
Trusted boundary: the device answers in `Storage`; a chunk that was read is copied byte by byte
Main exports: BlElfMemOp, elfMemOp, ElfMachine, bootElfMemRead, bootElfMemSet
-/
import QHal.Boot.FlashFwd

namespace QHal.Boot

def frnRamStart : UInt32 := 0x0
def frnRamEnd : UInt32 := 0x9FFFF
def frnRramStart : UInt32 := 0x200000
def frnRramEnd : UInt32 := 0x37FFFF
def frnFlashStart : UInt32 := appImageFlashAddress - 0x1
def frnFlashEnd : UInt32 := appImageFlashAddress + 0x400000
def rramReadBufSize : UInt32 := 2048

/-- `bl_elf_mem_type`. -/
inductive BlElfMemType where
  | rramRam
  | rramRram
  | flashRam
  | flashRram
deriving Repr, DecidableEq

/-- `bl_elf_mem_region`: the destination window and the source window. -/
structure BlElfMemRegion where
  vStart : UInt32
  vEnd : UInt32
  pStart : UInt32
  pEnd : UInt32
deriving Repr, DecidableEq

/-- The end of a handler call: its status and the memory.  A call without a
status does not return. -/
abbrev HandlerResult := Option BlError × Mem UInt8

/-- `bl_elf_mem_op`.  The arguments of `read` are source, destination and byte
count, those of `set` destination, value and byte count. -/
structure BlElfMemOp where
  type : BlElfMemType
  region : BlElfMemRegion
  read : Storage → Mem UInt8 → UInt32 → UInt32 → UInt32 → HandlerResult
  set : Option (Storage → Mem UInt8 → UInt32 → UInt8 → UInt32 → HandlerResult)

/-- How a chunk that was read from flash is stored. -/
abbrev Store := Mem UInt8 → UInt32 → UInt32 → (Nat → UInt8) → Mem UInt8

/-- Read a chunk from flash and store it.  The buffer of a refused read is not looked
at. -/
def flashReadChunk (storage : Storage) (store : Store) (nvmAdd data done count : UInt32)
    (memory : Mem UInt8) : BlError × Mem UInt8 :=
  let (status, buffer) := bootSblFlashRead storage (nvmAdd + done) count fun _ => 0
  if status ≠ 0 then (blErrElfMemRead, memory)
  else (blErrNone, store memory (data + done) count buffer)

/-- The loop over the full chunks of a flash read: the status, `done` and the
memory at its end.  The byte count bounds the number of rounds. -/
def flashReadLoop (storage : Storage) (store : Store) (nvmAdd data bytes : UInt32) :
    Nat → UInt32 → Mem UInt8 → BlError × UInt32 × Mem UInt8
  | 0, done, memory => (blErrNone, done, memory)
  | fuel + 1, done, memory =>
      if done ≤ bytes ∧ bytes - done > rramReadBufSize then
        let (status, memory) :=
          flashReadChunk storage store nvmAdd data done rramReadBufSize memory
        if status ≠ blErrNone then (status, done, memory)
        else flashReadLoop storage store nvmAdd data bytes fuel (done + rramReadBufSize) memory
      else (blErrNone, done, memory)

/-- The common body of the two flash read handlers. -/
def flashRead (storage : Storage) (store : Store) (memory : Mem UInt8)
    (address data bytes : UInt32) : HandlerResult :=
  let nvmAdd := address - appImageFlashAddress
  let (status, done, memory) :=
    if bytes > rramReadBufSize then
      flashReadLoop storage store nvmAdd data bytes (bytes.toNat / 2048 + 1) 0 memory
    else (blErrNone, 0, memory)
  if status ≠ blErrNone then (some status, memory)
  else
    let lastBytes := bytes - done
    if lastBytes ≠ 0 then
      let (status, memory) :=
        flashReadChunk storage store nvmAdd data done lastBytes memory
      (some status, memory)
    else (some blErrNone, memory)

/-- `memscpy` of a chunk into RAM. -/
def storeRam : Store := fun memory destination length source =>
  memory.write destination length.toNat source

/-- The RRAM write of a chunk.  Its status is printed and not used. -/
def storeRram (storage : Storage) : Store := fun memory destination length source =>
  (bootSblRramWrite storage memory destination length source).2

/-- `bl_elf_flash_read_to_ram`. -/
def blElfFlashReadToRam (storage : Storage) (memory : Mem UInt8)
    (address data bytes : UInt32) : HandlerResult :=
  flashRead storage storeRam memory address data bytes

/-- `bl_elf_flash_read_to_rram_dxe`. -/
def blElfFlashReadToRramDxe (storage : Storage) (memory : Mem UInt8)
    (address data bytes : UInt32) : HandlerResult :=
  flashRead storage (storeRram storage) memory address data bytes

/-- `bl_elf_rram_set_rram_dxe`. -/
def blElfRramSetRramDxe (storage : Storage) (memory : Mem UInt8) (address : UInt32)
    (value : UInt8) (bytes : UInt32) : HandlerResult :=
  let (status, memory) := rramMemsetDxe storage memory address value bytes
  (some status, memory)

/-- `bl_elf_rram_read_to_rram_dxe`. -/
def blElfRramReadToRramDxe (storage : Storage) (memory : Mem UInt8)
    (address data bytes : UInt32) : HandlerResult :=
  let (status, memory) := bootSblRramWrite storage memory data bytes fun i =>
    memory (address + UInt32.ofNat i)
  (some status, memory)

/-- `bl_elf_rram_set_ram`. -/
def blElfRramSetRam (_storage : Storage) (memory : Mem UInt8) (address : UInt32)
    (value : UInt8) (bytes : UInt32) : HandlerResult :=
  (some blErrNone, memory.write address bytes.toNat fun _ => value)

/-- The loop of `bl_elf_rram_read_to_ram`.  `done` counts in steps of 2048, so
a loop that runs for 2^21 rounds has come back to where it began and never
ends. -/
def rramReadLoop (storage : Storage) (address data bytes : UInt32) :
    Nat → UInt32 → Mem UInt8 → Option BlError × UInt32 × Mem UInt8
  | 0, done, memory => (none, done, memory)
  | fuel + 1, done, memory =>
      if done ≤ bytes then
        let (status, memory) :=
          ntBlRramRead storage memory (address + done) (data + done) rramReadBufSize
        if status ≠ 0 then (some blErrElfMemRead, done, memory)
        else rramReadLoop storage address data bytes fuel (done + rramReadBufSize) memory
      else (some blErrNone, done, memory)

/-- The read of the remaining bytes in `bl_elf_rram_read_to_ram`. -/
def rramReadLast (storage : Storage) (memory : Mem UInt8)
    (address data done lastBytes : UInt32) : HandlerResult :=
  if lastBytes ≠ 0 then
    let (status, memory) :=
      ntBlRramRead storage memory (address + done) (data + done) lastBytes
    if status ≠ 0 then (some blErrElfMemRead, memory) else (some blErrNone, memory)
  else (some blErrNone, memory)

/-- `bl_elf_rram_read_to_ram`. -/
def blElfRramReadToRam (storage : Storage) (memory : Mem UInt8)
    (address data bytes : UInt32) : HandlerResult :=
  if bytes > rramReadBufSize then
    let (status, done, memory) :=
      rramReadLoop storage address data bytes (2 ^ 21 + 1) 0 memory
    if status ≠ some blErrNone then (status, memory)
    else if done > bytes then
      rramReadLast storage memory address data (done - rramReadBufSize)
        (rramReadBufSize - (done - bytes))
    else (some blErrNone, memory)
  else rramReadLast storage memory address data 0 bytes

/-- `elf_mem_op`. -/
def elfMemOp : List BlElfMemOp :=
  [{ type := .rramRam
     region := ⟨frnRamStart, frnRamEnd, frnRramStart, frnRramEnd⟩
     read := blElfRramReadToRam
     set := some blElfRramSetRam },
   { type := .rramRram
     region := ⟨frnRramStart, frnRramEnd, frnRramStart, frnRramEnd⟩
     read := blElfRramReadToRramDxe
     set := some blElfRramSetRramDxe },
   { type := .flashRam
     region := ⟨frnRamStart, frnRamEnd, frnFlashStart, frnFlashEnd⟩
     read := blElfFlashReadToRam
     set := none },
   { type := .flashRram
     region := ⟨frnRramStart, frnRramEnd, frnFlashStart, frnFlashEnd⟩
     read := blElfFlashReadToRramDxe
     set := none }]

/-- `BL_ELF_MEM_READ_REGION_CHECK`.  The sums are 32 bits wide. -/
def readRegionCheck (src dst bytes : UInt32) (region : BlElfMemRegion) : Bool :=
  decide (src ≥ region.pStart) && decide (src + bytes ≤ region.pEnd) &&
    (decide (dst ≥ region.vStart) && decide (dst + bytes ≤ region.vEnd))

/-- `BL_ELF_MEM_SET_REGION_CHECK`. -/
def setRegionCheck (dst bytes : UInt32) (region : BlElfMemRegion) : Bool :=
  decide (dst ≥ region.vStart) && decide (dst + bytes ≤ region.vEnd)

/-- A request to the memory operations. -/
inductive MemRequest where
  | read (src dst bytes : UInt32)
  | set (dst bytes : UInt32)
deriving Repr, DecidableEq

/-- What the loader works on: the memory, and the handler calls made so far,
which no branch reads. -/
structure ElfMachine where
  memory : Mem UInt8
  dispatched : List MemRequest

/-- The end of a loader call; without a status it does not return. -/
abbrev ElfResult := Option BlError × ElfMachine

/-- Go on after a call that returned `BL_ERR_NONE`; any other end is final. -/
def andThen (result : ElfResult) (next : ElfMachine → ElfResult) : ElfResult :=
  if result.1 = some blErrNone then next result.2 else result

/-- `boot_elf_mem_read`.  A request that no row accepts is a success. -/
def bootElfMemRead (storage : Storage) (memOps : List BlElfMemOp) (machine : ElfMachine)
    (address data bytes : UInt32) : ElfResult :=
  if memOps.length = 0 then (some blErrElfMemInvalParam, machine)
  else
    match memOps.find? fun op => readRegionCheck address data bytes op.region with
    | some op =>
        let (status, memory) := op.read storage machine.memory address data bytes
        (status, ⟨memory, machine.dispatched ++ [.read address data bytes]⟩)
    | none => (some blErrNone, machine)

/-- `boot_elf_mem_set`.  Only the first row that accepts the destination is
asked, and a row without a `set` handler does nothing. -/
def bootElfMemSet (storage : Storage) (memOps : List BlElfMemOp) (machine : ElfMachine)
    (address : UInt32) (value : UInt8) (bytes : UInt32) : ElfResult :=
  if memOps.length = 0 then (some blErrElfMemInvalParam, machine)
  else
    match memOps.find? fun op => setRegionCheck address bytes op.region with
    | some op =>
        match op.set with
        | some set =>
            let (status, memory) := set storage machine.memory address value bytes
            (status, ⟨memory, machine.dispatched ++ [.set address bytes]⟩)
        | none => (some blErrNone, machine)
    | none => (some blErrNone, machine)

end QHal.Boot
