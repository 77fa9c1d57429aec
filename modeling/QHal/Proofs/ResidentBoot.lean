/-
Module: QHal.Proofs.ResidentBoot
Purpose: Boots of a device seen from its RRAM.  The load loop runs on the
  contents of images: a load that succeeds lays the contents of its segments over
  the memory, one that fails or is cut short does so on some addresses only.  The
  memory in RRAM and the descriptor table last from boot to boot.
Trusted boundary: none
Main exports: FlashContent, sectorImage, ResidentState, residentIteration,
  ResidentDevice, ResidentBoot
-/
import QHal.Boot.LoaderStart
import QHal.Proofs.ImagePatch

namespace QHal.Boot

/-- The blocks of the flash, and the image that starts at an address.  The segments
of an image do not overlap, and those that a RAM-only load leaves out lie outside
RAM. -/
structure FlashContent where
  blocks : Mem UInt8
  image : UInt32 → BootElfLoader
  atAddress : ∀ elfAddr, (image elfAddr).elfAddr = elfAddr
  apart : ∀ elfAddr, (image elfAddr).progHdrs.Pairwise SegmentsApart
  outsideRam : ∀ elfAddr, ∀ header ∈ (image elfAddr).progHdrs,
    loadsHeader .ram header = false → ∀ address, segmentCovers address header = true →
      ¬ address < frnRamEnd

/-- The descriptor in a FWD sector. -/
def sectorFwd (flash : Mem UInt8) (sector : UInt8) : Fwd :=
  fwdOfBytes fun i => flash (sector.toUInt32 * blockSizeInBytes + UInt32.ofNat i)

/-- The address that the image of a FWD sector is loaded from. -/
def sectorImage (content : FlashContent) (addr : UInt32) : Option UInt32 :=
  if addr < 3 then
    (appEntry (sectorFwd content.blocks addr.toUInt8)).map fun entry =>
      entry.startBlock * blockSizeInBytes + appImageFlashAddress
  else none

/-- The flash holds the blocks, up to the status bytes of the FWD sectors. -/
def SameBlocks (content : FlashContent) (storage : Storage) : Prop :=
  ∀ address, (∀ sector : UInt8, sector < 3 →
      address ≠ sector.toUInt32 * blockSizeInBytes + UInt32.ofNat fwdStatusOffset) →
    storage.flash address = content.blocks address

/-- The contents of the RRAM segments of an image. -/
def FlashContent.rram (content : FlashContent) (elfAddr : UInt32) : Patch UInt32 UInt8 :=
  rramPatch content.blocks (content.image elfAddr)

/-- What a load of an image brings into memory. -/
def FlashContent.load (content : FlashContent) (type : BootElfLoadType) (elfAddr : UInt32) :
    Patch UInt32 UInt8 :=
  loadPatch content.blocks type (content.image elfAddr)

/-- The loop variables with the memory.  Two fields are read by no branch: `before` is
the memory before the last load stage, and `foreign` says that a full load of an
image from another sector than the one the FDE in RRAM names was begun. -/
structure ResidentState where
  loop : LoopState
  memory : Mem UInt8
  before : Mem UInt8
  foreign : Bool

/-- The results of the stages, and the addresses a failed load gets to. -/
structure LoadInputs where
  errs : StageErrs
  reached : UInt32 → Bool

/-- Whether the load stage is entered. -/
def loadBegins (env : LoaderEnv) (errs : StageErrs) : Bool :=
  errs.loadInit == 0 && (!env.authEnable || errs.imageAuth == 0)

/-- The memory after the load stage of an iteration. -/
def loadMemory (content : FlashContent) (inputs : LoadInputs) (chosen : LoopState)
    (memory : Mem UInt8) : Mem UInt8 :=
  let patch := content.load chosen.type chosen.appLoadAddr
  if inputs.errs.imageLoad = 0 then patch.apply memory
  else patch.applyAt inputs.reached memory

/-- How the loop ends. -/
inductive ResidentEnd where
  | leave (state : ResidentState)
  | reset (state : ResidentState)

def ResidentEnd.state : ResidentEnd → ResidentState
  | .leave state => state
  | .reset state => state

/-- One iteration.  `named` is the address in the application FDE in RRAM. -/
def residentIteration (content : FlashContent) (env : LoaderEnv) (named : UInt32)
    (inputs : LoadInputs) (state : ResidentState) :
    Loop.Status ResidentState ResidentEnd :=
  match selectStage env state.loop with
  | .reset _ => .done (.reset state)
  | .chosen _ chosen _ =>
      let begins := loadBegins env inputs.errs
      let next : ResidentState :=
        { loop := runStages env inputs.errs chosen
          memory := if begins then loadMemory content inputs chosen state.memory
            else state.memory
          before := state.memory
          foreign := state.foreign ||
            begins && decide (chosen.type = .full) && decide (chosen.fde.addr ≠ named) }
      if next.loop.info.errCode ≠ 0 then .again next else .done (.leave next)

/-- What one boot meets; `powered` says that the power stays on until the boot is
over. -/
structure ResidentInput where
  storage : Storage
  sblFde : SblFde
  authEnable : Bool
  loads : Nat → LoadInputs
  sblWrite : BlError
  appWrite : BlError
  powered : Bool

def ResidentInput.env (input : ResidentInput) : LoaderEnv :=
  ⟨input.sblFde.content.rank, input.authEnable⟩

/-- What lasts from boot to boot; of the memory, that is the part outside RAM. -/
structure ResidentDevice where
  memory : Mem UInt8
  fdt : Fdt

/-- The loop of a boot. -/
def residentLoop (content : FlashContent) (input : ResidentInput) (named : UInt32) :
    Nat → ResidentState → Loop.Status ResidentState ResidentEnd :=
  fun n => residentIteration content input.env named (input.loads n)

/-- The state at the entry of the loop, with the given memory. -/
def residentStart (input : ResidentInput) (device : ResidentDevice) (memory : Mem UInt8) :
    ResidentState where
  loop := loopStart input.storage (appFde device.fdt)
  memory := memory
  before := memory
  foreign := false

/-- The end of a boot: what is left of the device, and the state an application was
entered in. -/
structure Outcome where
  device : ResidentDevice
  entered : Option ResidentState

section

variable (content : FlashContent) (input : ResidentInput) (device : ResidentDevice)

/-- The memory a boot finds: outside RAM it is as it was left. -/
def Lasts (memory : Mem UInt8) : Prop :=
  ∀ address, ¬ address < frnRamEnd → memory address = device.memory address

/-- A boot from flash.  It ends by entering an application or by a reset of the
selector, or the power goes away: at the head of an iteration, before the FDE updates
or between them.  A boot that is cut within a load ends like one that is cut at the
head after a failed load. -/
inductive ResidentBoot : Outcome → Prop where
  | enter {memory : Mem UInt8} {n : Nat} {state : ResidentState}
      (flash : bootsFromFlash device.fdt = true) (lasts : Lasts device memory)
      (powered : input.powered = true)
      (left : Loop.status (residentLoop content input (appFde device.fdt).addr)
        (residentStart input device memory) n = .done (.leave state)) :
      ResidentBoot
        ⟨⟨state.memory,
            finishFdt input.sblWrite input.appWrite device.fdt input.sblFde state.loop⟩,
          some state⟩
  | reset {memory : Mem UInt8} {n : Nat} {state : ResidentState}
      (flash : bootsFromFlash device.fdt = true) (lasts : Lasts device memory)
      (done : Loop.status (residentLoop content input (appFde device.fdt).addr)
        (residentStart input device memory) n = .done (.reset state)) :
      ResidentBoot ⟨⟨state.memory, device.fdt⟩, none⟩
  | cut {memory : Mem UInt8} {n : Nat} {state : ResidentState}
      (flash : bootsFromFlash device.fdt = true) (lasts : Lasts device memory)
      (off : input.powered = false)
      (head : Loop.Heads (residentLoop content input (appFde device.fdt).addr)
        (residentStart input device memory) n state) :
      ResidentBoot ⟨⟨state.memory, device.fdt⟩, none⟩
  | before {memory : Mem UInt8} {n : Nat} {state : ResidentState}
      (flash : bootsFromFlash device.fdt = true) (lasts : Lasts device memory)
      (off : input.powered = false)
      (left : Loop.status (residentLoop content input (appFde device.fdt).addr)
        (residentStart input device memory) n = .done (.leave state)) :
      ResidentBoot ⟨⟨state.memory, device.fdt⟩, none⟩
  | between {memory : Mem UInt8} {n : Nat} {state : ResidentState}
      (flash : bootsFromFlash device.fdt = true) (lasts : Lasts device memory)
      (off : input.powered = false)
      (left : Loop.status (residentLoop content input (appFde device.fdt).addr)
        (residentStart input device memory) n = .done (.leave state)) :
      ResidentBoot
        ⟨⟨state.memory, updateSblFde input.sblWrite device.fdt input.sblFde⟩, none⟩

end

end QHal.Boot
