/-
Module: QHal.Boot.DfuHost
Purpose: A host that answers each request of the loader of resources with exactly the bytes that
  were asked for, and the loader and this host together, in any order of their moves.
Trusted boundary: the contents of the files; the host has one answer under way at a time, and gives
  an element back before or behind its answer
Main exports: ImageFile, Host, Host.answer, System, Move, System.move
-/
import QHal.Boot.SysLoader

namespace QHal.SysLoader

open Boot (le32)

/-- The offset of the program headers in an ELF image. -/
def ePhoff (byte : Nat → UInt8) : UInt32 := le32 byte 28

/-- The first program header of an ELF image. -/
def firstHeader (byte : Nat → UInt8) : ProgramHeader :=
  .ofBytes fun i => byte ((ePhoff byte).toNat + i)

/-- An ELF image with one program header, whose segment has data, of fewer than 65535 packets, and
lies in the file. -/
structure ImageFile (api : Api) where
  byte : Nat → UInt8
  size : Nat
  ePhnum : byte 44 = 1 ∧ byte 45 = 0
  positive : 0 < (firstHeader byte).filesz.toNat
  counted : (firstHeader byte).filesz.toNat < 65535 * api.dfuBuffSize.toNat
  inside : (firstHeader byte).offset.toNat + (firstHeader byte).filesz.toNat ≤ size
  offsets : size ≤ 2 ^ 32

namespace ImageFile

variable {api : Api}

def phoff (file : ImageFile api) : UInt32 := ePhoff file.byte

def header (file : ImageFile api) : ProgramHeader := firstHeader file.byte

/-- The bytes of the segment. -/
def segment (file : ImageFile api) (i : Nat) : UInt8 := file.byte (file.header.offset.toNat + i)

end ImageFile

/-- What the host offers, the file of each resource, the length that it writes into an element, and
what stands in memory behind the bytes of an answer. -/
structure Host (api : Api) where
  bitmap : UInt8
  file : UInt8 → ImageFile api
  lenOf : A2fMessage → UInt16
  behind : Nat → UInt8

/-- The confirmation with the bytes that a request asks for. -/
def Host.confirm {api : Api} (host : Host api) (programLen elfOffset : UInt32) (softId : UInt8) :
    TransferCfm where
  programLen := programLen
  elfOffset := elfOffset
  softId := softId
  data := fun i =>
    if i < programLen.toNat then (host.file softId).byte (elfOffset.toNat + i) else host.behind i

/-- What the host answers, if it does. -/
def Host.answer {api : Api} (host : Host api) : F2aMessage → Option A2fMessage
  | .dfuCfm => none
  | .dataTransferReq programLen elfOffset softId =>
      some (.dataTransferCfm (host.confirm programLen elfOffset softId))
  | .dataTransferDoneInd _ => some (.dataTransferDoneRsp 0)
  | .rebootReq => none

/-- The loader, whether the host has read the message in its ring, and what it is about to send. -/
structure System where
  machine : Machine
  read : Bool
  todo : Option A2fMessage

/-- A pass of the loader, or a move of the host, which does nothing where there is nothing to do. -/
inductive Move where
  | loader (env : Env)
  | read
  | take
  | put

inductive Party where
  | loader | read | take | put
deriving DecidableEq

def Move.party : Move → Party
  | .loader _ => .loader
  | .read => .read
  | .take => .take
  | .put => .put

namespace System

variable {api : Api} (host : Host api) (system : System)

/-- The host reads the message in its ring. -/
def readMessage : System :=
  if system.read ∨ system.machine.f2a.checkEmpty ∨ system.todo.isSome then system
  else { system with read := true, todo := host.answer system.machine.f2a.front }

/-- The host gives the element back. -/
def takeMessage : System :=
  if system.read then
    { system with
      machine := { system.machine with f2a := system.machine.f2a.incrementReadIndex }
      read := false }
  else system

/-- The host sends what it is about to, if there is room. -/
def putMessage : System :=
  match system.todo with
  | none => system
  | some message =>
      if system.machine.a2f.checkOccupancy then
        { system with
          machine :=
            { system.machine with a2f := system.machine.a2f.put (host.lenOf message) message }
          todo := none }
      else system

def move : Move → System
  | .loader env => { system with machine := system.machine.sysLoader api env }
  | .read => system.readMessage host
  | .take => system.takeMessage
  | .put => system.putMessage host

/-- The loader is started and the host is about to send what it offers. -/
def start (machine : Machine) : System := ⟨machine, false, some (.dfuReq host.bitmap)⟩

end System

end QHal.SysLoader
