/-
Module: QHal.System.FdiThread
Purpose: The post processing of the debug infrastructure, qsystem/src/wifi_fw_dbg_infra.c: the
  records of starts and stops, the FIFO of the identified starts and the statistics of a node.
Trusted boundary: the FIFOs are code outside the repository: the one of the identified starts is
  given by its operations, the one of a batch is the list of its records.  A node has an entry of
  the table.  A division by zero gives zero, as it does on the core.  The log texts are not
  modelled.
Main exports: FdiNodeIns, FdiReg, Fdi, FdiReg.stop, Fdi.findStart, Fdi.processRecord,
  Fdi.processBatch, Fdi.printLog, Fdi.modEn
-/
import Mathlib.Logic.Function.Basic
import QHal.Lib.FifoQueue

namespace QHal.System

/-- `fdi_node_ins_t`. -/
structure FdiNodeIns where
  sqNo : UInt32
  attr : UInt16
  ticks : UInt32
  identifier : UInt32
deriving DecidableEq

/-- `FDI_NODE_ID`. -/
def fdiNodeId (attr : UInt16) : Nat := (attr &&& 0x3FFF).toNat

/-- `FDI_INS_ATTR_TICK_TYPE_OFFSET`. -/
def fdiInsAttrTickTypeOffset : UInt16 := 14

/-- `FDI_MAX_NODE`. -/
def fdiMaxNode : Nat := 38

/-- The fields of `struct fdi_reg` that the post processing and the print use. -/
structure FdiReg where
  moduleBmap : UInt32
  evtStart : UInt32
  eventCtr : UInt32
  tickLast : UInt32
  tickPeak : UInt32
  tickAvrg : UInt32
  tickMin : UInt32
deriving DecidableEq

/-- What a stop does to its node. -/
def FdiReg.stop (reg : FdiReg) (ticks : UInt32) : FdiReg :=
  if reg.evtStart ≠ 0 then
    let eventCtr := reg.eventCtr + 1
    let tickLast := ticks - reg.evtStart
    { reg with
      eventCtr := eventCtr
      tickLast := tickLast
      tickMin :=
        if reg.tickMin > 0 then if reg.tickMin < tickLast then reg.tickMin else tickLast
        else tickLast
      tickPeak := if tickLast > reg.tickPeak then tickLast else reg.tickPeak
      tickAvrg := (reg.tickAvrg * (eventCtr - 1) + tickLast) / eventCtr
      evtStart := 0 }
  else reg

/-- What the print with `clear` does to a node. -/
def FdiReg.clear (reg : FdiReg) : FdiReg :=
  { reg with tickAvrg := 0, tickLast := 0, tickPeak := 0, tickMin := 0, eventCtr := 0 }

/-- `fdi_t`, the sequence numbers and the locals of the thread that outlive a record. -/
structure Fdi (Queue : Type) where
  pRegTable : Nat → FdiReg
  moduleBmapEn : UInt32
  bufferPtrIdfs : Queue
  startIdfsCtr : Nat
  getStartNode : FdiNodeIns
  processedSqNo : UInt32
  missedSqNo : UInt32

namespace Fdi

variable {Queue : Type}

/-- Changes the entry of a node. -/
def updateReg (fdi : Fdi Queue) (node : Nat) (change : FdiReg → FdiReg) : Fdi Queue :=
  { fdi with pRegTable := Function.update fdi.pRegTable node (change (fdi.pRegTable node)) }

/-- The sequence numbers that were missed. -/
def countMissed (fdi : Fdi Queue) (sqNo : UInt32) : Fdi Queue :=
  { fdi with
    missedSqNo :=
      if sqNo - fdi.processedSqNo > 1 then fdi.missedSqNo + (sqNo - fdi.processedSqNo)
      else fdi.missedSqNo
    processedSqNo := sqNo }

variable (fifo : FifoQueue Queue FdiNodeIns)

/-- The search for the start of an identified stop.  It compares the identifiers only. -/
def findStart (fdi : Fdi Queue) (nodeRet : FdiNodeIns) : Fdi Queue :=
  let (found, queue, getStartNode) :=
    fifo.search (fun start => nodeRet.identifier = start.identifier) fdi.startIdfsCtr
      fdi.bufferPtrIdfs fdi.getStartNode
  let fdi := { fdi with bufferPtrIdfs := queue, getStartNode := getStartNode }
  if found then
    { fdi.updateReg (fdiNodeId nodeRet.attr) ({ · with evtStart := getStartNode.ticks }) with
      startIdfsCtr := fdi.startIdfsCtr - 1 }
  else fdi

def stopNode (fdi : Fdi Queue) (nodeRet : FdiNodeIns) : Fdi Queue :=
  let fdi :=
    if nodeRet.identifier ≠ 0 ∧ fdi.startIdfsCtr ≠ 0 then fdi.findStart fifo nodeRet else fdi
  fdi.updateReg (fdiNodeId nodeRet.attr) (·.stop nodeRet.ticks)

def startNode (fdi : Fdi Queue) (nodeRet : FdiNodeIns) : Fdi Queue :=
  if nodeRet.identifier ≠ 0 then
    { fdi with
      bufferPtrIdfs := fifo.enqueue fdi.bufferPtrIdfs nodeRet
      startIdfsCtr := fdi.startIdfsCtr + 1 }
  else fdi.updateReg (fdiNodeId nodeRet.attr) ({ · with evtStart := nodeRet.ticks })

/-- The body of the loop of `_fdi_thread` over the records. -/
def processRecord (fdi : Fdi Queue) (nodeRet : FdiNodeIns) : Fdi Queue :=
  let fdi := fdi.countMissed nodeRet.sqNo
  if nodeRet.attr &&& 1 <<< fdiInsAttrTickTypeOffset = 1 <<< fdiInsAttrTickTypeOffset then
    fdi.stopNode fifo nodeRet
  else if nodeRet.attr &&& 1 <<< fdiInsAttrTickTypeOffset = 0 then fdi.startNode fifo nodeRet
  else fdi

/-- The loop of `_fdi_thread` over the records of a batch. -/
def processBatch (fdi : Fdi Queue) (records : List FdiNodeIns) : Fdi Queue :=
  records.foldl (processRecord fifo) fdi

/-- The module of a node is enabled. -/
def enabled (fdi : Fdi Queue) (node : Nat) : Bool :=
  (fdi.pRegTable node).moduleBmap &&& fdi.moduleBmapEn ≠ 0

/-- `fdi_print_log`. -/
def printLog (fdi : Fdi Queue) (clear : UInt8) : Fdi Queue :=
  (List.range fdiMaxNode).foldl
    (fun fdi nodeId =>
      if fdi.enabled nodeId && (fdi.pRegTable nodeId).eventCtr ≠ 0 then
        if clear ≠ 0 then fdi.updateReg nodeId FdiReg.clear else fdi
      else fdi)
    fdi

/-- `fdi_mod_en`. -/
def modEn (fdi : Fdi Queue) (bmap : UInt32) (enFlag : UInt8) : Fdi Queue :=
  if bmap = 0xFFFFFFFF then fdi
  else if enFlag ≠ 0 then { fdi with moduleBmapEn := fdi.moduleBmapEn ||| bmap }
  else { fdi with moduleBmapEn := fdi.moduleBmapEn &&& ~~~bmap }

end Fdi

end QHal.System
