/-
Module: QHal.Fpci.CbInfra
Purpose: The power callback infrastructure (wifi_fw_pwr_cb_infra.c): the table of
  registered callbacks, kept sorted by priority, and the dispatch of an event.
Trusted boundary: a callback is its address; what a callback does is left out, the
  dispatch yields the calls that it makes.
Main exports: PwrEvtReg, EventBin, sortBubble, fpciEvtCbReg, fpciEvtCbDereg,
  fpciEvtDispatch
-/
import QHal.Lib.BubbleSort

namespace QHal.Fpci

/-- Slots of the table. -/
def fpciMaxReg : Nat := 16

/-- PWR_EVT_WMAC_MAX: the first value above all events. -/
def pwrEvtWmacMax : Nat := 128

def fpciMinPrior : UInt8 := 0

/-- pwr_evt_reg_t: a slot of the table. -/
structure PwrEvtReg where
  evtMask : UInt16
  priority : UInt8
  evtCb : UInt32
  pArgs : UInt32
deriving Repr, DecidableEq

/-- A slot that was cleared. -/
def PwrEvtReg.empty : PwrEvtReg :=
  { evtMask := 0, priority := 0, evtCb := 0, pArgs := 0 }

inductive FpciErr where
  | success
  | err
deriving Repr, DecidableEq

/-- g_event_bin and g_event_bin_ctr. -/
structure EventBin where
  eventBin : List PwrEvtReg
  eventBinCtr : UInt32
  slots : eventBin.length = fpciMaxReg

/-- The statics before the first call. -/
def EventBin.start : EventBin where
  eventBin := List.replicate fpciMaxReg PwrEvtReg.empty
  eventBinCtr := 0
  slots := rfl

/-- The test of sort_bubble for SORT_DIRECTION_DESSENDING: dir ^ (memcmp(..) > 0), on the
one byte of the priority. -/
def swapsDescending (first second : PwrEvtReg) : Bool :=
  !decide (second.priority < first.priority)

/-- sort_bubble of the whole table by priority. -/
def sortBubble (eventBin : List PwrEvtReg) : List PwrEvtReg :=
  BubbleSort.sort swapsDescending eventBin

/-- The slots that the loops over the table look at. -/
def EventBin.used (fpci : EventBin) : List PwrEvtReg :=
  fpci.eventBin.take fpci.eventBinCtr.toNat

/-- fpci_evt_cb_reg. -/
def fpciEvtCbReg (fpci : EventBin) (cb : UInt32) (evtRegMask : UInt16) (priority : UInt8)
    (pArgs : UInt32) : EventBin × FpciErr :=
  if cb = 0 then (fpci, .err)
  else if ¬ evtRegMask.toNat < pwrEvtWmacMax then (fpci, .err)
  else if ¬ fpci.eventBinCtr.toNat < fpciMaxReg - 1 then (fpci, .err)
  else if ¬ fpciMinPrior < priority then (fpci, .err)
  else
    -- The callback's own slot if it is registered already, else the first free one.
    let index := fpci.used.findIdx fun slot => slot.evtCb == cb
    let written := fpci.eventBin.modify index fun slot =>
      { evtMask := slot.evtMask ||| evtRegMask
        priority := priority
        evtCb := cb
        pArgs := pArgs }
    ({ eventBin := sortBubble written
       eventBinCtr :=
        if index = fpci.eventBinCtr.toNat then fpci.eventBinCtr + 1 else fpci.eventBinCtr
       slots := by
        rw [sortBubble, BubbleSort.sort_length, List.length_modify, fpci.slots] }, .success)

/-- fpci_evt_cb_dereg; nothing if it reads behind the table. -/
def fpciEvtCbDereg (fpci : EventBin) (cb : UInt32) (evtRegMask : UInt16) :
    Option (EventBin × FpciErr) :=
  if cb = 0 then some (fpci, .err)
  else if ¬ evtRegMask.toNat < pwrEvtWmacMax then some (fpci, .err)
  else
    let index := fpci.used.findIdx fun slot =>
      slot.evtCb == cb && slot.evtMask &&& evtRegMask != 0
    -- The mask is taken out of the slot that was found, if one was.
    let masked :=
      if index < fpci.eventBinCtr.toNat then
        fpci.eventBin.modify index fun slot =>
          { slot with evtMask := slot.evtMask &&& ~~~evtRegMask }
      else fpci.eventBin
    have slots : masked.length = fpciMaxReg := by
      simp only [masked]
      split
      · rw [List.length_modify, fpci.slots]
      · exact fpci.slots
    match masked[index]? with
    | none => none
    | some slot =>
        if slot.evtMask = 0 then
          some ({ eventBin := sortBubble (masked.set index PwrEvtReg.empty)
                  eventBinCtr := fpci.eventBinCtr - 1
                  slots := by rw [sortBubble, BubbleSort.sort_length, List.length_set, slots] },
            .success)
        else
          some ({ eventBin := masked
                  eventBinCtr := fpci.eventBinCtr
                  slots := slots }, .success)

/-- A call of a callback by the dispatch. -/
structure EvtCall where
  evtCb : UInt32
  evt : UInt8
  pArgs : UInt32
deriving Repr, DecidableEq

/-- fpci_evt_dispatch: the calls in their order; nothing if the loop runs behind the
table, and no call for an unknown event. -/
def fpciEvtDispatch (fpci : EventBin) (evt : UInt32) : Option (List EvtCall) :=
  if ¬ evt.toNat < pwrEvtWmacMax then some []
  else if fpciMaxReg < fpci.eventBinCtr.toNat then none
  else some ((fpci.used.filter fun slot =>
      slot.evtMask.toUInt32 &&& evt != 0 && slot.evtCb != 0).map fun slot =>
    { evtCb := slot.evtCb, evt := evt.toUInt8, pArgs := slot.pArgs })

end QHal.Fpci
