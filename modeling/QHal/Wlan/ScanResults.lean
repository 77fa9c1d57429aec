/-
Module: QHal.Wlan.ScanResults
Purpose: The list of scan results, qwifi/src/wlan_drv/wmi_api.c: the start of a scan clears it, and
  the events that report results and the end of the scan merge their entries into it.
Trusted boundary: the mutex of the context is held around each merge; the payload of an event is
  present; the bands are constants of a header outside the repository.  The record of the entries
  that are written is read by nothing.
Main exports: Bssid, ApInfo, BssInfo, fillScanInfo, ScanOut, Cxt, wmiStartScan,
  wmiScanResultEvent, wmiScanCompEvent
-/
import Mathlib.Logic.Function.Basic

namespace QHal.ScanResults

abbrev Bssid := Vector UInt8 6

/-- `ap_info`, what the firmware reports of an access point. -/
structure ApInfo where
  chanFreq : UInt16
  bssid : Bssid
  ssidLen : UInt8
  ssid : Vector UInt8 32
  securityMode : UInt32
  rssi : UInt8
deriving DecidableEq

/-- The fields of `qapi_WLAN_BSS_Scan_Info_t` that are filled. -/
structure BssInfo where
  channel : UInt8
  ssidLength : UInt8
  rssi : UInt8
  securityEnabled : UInt8
  bssid : Bssid
  ssid : Vector UInt8 32
  rsnCipher : UInt8
  rsnAuth : UInt8
  wpaCipher : UInt8
  wpaAuth : UInt8
  band : UInt8
deriving DecidableEq

/-- An entry that `memset` has cleared. -/
def BssInfo.cleared : BssInfo where
  channel := 0
  ssidLength := 0
  rssi := 0
  securityEnabled := 0
  bssid := Vector.replicate 6 0
  ssid := Vector.replicate 32 0
  rsnCipher := 0
  rsnAuth := 0
  wpaCipher := 0
  wpaAuth := 0
  band := 0

/-- `wlan_freq_to_channel`. -/
def wlanFreqToChannel (channel : UInt16) : UInt16 :=
  if channel < 3000 then
    let channel := channel - 2412
    if channel / 5 = 14 then 14 else channel / 5 + 1
  else if channel < 5955 then 36 + (channel - 5180) / 5
  else (channel - 5955) / 5 + 1

/-- `if (value & mask) dst |= flag`. -/
def addFlag (value mask flag dst : UInt8) : UInt8 :=
  if value &&& mask ≠ 0 then dst ||| flag else dst

/-- The cipher types that a suite of ciphers stands for. -/
def addCiphers (cipher dst : UInt8) : UInt8 :=
  addFlag cipher 0x02 0x02 (addFlag cipher 0x08 0x08 (addFlag cipher 0x04 0x04 dst))

/-- The WPA part of `_wlan_fill_scan_info`. -/
def fillWpa (securityMode : UInt32) (dst : BssInfo) : BssInfo :=
  if securityMode >>> 16 ≠ 0 then
    let wpaCipher := (securityMode >>> 24).toUInt8
    let wpaAuth := (securityMode >>> 16).toUInt8
    { dst with
      securityEnabled := 1
      wpaCipher := addCiphers wpaCipher dst.wpaCipher
      wpaAuth := addFlag wpaAuth 0x08 0x01 (addFlag wpaAuth 0x02 0x02 dst.wpaAuth) }
  else dst

/-- The RSN part of `_wlan_fill_scan_info`. -/
def fillRsn (securityMode : UInt32) (dst : BssInfo) : BssInfo :=
  if securityMode &&& 0xFFFF ≠ 0 then
    let rsnAuth := securityMode.toUInt8
    let rsnCipher := (securityMode >>> 8).toUInt8
    { dst with
      securityEnabled := 1
      rsnCipher := addCiphers rsnCipher dst.rsnCipher
      rsnAuth := addFlag rsnAuth 0x80 0x04
        (addFlag rsnAuth 0x10 0x01 (addFlag rsnAuth 0x04 0x02 dst.rsnAuth)) }
  else dst

section

-- `wlan_freq_to_band`.
variable (wlanFreqToBand : UInt16 → UInt8)

/-- `_wlan_fill_scan_info`. -/
def fillScanInfo (dst : BssInfo) (src : ApInfo) : BssInfo :=
  let ssidLength := if src.ssidLen > 32 then 32 else src.ssidLen
  fillRsn src.securityMode <| fillWpa src.securityMode
    { dst with
      band := wlanFreqToBand src.chanFreq
      channel := (wlanFreqToChannel src.chanFreq).toUInt8
      bssid := src.bssid
      ssidLength := ssidLength
      ssid := Vector.ofFn fun i => if i.val < ssidLength.toNat then src.ssid[i] else dst.ssid[i]
      rssi := src.rssi }

/-- `scanBssMaxCount`, which `wlan_qapi_init` sets to `__QAPI_MAX_SCAN_RESULT_ENTRY`. -/
def scanBssMaxCount : Nat := 40

/-- `qapi_WLAN_Scan_Comp_Evt_t` with the memory behind it in entries, and which of them have been
written since the start of the scan. -/
structure ScanOut where
  numBssCur : UInt8
  totalBss : UInt8
  scanBssInfo : Nat → BssInfo
  written : List Nat

/-- The loop over the entries `j` before `last_idx`. -/
def isDuplicate (scanBssInfo : Nat → BssInfo) (lastIdx : Nat) (bssid : Bssid) : Bool :=
  (List.range lastIdx).any fun j => (scanBssInfo j).bssid = bssid

/-- The loop over the entries of an event: `cur_idx`, the list and the written entries. -/
def mergeLoop (lastIdx : Nat) :
    List ApInfo → Nat → (Nat → BssInfo) → List Nat → Nat × (Nat → BssInfo) × List Nat
  | [], curIdx, info, written => (curIdx, info, written)
  | src :: entries, curIdx, info, written =>
      if curIdx < scanBssMaxCount then
        if isDuplicate info lastIdx src.bssid then mergeLoop lastIdx entries curIdx info written
        else
          mergeLoop lastIdx entries (curIdx + 1)
            (Function.update info curIdx (fillScanInfo wlanFreqToBand (info curIdx) src))
            (written ++ [curIdx])
      else (curIdx, info, written)

/-- What `wmi_scan_result_event` and `wmi_scan_comp_event` do with the entries of the event. -/
def mergeEntries (entries : List ApInfo) (out : ScanOut) : ScanOut :=
  let out :=
    if out.totalBss.toNat < scanBssMaxCount then
      let lastIdx := out.numBssCur.toNat
      let (curIdx, info, written) :=
        mergeLoop wlanFreqToBand lastIdx entries lastIdx out.scanBssInfo out.written
      { out with
        numBssCur := UInt8.ofNat curIdx
        scanBssInfo := info
        written := written }
    else out
  { out with totalBss := out.numBssCur }

/-- The fields of `wlan_qapi_cxt_t` that belong to the results. -/
structure Cxt where
  scanInProgress : Bool
  pScanOut : ScanOut

/-- `wmi_start_scan`: the results are cleared as far as they are allocated. -/
def wmiStartScan (cxt : Cxt) : Cxt where
  scanInProgress := true
  pScanOut :=
    { numBssCur := 0
      totalBss := 0
      scanBssInfo := fun i =>
        if i < scanBssMaxCount then .cleared else cxt.pScanOut.scanBssInfo i
      written := [] }

/-- `wmi_scan_result_event`. -/
def wmiScanResultEvent (cxt : Cxt) (entries : List ApInfo) : Cxt :=
  if cxt.scanInProgress then
    { cxt with pScanOut := mergeEntries wlanFreqToBand entries cxt.pScanOut }
  else cxt

/-- `wmi_scan_comp_event`. -/
def wmiScanCompEvent (cxt : Cxt) (entries : List ApInfo) : Cxt :=
  if cxt.scanInProgress then
    { scanInProgress := false
      pScanOut := mergeEntries wlanFreqToBand entries cxt.pScanOut }
  else cxt

/-- A scan: some events with results, and the event that completes it. -/
def scan (cxt : Cxt) (results : List (List ApInfo)) (completion : List ApInfo) : Cxt :=
  wmiScanCompEvent wlanFreqToBand
    (results.foldl (wmiScanResultEvent wlanFreqToBand) (wmiStartScan cxt)) completion

end

/-- The BSSIDs of the result list. -/
def ScanOut.bssids (out : ScanOut) : List Bssid :=
  (List.range out.numBssCur.toNat).map fun i => (out.scanBssInfo i).bssid

end QHal.ScanResults
