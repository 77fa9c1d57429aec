/-
Module: QHal.Proofs.ScanResults
Purpose: What the result list of a scan holds: the entries of each event whose BSSID was not in the
  list before the event.  A BSSID that one event reports twice is listed twice, and the module says
  exactly when the list is the first occurrences of all BSSIDs.
Trusted boundary: none
Main exports: listInfo, mergeLoop_eq, Listed, mergeEntries_listed, ScanRecorded,
  scan_recorded_iff
-/
import QHal.Lib.Distinct
import QHal.Wlan.ScanResults

namespace QHal.ScanResults

variable (wlanFreqToBand : UInt16 → UInt8)

/-! ## Entries -/

theorem fillWpa_bssid (securityMode : UInt32) (dst : BssInfo) :
    (fillWpa securityMode dst).bssid = dst.bssid := by
  unfold fillWpa
  split <;> rfl

theorem fillRsn_bssid (securityMode : UInt32) (dst : BssInfo) :
    (fillRsn securityMode dst).bssid = dst.bssid := by
  unfold fillRsn
  split <;> rfl

/-- A filled entry has the BSSID of the report. -/
theorem fillScanInfo_bssid (dst : BssInfo) (src : ApInfo) :
    (fillScanInfo wlanFreqToBand dst src).bssid = src.bssid := by
  unfold fillScanInfo
  rw [fillRsn_bssid, fillWpa_bssid]

/-- The memory of the results with some reports in the list. -/
def listInfo (before : Nat → BssInfo) (kept : List ApInfo) (i : Nat) : BssInfo :=
  if i < scanBssMaxCount then
    match kept[i]? with
    | some src => fillScanInfo wlanFreqToBand .cleared src
    | none => .cleared
  else before i

variable {wlanFreqToBand} {before : Nat → BssInfo}

theorem listInfo_bssid {kept : List ApInfo} {i : Nat} (room : kept.length ≤ scanBssMaxCount)
    (inside : i < kept.length) : (listInfo wlanFreqToBand before kept i).bssid = kept[i].bssid := by
  rw [listInfo, if_pos (Nat.lt_of_lt_of_le inside room), List.getElem?_eq_getElem inside]
  exact fillScanInfo_bssid wlanFreqToBand _ _

/-- A report is put behind those in the list. -/
theorem update_listInfo {kept : List ApInfo} (room : kept.length < scanBssMaxCount)
    (src : ApInfo) :
    Function.update (listInfo wlanFreqToBand before kept) kept.length
        (fillScanInfo wlanFreqToBand (listInfo wlanFreqToBand before kept kept.length) src) =
      listInfo wlanFreqToBand before (kept ++ [src]) := by
  funext i
  rw [Function.update_apply]
  by_cases last : i = kept.length
  · have free : listInfo wlanFreqToBand before kept kept.length = .cleared := by
      rw [listInfo, if_pos room, List.getElem?_eq_none (Nat.le_refl _)]
    rw [if_pos last, free, listInfo, last, if_pos room, List.getElem?_concat_length]
  · rw [if_neg last, listInfo, listInfo]
    rcases Nat.lt_or_ge i kept.length with earlier | behind
    · rw [List.getElem?_append_left earlier]
    · have outside : kept.length + 1 ≤ i := by omega
      rw [List.getElem?_eq_none behind, List.getElem?_eq_none (by simpa using outside)]

/-- The search for a duplicate looks at the list as it was before the event. -/
theorem isDuplicate_eq {kept current : List ApInfo} (front : kept <+: current)
    (room : current.length ≤ scanBssMaxCount) (bssid : Bssid) :
    isDuplicate (listInfo wlanFreqToBand before current) kept.length bssid =
      decide (bssid ∈ kept.map (·.bssid)) := by
  have listed : ∀ j (inside : j < kept.length),
      (listInfo wlanFreqToBand before current j).bssid = kept[j].bssid := by
    intro j inside
    rw [listInfo_bssid room (Nat.lt_of_lt_of_le inside front.length_le), front.getElem inside]
  unfold isDuplicate
  rw [Bool.eq_iff_iff, List.any_eq_true, decide_eq_true_iff, List.mem_map]
  constructor
  · rintro ⟨j, member, same⟩
    have inside := List.mem_range.mp member
    rw [decide_eq_true_iff, listed j inside] at same
    exact ⟨kept[j], List.getElem_mem inside, same⟩
  · rintro ⟨src, member, same⟩
    obtain ⟨j, inside, rfl⟩ := List.getElem_of_mem member
    refine ⟨j, List.mem_range.mpr inside, ?_⟩
    rw [decide_eq_true_iff, listed j inside]
    exact same

/-! ## One event -/

/-- The reports of an event that get into the list. -/
def added (kept entries : List ApInfo) (room : Nat) : List ApInfo :=
  (entries.filter fun src => src.bssid ∉ kept.map (·.bssid)).take room

theorem added_known {kept : List ApInfo} {src : ApInfo} (entries : List ApInfo) (room : Nat)
    (known : src.bssid ∈ kept.map (·.bssid)) :
    added kept (src :: entries) room = added kept entries room := by
  rw [added, List.filter_cons, if_neg (by simpa using known)]
  rfl

theorem added_new {kept : List ApInfo} {src : ApInfo} (entries : List ApInfo) (room : Nat)
    (new : src.bssid ∉ kept.map (·.bssid)) :
    added kept (src :: entries) (room + 1) = src :: added kept entries room := by
  rw [added, List.filter_cons, if_pos (by simpa using new), List.take_succ_cons]
  rfl

/-- The loop puts the reports behind the list that are new to it as it was before the event. -/
theorem mergeLoop_eq {kept current : List ApInfo} (entries : List ApInfo) (front : kept <+: current)
    (room : current.length ≤ scanBssMaxCount) :
    mergeLoop wlanFreqToBand kept.length entries current.length
        (listInfo wlanFreqToBand before current) (List.range current.length) =
      let after := current ++ added kept entries (scanBssMaxCount - current.length)
      (after.length, listInfo wlanFreqToBand before after, List.range after.length) := by
  induction entries generalizing current with
  | nil => simp [mergeLoop, added]
  | cons src entries ih =>
      rw [mergeLoop]
      by_cases full : current.length < scanBssMaxCount
      · rw [if_pos full, isDuplicate_eq front room]
        by_cases known : src.bssid ∈ kept.map (·.bssid)
        · rw [if_pos (decide_eq_true known), ih front room, added_known entries _ known]
        · have longer : (current ++ [src]).length = current.length + 1 := List.length_append
          have size : scanBssMaxCount - current.length =
              scanBssMaxCount - (current ++ [src]).length + 1 := by omega
          have next := ih (front.trans (List.prefix_append current [src])) (by omega)
          rw [List.append_assoc, List.singleton_append, ← added_new entries _ known, ← size,
            longer, List.range_succ] at next
          rw [if_neg (by simpa using known), update_listInfo full]
          exact next
      · have none : scanBssMaxCount - current.length = 0 := by omega
        rw [if_neg full, none, added, List.take_zero, List.append_nil]

/-- The list after an event. -/
def keep (kept entries : List ApInfo) : List ApInfo :=
  kept ++ added kept entries (scanBssMaxCount - kept.length)

/-- The results with some reports in the list. -/
structure Listed (wlanFreqToBand : UInt16 → UInt8) (before : Nat → BssInfo) (kept : List ApInfo)
    (out : ScanOut) : Prop where
  room : kept.length ≤ scanBssMaxCount
  count : out.numBssCur.toNat = kept.length
  total : out.totalBss = out.numBssCur
  info : out.scanBssInfo = listInfo wlanFreqToBand before kept
  written : out.written = List.range kept.length

theorem Listed.mergeEntries {kept : List ApInfo} {out : ScanOut}
    (listed : Listed wlanFreqToBand before kept out) (entries : List ApInfo) :
    Listed wlanFreqToBand before (keep kept entries)
      (mergeEntries wlanFreqToBand entries out) := by
  have most : scanBssMaxCount = 40 := rfl
  have room := listed.room
  have count := listed.count
  have length : (keep kept entries).length ≤ scanBssMaxCount := by
    rw [keep, List.length_append, added, List.length_take]
    omega
  have loop := @mergeLoop_eq wlanFreqToBand before kept kept entries (List.prefix_refl kept) room
  unfold ScanResults.mergeEntries
  rw [listed.total, count, listed.info, listed.written]
  by_cases full : kept.length < scanBssMaxCount
  · rw [if_pos full]
    dsimp only
    rw [loop]
    refine ⟨length, ?_, rfl, rfl, rfl⟩
    exact UInt8.toNat_ofNat_of_lt' (Nat.lt_of_le_of_lt length (by decide))
  · have same : keep kept entries = kept := by
      have none : scanBssMaxCount - kept.length = 0 := by omega
      rw [keep, none, added, List.take_zero, List.append_nil]
    rw [if_neg full, same]
    exact ⟨room, count, rfl, listed.info, listed.written⟩

/-! ## A scan -/

theorem wmiStartScan_listed (cxt : Cxt) :
    Listed wlanFreqToBand cxt.pScanOut.scanBssInfo [] (wmiStartScan cxt).pScanOut where
  room := Nat.zero_le _
  count := rfl
  total := rfl
  info := by
    funext i
    simp [wmiStartScan, listInfo]
  written := rfl

theorem results_listed (cxt : Cxt) (results : List (List ApInfo)) :
    (results.foldl (wmiScanResultEvent wlanFreqToBand) (wmiStartScan cxt)).scanInProgress = true ∧
      Listed wlanFreqToBand cxt.pScanOut.scanBssInfo (results.foldl keep [])
        (results.foldl (wmiScanResultEvent wlanFreqToBand) (wmiStartScan cxt)).pScanOut := by
  induction results using List.reverseRecOn with
  | nil => exact ⟨rfl, wmiStartScan_listed cxt⟩
  | append_singleton results entries ih =>
      obtain ⟨pending, listed⟩ := ih
      rw [List.foldl_append, List.foldl_append, List.foldl_cons, List.foldl_nil, List.foldl_cons,
        List.foldl_nil, wmiScanResultEvent, if_pos pending]
      exact ⟨pending, listed.mergeEntries entries⟩

theorem scan_listed (cxt : Cxt) (results : List (List ApInfo)) (completion : List ApInfo) :
    Listed wlanFreqToBand cxt.pScanOut.scanBssInfo ((results ++ [completion]).foldl keep [])
      (scan wlanFreqToBand cxt results completion).pScanOut := by
  obtain ⟨pending, listed⟩ := @results_listed wlanFreqToBand cxt results
  rw [List.foldl_append, List.foldl_cons, List.foldl_nil, scan, wmiScanCompEvent, if_pos pending]
  exact listed.mergeEntries completion

/-! ## BSSIDs -/

theorem keep_bssids (kept entries : List ApInfo) :
    (keep kept entries).map (·.bssid) =
      Distinct.extend scanBssMaxCount (kept.map (·.bssid)) (entries.map (·.bssid)) := by
  have new : (entries.filter fun src => src.bssid ∉ kept.map (·.bssid)).map (·.bssid) =
      (entries.map (·.bssid)).removeAll (kept.map (·.bssid)) := by
    rw [List.removeAll, List.filter_map]
    congr 1
    apply List.filter_congr
    intro src _
    rw [decide_not, Function.comp_apply, List.elem_eq_mem]
  rw [keep, Distinct.extend, added, List.map_append, List.map_take, new, List.length_map]

theorem foldl_keep_bssids (events : List (List ApInfo)) :
    (events.foldl keep []).map (·.bssid) =
      Distinct.extendAll scanBssMaxCount (events.map fun entries => entries.map (·.bssid)) := by
  induction events using List.reverseRecOn with
  | nil => rfl
  | append_singleton events entries ih =>
      rw [List.foldl_append, List.foldl_cons, List.foldl_nil, keep_bssids, ih, List.map_append,
        List.map_singleton, Distinct.extendAll_append]

theorem Listed.bssids {kept : List ApInfo} {out : ScanOut}
    (listed : Listed wlanFreqToBand before kept out) : out.bssids = kept.map (·.bssid) := by
  rw [ScanOut.bssids, listed.count, listed.info]
  apply List.ext_getElem
  · simp
  · intro i inside _
    have below : i < kept.length := by simpa using inside
    rw [List.getElem_map, List.getElem_map, List.getElem_range, listInfo_bssid listed.room below]

/-- The results of a scan list the first BSSIDs that were reported, each once, and nothing is
written behind the list. -/
structure ScanRecorded (before : Nat → BssInfo) (reports : List Bssid) (out : ScanOut) : Prop where
  first : out.bssids = reports.eraseDups.take scanBssMaxCount
  once : out.bssids.Nodup
  numBssCur : out.numBssCur.toNat = out.bssids.length
  totalBss : out.totalBss.toNat = out.bssids.length
  written : ∀ i ∈ out.written, i < scanBssMaxCount
  behind : ∀ i, scanBssMaxCount ≤ i → out.scanBssInfo i = before i

/-- A scan lists the first BSSIDs exactly if no event reports a BSSID twice that no event before it
has reported, as long as there is room in the list. -/
theorem scan_recorded_iff (wlanFreqToBand : UInt16 → UInt8) (cxt : Cxt)
    (results : List (List ApInfo)) (completion : List ApInfo) :
    ScanRecorded cxt.pScanOut.scanBssInfo
        ((results ++ [completion]).map fun entries => entries.map (·.bssid)).flatten
        (scan wlanFreqToBand cxt results completion).pScanOut ↔
      Distinct.AllFresh scanBssMaxCount
        ((results ++ [completion]).map fun entries => entries.map (·.bssid)) := by
  have listed := @scan_listed wlanFreqToBand cxt results completion
  have bssids := listed.bssids
  rw [foldl_keep_bssids] at bssids
  rw [← Distinct.extendAll_eq_iff, ← bssids]
  constructor
  · intro recorded
    exact recorded.first
  · intro first
    have length : (scan wlanFreqToBand cxt results completion).pScanOut.bssids.length =
        (scan wlanFreqToBand cxt results completion).pScanOut.numBssCur.toNat := by
      rw [ScanOut.bssids, List.length_map, List.length_range]
    refine ⟨first, ?_, length.symm, ?_, ?_, ?_⟩
    · rw [first]
      exact (Distinct.nodup_eraseDups _).sublist (List.take_sublist _ _)
    · rw [listed.total, length]
    · intro i member
      rw [listed.written, List.mem_range] at member
      exact Nat.lt_of_lt_of_le member listed.room
    · intro i outside
      rw [listed.info, listInfo, if_neg (Nat.not_lt.mpr outside)]

/-- An access point that is reported twice by the same event is listed twice. -/
theorem scan_lists_twice :
    ¬ ∀ (wlanFreqToBand : UInt16 → UInt8) (cxt : Cxt) (results : List (List ApInfo))
      (completion : List ApInfo),
      ScanRecorded cxt.pScanOut.scanBssInfo
        ((results ++ [completion]).map fun entries => entries.map (·.bssid)).flatten
        (scan wlanFreqToBand cxt results completion).pScanOut := by
  intro recorded
  let report : ApInfo := ⟨2412, Vector.replicate 6 1, 0, Vector.replicate 32 0, 0, 0⟩
  have once := (recorded (fun _ => 0) ⟨false, ⟨0, 0, fun _ => .cleared, []⟩⟩ []
    [report, report]).once
  have listed := @scan_listed (fun _ => 0) ⟨false, ⟨0, 0, fun _ => .cleared, []⟩⟩ []
    [report, report]
  rw [listed.bssids] at once
  exact absurd once (by decide)

end QHal.ScanResults
