/-
Module: QHal.Proofs.SlpClkCal
Purpose: Runs of the sleep clock calibration: when every index is in bounds, and what
  a successful look for the calibration data leaves.
Trusted boundary: none
Main exports: Ranged, Safe, HbinChosen, calibration_in_bounds
-/
import QHal.Lib.Runs
import QHal.SleepCal.SlpClkCal

namespace QHal.SleepCal

variable {cal : SlpClkCal} {temp : UInt32}

/-! ## The range table -/

/-- The bin of the last calibration or none yet, and a range table that was never written
or holds bins of width 31. -/
structure Ranged (cal : SlpClkCal) : Prop where
  prev : cal.prevHbin.toNat ≤ 15 ∨ cal.prevHbin = 0xFF
  ranges : (∀ index < numHbinRange, cal.hbinRange index = 0) ∨
    ∀ index < numHbinRange, cal.hbinRange index = UInt32.ofNat (31 * index)

/-- The first bin ends before the last one does. -/
theorem Ranged.first_le_last (ranged : Ranged cal) : cal.hbinRange 1 ≤ cal.hbinRange 16 := by
  rcases ranged.ranges with zero | steps
  · rw [zero 1 (by decide), zero 16 (by decide)]
    exact UInt32.le_refl 0
  · rw [steps 1 (by decide), steps 16 (by decide)]
    decide

/-- The ranges that are read back from the registers. -/
theorem initRange_hwInit (cal : SlpClkCal) :
    ∀ index < numHbinRange, initRange (slpClkCalHwInit cal).regs index =
      UInt32.ofNat (31 * index) := by
  show ∀ index < numHbinRange, initRange
    { hbinLowOffset := 0, hbin0To5Range := 0x3FFFFFFF, hbin6To11Range := 0x3FFFFFFF,
      hbin12To15Range := 0xFFFFF, refSlpClkCnt := 0x200 } index = UInt32.ofNat (31 * index)
  decide

/-- The loop stops at the bin of the temperature. -/
theorem findBin_spec {range : Nat → UInt32} (low : range 0 ≤ temp) (high : temp < range 16)
    (more index bin : Nat) (count : index + more = 16)
    (behind : (index = 0 ∧ bin = 0) ∨ (bin + 1 = index ∧ range bin ≤ temp)) :
    range (findBin range temp more index bin).1 ≤ temp ∧
      temp < range ((findBin range temp more index bin).1 + 1) ∧
      (findBin range temp more index bin).1 ≤ 15 ∧
      ∀ access ∈ (findBin range temp more index bin).2, access.InBounds := by
  induction more generalizing index bin with
  | zero =>
      have last : bin + 1 = index ∧ range bin ≤ temp := by
        rcases behind with ⟨first, -⟩ | last
        · omega
        · exact last
      have place : bin = 15 := by omega
      subst place
      exact ⟨last.2, high, Nat.le_refl _, nofun⟩
  | succ more ih =>
      unfold findBin
      split
      case isTrue reached =>
        obtain ⟨lower, upper, bound, accesses⟩ := ih (index + 1) index (by omega)
          (Or.inr ⟨rfl, reached⟩)
        refine ⟨lower, upper, bound, fun access member => ?_⟩
        rcases List.mem_cons.mp member with first | later
        · rw [first]
          show index < 17
          omega
        · exact accesses access later
      case isFalse above =>
        rcases behind with ⟨first, -⟩ | ⟨next, reached⟩
        · rw [first] at above
          exact absurd low above
        · refine ⟨reached, ?_, by omega, fun access member => ?_⟩
          · rw [next]
            exact UInt32.not_le.mp above
          · rw [List.mem_singleton.mp member]
            show index < 17
            omega

/-! ## Calibration done -/

/-- What a successful look for the calibration data leaves: the bin of the temperature,
and the count as it was or the data of an active bin next to it. -/
structure HbinChosen (cal next : SlpClkCal) (temp : UInt32) (hbin : Int → UInt32) : Prop where
  bin : next.prevHbin.toNat ≤ 15
  lower : next.hbinRange next.prevHbin.toNat ≤ temp
  upper : temp < next.hbinRange (next.prevHbin.toNat + 1)
  count : next.xocnt = cal.xocnt ∨
    ∃ near : Int, 0 ≤ near ∧ near ≤ 15 ∧ near ≤ next.prevHbin.toNat + 1 ∧
      next.prevHbin.toNat ≤ near + 1 ∧ isActive (hbin near) = true ∧
      next.xocnt = hbin near &&& calbinDataMask

/-- The data of a bin or of a neighbour. -/
theorem hbinXocnt_near (xocnt : UInt32) (hbin : Int → UInt32) {bin : Nat} (bound : bin ≤ 15) :
    (hbinXocnt xocnt hbin bin).1 = xocnt ∨
      ∃ near : Int, 0 ≤ near ∧ near ≤ 15 ∧ near ≤ bin + 1 ∧ bin ≤ near + 1 ∧
        isActive (hbin near) = true ∧
        (hbinXocnt xocnt hbin bin).1 = hbin near &&& calbinDataMask := by
  unfold hbinXocnt
  split
  case isTrue active => exact Or.inr ⟨bin, by omega, by omega, by omega, by omega, active, rfl⟩
  case isFalse =>
    split
    case isTrue before =>
      exact Or.inr ⟨bin - 1, by omega, by omega, by omega, by omega, before.2, rfl⟩
    case isFalse =>
      split
      case isTrue inner =>
        have notLast : bin ≠ 15 := inner
        by_cases active : isActive (hbin (bin + 1)) = true
        · refine Or.inr ⟨bin + 1, by omega, by omega, by omega, by omega, active, ?_⟩
          exact if_pos active
        · exact Or.inl (if_neg active)
      case isFalse => exact Or.inl rfl

/-- The registers that are read are those of the bin and its neighbours; the one before
the first bin is read when the first bin is not active. -/
theorem hbinXocnt_inBounds (xocnt : UInt32) (hbin : Int → UInt32) {bin : Nat} (bound : bin ≤ 15) :
    (∀ access ∈ (hbinXocnt xocnt hbin bin).2, access.InBounds) ↔
      ¬ (bin = 0 ∧ isActive (hbin 0) = false) := by
  have inside : ∀ index : Int, 0 ≤ index → index ≤ 15 → (Access.hbinReg index).InBounds :=
    fun _ low high => ⟨low, high⟩
  have outside : ∀ index : Int, index < 0 → ¬ (Access.hbinReg index).InBounds :=
    fun index negative both => absurd both.1 (by omega)
  by_cases active : isActive (hbin bin) = true
  · have reads : (hbinXocnt xocnt hbin bin).2 = [.hbinReg bin] := by
      rw [hbinXocnt, if_pos active]
    refine iff_of_true ?_ ?_
    · rw [reads]
      intro access member
      rw [List.mem_singleton.mp member]
      exact inside _ (by omega) (by omega)
    · rintro ⟨first, idle⟩
      rw [first] at active
      exact absurd active (by rw [show ((0 : Nat) : Int) = 0 from rfl, idle]; exact nofun)
  · by_cases first : bin = 0
    · subst first
      have idle : isActive (hbin 0) = false := by simpa using active
      refine iff_of_false (fun all => ?_) (fun safe => safe ⟨rfl, idle⟩)
      refine outside (-1) (by omega) (all _ ?_)
      simp [hbinXocnt, idle, maxNumHbin]
    · refine iff_of_true (fun access member => ?_) fun both => first both.1
      unfold hbinXocnt at member
      rw [if_neg active] at member
      split at member
      · simp only [List.mem_cons, List.not_mem_nil, or_false] at member
        rcases member with rfl | rfl
        · exact inside _ (by omega) (by omega)
        · exact inside _ (by omega) (by omega)
      · split at member
        case isTrue inner =>
          have notLast : bin ≠ 15 := inner
          simp only [List.mem_cons, List.not_mem_nil, or_false] at member
          rcases member with rfl | rfl | rfl
          · exact inside _ (by omega) (by omega)
          · exact inside _ (by omega) (by omega)
          · exact inside _ (by omega) (by omega)
        case isFalse =>
          simp only [List.mem_cons, List.not_mem_nil, or_false] at member
          rcases member with rfl | rfl
          · exact inside _ (by omega) (by omega)
          · exact inside _ (by omega) (by omega)

/-- The temperature is in the first bin, and its register is not active. -/
def FirstBinIdle (cal : SlpClkCal) (temp : UInt32) (hbin : Int → UInt32) : Prop :=
  cal.hbinRange 0 ≤ temp ∧ temp < cal.hbinRange 1 ∧ isActive (hbin 0) = false

/-- The bin that is found is the first one when the temperature is below the second
range. -/
theorem findBin_eq_zero_iff {range : Nat → UInt32} (low : range 0 ≤ temp) :
    (findBin range temp 16 0 0).1 = 0 ↔ temp < range 1 := by
  have positive : ∀ more index bin, bin ≠ 0 → index ≠ 0 →
      (findBin range temp more index bin).1 ≠ 0 := by
    intro more
    induction more with
    | zero => exact fun _ _ later _ => later
    | succ more ih =>
        intro index bin later beyond
        unfold findBin
        split
        · exact ih (index + 1) index beyond (by omega)
        · exact later
  unfold findBin
  rw [if_pos low]
  show (findBin range temp 15 1 0).1 = 0 ↔ _
  unfold findBin
  split
  case isTrue reached =>
    exact iff_of_false (positive 14 2 1 (by omega) (by omega)) (UInt32.not_lt.mpr reached)
  case isFalse above => exact iff_of_true rfl (UInt32.not_le.mp above)

/-- A reading outside the table leaves the parameters but the reading. -/
theorem getHbin_of_outside (outside : temp < cal.hbinRange 0 ∨ cal.hbinRange 16 ≤ temp)
    (hbin : Int → UInt32) :
    (slpClkCalGetHbin cal temp hbin).1 = { cal with pmuTempSensorData := temp } ∧
      (∀ access ∈ (slpClkCalGetHbin cal temp hbin).2.1, access.InBounds) ∧
      (slpClkCalGetHbin cal temp hbin).2.2 = .fail := by
  unfold slpClkCalGetHbin
  dsimp only
  by_cases low : temp < cal.hbinRange 0
  · rw [if_pos low]
    refine ⟨rfl, ?_, rfl⟩
    show ∀ access ∈ [Access.hbinRange 0], access.InBounds
    decide
  · have high : cal.hbinRange (numHbinRange - 1) ≤ temp := outside.resolve_left low
    rw [if_neg low, if_pos high]
    refine ⟨rfl, ?_, rfl⟩
    show ∀ access ∈ [Access.hbinRange 0, Access.hbinRange (numHbinRange - 1)], access.InBounds
    decide

/-- A reading inside the table gives its bin, and all indices but that of the bin before
the first one are good. -/
theorem getHbin_of_inside (low : cal.hbinRange 0 ≤ temp) (high : temp < cal.hbinRange 16)
    (hbin : Int → UInt32) :
    ∃ bin ≤ 15, cal.hbinRange bin ≤ temp ∧ temp < cal.hbinRange (bin + 1) ∧
      (slpClkCalGetHbin cal temp hbin).1 =
        { cal with
          pmuTempSensorData := temp
          xocnt := (hbinXocnt cal.xocnt hbin bin).1
          prevHbin := UInt8.ofNat bin
          initialized := true } ∧
      ((∀ access ∈ (slpClkCalGetHbin cal temp hbin).2.1, access.InBounds) ↔
        ¬ FirstBinIdle cal temp hbin) := by
  obtain ⟨lower, upper, bound, looks⟩ :=
    findBin_spec low high 16 0 0 rfl (Or.inl ⟨rfl, rfl⟩)
  have first := findBin_eq_zero_iff low
  have inside : slpClkCalGetHbin cal temp hbin =
      ({ cal with
          pmuTempSensorData := temp
          xocnt := (hbinXocnt cal.xocnt hbin (findBin cal.hbinRange temp 16 0 0).1).1
          prevHbin := UInt8.ofNat (findBin cal.hbinRange temp 16 0 0).1
          initialized := true },
        [.hbinRange 0, .hbinRange 16] ++ (findBin cal.hbinRange temp 16 0 0).2 ++
          (hbinXocnt cal.xocnt hbin (findBin cal.hbinRange temp 16 0 0).1).2, .ok) := by
    unfold slpClkCalGetHbin
    dsimp only
    rw [if_neg (UInt32.not_lt.mpr low),
      if_neg (show ¬ cal.hbinRange (numHbinRange - 1) ≤ temp from UInt32.not_le.mpr high)]
    rfl
  refine ⟨_, bound, lower, upper, by rw [inside], ?_⟩
  have ends : ∀ access ∈ [Access.hbinRange 0, Access.hbinRange 16], access.InBounds := by decide
  have reads := hbinXocnt_inBounds cal.xocnt hbin bound
  rw [first] at reads
  rw [inside]
  constructor
  · rintro all ⟨-, below, idle⟩
    exact reads.mp (fun access member => all access (List.mem_append_right _ member))
      ⟨below, idle⟩
  · intro safe access member
    rcases List.mem_append.mp member with front | read
    · rcases List.mem_append.mp front with bounds | look
      · exact ends access bounds
      · exact looks access look
    · exact reads.mpr (fun both => safe ⟨low, both.1, both.2⟩) access read

/-- A look for the calibration data: its indices, what it keeps, and what it leaves when it
succeeds. -/
theorem getHbin_spec (ranged : Ranged cal) (temp : UInt32) (hbin : Int → UInt32) :
    ((∀ access ∈ (slpClkCalGetHbin cal temp hbin).2.1, access.InBounds) ↔
        ¬ FirstBinIdle cal temp hbin) ∧
      Ranged (slpClkCalGetHbin cal temp hbin).1 ∧
      ((slpClkCalGetHbin cal temp hbin).2.2 = .ok →
        HbinChosen cal (slpClkCalGetHbin cal temp hbin).1 temp hbin) := by
  by_cases outside : temp < cal.hbinRange 0 ∨ cal.hbinRange 16 ≤ temp
  · obtain ⟨after, accesses, failed⟩ := getHbin_of_outside outside hbin
    refine ⟨iff_of_true accesses ?_, ?_, ?_⟩
    · rintro ⟨low, high, -⟩
      rcases outside with below | above
      · exact absurd low (UInt32.not_le.mpr below)
      · exact absurd (UInt32.lt_of_lt_of_le high ranged.first_le_last)
          (UInt32.not_lt.mpr above)
    · rw [after]
      exact ⟨ranged.prev, ranged.ranges⟩
    · rw [failed]
      exact nofun
  · obtain ⟨low, high⟩ := not_or.mp outside
    obtain ⟨bin, bound, lower, upper, after, accesses⟩ :=
      getHbin_of_inside (UInt32.not_lt.mp low) (UInt32.not_le.mp high) hbin
    have place : (UInt8.ofNat bin).toNat = bin :=
      UInt8.toNat_ofNat_of_lt' (Nat.lt_of_le_of_lt bound (by decide))
    have fits : (UInt8.ofNat bin).toNat ≤ 15 := by rwa [place]
    rw [after]
    refine ⟨accesses, ⟨Or.inl fits, ranged.ranges⟩, fun _ => ?_⟩
    exact
      { bin := fits
        lower := by rwa [place]
        upper := by rwa [place]
        count := by
          rw [place]
          exact hbinXocnt_near cal.xocnt hbin bound }

/-! ## Runs -/

/-- A call that uses no index out of bounds: a poll of the temperature needs a bin of an
earlier calibration, a look for the data an active register of the first bin. -/
def Safe (cal : SlpClkCal) : CalEvent → Prop
  | .timerCb preSlpComplete _ _ => preSlpComplete = false → cal.prevHbin.toNat ≤ 15
  | .resume preSlpComplete _ _ =>
      cal.pollTimer ≠ 0 → cal.pendingTicks = 0 → preSlpComplete = false →
        cal.prevHbin.toNat ≤ 15
  | .calDone temp hbin => ¬ FirstBinIdle cal temp hbin
  | _ => True

/-- The poll changes the reading at most, and uses the bounds of the last bin. -/
theorem timerCb_spec (cal : SlpClkCal) (preSlpComplete : Bool) (temp : UInt32)
    (beyond : Nat → UInt32) :
    (∃ data, (sleepClkCalTimerCb cal preSlpComplete temp beyond).1 =
        { cal with pmuTempSensorData := data }) ∧
      ((∀ access ∈ (sleepClkCalTimerCb cal preSlpComplete temp beyond).2, access.InBounds) ↔
        (preSlpComplete = false → cal.prevHbin.toNat ≤ 15)) := by
  have bounds : ((Access.hbinRange cal.prevHbin.toNat).InBounds ∧
      (Access.hbinRange (cal.prevHbin.toNat + 1)).InBounds) ↔ cal.prevHbin.toNat ≤ 15 := by
    show (_ < 17 ∧ _ < 17) ↔ _
    omega
  cases preSlpComplete with
  | true => exact ⟨⟨cal.pmuTempSensorData, rfl⟩, iff_of_true nofun nofun⟩
  | false =>
      unfold sleepClkCalTimerCb
      rw [if_neg (by decide), ← bounds]
      dsimp only
      split
      · split
        · exact ⟨⟨temp, rfl⟩, by simp⟩
        · exact ⟨⟨temp, rfl⟩, by simp +contextual⟩
      · exact ⟨⟨temp, rfl⟩, by simp⟩

/-- The initialization writes the table inside its bounds, and the bin is none again. -/
theorem init_spec (cal : SlpClkCal) (sleepMode : Bool) (timer : UInt32) :
    (∀ access ∈ (slpClkCalInit cal sleepMode timer).2, access.InBounds) ∧
      Ranged (slpClkCalInit cal sleepMode timer).1 := by
  refine ⟨?_, Or.inr rfl, Or.inr (initRange_hwInit _)⟩
  show ∀ access ∈ Access.hbinRange 0 :: (List.range (numHbinRange - 1)).flatMap fun index =>
    [Access.hbinRange index, Access.hbinRange (index + 1)], access.InBounds
  decide

/-- A change of the mode uses the indices of the initialization only. -/
theorem enable_spec (ranged : Ranged cal) (mode : CalMode) (sleepMode : Bool) (timer : UInt32)
    (deleted : Bool) :
    ((∀ access ∈ (slpClkCalEnable cal mode sleepMode timer deleted).2, access.InBounds) ↔ True) ∧
      Ranged (slpClkCalEnable cal mode sleepMode timer deleted).1 := by
  have empty : (∀ access ∈ ([] : List Access), access.InBounds) ↔ True := by simp
  cases mode with
  | active =>
      simp only [slpClkCalEnable]
      split
      · exact ⟨empty, ranged⟩
      · obtain ⟨accesses, after⟩ := init_spec { cal with enabledMode := .active } sleepMode timer
        exact ⟨iff_true_intro accesses, after⟩
  | disable =>
      simp only [slpClkCalEnable]
      split
      · exact ⟨empty, ranged⟩
      · split
        · exact ⟨empty, ranged⟩
        · exact ⟨empty, ranged.prev, ranged.ranges⟩
  | sleep =>
      simp only [slpClkCalEnable]
      split
      · exact ⟨empty, ranged⟩
      · exact ⟨empty, ranged.prev, ranged.ranges⟩
  | invalid => exact ⟨empty, ranged⟩

/-- A resumed monitor polls at once when no ticks were left at its pause. -/
theorem resume_spec (ranged : Ranged cal) (preSlpComplete : Bool) (temp : UInt32)
    (beyond : Nat → UInt32) :
    ((∀ access ∈ (monitorResume cal preSlpComplete temp beyond).2, access.InBounds) ↔
        Safe cal (.resume preSlpComplete temp beyond)) ∧
      Ranged (monitorResume cal preSlpComplete temp beyond).1 := by
  have empty : ∀ access ∈ ([] : List Access), access.InBounds := nofun
  unfold monitorResume
  by_cases timer : cal.pollTimer ≠ 0
  · by_cases pending : cal.pendingTicks ≠ 0
    · simp only [timer, pending, ne_eq, not_false_eq_true, if_true]
      exact ⟨iff_of_true empty fun _ gone => absurd gone pending, ranged.prev, ranged.ranges⟩
    · obtain ⟨⟨data, after⟩, accesses⟩ := timerCb_spec cal preSlpComplete temp beyond
      simp only [timer, pending, ne_eq, not_false_eq_true, if_true, if_false]
      refine ⟨accesses.trans ⟨fun fits _ _ => fits, fun safe => safe timer ?_⟩, ?_, ?_⟩
      · exact not_ne_iff.mp pending
      · rw [after]
        exact ranged.prev
      · rw [after]
        exact ranged.ranges
  · simp only [timer, if_false]
    exact ⟨iff_of_true empty fun running => absurd running timer, ranged.prev, ranged.ranges⟩

/-- The register that is read after a sleep is that of a bin. -/
theorem postawake_spec (ranged : Ranged cal) (hbin : Int → UInt32) :
    ((∀ access ∈ (postawakeActivities cal hbin).2, access.InBounds) ↔ True) ∧
      Ranged (postawakeActivities cal hbin).1 := by
  have empty : (∀ access ∈ ([] : List Access), access.InBounds) ↔ True := by simp
  unfold postawakeActivities
  split
  · exact ⟨empty, ranged⟩
  · split
    · dsimp only
      split
      case isTrue fits =>
        have bound : cal.prevHbin.toNat ≤ 15 := fits
        have one : (∀ access ∈ [Access.hbinReg cal.prevHbin.toNat], access.InBounds) ↔ True := by
          refine iff_true_intro fun access member => ?_
          rw [List.mem_singleton.mp member]
          exact ⟨by omega, by omega⟩
        split
        · exact ⟨one, ranged.prev, ranged.ranges⟩
        · exact ⟨one, ranged.prev, ranged.ranges⟩
      case isFalse => exact ⟨empty, ranged.prev, ranged.ranges⟩
    · exact ⟨empty, ranged⟩

/-- One call: its indices are good exactly when it is safe, and the table stays as it is or
is initialized. -/
theorem apply_spec (ranged : Ranged cal) (event : CalEvent) :
    ((∀ access ∈ (event.apply cal).2, access.InBounds) ↔ Safe cal event) ∧
      Ranged (event.apply cal).1 := by
  have empty : (∀ access ∈ ([] : List Access), access.InBounds) ↔ True := by simp
  cases event with
  | enable mode sleepMode timer deleted =>
      show ((∀ access ∈ (slpClkCalEnable cal mode sleepMode timer deleted).2, access.InBounds) ↔
        True) ∧ Ranged (slpClkCalEnable cal mode sleepMode timer deleted).1
      exact enable_spec ranged mode sleepMode timer deleted
  | timerCb preSlpComplete temp beyond =>
      obtain ⟨⟨data, after⟩, accesses⟩ := timerCb_spec cal preSlpComplete temp beyond
      refine ⟨accesses, ?_⟩
      show Ranged (sleepClkCalTimerCb cal preSlpComplete temp beyond).1
      rw [after]
      exact ⟨ranged.prev, ranged.ranges⟩
  | calDone temp hbin =>
      obtain ⟨accesses, after, -⟩ := getHbin_spec ranged temp hbin
      exact ⟨accesses, after⟩
  | pause isActiveTimer expiry =>
      refine ⟨empty, ?_⟩
      show Ranged (monitorPause cal isActiveTimer expiry)
      unfold monitorPause
      split
      · exact ⟨ranged.prev, ranged.ranges⟩
      · exact ranged
  | resume preSlpComplete temp beyond => exact resume_spec ranged preSlpComplete temp beyond
  | preSleep =>
      show ((∀ access ∈ (presleepActivities cal).2, access.InBounds) ↔ True) ∧
        Ranged (presleepActivities cal).1
      unfold presleepActivities
      split
      · exact ⟨empty, ranged⟩
      · exact enable_spec ranged .sleep false 0 false
  | postAwake hbin =>
      show ((∀ access ∈ (postawakeActivities cal hbin).2, access.InBounds) ↔ True) ∧
        Ranged (postawakeActivities cal hbin).1
      exact postawake_spec ranged hbin
  | dynamicEnable enabled => exact ⟨empty, ranged.prev, ranged.ranges⟩

/-- A run does not get stuck, and its indices are good exactly when each call is safe. -/
theorem run_spec (events : List CalEvent) (run : CalRun) (ranged : Ranged run.cal) :
    ∃ last, Runs.exec CalRun.step run events = some last ∧ Ranged last.cal ∧
      ((∀ access ∈ last.accesses, access.InBounds) ↔
        (∀ access ∈ run.accesses, access.InBounds) ∧
          Runs.Meets CalRun.step (fun run event => Safe run.cal event) run events) := by
  induction events generalizing run with
  | nil => exact ⟨run, rfl, ranged, (and_iff_left trivial).symm⟩
  | cons event events ih =>
      obtain ⟨accesses, after⟩ := apply_spec ranged event
      obtain ⟨last, rest, final, bounds⟩ := ih
        { cal := (event.apply run.cal).1
          accesses := run.accesses ++ (event.apply run.cal).2 } after
      refine ⟨last, rest, final, bounds.trans ?_⟩
      have split : (∀ access ∈ run.accesses ++ (event.apply run.cal).2, access.InBounds) ↔
          (∀ access ∈ run.accesses, access.InBounds) ∧ Safe run.cal event := by
        rw [List.forall_mem_append, accesses]
      rw [split, and_assoc]
      exact Iff.rfl

/-- Every index of a run into the range table and the HBIN registers is in bounds exactly
when each call is safe, and a look for the calibration data behind any run that succeeds
leaves the bin of the temperature. -/
theorem calibration_in_bounds (events : List CalEvent) :
    ∃ last, Runs.exec CalRun.step CalRun.start events = some last ∧
      ((∀ access ∈ last.accesses, access.InBounds) ↔
        Runs.Meets CalRun.step (fun run event => Safe run.cal event) CalRun.start events) ∧
      ∀ temp hbin, (slpClkCalGetHbin last.cal temp hbin).2.2 = .ok →
        HbinChosen last.cal (slpClkCalGetHbin last.cal temp hbin).1 temp hbin := by
  obtain ⟨last, run, ranged, bounds⟩ :=
    run_spec events CalRun.start ⟨Or.inl (by decide), Or.inl fun _ _ => rfl⟩
  refine ⟨last, run, ?_, fun temp hbin => (getHbin_spec ranged temp hbin).2.2⟩
  rw [bounds]
  exact and_iff_right nofun

/-- The first poll behind the initialization looks up the range of the bin 255, and a
reading of the first bin reads the register before HBIN0 when no bin is active. -/
theorem calibration_out_of_bounds :
    (∃ last, Runs.exec CalRun.step CalRun.start
        [.enable .active false 1 true, .timerCb false 100 fun _ => 0] = some last ∧
      Access.hbinRange 255 ∈ last.accesses ∧ ¬ (Access.hbinRange 255).InBounds) ∧
    ∃ last, Runs.exec CalRun.step CalRun.start
        [.enable .active false 1 true, .calDone 5 fun _ => 0] = some last ∧
      Access.hbinReg (-1) ∈ last.accesses ∧ ¬ (Access.hbinReg (-1)).InBounds := by
  refine ⟨⟨_, rfl, ?_, by decide⟩, ⟨_, rfl, ?_, by decide⟩⟩
  · decide
  · decide

end QHal.SleepCal
