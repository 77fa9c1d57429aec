/-
Module: QHal.Proofs.RingSystem
Purpose: From one ring to the system.  What every step on a ring preserves, and
  every initialised ring has, holds of every configured ring in every run.
Trusted boundary: none
Main exports: System.Every, OnSlave, OnRecv, every_step, every_init, every_run,
  Lane.Formed
-/
import QHal.Qring.Host
import QHal.Lib.Runs
import Mathlib.Tactic.SplitIfs

namespace QHal.Qring

section Every

variable {η : Type} {hostStep : Ring → η → Option Ring} {inv : Ring → Prop}
  {cond : Ring → SlaveAction → Prop}

/-- A property of every configured ring. -/
def System.Every (inv : Ring → Prop) (system : System) : Prop :=
  ∀ ringId, system.configured ringId = true → inv (system.rings ringId)

/-- A condition on the steps of the slave, in the state of the ring they are on. -/
def OnSlave (cond : Ring → SlaveAction → Prop) (system : System) : Action η → Prop
  | .slave ringId action => cond (system.rings ringId) action
  | .host _ _ => True
  | .interrupt => True

instance [∀ ring action, Decidable (cond ring action)] (system : System) (action : Action η) :
    Decidable (OnSlave cond system action) :=
  match action with
  | .slave ringId action => inferInstanceAs (Decidable (cond (system.rings ringId) action))
  | .host _ _ => inferInstanceAs (Decidable True)
  | .interrupt => inferInstanceAs (Decidable True)

/-- A condition on the accesses of the call of `ring_recv` that holds the lock. -/
def OnRecv (cond : RecvSide → Prop) (ring : Ring) : SlaveAction → Prop
  | .recv .exec => cond ring.recv
  | _ => True

instance {cond : RecvSide → Prop} [∀ side, Decidable (cond side)] (ring : Ring) :
    ∀ action, Decidable (OnRecv cond ring action)
  | .recv .exec => inferInstanceAs (Decidable (cond ring.recv))
  | .recv (.call _) => inferInstanceAs (Decidable True)
  | .recv (.take _) => inferInstanceAs (Decidable True)
  | .recv (.timeout _) => inferInstanceAs (Decidable True)
  | .recv (.relock _) => inferInstanceAs (Decidable True)
  | .send _ => inferInstanceAs (Decidable True)

theorem onRing_every {system next : System} {ringId : UInt8} {step : Ring → Option Ring}
    (every : system.Every inv)
    (keeps : ∀ ring, inv (system.rings ringId) → step (system.rings ringId) = some ring →
      inv ring)
    (stepped : system.onRing ringId step = some next) : next.Every inv := by
  unfold System.onRing at stepped
  split_ifs at stepped with known
  obtain ⟨ring, ringStep, rfl⟩ := Option.map_eq_some_iff.mp stepped
  intro other configured
  by_cases same : other = ringId
  · subst same
    simp only [Function.update_self]
    exact keeps ring (every other known) ringStep
  · simp only [System.configured, Function.update_of_ne same] at configured ⊢
    exact every other configured

/-- A step of the system keeps what the steps on a ring and the tokens keep. -/
theorem every_step
    (slave : ∀ ring action next, inv ring → cond ring action → ring.slave action = some next →
      inv next)
    (host : ∀ ring action next, inv ring → hostStep ring action = some next → inv next)
    (give : ∀ ring, inv ring → inv { ring with recv := ring.recv.give })
    (system : System) (action : Action η) (next : System) (every : system.Every inv)
    (meets : OnSlave cond system action) (stepped : system.step hostStep action = some next) :
    next.Every inv := by
  cases action with
  | slave ringId action =>
      rw [System.step] at stepped
      exact onRing_every every (fun ring holds => slave _ action ring holds meets) stepped
  | host ringId action =>
      rw [System.step] at stepped
      exact onRing_every every (fun ring holds => host _ action ring holds) stepped
  | interrupt =>
      cases stepped
      intro ringId configured
      have before : system.configured ringId = true := by
        unfold System.configured ringRxHandler at configured
        unfold System.configured
        simp only at configured
        split_ifs at configured
        · exact configured
        · exact configured
      simp only [ringRxHandler, if_pos before]
      exact give _ (every ringId before)

theorem initRings_every {world : InitWorld}
    (init : ∀ config txPool rxPool, RingConfig.valid config = true →
      inv (Ring.init config txPool rxPool)) :
    ∀ {configs : List RingConfig} {i : Nat} {rings result : UInt8 → Ring},
      (∀ config ∈ configs, config.valid = true) →
      (∀ ringId, (rings ringId).ringStatus = ringStatusValid → inv (rings ringId)) →
      initRings world configs i rings = some result →
      ∀ ringId, (result ringId).ringStatus = ringStatusValid → inv (result ringId) := by
  intro configs
  induction configs with
  | nil =>
      intro i rings result _ sofar done
      cases done
      exact sofar
  | cons config configs ih =>
      intro i rings result valid sofar done
      unfold initRings at done
      split_ifs at done
      apply ih (fun later member => valid later (List.mem_cons_of_mem config member)) _ done
      intro ringId status
      by_cases same : ringId = config.ringId
      · subst same
        simp only [Function.update_self]
        exact init config _ _ (valid config List.mem_cons_self)
      · simp only [Function.update_of_ne same] at status ⊢
        exact sofar ringId status

/-- What every ring has behind its initialisation. -/
theorem every_init
    (init : ∀ config txPool rxPool, RingConfig.valid config = true →
      inv (Ring.init config txPool rxPool))
    {world : InitWorld} {configs : List RingConfig} {start system : System}
    (started : ringServiceSlaveInit world configs start = (.ok 0, system)) :
    system.Every inv := by
  unfold ringServiceSlaveInit at started
  simp only at started
  by_cases already : start.initialized = true
  · rw [if_pos already] at started
    cases started
  rw [if_neg already] at started
  by_cases count : configs.length = 0 ∨ configs.length > maxRings.toNat
  · rw [if_pos count] at started
    cases started
  rw [if_neg count] at started
  by_cases invalid : ¬ configs.all RingConfig.valid = true
  · rw [if_pos invalid] at started
    cases started
  rw [if_neg invalid] at started
  have valid : ∀ config ∈ configs, config.valid = true :=
    List.all_eq_true.mp (not_not.mp invalid)
  cases done : initRings world configs 0 fun _ => clearedRing with
  | none =>
      rw [done] at started
      cases started
  | some rings =>
      rw [done] at started
      by_cases ready : world.gpioReady = true
      · simp only [ready, if_true] at started
        cases started
        intro ringId configured
        simp only [System.configured, Bool.and_eq_true, decide_eq_true_eq] at configured
        apply initRings_every init valid _ done ringId configured.2
        intro other status
        exact absurd status (by decide)
      · simp only [ready] at started
        cases started

/-- Every configured ring, at the end of every run of an initialised system. -/
theorem every_run
    (init : ∀ config txPool rxPool, RingConfig.valid config = true →
      inv (Ring.init config txPool rxPool))
    (slave : ∀ ring action next, inv ring → cond ring action → ring.slave action = some next →
      inv next)
    (host : ∀ ring action next, inv ring → hostStep ring action = some next → inv next)
    (give : ∀ ring, inv ring → inv { ring with recv := ring.recv.give })
    {world : InitWorld} {configs : List RingConfig} {start system last : System}
    (started : ringServiceSlaveInit world configs start = (.ok 0, system))
    {actions : List (Action η)}
    (meets : Runs.Meets (System.step hostStep) (OnSlave cond) system actions)
    (run : Runs.exec (System.step hostStep) system actions = some last) : last.Every inv :=
  Runs.invariant (every_step slave host give) (every_init init started) meets run

/-- The system with the rings of the source, initialised without an obstacle. -/
def plainSystem : System :=
  (ringServiceSlaveInit plainWorld ringConfigs ⟨false, fun _ => clearedRing⟩).2

theorem plainSystem_started :
    ringServiceSlaveInit plainWorld ringConfigs ⟨false, fun _ => clearedRing⟩ =
      (.ok 0, plainSystem) := rfl

end Every

section Formed

/-- A direction as the initialisation leaves it: its sizes, and each descriptor with
its own part of the pool. -/
structure Lane.Formed (lane : Lane) : Prop where
  count_pos : 0 < lane.descCount.toNat
  count_le : lane.descCount.toNat ≤ 256
  size_le : lane.bufSize.toNat ≤ 1500
  addr : ∀ j < lane.descCount.toNat, (lane.desc j).bufferAddr = j * lane.bufSize.toNat

variable {lane : Lane}

theorem Lane.Formed.init {config : RingConfig} (valid : config.valid = true)
    (pool : Nat → UInt8) : (Lane.init config pool).Formed := by
  simp only [RingConfig.valid, Bool.and_eq_true, Bool.not_eq_true', Bool.or_eq_false_iff,
    decide_eq_false_iff_not] at valid
  obtain ⟨⟨_, someCount, smallCount⟩, _, smallSize⟩ := valid
  exact {
    count_pos := Nat.pos_of_ne_zero fun zero => someCount (UInt32.toNat_inj.mp zero)
    count_le := UInt32.le_iff_toNat_le.mp (UInt32.not_lt.mp smallCount)
    size_le := UInt32.le_iff_toNat_le.mp (UInt32.not_lt.mp smallSize)
    addr := fun _ _ => rfl }

theorem setLength_desc (lane : Lane) (idx : UInt32) (length : UInt16) (j : Nat) :
    (lane.setLength idx length).desc j =
      if j = idx.toNat then { lane.desc idx.toNat with length := length } else lane.desc j :=
  Function.update_apply ..

theorem setFlags_desc (lane : Lane) (idx : UInt32) (flags : UInt16) (j : Nat) :
    (lane.setFlags idx flags).desc j =
      if j = idx.toNat then { lane.desc idx.toNat with flags := flags } else lane.desc j :=
  Function.update_apply ..

/-- The address of a buffer never changes. -/
@[simp] theorem setLength_bufferAddr (lane : Lane) (idx : UInt32) (length : UInt16) (j : Nat) :
    ((lane.setLength idx length).desc j).bufferAddr = (lane.desc j).bufferAddr := by
  rw [setLength_desc]
  split_ifs with same
  · rw [same]
  · rfl

@[simp] theorem setFlags_bufferAddr (lane : Lane) (idx : UInt32) (flags : UInt16) (j : Nat) :
    ((lane.setFlags idx flags).desc j).bufferAddr = (lane.desc j).bufferAddr := by
  rw [setFlags_desc]
  split_ifs with same
  · rw [same]
  · rfl

theorem Lane.Formed.setLength (formed : lane.Formed) (idx : UInt32) (length : UInt16) :
    (lane.setLength idx length).Formed where
  count_pos := formed.count_pos
  count_le := formed.count_le
  size_le := formed.size_le
  addr := fun j below => (setLength_bufferAddr lane idx length j).trans (formed.addr j below)

theorem Lane.Formed.setFlags (formed : lane.Formed) (idx : UInt32) (flags : UInt16) :
    (lane.setFlags idx flags).Formed where
  count_pos := formed.count_pos
  count_le := formed.count_le
  size_le := formed.size_le
  addr := fun j below => (setFlags_bufferAddr lane idx flags j).trans (formed.addr j below)

theorem Lane.Formed.copyIn (formed : lane.Formed) (idx : UInt32) (data : List UInt8) :
    (lane.copyIn idx data).Formed :=
  ⟨formed.count_pos, formed.count_le, formed.size_le, formed.addr⟩

theorem Lane.Formed.setWrIdx (formed : lane.Formed) (wrIdx : UInt32) :
    Lane.Formed { lane with wrIdx := wrIdx } :=
  ⟨formed.count_pos, formed.count_le, formed.size_le, formed.addr⟩

theorem Lane.Formed.setRdIdx (formed : lane.Formed) (rdIdx : UInt32) :
    Lane.Formed { lane with rdIdx := rdIdx } :=
  ⟨formed.count_pos, formed.count_le, formed.size_le, formed.addr⟩

/-- The next index is an index. -/
theorem Lane.Formed.next_lt (formed : lane.Formed) (idx : UInt32) :
    lane.next idx < lane.descCount := by
  apply UInt32.lt_iff_toNat_lt.mpr
  unfold Lane.next
  rw [UInt32.toNat_mod]
  exact Nat.mod_lt _ formed.count_pos

end Formed

end QHal.Qring
