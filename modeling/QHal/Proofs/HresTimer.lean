/-
Module: QHal.Proofs.HresTimer
Purpose: The time in microseconds and the delay against the ticks of a counter that
  only advances, for calls whose two reads see one upper half and whose product fits.
Trusted boundary: none
Main exports: Advances, microseconds, Clean, DelayReady, hres_timer_meets_counter
-/
import Mathlib.Algebra.Group.Nat.Defs
import QHal.Timer.HresTimer

namespace QHal.HresTimer

/-- The counter does not run backwards. -/
def Advances (counter : Counter) : Prop :=
  ∀ first second, first ≤ second → (counter first).toNat ≤ (counter second).toNat

/-- Whole microseconds of a number of ticks. -/
def microseconds (ticks : Nat) : Nat := ticks * 1000000 / 38400000

/-- The two reads of a call see the same upper half, and the product fits in 64 bits. -/
def Clean (counter : Counter) (read : Nat) : Prop :=
  (counter read).toNat / 2 ^ 32 = (counter (read + 1)).toNat / 2 ^ 32 ∧
    (counter (read + 1)).toNat * 1000000 < 2 ^ 64

instance (counter : Counter) (read : Nat) : Decidable (Clean counter read) :=
  inferInstanceAs (Decidable (_ ∧ _))

/-- The start of a delay is past the microsecond that it reads by no more fifths of a
tick than the first tick of the microsecond that it waits for. -/
def DelayReady (counter : Counter) (read : Nat) (timeUs : UInt32) : Prop :=
  timeUs = 0 ∨
    5 * (counter read).toNat ≤ 192 * microseconds (counter (read + 1)).toNat +
      3 * (microseconds (counter (read + 1)).toNat + timeUs.toNat) % 5

instance (counter : Counter) (read : Nat) (timeUs : UInt32) :
    Decidable (DelayReady counter read timeUs) :=
  inferInstanceAs (Decidable (_ ∨ _))

variable {counter : Counter} {read : Nat}

/-- One microsecond is 38.4 ticks. -/
theorem microseconds_eq (ticks : Nat) : microseconds ticks = 5 * ticks / 192 := by
  unfold microseconds
  have left : ticks * 1000000 = 5 * ticks * 200000 := by omega
  rw [left, show 38400000 = 192 * 200000 from rfl, Nat.mul_div_mul_right _ _ (by decide)]

theorem microseconds_mono {first second : Nat} (le : first ≤ second) :
    microseconds first ≤ microseconds second :=
  Nat.div_le_div_right (Nat.mul_le_mul_right _ le)

/-- The first tick of a microsecond is its beginning rounded up. -/
theorem first_tick {time ticks : Nat} (reached : time ≤ microseconds ticks) :
    192 * time + 3 * time % 5 ≤ 5 * ticks := by
  rw [microseconds_eq] at reached
  have begun : 192 * time ≤ 5 * ticks := by omega
  have rounding : (5 * ticks - 192 * time) % 5 = 3 * time % 5 := by omega
  have bound := Nat.mod_le (5 * ticks - 192 * time) 5
  omega

/-- The two halves of two reads, put together. -/
theorem ticks_toNat (counter : Counter) (read : Nat) :
    ((cntpctHiIn counter read).toUInt64 <<< 32 |||
      (cntpctLoIn counter (read + 1)).toUInt64).toNat =
      (counter read).toNat / 2 ^ 32 * 2 ^ 32 + (counter (read + 1)).toNat % 2 ^ 32 := by
  have high : (cntpctHiIn counter read).toUInt64.toNat = (counter read).toNat / 2 ^ 32 := by
    have bound := (counter read).toNat_lt
    rw [UInt32.toNat_toUInt64, cntpctHiIn, UInt64.toNat_toUInt32, UInt64.toNat_shiftRight,
      show (32 : UInt64).toNat % 64 = 32 from rfl, Nat.shiftRight_eq_div_pow]
    exact Nat.mod_eq_of_lt (by omega)
  have low : (cntpctLoIn counter (read + 1)).toUInt64.toNat =
      (counter (read + 1)).toNat % 2 ^ 32 := by
    rw [UInt32.toNat_toUInt64, cntpctLoIn, UInt64.toNat_toUInt32]
  have small : (counter (read + 1)).toNat % 2 ^ 32 < 2 ^ 32 := Nat.mod_lt _ (by decide)
  have fits : ((counter read).toNat / 2 ^ 32) <<< 32 < 2 ^ 64 := by
    have bound := (counter read).toNat_lt
    rw [Nat.shiftLeft_eq]
    omega
  rw [UInt64.toNat_or, UInt64.toNat_shiftLeft, high, low,
    show (32 : UInt64).toNat % 64 = 32 from rfl, Nat.mod_eq_of_lt fits,
    ← Nat.shiftLeft_add_eq_or_of_lt small, Nat.shiftLeft_eq]

/-- A clean call returns the microseconds of the counter at its second read. -/
theorem currTime_clean (clean : Clean counter read) :
    (hresTimerCurrTimeUs counter read).toNat = microseconds (counter (read + 1)).toNat := by
  obtain ⟨same, fits⟩ := clean
  have ticks : ((cntpctHiIn counter read).toUInt64 <<< 32 |||
      (cntpctLoIn counter (read + 1)).toUInt64).toNat = (counter (read + 1)).toNat := by
    rw [ticks_toNat, same]
    exact Nat.div_add_mod' _ _
  rw [hresTimerCurrTimeUs, UInt64.toNat_div, UInt64.toNat_mul, ticks,
    show (1000000 : UInt64).toNat = 1000000 from rfl, Nat.mod_eq_of_lt fits]
  rfl

/-- The loop ends at a call that returns at least the target. -/
theorem delayLoop_returns {target curr : UInt64} {polls last : Nat}
    (returns : delayLoop counter target polls read curr = some last) :
    (target ≤ curr ∧ last = read) ∨
      ∃ more, last = read + 2 * more + 2 ∧
        target ≤ hresTimerCurrTimeUs counter (read + 2 * more) := by
  induction polls generalizing read curr with
  | zero =>
      unfold delayLoop at returns
      split at returns
      case isTrue => cases returns
      case isFalse reached =>
        exact Or.inl ⟨UInt64.not_lt.mp reached, (Option.some.inj returns).symm⟩
  | succ polls ih =>
      unfold delayLoop at returns
      split at returns
      case isTrue =>
        right
        rcases ih returns with ⟨reached, same⟩ | ⟨more, place, reached⟩
        · exact ⟨0, same, reached⟩
        · refine ⟨more + 1, by omega, ?_⟩
          rw [show read + 2 * (more + 1) = read + 2 + 2 * more by omega]
          exact reached
      case isFalse reached =>
        exact Or.inl ⟨UInt64.not_lt.mp reached, (Option.some.inj returns).symm⟩

/-- The call that ends a delay, with its result against the target. -/
theorem delay_end {polls last : Nat} {timeUs : UInt32}
    (returns : hresTimerUsDelay counter polls read timeUs = some last) :
    ∃ call, last = call + 2 ∧ read ≤ call ∧ (call - read) % 2 = 0 ∧
      hresTimerCurrTimeUs counter read + timeUs.toUInt64 ≤ hresTimerCurrTimeUs counter call := by
  rcases delayLoop_returns returns with ⟨reached, same⟩ | ⟨more, place, reached⟩
  · exact ⟨read, same, Nat.le_refl _, by omega, reached⟩
  · exact ⟨read + 2 + 2 * more, place, by omega, by omega, reached⟩

/-- A delay whose calls are clean and whose start is ready lasts long enough. -/
theorem delay_lasts (advances : Advances counter) {polls last : Nat} {timeUs : UInt32}
    (returns : hresTimerUsDelay counter polls read timeUs = some last)
    (clean : ∀ call, read ≤ call → call + 2 ≤ last → (call - read) % 2 = 0 → Clean counter call)
    (ready : DelayReady counter read timeUs) :
    timeUs.toNat * 38400000 ≤
      ((counter (last - 1)).toNat - (counter read).toNat) * 1000000 := by
  obtain ⟨call, rfl, order, even, reached⟩ := delay_end returns
  rw [show call + 2 - 1 = call + 1 from rfl]
  rcases ready with zero | ready
  · rw [zero]
    exact Nat.zero_le _
  have startClean := clean read (Nat.le_refl _) (by omega) (by omega)
  have endClean := clean call order (Nat.le_refl _) even
  have target : (hresTimerCurrTimeUs counter read + timeUs.toUInt64).toNat =
      microseconds (counter (read + 1)).toNat + timeUs.toNat := by
    have bound := timeUs.toNat_lt
    have small : microseconds (counter (read + 1)).toNat < 2 ^ 63 := by
      rw [microseconds_eq]
      have ticks := (counter (read + 1)).toNat_lt
      omega
    rw [UInt64.toNat_add, currTime_clean startClean, UInt32.toNat_toUInt64]
    exact Nat.mod_eq_of_lt (by omega)
  have enough : microseconds (counter (read + 1)).toNat + timeUs.toNat ≤
      microseconds (counter (call + 1)).toNat := by
    rw [← target, ← currTime_clean endClean]
    exact UInt64.le_iff_toNat_le.mp reached
  have ended := first_tick enough
  have later := advances read (call + 1) (by omega)
  omega

/-- On a counter that only advances, clean calls return non-decreasing times, each between
the microseconds at the start and at the end of the call, and a ready delay with clean
calls returns only after its microseconds' worth of ticks. -/
theorem hres_timer_meets_counter (advances : Advances counter) :
    (∀ first second, first + 2 ≤ second → Clean counter first → Clean counter second →
        hresTimerCurrTimeUs counter first ≤ hresTimerCurrTimeUs counter second) ∧
      (∀ read, Clean counter read →
        microseconds (counter read).toNat ≤ (hresTimerCurrTimeUs counter read).toNat ∧
          (hresTimerCurrTimeUs counter read).toNat ≤ microseconds (counter (read + 1)).toNat) ∧
      (∀ polls read timeUs last, hresTimerUsDelay counter polls read timeUs = some last →
        (∀ call, read ≤ call → call + 2 ≤ last → (call - read) % 2 = 0 → Clean counter call) →
        DelayReady counter read timeUs →
        timeUs.toNat * 38400000 ≤
          ((counter (last - 1)).toNat - (counter read).toNat) * 1000000) := by
  refine ⟨?_, ?_, ?_⟩
  · intro first second order one two
    rw [UInt64.le_iff_toNat_le, currTime_clean one, currTime_clean two]
    exact microseconds_mono (advances _ _ (by omega))
  · intro read clean
    rw [currTime_clean clean]
    exact ⟨microseconds_mono (advances _ _ (by omega)), Nat.le_refl _⟩
  · intro polls read timeUs last returns clean ready
    exact delay_lasts advances returns clean ready

/-- A counter that moves on once, at some register read. -/
def moves (turn : Nat) (before after : UInt64) : Counter :=
  fun read => if read < turn then before else after

theorem moves_advances {turn : Nat} {before after : UInt64} (order : before ≤ after) :
    Advances (moves turn before after) := by
  intro first second later
  have orderNat := UInt64.le_iff_toNat_le.mp order
  unfold moves
  split
  · split
    · exact Nat.le_refl _
    · exact orderNat
  case isFalse passed => exact Nat.le_of_eq (congrArg UInt64.toNat (if_neg (by omega)).symm)

/-- A delay of ten microseconds over 384 ticks. -/
theorem hres_timer_meets_counter_ten :
    hresTimerUsDelay (moves 2 0 384) 1 0 10 = some 4 ∧
      (10 : UInt32).toNat * 38400000 ≤
        ((moves 2 0 384 3).toNat - (moves 2 0 384 0).toNat) * 1000000 := by
  have returns : hresTimerUsDelay (moves 2 0 384) 1 0 10 = some 4 := by decide
  refine ⟨returns, (hres_timer_meets_counter (moves_advances (by decide))).2.2 1 0 10 4 returns
    ?_ (by decide)⟩
  intro call _ inside even
  have calls : call = 0 ∨ call = 2 := by omega
  rcases calls with rfl | rfl
  · decide
  · decide

/-- A carry between the two reads, a product that does not fit, and a delay of one
microsecond that ends after one tick. -/
theorem hres_timer_misses_counter :
    (Advances (moves 1 0xFFFFFFFF 0x100000000) ∧
        ¬ microseconds (moves 1 0xFFFFFFFF 0x100000000 0).toNat ≤
          (hresTimerCurrTimeUs (moves 1 0xFFFFFFFF 0x100000000) 0).toNat) ∧
      (Advances (moves 0 0 18446744073710) ∧
        ¬ microseconds (moves 0 0 18446744073710 0).toNat ≤
          (hresTimerCurrTimeUs (moves 0 0 18446744073710) 0).toNat) ∧
      (Advances (moves 2 38 39) ∧ hresTimerUsDelay (moves 2 38 39) 1 0 1 = some 4 ∧
        ¬ (1 : UInt32).toNat * 38400000 ≤
          ((moves 2 38 39 3).toNat - (moves 2 38 39 0).toNat) * 1000000) :=
  ⟨⟨moves_advances (by decide), by decide⟩, ⟨moves_advances (by decide), by decide⟩,
    moves_advances (by decide), by decide, by decide⟩

end QHal.HresTimer
