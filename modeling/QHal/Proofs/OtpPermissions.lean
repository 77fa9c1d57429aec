/-
Module: QHal.Proofs.OtpPermissions
Purpose: The RRAM writes of the NVM programmer store just their data, and the permission
  bit of the OTP stays clear as long as no write covers its byte from a lower address with
  the bit set.
Trusted boundary: none
Main exports: rramWrite_eq, OtpCall, permissions_clear_iff
-/
import QHal.Nvm.NvmRram
import QHal.Proofs.RramDxeWrite

namespace QHal.Nvm

open Mem (overlay overlay_append overlay_overlay overlay_congr overlay_zero)

/-! ## One write -/

theorem rramBlockWrite_eq {cells : Cells} {destination length : Nat} (source : Nat → UInt8)
    (start : destination % rramLine = 0) (whole : length % rramLine = 0) :
    rramBlockWrite cells destination source length =
      some (overlay cells destination length source) :=
  if_pos ⟨start, whole⟩

/-- The first line takes the data up to its end. -/
theorem rramWriteUnaligned_eq (cells : Cells) (destination : Nat) (source : Nat → UInt8)
    (length : Nat) :
    rramWriteUnaligned cells destination source length =
      some (overlay cells destination (min (16 - destination % 16) length) source,
        min (16 - destination % 16) length) := by
  have below : destination % 16 < 16 := Nat.mod_lt _ (by decide)
  have position : destination - destination % 16 + destination % 16 = destination :=
    Nat.sub_add_cancel (Nat.mod_le _ _)
  have line : (destination - destination % 16) % 16 = 0 := by omega
  have loop := Boot.unalignedLoop_spec source 16 (destination % 16) 0 length
    (fun i => cells (destination - destination % 16 + i)) (by omega)
  have merged := overlay_overlay cells (destination - destination % 16)
    (by omega : destination % 16 + min (16 - destination % 16) length ≤ 16) source
  rw [position] at merged
  simp only [Nat.zero_add] at loop
  rw [rramWriteUnaligned, rramLine, loop]
  dsimp only
  rw [rramBlockWrite, rramLine, if_pos ⟨line, rfl⟩, merged]
  rfl

theorem rramFullBlocks_eq (blocks : Nat) (cells : Cells) {dst : Nat} (source : Nat → UInt8)
    (start : dst % rramLine = 0) :
    rramFullBlocks blocks cells dst source =
      some (overlay cells dst (blocks * rramWriteBlockMaxSize) source) := by
  induction blocks generalizing cells dst source with
  | zero => rw [rramFullBlocks, Nat.zero_mul, overlay_zero]
  | succ blocks ih =>
      have next : (dst + rramWriteBlockMaxSize) % rramLine = 0 := by
        rw [rramLine] at start ⊢
        rw [rramWriteBlockMaxSize]
        omega
      rw [rramFullBlocks, rramBlockWrite_eq source start rfl, Option.bind_eq_bind,
        Option.bind_some, ih _ _ next, overlay_append, Nat.succ_mul, Nat.add_comm]

theorem rramPartialBlock_eq (cells : Cells) {dst : Nat} (source : Nat → UInt8) (length : Nat)
    (start : dst % rramLine = 0) :
    rramPartialBlock cells dst source length = some (overlay cells dst length source) := by
  obtain ⟨rest, isRest⟩ : ∃ rest, rest = length % rramLine := ⟨_, rfl⟩
  have below : rest < rramLine := isRest ▸ Nat.mod_lt _ (by decide)
  have split : length - rest + rest = length :=
    Nat.sub_add_cancel (isRest ▸ Nat.mod_le _ _)
  have whole : (length - rest) % rramLine = 0 := by
    rw [rramLine] at isRest ⊢
    omega
  rw [rramPartialBlock, ← isRest]
  dsimp only
  rw [rramBlockWrite_eq source start whole, Option.bind_eq_bind, Option.bind_some]
  split_ifs with more
  · have line : (dst + (length - rest)) % rramLine = 0 := by
      rw [rramLine] at *
      omega
    rw [rramBlockWrite_eq _ line rfl]
    congr 1
    -- The end of the last line is what the cells hold already.
    have buffer : (fun i => if i < rest then source (length - rest + i)
        else overlay cells dst (length - rest) source (dst + (length - rest) + i)) =
          overlay (fun i => overlay cells dst (length - rest) source (dst + (length - rest) + i))
            0 rest (fun i => source (length - rest + i)) := by
      funext i
      by_cases early : i < rest
      · rw [if_pos early, overlay, if_pos (by omega), Nat.sub_zero]
      · rw [if_neg early]
        conv_rhs => rw [overlay]
        rw [if_neg (by omega)]
    have merged := overlay_overlay (overlay cells dst (length - rest) source)
      (dst + (length - rest)) (by omega : 0 + rest ≤ rramLine)
      (fun i => source (length - rest + i))
    rw [Nat.add_zero, overlay_append, split] at merged
    rw [buffer]
    exact merged
  · rw [not_not.mp more, Nat.sub_zero]
    rfl

theorem rramWriteAligned_eq (cells : Cells) {dst : Nat} (source : Nat → UInt8) (length : Nat)
    (start : dst % rramLine = 0) :
    rramWriteAligned cells dst source length = some (overlay cells dst length source) := by
  obtain ⟨full, isFull⟩ : ∃ full, full = length / rramWriteBlockMaxSize := ⟨_, rfl⟩
  obtain ⟨rest, isRest⟩ : ∃ rest, rest = length % rramWriteBlockMaxSize := ⟨_, rfl⟩
  have split : full * rramWriteBlockMaxSize + rest = length := by
    rw [isFull, isRest]
    exact Nat.div_add_mod' _ _
  rw [rramWriteAligned, ← isFull, ← isRest]
  rw [rramFullBlocks_eq _ _ _ start, Option.bind_eq_bind, Option.bind_some]
  split_ifs with more
  · have next : (dst + full * rramWriteBlockMaxSize) % rramLine = 0 := by
      have multiple : full * rramWriteBlockMaxSize = 16 * (full * 1023) := by
        rw [rramWriteBlockMaxSize]
        omega
      rw [rramLine] at start ⊢
      omega
    rw [rramPartialBlock_eq _ _ _ next, overlay_append, split]
  · rw [not_not.mp more, Nat.add_zero] at split
    rw [split]
    rfl

/-- A write stores its data and nothing else, whatever its start and its length. -/
theorem rramWrite_eq (cells : Cells) (destination : Nat) (source : Nat → UInt8) (length : Nat) :
    rramWrite cells destination source length =
      some (overlay cells destination length source) := by
  rw [rramWrite]
  split_ifs with unaligned
  · rw [rramWriteUnaligned_eq, Option.bind_eq_bind, Option.bind_some]
    dsimp only
    rcases Nat.le_total length (16 - destination % 16) with short | long
    · rw [Nat.min_eq_right short, Nat.sub_self]
      -- Nothing is left behind the first line.
      have nothing : ∀ cells dst source, rramWriteAligned cells dst source 0 = some cells := by
        intro cells dst source
        rfl
      exact nothing _ _ _
    · have next : (destination + (16 - destination % 16)) % rramLine = 0 := by
        rw [rramLine]
        omega
      rw [Nat.min_eq_left long, rramWriteAligned_eq _ _ _ next, overlay_append,
        Nat.add_sub_cancel' long]
  · exact rramWriteAligned_eq cells source length (not_not.mp unaligned)

/-! ## The permission bit -/

/-- A call of `otp_rram_write`. -/
structure OtpCall where
  destination : UInt32
  source : Nat → UInt8
  length : UInt32

/-- Some calls, one after the other. -/
def otpRramWrites : Cells → List OtpCall → Option Cells
  | cells, [] => some cells
  | cells, call :: calls =>
      (otpRramWrite cells call.destination call.source call.length).bind fun (_, cells) =>
        otpRramWrites cells calls

/-- READ_PERMISSION_READ_WRITE_PERMISIONS is 0. -/
def Clear (cells : Cells) : Prop := cells permissionsAddress.toNat &&& permissionsMask = 0

instance (cells : Cells) : Decidable (Clear cells) :=
  inferInstanceAs (Decidable (_ = _))

/-- An accepted call that begins below the byte of the bit and has the bit set in its data. -/
def OtpCall.SetsBit (call : OtpCall) : Prop :=
  otpRramVerifyAddress call.destination call.length = true ∧
    call.destination < permissionsAddress ∧
    permissionsAddress.toNat < call.destination.toNat + call.length.toNat ∧
    call.source (permissionsAddress.toNat - call.destination.toNat) &&& permissionsMask ≠ 0

instance (call : OtpCall) : Decidable call.SetsBit :=
  inferInstanceAs (Decidable (_ ∧ _ ∧ _ ∧ _ ≠ _))

theorem masked_clear (byte : UInt8) : byte &&& ~~~permissionsMask &&& permissionsMask = 0 := by
  rw [UInt8.and_assoc, UInt8.not_and_self, UInt8.and_zero]

/-- One call keeps the bit clear unless it sets it. -/
theorem otpRramWrite_clear {cells : Cells} (clear : Clear cells) (call : OtpCall) :
    ∃ status after,
      otpRramWrite cells call.destination call.source call.length = some (status, after) ∧
        (Clear after ↔ ¬ call.SetsBit) := by
  rw [otpRramWrite]
  split_ifs with refused
  · refine ⟨_, cells, rfl, fun _ sets => ?_, fun _ => clear⟩
    have accepted := sets.1
    rw [refused] at accepted
    cases accepted
  · have accepted : otpRramVerifyAddress call.destination call.length = true := by
      simpa using refused
    refine ⟨0, _, by rw [rramWrite_eq]; rfl, ?_⟩
    rw [Clear, overlay]
    split_ifs with covered
    · by_cases here : call.destination = permissionsAddress
      · -- The write begins at the byte, and its first byte is masked.
        have first : permissionsAddress.toNat - call.destination.toNat = 0 := by
          rw [here, Nat.sub_self]
        have notBelow : ¬ call.SetsBit := fun sets => by
          have below := UInt32.lt_iff_toNat_lt.mp sets.2.1
          rw [here] at below
          exact Nat.lt_irrefl _ below
        rw [first, maskSource, if_pos ⟨here, rfl⟩]
        exact iff_of_true (masked_clear _) notBelow
      · have below : call.destination < permissionsAddress := by
          rw [UInt32.lt_iff_toNat_lt]
          have other : call.destination.toNat ≠ permissionsAddress.toNat := fun same =>
            here (UInt32.toNat_inj.mp same)
          omega
        rw [maskSource, if_neg fun both => here both.1]
        constructor
        · intro zero sets
          exact sets.2.2.2 zero
        · intro keeps
          by_contra set
          exact keeps ⟨accepted, below, covered.2, set⟩
    · refine ⟨fun _ sets => covered ⟨?_, sets.2.2.1⟩, fun _ => clear⟩
      exact Nat.le_of_lt (UInt32.lt_iff_toNat_lt.mp sets.2.1)

/-- The bit stays clear over some calls exactly if none of them sets it from below. -/
theorem permissions_clear_iff {cells : Cells} (clear : Clear cells) (calls : List OtpCall) :
    (∀ front, front <+: calls → ∃ after, otpRramWrites cells front = some after ∧ Clear after) ↔
      ∀ call ∈ calls, ¬ call.SetsBit := by
  induction calls generalizing cells with
  | nil =>
      constructor
      · intro _ call listed
        exact absurd listed List.not_mem_nil
      · intro _ front isPrefix
        rw [List.prefix_nil.mp isPrefix]
        exact ⟨cells, rfl, clear⟩
  | cons call calls ih =>
      obtain ⟨status, after, written, kept⟩ := otpRramWrite_clear clear call
      rw [List.forall_mem_cons]
      constructor
      · intro always
        obtain ⟨one, run, oneClear⟩ := always [call] (List.prefix_append [call] calls)
        rw [otpRramWrites, written, Option.bind_some] at run
        obtain rfl := Option.some.inj run
        refine ⟨kept.mp oneClear, (ih oneClear).mp fun front isPrefix => ?_⟩
        obtain ⟨last, run, lastClear⟩ :=
          always (call :: front) (List.cons_prefix_cons.mpr ⟨rfl, isPrefix⟩)
        rw [otpRramWrites, written, Option.bind_some] at run
        exact ⟨last, run, lastClear⟩
      · rintro ⟨keeps, later⟩ front isPrefix
        have afterClear := kept.mpr keeps
        cases front with
        | nil => exact ⟨cells, rfl, clear⟩
        | cons first front =>
            obtain ⟨rfl, rest⟩ := List.cons_prefix_cons.mp isPrefix
            rw [otpRramWrites, written, Option.bind_some]
            exact (ih afterClear).mpr later front rest

/-- A write of the word itself: its bit is masked. -/
theorem permissions_clear_word :
    Clear (fun _ => 0) ∧
      ∀ front, front <+: [⟨0x1A0030, fun _ => 0xFF, 4⟩] →
        ∃ after, otpRramWrites (fun _ => 0) front = some after ∧ Clear after := by
  have clear : Clear (fun _ => 0) := by decide
  have keeps : ∀ call ∈ [(⟨0x1A0030, fun _ => 0xFF, 4⟩ : OtpCall)], ¬ call.SetsBit := by
    intro call listed
    rw [List.mem_singleton] at listed
    rw [listed]
    decide
  exact ⟨clear, (permissions_clear_iff clear [⟨0x1A0030, fun _ => 0xFF, 4⟩]).mpr keeps⟩

/-- A write of the line around the word sets the bit. -/
theorem permissions_not_clear :
    Clear (fun _ => 0) ∧ otpRramVerifyAddress 0x1A0020 32 = true ∧
      ∃ after, otpRramWrites (fun _ => 0) [⟨0x1A0020, fun _ => 0xFF, 32⟩] = some after ∧
        ¬ Clear after := by
  refine ⟨by decide, by decide, Mem.overlay (fun _ => 0) 0x1A0020 32 fun _ => 0xFF, ?_, by decide⟩
  have masked : maskSource 0x1A0020 (fun _ => 0xFF) = fun _ => 0xFF := by
    funext i
    exact if_neg fun both => absurd both.1 (by decide)
  have accepted : ¬ otpRramVerifyAddress 0x1A0020 32 = false := by decide
  rw [otpRramWrites, otpRramWrite, if_neg accepted, rramWrite_eq, masked]
  rfl

end QHal.Nvm
