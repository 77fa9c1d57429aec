/-
Module: QHal.Proofs.DxeOrder
Purpose: The frames in the ring of a DXE channel, as long as the workaround for a
  stalled engine comes upon valid descriptors only: the engine owns the descriptors
  of the accepted frames it has not read, in their order, and no others.
Trusted boundary: none
Main exports: DxeCCB.Ordered, DxeCCB.Ordered.exec, DxeCCB.Ordered.engine,
  DxeCCB.Ordered.given
-/
import QHal.Proofs.DxeRing
import Mathlib.Data.List.Infix

namespace QHal.Dxe

/-- The frame that is in its descriptor but was not given to the engine. -/
def FramePc.pending : Option FramePc → Nat
  | some (.enable _) => 1
  | _ => 0

/-- The descriptors between the engine and the free head hold the accepted frames
that the engine has not read, and are valid; `armed` counts the frames that were
given to the engine. -/
structure DxeCCB.Ordered (ccb : DxeCCB) (pc : Option FramePc) (armed : Nat) : Prop where
  count : armed + FramePc.pending pc = ccb.accepted.length
  engine : ccb.enginePos = ccb.transferred.length % ccb.nDescs
  behind : ccb.transferred.length ≤ armed
  room : ccb.accepted.length ≤ ccb.transferred.length + ccb.nDescs
  order : ccb.transferred <+: ccb.accepted
  held : ∀ k transfer, ccb.transferred.length ≤ k → k < armed →
    ccb.accepted[k]? = some transfer →
    (ccb.desc (k % ccb.nDescs)).valid = true ∧ (ccb.desc (k % ccb.nDescs)).transfer = transfer
  empty : ∀ k, armed ≤ k → k < ccb.transferred.length + ccb.nDescs →
    (ccb.desc (k % ccb.nDescs)).valid = false
  fill : pc = some .fill → ccb.accepted.length < ccb.transferred.length + ccb.nDescs
  enable : ∀ pos, pc = some (.enable pos) → pos = armed % ccb.nDescs ∧
    ccb.accepted[armed]? = some (ccb.desc pos).transfer
  war : ∀ i pos, pc ≠ some (.warSet i pos)

section Ordered

variable {ccb : DxeCCB} {pc : Option FramePc} {args : FrameArgs} {armed : Nat}

/-- The call goes on to an access that is not one of those it keeps facts for. -/
theorem DxeCCB.Ordered.goto (ordered : ccb.Ordered pc armed) {pc' : Option FramePc}
    (pending : FramePc.pending pc' = FramePc.pending pc)
    (fill : pc' = some .fill → ccb.accepted.length < ccb.transferred.length + ccb.nDescs)
    (enable : ∀ pos, pc' ≠ some (.enable pos)) (war : ∀ i pos, pc' ≠ some (.warSet i pos)) :
    ccb.Ordered pc' armed :=
  { ordered with
    count := by rw [pending]; exact ordered.count
    fill := fill
    enable := fun pos isEnable => absurd isEnable (enable pos)
    war := war }

/-- A free head that is not valid leaves room for a frame. -/
theorem DxeCCB.Ordered.room_of_invalid (ordered : ccb.Ordered (some .readCtrl) armed)
    (staged : ccb.Staged pc) (invalid : (ccb.desc ccb.pRingFreeHead).valid = false) :
    ccb.accepted.length < ccb.transferred.length + ccb.nDescs := by
  have positive := staged.count_pos
  have all : armed = ccb.accepted.length := ordered.count
  apply Nat.lt_of_le_of_ne ordered.room
  intro full
  -- The ring is full: the free head is the oldest frame the engine has not read.
  have below : ccb.transferred.length < ccb.accepted.length := by omega
  have oldest := ordered.held ccb.transferred.length _ (Nat.le_refl _) (by omega)
    (List.getElem?_eq_getElem below)
  rw [staged.head, full, Nat.add_mod_right, oldest.1] at invalid
  cases invalid

theorem fill_accepted_old (ccb : DxeCCB) (args : FrameArgs) {k : Nat}
    (old : k < ccb.accepted.length) : (ccb.fill args).accepted[k]? = ccb.accepted[k]? :=
  List.getElem?_append_left old

theorem DxeCCB.Ordered.fill_step (ordered : ccb.Ordered (some .fill) armed)
    (staged : ccb.Staged pc) :
    (ccb.fill args).Ordered (some (.enable ccb.pRingFreeHead)) armed := by
  have all : armed = ccb.accepted.length := ordered.count
  have space := ordered.fill rfl
  exact {
    count := by
      rw [fill_accepted_length, all]
      rfl
    engine := ordered.engine
    behind := ordered.behind
    room := by
      rw [fill_accepted_length]
      exact space
    order := ordered.order.trans (List.prefix_append _ _)
    held := by
      intro k transfer from_ below isTransfer
      have from' : ccb.transferred.length ≤ k := from_
      have other : k % ccb.nDescs ≠ ccb.pRingFreeHead := by
        rw [staged.head]
        exact Circular.index_ne (by omega) (by omega)
      rw [fill_accepted_old ccb args (by omega)] at isTransfer
      have old := ordered.held k transfer from' below isTransfer
      rw [← fill_desc_other ccb args other] at old
      exact old
    empty := by
      intro k from_ below
      rw [fill_valid]
      exact ordered.empty k from_ below
    fill := nofun
    enable := by
      rintro pos ⟨⟩
      refine ⟨?_, ?_⟩
      · rw [staged.head, all]
        rfl
      · rw [fill_desc_head, all]
        exact List.getElem?_concat_length
    war := nofun }

theorem DxeCCB.Ordered.enable_step {pos : Nat} (ordered : ccb.Ordered (some (.enable pos)) armed)
    (staged : ccb.Staged pc) : (ccb.ndxeEnableDxeDesc pos).Ordered none (armed + 1) := by
  obtain ⟨isPos, isFrame⟩ := ordered.enable pos rfl
  have all : armed + 1 = ccb.accepted.length := ordered.count
  have room := ordered.room
  have behind := ordered.behind
  have self : ((ccb.ndxeEnableDxeDesc pos).desc pos).valid = true :=
    (setCtrl_valid_self ccb pos _).trans staged.cwValid
  have others : ∀ {k}, k % ccb.nDescs ≠ pos →
      ((ccb.ndxeEnableDxeDesc pos).desc (k % ccb.nDescs)).valid =
        (ccb.desc (k % ccb.nDescs)).valid :=
    fun other => setCtrl_valid_other ccb pos _ _ other
  have transfers : ∀ j, ((ccb.ndxeEnableDxeDesc pos).desc j).transfer = (ccb.desc j).transfer :=
    fun j => setCtrl_transfer ccb pos j _
  exact {
    count := all
    engine := ordered.engine
    behind := Nat.le_succ_of_le behind
    room := room
    order := ordered.order
    held := by
      intro k transfer from_ below isTransfer
      have count : (ccb.ndxeEnableDxeDesc pos).nDescs = ccb.nDescs := rfl
      rw [count, transfers]
      by_cases last : k = armed
      · subst last
        rw [← isPos]
        refine ⟨self, ?_⟩
        exact Option.some_inj.mp (isFrame.symm.trans isTransfer)
      · have from' : ccb.transferred.length ≤ k := from_
        have other : k % ccb.nDescs ≠ pos := by
          rw [isPos]
          exact Circular.index_ne (by omega) (by omega)
        rw [others other]
        exact ordered.held k transfer from' (by omega) isTransfer
    empty := by
      intro k from_ below
      have below' : k < ccb.transferred.length + ccb.nDescs := below
      have other : k % ccb.nDescs ≠ pos := by
        rw [isPos]
        exact (Circular.index_ne (by omega) (by omega)).symm
      exact (others other).trans (ordered.empty k (by omega) below')
    fill := nofun
    enable := nofun
    war := nofun }

/-- The workaround reads a valid descriptor. -/
def DxeCCB.WarFindsValid (ccb : DxeCCB) : FramePc → Prop
  | .warRead i pos => i < ccb.nDescs → (ccb.desc pos).valid = true
  | _ => True

/-- Every access of the call keeps the order, unless the workaround finds a
descriptor that is not valid. -/
theorem DxeCCB.Ordered.exec {current : FramePc} {after : DxeCCB} {pc' : Option FramePc}
    (ordered : ccb.Ordered (some current) armed) (staged : ccb.Staged (some current))
    (finds : ccb.WarFindsValid current) (moves : FrameMoves ccb args current after pc') :
    ∃ armed', after.Ordered pc' armed' := by
  cases moves with
  | refused valid => exact ⟨armed, ordered.goto rfl nofun nofun nofun⟩
  | stalled valid => exact ⟨armed, ordered.goto rfl nofun nofun nofun⟩
  | free invalid =>
      exact ⟨armed, ordered.goto rfl (fun _ => ordered.room_of_invalid staged invalid) nofun
        nofun⟩
  | fill => exact ⟨armed, ordered.fill_step staged⟩
  | enable pos => exact ⟨armed + 1, ordered.enable_step staged⟩
  | skip => exact ⟨armed, ordered.goto rfl nofun nofun nofun⟩
  | walk => exact ⟨armed, ordered.goto rfl nofun nofun nofun⟩
  | kept i pos valid => exact ⟨armed, ordered.goto rfl nofun nofun nofun⟩
  | found i pos below invalid =>
      have valid := finds below
      rw [invalid] at valid
      cases valid
  | walked i pos => exact ⟨armed, ordered.goto rfl nofun nofun nofun⟩
  | set i pos => exact absurd rfl (ordered.war i pos)
  | finish => exact ⟨armed, ordered.goto rfl nofun nofun nofun⟩

/-- A valid descriptor at the engine's place: not all given frames are read. -/
theorem DxeCCB.Ordered.ahead_of_valid (ordered : ccb.Ordered pc armed) (staged : ccb.Staged pc)
    (valid : (ccb.desc ccb.enginePos).valid = true) : ccb.transferred.length < armed := by
  have positive := staged.count_pos
  apply Nat.lt_of_le_of_ne ordered.behind
  intro same
  have invalid := ordered.empty ccb.transferred.length (Nat.le_of_eq same.symm) (by omega)
  rw [← ordered.engine, valid] at invalid
  cases invalid

/-- The descriptor at the engine's place holds the oldest frame that is not read. -/
theorem DxeCCB.Ordered.oldest (ordered : ccb.Ordered pc armed)
    (ahead : ccb.transferred.length < armed) {transfer : Transfer}
    (isNext : ccb.accepted[ccb.transferred.length]? = some transfer) :
    (ccb.desc ccb.enginePos).transfer = transfer := by
  rw [ordered.engine]
  exact (ordered.held ccb.transferred.length transfer (Nat.le_refl _) ahead isNext).2

/-- The engine reads the oldest frame it has not read. -/
theorem DxeCCB.Ordered.engine_step (ordered : ccb.Ordered pc armed) (staged : ccb.Staged pc)
    {after : DxeCCB} (stepped : ccb.engine = some after) : after.Ordered pc armed := by
  obtain ⟨valid, rfl⟩ := engine_cases stepped
  have count := ordered.count
  have enginePos := ordered.engine
  have ahead := ordered.ahead_of_valid staged valid
  have below : ccb.transferred.length < ccb.accepted.length := by omega
  have others : ∀ {k}, k % ccb.nDescs ≠ ccb.enginePos →
      ((ccb.setCtrl ccb.enginePos ((ccb.desc ccb.enginePos).ctrl &&& ~~~ntDxeDescCtrlValid)).desc
        (k % ccb.nDescs)).valid = (ccb.desc (k % ccb.nDescs)).valid :=
    fun other => setCtrl_valid_other ccb _ _ _ other
  have length : (ccb.transferred ++ [(ccb.desc ccb.enginePos).transfer]).length =
      ccb.transferred.length + 1 := List.length_append ..
  exact {
    count := count
    engine := by
      show ccb.next ccb.enginePos = _ % ccb.nDescs
      rw [length, enginePos]
      exact Circular.index_next _ _
    behind := by
      rw [length]
      exact ahead
    room := by
      have room := ordered.room
      rw [length]
      show ccb.accepted.length ≤ ccb.transferred.length + 1 + ccb.nDescs
      omega
    order := by
      rw [ordered.oldest ahead (List.getElem?_eq_getElem below)]
      exact List.concat_get_prefix ordered.order below
    held := by
      intro k transfer from_ below isTransfer
      rw [length] at from_
      have room := ordered.room
      have other : k % ccb.nDescs ≠ ccb.enginePos := by
        rw [enginePos]
        exact (Circular.index_ne (by omega) (by omega)).symm
      obtain ⟨isValid, isFrame⟩ := ordered.held k transfer (by omega) below isTransfer
      exact ⟨(others other).trans isValid, (setCtrl_transfer ccb _ _ _).trans isFrame⟩
    empty := by
      intro k from_ below
      rw [length] at below
      by_cases same : k % ccb.nDescs = ccb.enginePos
      · show ((ccb.setCtrl ccb.enginePos _).desc (k % ccb.nDescs)).valid = false
        rw [same, setCtrl_valid_self]
        exact valid_clear _
      · refine (others same).trans (ordered.empty k from_ ?_)
        have notLast : k ≠ ccb.transferred.length + ccb.nDescs := by
          rintro rfl
          apply same
          rw [Nat.add_mod_right, enginePos]
        have below' : k < ccb.transferred.length + 1 + ccb.nDescs := below
        omega
    fill := by
      intro isFill
      have room := ordered.fill isFill
      rw [length]
      show ccb.accepted.length < ccb.transferred.length + 1 + ccb.nDescs
      omega
    enable := by
      intro pos isEnable
      obtain ⟨isPos, isFrame⟩ := ordered.enable pos isEnable
      exact ⟨isPos, isFrame.trans (congrArg _ (setCtrl_transfer ccb _ _ _).symm)⟩
    war := ordered.war }

/-- A valid descriptor holds an accepted frame that the engine has not read. -/
theorem DxeCCB.Ordered.given (ordered : ccb.Ordered pc armed) {pos : Nat}
    (below : pos < ccb.nDescs) (valid : (ccb.desc pos).valid = true) :
    ∃ k, ccb.transferred.length ≤ k ∧ k % ccb.nDescs = pos ∧
      ccb.accepted[k]? = some (ccb.desc pos).transfer := by
  obtain ⟨k, from_, near, rfl⟩ := Circular.exists_index ccb.transferred.length below
  have count := ordered.count
  by_cases filled : k < armed
  · have isFrame := List.getElem?_eq_getElem (l := ccb.accepted) (i := k) (by omega)
    have same := (ordered.held k _ from_ filled isFrame).2
    exact ⟨k, from_, rfl, by rw [same]; exact isFrame⟩
  · have invalid := ordered.empty k (by omega) near
    rw [valid] at invalid
    cases invalid

end Ordered

end QHal.Dxe
