/-
Module: QHal.Proofs.FpciDispatch
Purpose: The callback table against what is registered: after every run whose
  de-registrations name something registered, the dispatch of an event calls the
  callbacks registered for it, each once and by priority.
Trusted boundary: none
Main exports: Registry, FpciRun, FpciRun.step, FpciRun.Named, Tracks, Tracks.step,
  dispatch_registered
-/
import Mathlib.Data.List.Perm.Lattice
import Mathlib.Data.Nat.Basic
import Mathlib.Logic.Function.Basic
import QHal.Fpci.CbInfra
import QHal.Lib.Runs

namespace QHal.Fpci

/-! ## What is registered -/

/-- What a callback is registered with. -/
structure Registration where
  mask : UInt16
  priority : UInt8
  args : UInt32
deriving Repr, DecidableEq

/-- The registered callbacks. -/
abbrev Registry := UInt32 → Option Registration

/-- A registration adds its events to those of the callback. -/
def Registry.register (registry : Registry) (cb : UInt32) (mask : UInt16) (priority : UInt8)
    (args : UInt32) : Registry :=
  Function.update registry cb (some
    { mask := ((registry cb).map Registration.mask).getD 0 ||| mask
      priority := priority
      args := args })

/-- A de-registration takes events away, and the callback with its last event. -/
def Registry.deregister (registry : Registry) (cb : UInt32) (mask : UInt16) : Registry :=
  match registry cb with
  | none => registry
  | some held =>
      Function.update registry cb
        (if held.mask &&& ~~~mask = 0 then none
        else some { held with mask := held.mask &&& ~~~mask })

inductive FpciCall where
  | reg (cb : UInt32) (evtRegMask : UInt16) (priority : UInt8) (pArgs : UInt32)
  | dereg (cb : UInt32) (evtRegMask : UInt16)
deriving Repr, DecidableEq

/-- The table, and what the successful calls registered. -/
structure FpciRun where
  fpci : EventBin
  registry : Registry

namespace FpciRun

def start : FpciRun where
  fpci := EventBin.start
  registry := fun _ => none

/-- One call; a call that returns FPCI_ERR registers nothing. -/
def step (run : FpciRun) : FpciCall → Option FpciRun
  | .reg cb evtRegMask priority pArgs =>
      let (fpci, result) := fpciEvtCbReg run.fpci cb evtRegMask priority pArgs
      some { fpci := fpci
             registry :=
              if result = .success then run.registry.register cb evtRegMask priority pArgs
              else run.registry }
  | .dereg cb evtRegMask =>
      (fpciEvtCbDereg run.fpci cb evtRegMask).map fun (fpci, result) =>
        { fpci := fpci
          registry :=
            if result = .success then run.registry.deregister cb evtRegMask else run.registry }

/-- A de-registration that passes its checks names a callback that is registered for
one of the events it names. -/
def Named (run : FpciRun) : FpciCall → Prop
  | .reg _ _ _ _ => True
  | .dereg cb evtRegMask =>
      cb = 0 ∨ ¬ evtRegMask.toNat < pwrEvtWmacMax ∨
        (run.registry cb).any (fun held => held.mask &&& evtRegMask != 0) = true

instance (run : FpciRun) (call : FpciCall) : Decidable (run.Named call) :=
  match call with
  | .reg _ _ _ _ => inferInstanceAs (Decidable True)
  | .dereg _ _ => inferInstanceAs (Decidable (_ ∨ _))

end FpciRun

/-! ## Sorting the table -/

/-- The order of the table. -/
def ByPriority (slots : List PwrEvtReg) : Prop :=
  slots.Pairwise fun first second => second.priority.toNat ≤ first.priority.toNat

theorem swapsDescending_descends :
    BubbleSort.Descends swapsDescending fun slot => slot.priority.toNat := by
  intro first second
  constructor
  · intro swaps
    have ordered : first.priority ≤ second.priority := by simpa [swapsDescending] using swaps
    exact UInt8.le_iff_toNat_le.mp ordered
  · intro keeps
    have larger : second.priority < first.priority := by simpa [swapsDescending] using keeps
    exact Nat.le_of_lt (UInt8.lt_iff_toNat_lt.mp larger)

/-- In a sorted table the slots with a priority stand in front of those without. -/
theorem ByPriority.split {slots : List PwrEvtReg} (sorted : ByPriority slots) :
    slots = slots.filter (fun slot => 0 < slot.priority.toNat) ++
      slots.filter fun slot => ¬ 0 < slot.priority.toNat := by
  induction slots with
  | nil => rfl
  | cons slot slots ih =>
      obtain ⟨bound, rest⟩ := List.pairwise_cons.mp sorted
      by_cases positive : 0 < slot.priority.toNat
      · rw [List.filter_cons_of_pos (by simpa using positive),
          List.filter_cons_of_neg (by simpa using Nat.pos_iff_ne_zero.mp positive),
          List.cons_append, ← ih rest]
      · have none : slots.filter (fun slot => 0 < slot.priority.toNat) = [] := by
          refine List.filter_eq_nil_iff.mpr fun other member => ?_
          have small := bound other member
          simp only [decide_eq_true_eq]
          omega
        have all : slots.filter (fun slot => ¬ 0 < slot.priority.toNat) = slots := by
          have whole := ih rest
          rw [none, List.nil_append] at whole
          exact whole.symm
        rw [List.filter_cons_of_neg (by simpa using positive),
          List.filter_cons_of_pos (by simpa using positive), none, all, List.nil_append]

/-- Sorting moves the cleared slots behind the others. -/
theorem sortBubble_compact {slots live : List PwrEvtReg} {free : Nat}
    (perm : slots.Perm (live ++ List.replicate free PwrEvtReg.empty))
    (positive : ∀ slot ∈ live, 0 < slot.priority.toNat) :
    ∃ sorted, sortBubble slots = sorted ++ List.replicate free PwrEvtReg.empty ∧
      sorted.Perm live ∧ ByPriority sorted := by
  have sorted : ByPriority (sortBubble slots) :=
    BubbleSort.sort_sorted swapsDescending_descends slots
  have same := (BubbleSort.sort_perm swapsDescending slots).trans perm
  have front := same.filter fun slot => 0 < slot.priority.toNat
  have back := same.filter fun slot => ¬ 0 < slot.priority.toNat
  have liveAll : live.filter (fun slot => 0 < slot.priority.toNat) = live :=
    List.filter_eq_self.mpr fun slot member => by simpa using positive slot member
  have liveNone : live.filter (fun slot => ¬ 0 < slot.priority.toNat) = [] :=
    List.filter_eq_nil_iff.mpr fun slot member => by
      simpa using Nat.pos_iff_ne_zero.mp (positive slot member)
  have freeNone : (List.replicate free PwrEvtReg.empty).filter
      (fun slot => 0 < slot.priority.toNat) = [] :=
    List.filter_eq_nil_iff.mpr fun slot member => by
      rw [List.eq_of_mem_replicate member]
      decide
  have freeAll : (List.replicate free PwrEvtReg.empty).filter
      (fun slot => ¬ 0 < slot.priority.toNat) = List.replicate free PwrEvtReg.empty :=
    List.filter_eq_self.mpr fun slot member => by
      rw [List.eq_of_mem_replicate member]
      decide
  rw [List.filter_append, liveAll, freeNone, List.append_nil] at front
  rw [List.filter_append, liveNone, freeAll, List.nil_append] at back
  refine ⟨_, ?_, front, sorted.sublist List.filter_sublist⟩
  rw [← List.perm_replicate.mp back]
  exact sorted.split

/-! ## The table and the registry -/

/-- The used slots of a table, with the cleared ones behind them. -/
structure Holds (fpci : EventBin) (live : List PwrEvtReg) : Prop where
  bin : fpci.eventBin = live ++ List.replicate (fpciMaxReg - live.length) PwrEvtReg.empty
  ctr : fpci.eventBinCtr.toNat = live.length
  room : live.length < fpciMaxReg

/-- The slot of a registration. -/
def Registration.slot (cb : UInt32) (held : Registration) : PwrEvtReg :=
  { evtMask := held.mask, priority := held.priority, evtCb := cb, pArgs := held.args }

/-- The used slots against the registry. -/
structure Lists (live : List PwrEvtReg) (registry : Registry) : Prop where
  distinct : (live.map PwrEvtReg.evtCb).Nodup
  valid : ∀ slot ∈ live, slot.evtCb ≠ 0 ∧ 0 < slot.priority.toNat
  same : ∀ slot, slot ∈ live ↔ ∃ held, registry slot.evtCb = some held ∧
    slot = held.slot slot.evtCb

/-- The table holds what is registered, by priority. -/
def Tracks (run : FpciRun) : Prop :=
  ∃ live, Holds run.fpci live ∧ Lists live run.registry ∧ ByPriority live

theorem Lists.perm {live sorted : List PwrEvtReg} {registry : Registry} (perm : sorted.Perm live)
    (lists : Lists live registry) : Lists sorted registry where
  distinct := (perm.map PwrEvtReg.evtCb).nodup_iff.mpr lists.distinct
  valid := fun slot member => lists.valid slot (perm.mem_iff.mp member)
  same := fun slot => perm.mem_iff.trans (lists.same slot)

theorem Holds.used {fpci : EventBin} {live : List PwrEvtReg} (holds : Holds fpci live) :
    fpci.used = live := by
  rw [EventBin.used, holds.bin, holds.ctr, List.take_left']
  rfl

/-- A search over the used slots: the first match, or the first free slot. -/
theorem findIdx_cases (test : PwrEvtReg → Bool) (live : List PwrEvtReg) :
    (∃ before slot after, live = before ++ slot :: after ∧ test slot = true ∧
        live.findIdx test = before.length) ∨
      (∀ slot ∈ live, test slot = false) ∧ live.findIdx test = live.length := by
  induction live with
  | nil => exact Or.inr ⟨nofun, rfl⟩
  | cons head live ih =>
      cases hit : test head with
      | true => exact Or.inl ⟨[], head, live, rfl, hit, by rw [List.findIdx_cons, hit]; rfl⟩
      | false =>
          rw [List.findIdx_cons, hit, cond_false]
          rcases ih with ⟨before, slot, after, split, found, index⟩ | ⟨none, index⟩
          · exact Or.inl ⟨head :: before, slot, after, by rw [split]; rfl, found, by
              rw [index]
              rfl⟩
          · refine Or.inr ⟨fun slot member => ?_, by rw [index]; rfl⟩
            rcases List.mem_cons.mp member with first | later
            · rw [first]
              exact hit
            · exact none slot later

theorem modify_middle (before after : List PwrEvtReg) (slot : PwrEvtReg)
    (change : PwrEvtReg → PwrEvtReg) :
    (before ++ slot :: after).modify before.length change = before ++ change slot :: after := by
  induction before with
  | nil => rfl
  | cons head before ih => exact congrArg (head :: ·) ih

theorem Lists.registered {live : List PwrEvtReg} {registry : Registry} (lists : Lists live registry)
    {slot : PwrEvtReg} (member : slot ∈ live) :
    ∃ held, registry slot.evtCb = some held ∧ slot = held.slot slot.evtCb :=
  (lists.same slot).mp member

theorem Lists.slot_mem {live : List PwrEvtReg} {registry : Registry} (lists : Lists live registry)
    {cb : UInt32} {held : Registration} (registered : registry cb = some held) :
    held.slot cb ∈ live :=
  (lists.same _).mpr ⟨held, registered, rfl⟩

/-- A callback without a slot gets one. -/
theorem Lists.insert {live : List PwrEvtReg} {registry : Registry} (lists : Lists live registry)
    {cb : UInt32} (held : Registration) (fresh : ∀ slot ∈ live, slot.evtCb ≠ cb) (known : cb ≠ 0)
    (positive : 0 < held.priority.toNat) :
    Lists (held.slot cb :: live) (Function.update registry cb (some held)) where
  distinct := by
    refine List.nodup_cons.mpr ⟨fun member => ?_, lists.distinct⟩
    obtain ⟨slot, listed, own⟩ := List.mem_map.mp member
    exact fresh slot listed own
  valid := by
    intro slot member
    rcases List.mem_cons.mp member with first | later
    · rw [first]
      exact ⟨known, positive⟩
    · exact lists.valid slot later
  same := by
    intro slot
    by_cases own : slot.evtCb = cb
    · rw [own, Function.update_self, List.mem_cons]
      constructor
      · rintro (first | later)
        · exact ⟨held, rfl, first⟩
        · exact absurd own (fresh slot later)
      · rintro ⟨other, equal, result⟩
        rw [Option.some.inj equal]
        exact Or.inl result
    · rw [Function.update_of_ne own, List.mem_cons, ← lists.same slot]
      refine or_iff_right fun first => own ?_
      rw [first]
      rfl

/-- The slot of a callback goes. -/
theorem Lists.remove {before after : List PwrEvtReg} {slot : PwrEvtReg} {registry : Registry}
    (lists : Lists (before ++ slot :: after) registry) :
    Lists (before ++ after) (Function.update registry slot.evtCb none) ∧
      ∀ other ∈ before ++ after, other.evtCb ≠ slot.evtCb := by
  have moved : Lists (slot :: (before ++ after)) registry := lists.perm List.perm_middle.symm
  obtain ⟨absent, rest⟩ := List.nodup_cons.mp moved.distinct
  have apart : ∀ other ∈ before ++ after, other.evtCb ≠ slot.evtCb := fun other member same =>
    absent (List.mem_map.mpr ⟨other, member, same⟩)
  refine ⟨⟨rest, fun other member => moved.valid other (List.mem_cons_of_mem _ member), ?_⟩, apart⟩
  intro other
  by_cases own : other.evtCb = slot.evtCb
  · rw [own, Function.update_self]
    refine iff_of_false (fun member => apart other member own) ?_
    rintro ⟨held, none, -⟩
    cases none
  · rw [Function.update_of_ne own, ← moved.same other, List.mem_cons]
    refine (or_iff_right fun first => own ?_).symm
    rw [first]

/-- The slot of a callback is written anew. -/
theorem Lists.replace {before after : List PwrEvtReg} {slot : PwrEvtReg} {registry : Registry}
    (lists : Lists (before ++ slot :: after) registry) (held : Registration)
    (positive : 0 < held.priority.toNat) :
    Lists (before ++ held.slot slot.evtCb :: after)
      (Function.update registry slot.evtCb (some held)) := by
  obtain ⟨removed, apart⟩ := lists.remove
  have known := (lists.valid slot (List.mem_append_right _ List.mem_cons_self)).1
  have inserted := removed.insert held apart known positive
  rw [Function.update_idem] at inserted
  exact inserted.perm List.perm_middle

/-- A table that was sorted again. -/
theorem Tracks.of_sorted {fpci : EventBin} {slots live : List PwrEvtReg} {registry : Registry}
    (bin : fpci.eventBin = sortBubble slots)
    (perm : slots.Perm (live ++ List.replicate (fpciMaxReg - live.length) PwrEvtReg.empty))
    (ctr : fpci.eventBinCtr.toNat = live.length) (room : live.length < fpciMaxReg)
    (lists : Lists live registry) : Tracks { fpci := fpci, registry := registry } := by
  obtain ⟨sorted, result, same, ordered⟩ :=
    sortBubble_compact perm fun slot member => (lists.valid slot member).2
  refine ⟨sorted, ⟨?_, ?_, ?_⟩, lists.perm same, ordered⟩
  · rw [same.length_eq]
    exact bin.trans result
  · rw [same.length_eq]
    exact ctr
  · rw [same.length_eq]
    exact room

/-! ## Registration -/

/-- A registration that passes its checks. -/
theorem Tracks.register {run : FpciRun} (tracks : Tracks run) {cb : UInt32} {evtRegMask : UInt16}
    {priority : UInt8} (pArgs : UInt32) (known : cb ≠ 0)
    (event : evtRegMask.toNat < pwrEvtWmacMax)
    (room : run.fpci.eventBinCtr.toNat < fpciMaxReg - 1) (positive : fpciMinPrior < priority) :
    (fpciEvtCbReg run.fpci cb evtRegMask priority pArgs).2 = .success ∧
      Tracks { fpci := (fpciEvtCbReg run.fpci cb evtRegMask priority pArgs).1
               registry := run.registry.register cb evtRegMask priority pArgs } := by
  obtain ⟨live, holds, lists, -⟩ := tracks
  have positiveNat : 0 < priority.toNat := UInt8.lt_iff_toNat_lt.mp positive
  simp only [fpciEvtCbReg]
  rw [if_neg known, if_neg (not_not.mpr event), if_neg (not_not.mpr room),
    if_neg (not_not.mpr positive)]
  refine ⟨rfl, ?_⟩
  rw [holds.ctr] at room
  rcases findIdx_cases (fun slot => slot.evtCb == cb) live with
    ⟨before, slot, after, split, found, index⟩ | ⟨absent, index⟩
  · have own : slot.evtCb = cb := by simpa using found
    have member : slot ∈ live := by
      rw [split]
      exact List.mem_append_right _ List.mem_cons_self
    obtain ⟨held, registered, slotEq⟩ := lists.registered member
    have mask : slot.evtMask = held.mask := by
      rw [slotEq]
      rfl
    have length : live.length = (before ++ slot :: after).length := congrArg List.length split
    have shorter : before.length ≠ live.length := by
      rw [length, List.length_append, List.length_cons]
      omega
    rw [split] at lists
    have written := lists.replace { mask := held.mask ||| evtRegMask
                                    priority := priority
                                    args := pArgs } positiveNat
    rw [own] at registered written
    have registry : run.registry.register cb evtRegMask priority pArgs =
        Function.update run.registry cb (some { mask := held.mask ||| evtRegMask
                                                priority := priority
                                                args := pArgs }) := by
      rw [Registry.register, registered]
      rfl
    rw [registry]
    refine Tracks.of_sorted rfl ?_ ?_ ?_ written
    · rw [holds.used, index, holds.bin, length]
      nth_rewrite 1 [split]
      rw [List.append_assoc, List.cons_append, modify_middle, mask]
      simp [Registration.slot]
    · show (if _ then _ else _ : UInt32).toNat = _
      rw [holds.used, index, holds.ctr, if_neg shorter, holds.ctr, length]
      simp
    · simp only [List.length_append, List.length_cons] at length ⊢
      omega
  · have fresh : ∀ slot ∈ live, slot.evtCb ≠ cb := fun slot member => by
      simpa using absent slot member
    have unregistered : run.registry cb = none := by
      cases registered : run.registry cb with
      | none => rfl
      | some held => exact absurd rfl (fresh _ (lists.slot_mem registered))
    have inserted := lists.insert { mask := 0 ||| evtRegMask
                                    priority := priority
                                    args := pArgs } fresh known positiveNat
    have registry : run.registry.register cb evtRegMask priority pArgs =
        Function.update run.registry cb (some { mask := 0 ||| evtRegMask
                                                priority := priority
                                                args := pArgs }) := by
      rw [Registry.register, unregistered]
      rfl
    have free : fpciMaxReg - live.length = fpciMaxReg - (live.length + 1) + 1 := by omega
    rw [registry]
    refine Tracks.of_sorted rfl ?_ ?_ ?_ inserted
    · rw [holds.used, index, holds.bin, free, List.replicate_succ, modify_middle,
        List.length_cons]
      exact List.perm_middle
    · show (if _ then _ else _ : UInt32).toNat = _
      rw [holds.used, index, if_pos holds.ctr.symm, UInt32.toNat_add, holds.ctr, List.length_cons,
        show (1 : UInt32).toNat = 1 from rfl]
      exact Nat.mod_eq_of_lt (by unfold fpciMaxReg at room; omega)
    · rw [List.length_cons]
      omega

/-! ## De-registration -/

/-- A de-registration that names something registered. -/
theorem Tracks.deregister {run : FpciRun} (tracks : Tracks run) {cb : UInt32}
    {evtRegMask : UInt16} (known : cb ≠ 0) (event : evtRegMask.toNat < pwrEvtWmacMax)
    {held : Registration} (registered : run.registry cb = some held)
    (overlaps : held.mask &&& evtRegMask ≠ 0) :
    ∃ fpci, fpciEvtCbDereg run.fpci cb evtRegMask = some (fpci, .success) ∧
      Tracks { fpci := fpci, registry := run.registry.deregister cb evtRegMask } := by
  obtain ⟨live, holds, lists, ordered⟩ := tracks
  -- The search finds the callback's own slot.
  have hit : ∃ before after, live = before ++ held.slot cb :: after ∧
      live.findIdx (fun slot => slot.evtCb == cb && slot.evtMask &&& evtRegMask != 0) =
        before.length := by
    rcases findIdx_cases (fun slot => slot.evtCb == cb && slot.evtMask &&& evtRegMask != 0) live
      with ⟨before, slot, after, split, found, index⟩ | ⟨absent, -⟩
    · have own : slot.evtCb = cb := by simp_all
      have member : slot ∈ live := by
        rw [split]
        exact List.mem_append_right _ List.mem_cons_self
      obtain ⟨other, otherRegistered, slotEq⟩ := lists.registered member
      rw [own, registered] at otherRegistered
      rw [own, ← Option.some.inj otherRegistered] at slotEq
      rw [← slotEq]
      exact ⟨before, after, split, index⟩
    · have missed := absent _ (lists.slot_mem registered)
      simp [Registration.slot, overlaps] at missed
  obtain ⟨before, after, split, index⟩ := hit
  have length : live.length = before.length + after.length + 1 := by
    rw [split, List.length_append, List.length_cons]
    omega
  have inside : before.length < live.length := by omega
  rw [split] at lists ordered
  have positive := (lists.valid (held.slot cb)
    (List.mem_append_right _ List.mem_cons_self)).2
  have masked : (if before.length < live.length then
        run.fpci.eventBin.modify before.length fun slot =>
          { slot with evtMask := slot.evtMask &&& ~~~evtRegMask }
      else run.fpci.eventBin) =
      before ++ { held with mask := held.mask &&& ~~~evtRegMask }.slot cb ::
        (after ++ List.replicate (fpciMaxReg - live.length) PwrEvtReg.empty) := by
    rw [if_pos inside, holds.bin]
    nth_rewrite 1 [split]
    rw [List.append_assoc, List.cons_append, modify_middle]
    rfl
  simp only [fpciEvtCbDereg]
  rw [if_neg known, if_neg (not_not.mpr event)]
  simp only [holds.used, index, holds.ctr]
  have place : (before ++ { held with mask := held.mask &&& ~~~evtRegMask }.slot cb ::
      (after ++ List.replicate (fpciMaxReg - live.length) PwrEvtReg.empty))[before.length]? =
      some ({ held with mask := held.mask &&& ~~~evtRegMask }.slot cb) := by
    rw [List.getElem?_append_right (le_refl _), Nat.sub_self]
    rfl
  split
  case h_1 none =>
    rw [masked, place] at none
    cases none
  case h_2 slot found =>
    rw [masked, place] at found
    rw [← Option.some.inj found]
    by_cases gone : held.mask &&& ~~~evtRegMask = 0
    · refine ⟨_, if_pos gone, ?_⟩
      have registry : run.registry.deregister cb evtRegMask =
          Function.update run.registry cb none := by
        simp only [Registry.deregister, registered]
        rw [if_pos gone]
      rw [registry]
      have rest : (before ++ after).length + 1 = live.length := by
        rw [List.length_append]
        omega
      have free : fpciMaxReg - (before ++ after).length = fpciMaxReg - live.length + 1 := by
        have room := holds.room
        omega
      refine Tracks.of_sorted rfl ?_ ?_ ?_ lists.remove.1
      · rw [masked, List.set_append_right _ _ (le_refl _), Nat.sub_self, List.set_cons_zero, free,
          List.replicate_succ]
        refine List.perm_middle.trans ?_
        rw [← List.append_assoc]
        exact List.perm_middle.symm
      · have one : (1 : UInt32) ≤ run.fpci.eventBinCtr := by
          rw [UInt32.le_iff_toNat_le, holds.ctr, ← rest]
          exact Nat.le_add_left 1 _
        show (run.fpci.eventBinCtr - 1).toNat = _
        rw [UInt32.toNat_sub_of_le _ _ one, holds.ctr, ← rest]
        exact Nat.add_sub_cancel _ 1
      · have room := holds.room
        omega
    · refine ⟨_, if_neg gone, ?_⟩
      have registry : run.registry.deregister cb evtRegMask = Function.update run.registry cb
          (some { held with mask := held.mask &&& ~~~evtRegMask }) := by
        simp only [Registry.deregister, registered]
        rw [if_neg gone]
      have same : (before ++ { held with mask := held.mask &&& ~~~evtRegMask }.slot cb ::
          after).length = live.length := by
        rw [List.length_append, List.length_cons]
        omega
      rw [registry]
      refine ⟨before ++ { held with mask := held.mask &&& ~~~evtRegMask }.slot cb :: after,
        ⟨?_, ?_, ?_⟩, lists.replace { held with mask := held.mask &&& ~~~evtRegMask } positive, ?_⟩
      · rw [same]
        refine masked.trans ?_
        rw [List.append_assoc, List.cons_append]
      · rw [same]
        exact holds.ctr
      · rw [same]
        exact holds.room
      · have priorities : ∀ slots : List PwrEvtReg, ByPriority slots ↔
            (slots.map fun slot => slot.priority.toNat).Pairwise (fun high low => low ≤ high) := by
          intro slots
          rw [ByPriority, List.pairwise_map]
        rw [priorities, List.map_append, List.map_cons] at ordered ⊢
        exact ordered

/-- Every call keeps the table at what is registered. -/
theorem Tracks.step {run : FpciRun} (tracks : Tracks run) {call : FpciCall}
    (named : run.Named call) : ∃ next, run.step call = some next ∧ Tracks next := by
  cases call with
  | reg cb evtRegMask priority pArgs =>
      by_cases accepted : cb ≠ 0 ∧ evtRegMask.toNat < pwrEvtWmacMax ∧
          run.fpci.eventBinCtr.toNat < fpciMaxReg - 1 ∧ fpciMinPrior < priority
      · obtain ⟨known, event, room, positive⟩ := accepted
        obtain ⟨success, next⟩ := tracks.register pArgs known event room positive
        refine ⟨_, ?_, next⟩
        simp [FpciRun.step, success]
      · have refused : fpciEvtCbReg run.fpci cb evtRegMask priority pArgs = (run.fpci, .err) := by
          simp only [fpciEvtCbReg]
          split
          · rfl
          · split
            · rfl
            · split
              · rfl
              · split
                · rfl
                · exact absurd ⟨‹_›, not_not.mp ‹_›, not_not.mp ‹_›, not_not.mp ‹_›⟩ accepted
        refine ⟨run, ?_, tracks⟩
        simp [FpciRun.step, refused]
  | dereg cb evtRegMask =>
      by_cases known : cb = 0
      · refine ⟨run, ?_, tracks⟩
        simp [FpciRun.step, fpciEvtCbDereg, known]
      · by_cases event : evtRegMask.toNat < pwrEvtWmacMax
        · obtain ⟨held, registered, overlaps⟩ := (Option.any_eq_true _ _).mp
            ((named.resolve_left known).resolve_left (not_not.mpr event))
          obtain ⟨fpci, result, next⟩ :=
            tracks.deregister known event registered (by simpa using overlaps)
          refine ⟨_, ?_, next⟩
          simp [FpciRun.step, result]
        · refine ⟨run, ?_, tracks⟩
          simp [FpciRun.step, fpciEvtCbDereg, known, event]

theorem tracks_start : Tracks FpciRun.start :=
  ⟨[], ⟨rfl, rfl, by decide⟩,
    ⟨List.nodup_nil, nofun, fun _ => ⟨nofun, fun ⟨_, registered, _⟩ => nomatch registered⟩⟩,
    List.Pairwise.nil⟩

/-! ## Dispatch -/

/-- The priority of a registered callback. -/
def Registry.priority (registry : Registry) (cb : UInt32) : Nat :=
  ((registry cb).map fun held => held.priority.toNat).getD 0

/-- What the dispatch of an event is to do: one call of every callback that is registered
for the event, with its argument, and no call of a lower priority before one of a higher. -/
structure Serves (registry : Registry) (evt : UInt32) (calls : List EvtCall) : Prop where
  once : (calls.map EvtCall.evtCb).Nodup
  exactly : ∀ call, call ∈ calls ↔ ∃ held, registry call.evtCb = some held ∧
    held.mask.toUInt32 &&& evt ≠ 0 ∧ call.evt = evt.toUInt8 ∧ call.pArgs = held.args
  ordered : calls.Pairwise fun first second =>
    registry.priority second.evtCb ≤ registry.priority first.evtCb

theorem Tracks.dispatch {run : FpciRun} (tracks : Tracks run) {evt : UInt32}
    (known : evt.toNat < pwrEvtWmacMax) :
    ∃ calls, fpciEvtDispatch run.fpci evt = some calls ∧ Serves run.registry evt calls := by
  obtain ⟨live, holds, lists, ordered⟩ := tracks
  have inside : ¬ fpciMaxReg < run.fpci.eventBinCtr.toNat := by
    rw [holds.ctr]
    exact Nat.not_lt.mpr holds.room.le
  have priority : ∀ slot ∈ live, run.registry.priority slot.evtCb = slot.priority.toNat := by
    intro slot member
    obtain ⟨held, registered, slotEq⟩ := lists.registered member
    rw [Registry.priority, registered, slotEq]
    rfl
  have calls : fpciEvtDispatch run.fpci evt = some ((live.filter fun slot =>
      slot.evtMask.toUInt32 &&& evt != 0 && slot.evtCb != 0).map fun slot =>
        { evtCb := slot.evtCb, evt := evt.toUInt8, pArgs := slot.pArgs }) := by
    rw [fpciEvtDispatch, if_neg (not_not.mpr known), if_neg inside, holds.used]
  refine ⟨_, calls, ?_, ?_, ?_⟩
  · rw [List.map_map]
    exact lists.distinct.sublist (List.filter_sublist.map PwrEvtReg.evtCb)
  · intro call
    rw [List.mem_map]
    constructor
    · rintro ⟨slot, chosen, rfl⟩
      obtain ⟨member, test⟩ := List.mem_filter.mp chosen
      obtain ⟨held, registered, slotEq⟩ := lists.registered member
      have event : slot.evtMask.toUInt32 &&& evt ≠ 0 := by
        have both := Bool.and_eq_true_iff.mp test
        simpa using both.1
      rw [slotEq] at event
      refine ⟨held, registered, event, rfl, ?_⟩
      rw [slotEq]
      rfl
    · rintro ⟨held, registered, event, same, args⟩
      have member := lists.slot_mem registered
      have real := (lists.valid _ member).1
      refine ⟨held.slot call.evtCb, List.mem_filter.mpr ⟨member, ?_⟩, ?_⟩
      · have named : call.evtCb ≠ 0 := real
        simp [Registration.slot, event, named]
      · cases call
        simp_all [Registration.slot]
  · refine List.pairwise_map.mpr ?_
    refine (List.Pairwise.imp_of_mem ?_ ordered).sublist List.filter_sublist
    intro first second firstMember secondMember higher
    rw [priority first firstMember, priority second secondMember]
    exact higher

/-- After every run whose de-registrations name something registered, the count is that
of a table with a free slot, and the dispatch of every event serves the registry. -/
theorem dispatch_registered (calls : List FpciCall)
    (named : Runs.Meets FpciRun.step FpciRun.Named FpciRun.start calls) :
    ∃ last, Runs.exec FpciRun.step FpciRun.start calls = some last ∧
      last.fpci.eventBinCtr.toNat < fpciMaxReg ∧
      ∀ evt : UInt32, evt.toNat < pwrEvtWmacMax →
        ∃ made, fpciEvtDispatch last.fpci evt = some made ∧ Serves last.registry evt made := by
  obtain ⟨last, run, tracks⟩ :=
    Runs.reaches (fun _ _ tracks named => Tracks.step tracks named) tracks_start named
  refine ⟨last, run, ?_, fun evt known => tracks.dispatch known⟩
  obtain ⟨live, holds, -⟩ := tracks
  rw [holds.ctr]
  exact holds.room

/-- Two registrations, one of which is taken back in part. -/
def partRun : List FpciCall :=
  [.reg 0x100 0x6 3 0, .reg 0x200 0x2 5 0, .dereg 0x100 0x4]

theorem dispatch_registered_partRun :
    ∃ last, Runs.exec FpciRun.step FpciRun.start partRun = some last ∧
      ∃ made, fpciEvtDispatch last.fpci 0x2 = some made ∧ Serves last.registry 0x2 made := by
  obtain ⟨last, run, -, served⟩ := dispatch_registered partRun (by decide)
  exact ⟨last, run, served 0x2 (by decide)⟩

/-- A callback is de-registered that nobody registered: the live one is not called any
more, and without any registration the count drops below zero. -/
theorem dereg_unknown_drops_callback :
    (∃ last, Runs.exec FpciRun.step FpciRun.start [.reg 0x100 0x2 3 0, .dereg 0x200 0x2] =
        some last ∧
      ∃ made, fpciEvtDispatch last.fpci 0x2 = some made ∧ ¬ Serves last.registry 0x2 made) ∧
      (Runs.exec FpciRun.step FpciRun.start [.dereg 0x200 0x2]).map
        (fun last => last.fpci.eventBinCtr) = some 0xFFFFFFFF := by
  refine ⟨⟨_, rfl, [], by decide, fun serves => ?_⟩, by decide⟩
  have called := (serves.exactly { evtCb := 0x100, evt := 0x2, pArgs := 0 }).mpr
    ⟨{ mask := 0x2, priority := 3, args := 0 }, by decide, by decide, by decide, rfl⟩
  exact absurd called List.not_mem_nil

end QHal.Fpci
