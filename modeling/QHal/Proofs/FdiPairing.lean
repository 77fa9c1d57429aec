/-
Module: QHal.Proofs.FdiPairing
Purpose: When the thread accounts for the pairing of starts and stops: the search compares the
  identifiers only and leaves the queue rotated, and zero stands for no start and no minimum.  The
  module says for each step exactly when the queue and the statistics stay right.
Trusted boundary: none
Main exports: NodeExact, Exact, PairedAsMeant, Exact.step_iff, fdi_statistics_iff
-/
import Mathlib.Data.Nat.Bitwise
import QHal.Lib.Runs
import QHal.System.Pairing

namespace QHal.System

/-! ## A node -/

/-- The statistics of a node are those of its durations, and its start tick is that of the pending
start. -/
structure NodeExact (reg : FdiReg) (pending : Option FdiNodeIns) (durations : List UInt32) : Prop
    where
  evtStart : reg.evtStart = (pending.map (·.ticks)).getD 0
  eventCtr : reg.eventCtr.toNat = durations.length
  tickLast : reg.tickLast = durations.getLast?.getD 0
  tickMin : reg.tickMin = durations.min?.getD 0
  tickPeak : reg.tickPeak = durations.max?.getD 0

/-- A pair counts: the tick of its start is not zero, the counter does not overflow, and a minimum
of zero is not taken for none. -/
def Counts (reg : FdiReg) (start stop : FdiNodeIns) : Prop :=
  start.ticks ≠ 0 ∧ reg.eventCtr ≠ 0xFFFFFFFF ∧
    (reg.eventCtr ≠ 0 → reg.tickMin = 0 → stop.ticks = start.ticks)

/-- The start tick of a pair in the entry of its node. -/
def FdiReg.load (reg : FdiReg) (ticks : UInt32) : FdiReg := { reg with evtStart := ticks }

theorem FdiReg.load_self (reg : FdiReg) : reg.load reg.evtStart = reg := rfl

theorem min?_concat (values : List UInt32) (value : UInt32) :
    (values ++ [value]).min? = some (values.min?.elim value fun least => min least value) := by
  cases values with
  | nil => rfl
  | cons first values =>
      rw [List.cons_append, List.min?_cons', List.min?_cons', List.foldl_append]
      rfl

theorem max?_concat (values : List UInt32) (value : UInt32) :
    (values ++ [value]).max? = some (values.max?.elim value fun peak => max peak value) := by
  cases values with
  | nil => rfl
  | cons first values =>
      rw [List.cons_append, List.max?_cons', List.max?_cons', List.foldl_append]
      rfl

/-- The comparison for the minimum is right unless the minimum is zero, which stands for none. -/
theorem tickMin_iff {eventCtr tickMin : UInt32} {durations : List UInt32}
    (count : eventCtr.toNat = durations.length) (least : tickMin = durations.min?.getD 0)
    (duration : UInt32) :
    (if tickMin > 0 then if tickMin < duration then tickMin else duration else duration) =
        (durations ++ [duration]).min?.getD 0 ↔
      (eventCtr ≠ 0 → tickMin = 0 → duration = 0) := by
  rw [min?_concat]
  cases durations with
  | nil =>
      have none : eventCtr = 0 := UInt32.toNat_inj.mp count
      simp [least, none]
  | cons first durations =>
      have counted : eventCtr ≠ 0 := by
        rintro rfl
        simp at count
      rw [List.min?_cons'] at least ⊢
      change tickMin = durations.foldl min first at least
      change _ = min (durations.foldl min first) duration ↔ _
      rw [← least]
      by_cases zero : tickMin = 0
      · subst zero
        have smallest : min 0 duration = 0 := if_pos UInt32.zero_le
        simp [smallest, counted]
      · have positive : tickMin > 0 := UInt32.pos_iff_ne_zero.mpr zero
        have same : (if tickMin < duration then tickMin else duration) = min tickMin duration := by
          change _ = if tickMin ≤ duration then tickMin else duration
          split <;> split <;> grind
        simp [zero, positive, same]

theorem tickPeak_eq {tickPeak : UInt32} {durations : List UInt32}
    (most : tickPeak = durations.max?.getD 0) (duration : UInt32) :
    (if duration > tickPeak then duration else tickPeak) =
      (durations ++ [duration]).max?.getD 0 := by
  have same : (if duration > tickPeak then duration else tickPeak) = max tickPeak duration := by
    change _ = if tickPeak ≤ duration then duration else tickPeak
    split <;> split <;> grind
  rw [same, max?_concat, most]
  cases durations with
  | nil => exact if_pos UInt32.zero_le
  | cons first durations => rfl

theorem eventCtr_iff {eventCtr : UInt32} {durations : List UInt32} (duration : UInt32)
    (count : eventCtr.toNat = durations.length) :
    (eventCtr + 1).toNat = (durations ++ [duration]).length ↔ eventCtr ≠ 0xFFFFFFFF := by
  have small := eventCtr.toNat_lt
  rw [List.length_append, List.length_singleton, ← count, UInt32.toNat_add, UInt32.toNat_one, ne_eq,
    ← UInt32.toNat_inj]
  change _ ↔ ¬ eventCtr.toNat = 4294967295
  omega

/-- A stop whose node has no start tick changes nothing, and any other counts a pair. -/
theorem NodeExact.unpaired_iff {reg : FdiReg} {pending : Option FdiNodeIns}
    {durations : List UInt32} (exact : NodeExact reg pending durations) (ticks : UInt32) :
    NodeExact (reg.stop ticks) pending durations ↔ reg.evtStart = 0 := by
  by_cases none : reg.evtStart = 0
  · rw [FdiReg.stop, if_neg (not_not.mpr none)]
    exact iff_of_true exact none
  · refine iff_of_false (fun after => ?_) none
    have count := after.eventCtr
    rw [FdiReg.stop, if_pos none, ← exact.eventCtr, UInt32.toNat_inj] at count
    simp at count

/-- The start tick of a pair is in the entry when the stop is processed. -/
theorem NodeExact.paired_iff {reg : FdiReg} {before after : Option FdiNodeIns}
    {durations : List UInt32} (exact : NodeExact reg before durations) (start stop : FdiNodeIns) :
    NodeExact ((reg.load start.ticks).stop stop.ticks) after
        (durations ++ [stop.ticks - start.ticks]) ↔
      (after.map (·.ticks)).getD 0 = 0 ∧ Counts reg start stop := by
  by_cases zero : start.ticks = 0
  · refine iff_of_false (fun exact' => ?_) fun counts => counts.2.1 zero
    have unloaded : ¬ (reg.load start.ticks).evtStart ≠ 0 := not_not.mpr zero
    have count := exact'.eventCtr
    rw [FdiReg.stop, if_neg unloaded, List.length_append, ← exact.eventCtr] at count
    simp [FdiReg.load] at count
  · have last : (durations ++ [stop.ticks - start.ticks]).getLast?.getD 0 =
        stop.ticks - start.ticks := by rw [List.getLast?_concat, Option.getD_some]
    have least := tickMin_iff exact.eventCtr exact.tickMin (stop.ticks - start.ticks)
    have peak := tickPeak_eq exact.tickPeak (stop.ticks - start.ticks)
    have count := eventCtr_iff (stop.ticks - start.ticks) exact.eventCtr
    rw [UInt32.sub_eq_iff_eq_add, UInt32.zero_add] at least
    have loaded : (reg.load start.ticks).evtStart ≠ 0 := zero
    rw [FdiReg.stop, if_pos loaded]
    constructor
    · intro exact'
      exact ⟨exact'.evtStart.symm, zero, count.mp exact'.eventCtr, least.mp exact'.tickMin⟩
    · rintro ⟨done, -, room, minimum⟩
      exact ⟨done.symm, count.mpr room, last.symm, least.mpr minimum, peak⟩

/-! ## The thread -/

variable {Queue : Type} {fifo : FifoQueue Queue FdiNodeIns} {capacity : Nat}
  {entries : Queue → List FdiNodeIns}

/-- The queue holds the outstanding starts, the counter is its length, and each entry of the table
accounts for its node. -/
structure Exact (entries : Queue → List FdiNodeIns) (fdi : Fdi Queue) (pairing : Pairing) : Prop
    where
  startIdfsCtr : fdi.startIdfsCtr = (entries fdi.bufferPtrIdfs).length
  outstanding : (entries fdi.bufferPtrIdfs).Perm pairing.outstanding
  nodes : ∀ node,
    NodeExact (fdi.pRegTable node) (pairing.pending node) (pairing.durations node)

/-- The first start in the queue with the identifier of a stop. -/
def firstMatch (starts : List FdiNodeIns) (stop : FdiNodeIns) : Option FdiNodeIns :=
  starts.find? fun start => stop.identifier = start.identifier

/-- The condition on a stop with an identifier: of the starts in the queue with its identifier the
first is the oldest one of its node, or there is none; its node has no pending start; and the
pair counts. -/
structure FindsOldest (entries : Queue → List FdiNodeIns) (fdi : Fdi Queue) (pairing : Pairing)
    (stop : FdiNodeIns) : Prop where
  first : firstMatch (entries fdi.bufferPtrIdfs) stop = pairing.oldest stop
  free : (fdi.pRegTable stop.node).evtStart = 0
  counts : ∀ start, pairing.oldest stop = some start →
    Counts (fdi.pRegTable stop.node) start stop

/-- The condition on a record. -/
def RecordMeant (entries : Queue → List FdiNodeIns) (fdi : Fdi Queue) (pairing : Pairing)
    (nodeRet : FdiNodeIns) : Prop :=
  nodeRet.isStop = true →
    if nodeRet.identifier ≠ 0 then FindsOldest entries fdi pairing nodeRet
    else ∀ start, pairing.pending nodeRet.node = some start →
      Counts (fdi.pRegTable nodeRet.node) start nodeRet

/-- The condition on a step. -/
def PairedAsMeant (entries : Queue → List FdiNodeIns) (tracked : Tracked Queue) : Action → Prop
  | .record nodeRet => RecordMeant entries tracked.fdi tracked.pairing nodeRet
  | .printLog _ => True
  | .modEn _ _ => True

/-- A property of all nodes of which one has changed. -/
theorem forall_update_iff {table : Nat → FdiReg} {pending : Nat → Option FdiNodeIns}
    {durations durations' : Nat → List UInt32} {pending' : Nat → Option FdiNodeIns}
    (nodes : ∀ other, NodeExact (table other) (pending other) (durations other)) (node : Nat)
    (reg : FdiReg) (samePending : ∀ other, other ≠ node → pending' other = pending other)
    (sameDurations : ∀ other, other ≠ node → durations' other = durations other) :
    (∀ other, NodeExact (Function.update table node reg other) (pending' other)
        (durations' other)) ↔ NodeExact reg (pending' node) (durations' node) := by
  constructor
  · intro all
    have own := all node
    rw [Function.update_self] at own
    exact own
  · intro own other
    by_cases same : other = node
    · rw [same, Function.update_self]
      exact own
    · rw [Function.update_of_ne same, samePending other same, sameDurations other same]
      exact nodes other

/-! ### Starts -/

theorem Exact.startNode (lawful : fifo.Lawful capacity entries) {fdi : Fdi Queue}
    {pairing : Pairing} (exact : Exact entries fdi pairing) {start : FdiNodeIns}
    (room : start.identifier ≠ 0 → pairing.outstanding.length < capacity) :
    Exact entries (fdi.startNode fifo start) (pairing.start start) := by
  unfold Fdi.startNode Pairing.start
  by_cases identified : start.identifier ≠ 0
  · rw [if_pos identified, if_pos identified]
    have added := lawful.enqueue fdi.bufferPtrIdfs start
      (exact.outstanding.length_eq ▸ room identified)
    constructor
    · change _ = (entries (fifo.enqueue _ start)).length
      rw [added, List.length_append, List.length_singleton, ← exact.startIdfsCtr]
    · change (entries (fifo.enqueue _ start)).Perm _
      rw [added]
      exact exact.outstanding.append_right [start]
    · exact exact.nodes
  · rw [if_neg identified, if_neg identified]
    refine ⟨exact.startIdfsCtr, exact.outstanding, ?_⟩
    have others : ∀ other, other ≠ start.node →
        Function.update pairing.pending start.node (some start) other = pairing.pending other :=
      fun other different => Function.update_of_ne different _ _
    apply (forall_update_iff exact.nodes _ _ others fun _ _ => rfl).mpr
    have own := exact.nodes start.node
    rw [Function.update_self]
    exact ⟨rfl, own.eventCtr, own.tickLast, own.tickMin, own.tickPeak⟩

/-! ### Stops -/

theorem Exact.stopPending_iff {fdi : Fdi Queue} {pairing : Pairing}
    (exact : Exact entries fdi pairing) {stop : FdiNodeIns} (plain : stop.identifier = 0) :
    Exact entries (fdi.stopNode fifo stop) (pairing.stop stop) ↔
      ∀ start, pairing.pending stop.node = some start →
        Counts (fdi.pRegTable stop.node) start stop := by
  have own := exact.nodes stop.node
  unfold Fdi.stopNode Pairing.stop
  rw [if_neg fun both => both.1 plain, if_neg (not_not.mpr plain)]
  cases waiting : pairing.pending stop.node with
  | none =>
      have idle : (fdi.pRegTable stop.node).evtStart = 0 := by rw [own.evtStart, waiting]; rfl
      refine iff_of_true ⟨exact.startIdfsCtr, exact.outstanding, ?_⟩ nofun
      apply (forall_update_iff exact.nodes _ _ (fun _ _ => rfl) fun _ _ => rfl).mpr
      exact (own.unpaired_iff stop.ticks).mpr idle
  | some start =>
      have tick : start.ticks = (fdi.pRegTable stop.node).evtStart := by
        rw [own.evtStart, waiting]
        rfl
      have others : ∀ other, other ≠ stop.node →
          Function.update pairing.pending stop.node none other = pairing.pending other :=
        fun other different => Function.update_of_ne different _ _
      have durations : ∀ other, other ≠ stop.node →
          Function.update pairing.durations stop.node
            (pairing.durations stop.node ++ [stop.ticks - start.ticks]) other =
          pairing.durations other := fun other different => Function.update_of_ne different _ _
      have paired := forall_update_iff exact.nodes stop.node
        ((fdi.pRegTable stop.node).stop stop.ticks) others durations
      have counted := @NodeExact.paired_iff _ _ none _ own start stop
      rw [tick, FdiReg.load_self, ← tick] at counted
      rw [Function.update_self, Function.update_self, counted] at paired
      constructor
      · intro exact' _ same
        cases same
        exact (paired.mp exact'.nodes).2
      · intro counts
        exact ⟨exact.startIdfsCtr, exact.outstanding, paired.mpr ⟨rfl, counts start rfl⟩⟩

/-- A search without a match leaves the queue as it was. -/
theorem Exact.findStart_none (lawful : fifo.Lawful capacity entries) {fdi : Fdi Queue}
    {pairing : Pairing} (exact : Exact entries fdi pairing) {stop : FdiNodeIns}
    (missed : firstMatch (entries fdi.bufferPtrIdfs) stop = none) :
    ∃ queue last, fdi.findStart fifo stop =
        { fdi with bufferPtrIdfs := queue, getStartNode := last } ∧
      entries queue = entries fdi.bufferPtrIdfs := by
  obtain ⟨queue, last, result, same⟩ := lawful.search_none missed fdi.getStartNode
  refine ⟨queue, last, ?_, same⟩
  rw [Fdi.findStart, exact.startIdfsCtr, result]
  rfl

/-- A search with a match takes it out and puts its tick into the entry of the node. -/
theorem Exact.findStart_some (lawful : fifo.Lawful capacity entries) {fdi : Fdi Queue}
    {pairing : Pairing} (exact : Exact entries fdi pairing) {stop found : FdiNodeIns}
    (first : firstMatch (entries fdi.bufferPtrIdfs) stop = some found) :
    ∃ queue, fdi.findStart fifo stop =
        { fdi.updateReg stop.node (·.load found.ticks) with
          bufferPtrIdfs := queue
          getStartNode := found
          startIdfsCtr := fdi.startIdfsCtr - 1 } ∧
      (entries fdi.bufferPtrIdfs).Perm (found :: entries queue) := by
  obtain ⟨queue, result, taken⟩ := lawful.search_some first fdi.getStartNode
  refine ⟨queue, ?_, taken⟩
  rw [Fdi.findStart, exact.startIdfsCtr, result]
  rfl

/-- The search is not skipped, since it does nothing when no start is outstanding. -/
theorem stopNode_eq {fdi : Fdi Queue} {stop : FdiNodeIns} (identified : stop.identifier ≠ 0) :
    fdi.stopNode fifo stop =
      (fdi.findStart fifo stop).updateReg stop.node (·.stop stop.ticks) := by
  unfold Fdi.stopNode
  by_cases outstanding : fdi.startIdfsCtr ≠ 0
  · rw [if_pos ⟨identified, outstanding⟩]
    rfl
  · have skipped : fdi.findStart fifo stop = fdi := by
      have none := not_not.mp outstanding
      cases fdi
      cases none
      rfl
    rw [if_neg fun both => outstanding both.2, skipped]
    rfl

/-- The oldest start of an event is one of the outstanding starts, and is taken out of them. -/
theorem Pairing.oldest_perm {pairing : Pairing} {stop start : FdiNodeIns}
    (oldest : pairing.oldest stop = some start) :
    pairing.outstanding.Perm (start :: pairing.outstanding.eraseP stop.sameEvent) := by
  obtain ⟨own, front, back, split, others⟩ := List.find?_eq_some_iff_append.mp oldest
  rw [split, List.eraseP_append_right _ (by simpa using others), List.eraseP_cons_of_pos own]
  exact List.perm_middle

/-- A start of an event has its identifier. -/
theorem Exact.oldest_none {fdi : Fdi Queue} {pairing : Pairing} (exact : Exact entries fdi pairing)
    {stop : FdiNodeIns} (missed : firstMatch (entries fdi.bufferPtrIdfs) stop = none) :
    pairing.oldest stop = none := by
  rw [Pairing.oldest, List.find?_eq_none]
  intro start listed own
  have matching : stop.identifier = start.identifier := by
    have both : start.node = stop.node ∧ start.identifier = stop.identifier := by
      simpa [FdiNodeIns.sameEvent] using own
    exact both.2.symm
  have absent := List.find?_eq_none.mp missed start (exact.outstanding.symm.subset listed)
  exact absent (decide_eq_true matching)

theorem Exact.stopMissed_iff (lawful : fifo.Lawful capacity entries) {fdi : Fdi Queue}
    {pairing : Pairing} (exact : Exact entries fdi pairing) {stop : FdiNodeIns}
    (identified : stop.identifier ≠ 0)
    (missed : firstMatch (entries fdi.bufferPtrIdfs) stop = none) :
    Exact entries (fdi.stopNode fifo stop) (pairing.stop stop) ↔
      FindsOldest entries fdi pairing stop := by
  have oldest := exact.oldest_none missed
  obtain ⟨queue, last, searched, same⟩ := exact.findStart_none lawful missed
  have unpaired := (exact.nodes stop.node).unpaired_iff stop.ticks
  have nodes := @forall_update_iff _ _ _ pairing.durations pairing.pending exact.nodes stop.node
    ((fdi.pRegTable stop.node).stop stop.ticks) (fun _ _ => rfl) fun _ _ => rfl
  rw [stopNode_eq identified, searched, Pairing.stop, if_pos identified, oldest]
  constructor
  · intro exact'
    exact ⟨missed.trans oldest.symm, unpaired.mp (nodes.mp exact'.nodes), by rw [oldest]; nofun⟩
  · intro finds
    refine ⟨?_, ?_, nodes.mpr (unpaired.mpr finds.free)⟩
    · change fdi.startIdfsCtr = (entries queue).length
      rw [same, exact.startIdfsCtr]
    · change (entries queue).Perm pairing.outstanding
      rw [same]
      exact exact.outstanding

/-- When the queue gives a start that is not the oldest of the event, the wrong one is gone. -/
theorem Exact.first_eq_oldest {fdi : Fdi Queue} {pairing : Pairing}
    (exact : Exact entries fdi pairing) {stop found start : FdiNodeIns} {queue : Queue}
    (taken : (entries fdi.bufferPtrIdfs).Perm (found :: entries queue))
    (oldest : pairing.oldest stop = some start)
    (after : (entries queue).Perm (pairing.outstanding.eraseP stop.sameEvent)) :
    found = start := by
  have both : (found :: entries queue).Perm (start :: entries queue) :=
    taken.symm.trans (exact.outstanding.trans ((Pairing.oldest_perm oldest).trans
      (after.symm.cons start)))
  by_contra different
  have count := both.count_eq found
  rw [List.count_cons_self, List.count_cons_of_ne (Ne.symm different)] at count
  exact absurd count (Nat.succ_ne_self _)

theorem Exact.stopFound_iff (lawful : fifo.Lawful capacity entries) {fdi : Fdi Queue}
    {pairing : Pairing} (exact : Exact entries fdi pairing) {stop found : FdiNodeIns}
    (identified : stop.identifier ≠ 0)
    (first : firstMatch (entries fdi.bufferPtrIdfs) stop = some found) :
    Exact entries (fdi.stopNode fifo stop) (pairing.stop stop) ↔
      FindsOldest entries fdi pairing stop := by
  obtain ⟨queue, searched, taken⟩ := exact.findStart_some lawful first
  have length := taken.length_eq
  rw [List.length_cons] at length
  rw [stopNode_eq identified, searched, Pairing.stop, if_pos identified]
  cases oldest : pairing.oldest stop with
  | none =>
      refine iff_of_false (fun exact' => ?_) fun finds => ?_
      · have kept := exact'.outstanding.length_eq
        have before := exact.outstanding.length_eq
        change (entries queue).length = pairing.outstanding.length at kept
        omega
      · have same := first.symm.trans finds.first
        rw [oldest] at same
        cases same
  | some start =>
      have own := exact.nodes stop.node
      have tick := own.evtStart
      have counted := @NodeExact.paired_iff _ _ (pairing.pending stop.node) _ own start stop
      have durations : ∀ other, other ≠ stop.node →
          Function.update pairing.durations stop.node
            (pairing.durations stop.node ++ [stop.ticks - start.ticks]) other =
          pairing.durations other := fun other different => Function.update_of_ne different _ _
      have nodes := @forall_update_iff _ _ _ _ pairing.pending exact.nodes stop.node
        (((fdi.pRegTable stop.node).load start.ticks).stop stop.ticks) (fun _ _ => rfl) durations
      rw [Function.update_self, counted, ← tick] at nodes
      have table : ((fdi.updateReg stop.node (·.load start.ticks)).updateReg stop.node
          (·.stop stop.ticks)).pRegTable =
          Function.update fdi.pRegTable stop.node
            (((fdi.pRegTable stop.node).load start.ticks).stop stop.ticks) := by
        simp [Fdi.updateReg]
      constructor
      · intro exact'
        have same := exact.first_eq_oldest taken oldest exact'.outstanding
        subst same
        have after := exact'.nodes
        change ∀ node, NodeExact (((fdi.updateReg stop.node (·.load found.ticks)).updateReg
          stop.node (·.stop stop.ticks)).pRegTable node) _ _ at after
        rw [table] at after
        obtain ⟨free, counts⟩ := nodes.mp after
        refine ⟨first.trans oldest.symm, free, ?_⟩
        intro start listed
        rw [oldest] at listed
        cases listed
        exact counts
      · intro finds
        have same : found = start := by
          have both := first.symm.trans finds.first
          rw [oldest] at both
          exact Option.some.inj both
        subst same
        refine ⟨?_, ?_, ?_⟩
        · change fdi.startIdfsCtr - 1 = (entries queue).length
          rw [exact.startIdfsCtr, length, Nat.add_sub_cancel]
        · exact List.Perm.cons_inv
            (taken.symm.trans (exact.outstanding.trans (Pairing.oldest_perm oldest)))
        · change ∀ node, NodeExact (((fdi.updateReg stop.node (·.load found.ticks)).updateReg
            stop.node (·.stop stop.ticks)).pRegTable node) _ _
          rw [table]
          exact nodes.mpr ⟨finds.free, finds.counts found oldest⟩

/-! ### Records -/

theorem attr_cases (attr : UInt16) :
    attr &&& 1 <<< fdiInsAttrTickTypeOffset = 1 <<< fdiInsAttrTickTypeOffset ∨
      attr &&& 1 <<< fdiInsAttrTickTypeOffset = 0 := by
  have bit : (1 <<< fdiInsAttrTickTypeOffset : UInt16).toNat = 2 ^ 14 := by decide
  have value := Nat.and_two_pow attr.toNat 14
  rw [← bit, ← UInt16.toNat_and] at value
  cases set : attr.toNat.testBit 14 with
  | true =>
      rw [set] at value
      exact .inl (UInt16.toNat_inj.mp (value.trans (Nat.one_mul _)))
  | false =>
      rw [set] at value
      exact .inr (UInt16.toNat_inj.mp (value.trans (Nat.zero_mul _)))

/-- Each record is a stop or a start. -/
theorem processRecord_eq (fdi : Fdi Queue) (nodeRet : FdiNodeIns) :
    fdi.processRecord fifo nodeRet =
      if nodeRet.isStop then (fdi.countMissed nodeRet.sqNo).stopNode fifo nodeRet
      else (fdi.countMissed nodeRet.sqNo).startNode fifo nodeRet := by
  unfold Fdi.processRecord FdiNodeIns.isStop
  have stops : (1 <<< fdiInsAttrTickTypeOffset : UInt16) ≠ 0 := by decide
  rcases attr_cases nodeRet.attr with stop | start
  · simp [stop, stops]
  · simp [start, Ne.symm stops]

theorem Exact.countMissed {fdi : Fdi Queue} {pairing : Pairing}
    (exact : Exact entries fdi pairing) (sqNo : UInt32) :
    Exact entries (fdi.countMissed sqNo) pairing :=
  ⟨exact.startIdfsCtr, exact.outstanding, exact.nodes⟩

/-- A stop with an identifier is right exactly if the search finds the oldest start. -/
theorem Exact.stopNode_iff (lawful : fifo.Lawful capacity entries) {fdi : Fdi Queue}
    {pairing : Pairing} (exact : Exact entries fdi pairing) {stop : FdiNodeIns}
    (identified : stop.identifier ≠ 0) :
    Exact entries (fdi.stopNode fifo stop) (pairing.stop stop) ↔
      FindsOldest entries fdi pairing stop := by
  cases first : firstMatch (entries fdi.bufferPtrIdfs) stop with
  | none => exact exact.stopMissed_iff lawful identified first
  | some found => exact exact.stopFound_iff lawful identified first

theorem Exact.record_iff (lawful : fifo.Lawful capacity entries) {fdi : Fdi Queue}
    {pairing : Pairing} (exact : Exact entries fdi pairing) {nodeRet : FdiNodeIns}
    (room : nodeRet.isStop = true ∨ nodeRet.identifier = 0 ∨
      pairing.outstanding.length < capacity) :
    Exact entries (fdi.processRecord fifo nodeRet) (pairing.record nodeRet) ↔
      RecordMeant entries fdi pairing nodeRet := by
  have counted := exact.countMissed nodeRet.sqNo
  rw [processRecord_eq, Pairing.record]
  unfold RecordMeant
  cases kind : nodeRet.isStop with
  | true =>
      by_cases identified : nodeRet.identifier ≠ 0
      · have found := counted.stopNode_iff lawful identified
        rw [if_pos rfl, if_pos rfl, if_pos identified, found]
        exact ⟨fun finds _ => ⟨finds.first, finds.free, finds.counts⟩,
          fun finds => ⟨(finds rfl).first, (finds rfl).free, (finds rfl).counts⟩⟩
      · have waited := @Exact.stopPending_iff _ fifo _ _ _ counted _ (not_not.mp identified)
        rw [if_pos rfl, if_pos rfl, if_neg identified, waited]
        exact ⟨fun counts _ => counts, fun counts => counts rfl⟩
  | false =>
      rw [if_neg Bool.false_ne_true, if_neg Bool.false_ne_true]
      refine iff_of_true (counted.startNode lawful fun identified => ?_) nofun
      rcases room with stop | plain | room
      · rw [kind] at stop
        cases stop
      · exact absurd plain identified
      · exact room

/-! ### Calls of other threads -/

/-- The table with the entries below a node cleared that are enabled and have counted. -/
def clearedBelow (fdi : Fdi Queue) (clear : UInt8) (nodes : Nat) : Nat → FdiReg := fun node =>
  if (clear ≠ 0 && node < nodes && fdi.enabled node) ∧ (fdi.pRegTable node).eventCtr ≠ 0 then
    (fdi.pRegTable node).clear
  else fdi.pRegTable node

theorem clearedBelow_self (fdi : Fdi Queue) (clear : UInt8) (node : Nat) :
    clearedBelow fdi clear node node = fdi.pRegTable node := by
  simp [clearedBelow]

theorem clearedBelow_succ (fdi : Fdi Queue) (clear : UInt8) (node : Nat) :
    clearedBelow fdi clear (node + 1) =
      if clear ≠ 0 ∧ fdi.enabled node ∧ (fdi.pRegTable node).eventCtr ≠ 0 then
        Function.update (clearedBelow fdi clear node) node (fdi.pRegTable node).clear
      else clearedBelow fdi clear node := by
  funext other
  by_cases same : other = node
  · subst same
    split <;> simp_all [clearedBelow]
  · have below : other < node + 1 ↔ other < node := by omega
    split
    · rw [Function.update_of_ne same]
      simp [clearedBelow, below]
    · simp [clearedBelow, below]

/-- The print clears the entries of the enabled nodes that have counted. -/
theorem printLog_eq (fdi : Fdi Queue) (clear : UInt8) :
    fdi.printLog clear = { fdi with pRegTable := clearedBelow fdi clear fdiMaxNode } := by
  unfold Fdi.printLog
  generalize fdiMaxNode = nodes
  induction nodes with
  | zero =>
      have none : clearedBelow fdi clear 0 = fdi.pRegTable := by
        funext node
        simp [clearedBelow]
      rw [none]
      rfl
  | succ nodes ih =>
      rw [List.range_succ, List.foldl_append, ih, List.foldl_cons, List.foldl_nil,
        clearedBelow_succ]
      have enabled : Fdi.enabled { fdi with pRegTable := clearedBelow fdi clear nodes } nodes =
          fdi.enabled nodes := by
        simp only [Fdi.enabled, clearedBelow_self]
      simp only [enabled, clearedBelow_self, Fdi.updateReg]
      by_cases live : fdi.enabled nodes = true ∧ (fdi.pRegTable nodes).eventCtr ≠ 0
      · rw [if_pos (by simpa using live)]
        by_cases clears : clear ≠ 0
        · rw [if_pos clears, if_pos ⟨clears, live⟩]
        · rw [if_neg clears, if_neg fun all => clears all.1]
      · rw [if_neg (by simpa using live), if_neg fun all => live all.2]

/-- The print keeps a node exact whose durations are forgotten when its entry is cleared. -/
theorem NodeExact.clearedBelow {fdi : Fdi Queue} {node : Nat} {pending : Option FdiNodeIns}
    {durations : List UInt32} (exact : NodeExact (fdi.pRegTable node) pending durations)
    (clear : UInt8) (nodes : Nat) :
    NodeExact (System.clearedBelow fdi clear nodes node) pending
      (if clear ≠ 0 && node < nodes && fdi.enabled node then [] else durations) := by
  unfold System.clearedBelow
  by_cases cleared : (clear ≠ 0 && node < nodes && fdi.enabled node) = true
  · rw [if_pos cleared]
    by_cases counted : (fdi.pRegTable node).eventCtr ≠ 0
    · rw [if_pos ⟨cleared, counted⟩]
      exact ⟨exact.evtStart, rfl, rfl, rfl, rfl⟩
    · have none : durations = [] := by
        apply List.eq_nil_of_length_eq_zero
        rw [← exact.eventCtr, not_not.mp counted]
        rfl
      rw [if_neg fun both => counted both.2, ← none]
      exact exact
  · rw [if_neg cleared, if_neg fun both => cleared both.1]
    exact exact

theorem Exact.printLog {fdi : Fdi Queue} {pairing : Pairing} (exact : Exact entries fdi pairing)
    (clear : UInt8) :
    Exact entries (fdi.printLog clear)
      (pairing.clear fun node => clear ≠ 0 && node < fdiMaxNode && fdi.enabled node) := by
  rw [printLog_eq]
  exact ⟨exact.startIdfsCtr, exact.outstanding,
    fun node => (exact.nodes node).clearedBelow clear fdiMaxNode⟩

theorem Exact.modEn {fdi : Fdi Queue} {pairing : Pairing} (exact : Exact entries fdi pairing)
    (bmap : UInt32) (enFlag : UInt8) : Exact entries (fdi.modEn bmap enFlag) pairing := by
  unfold Fdi.modEn
  split
  · exact exact
  · split <;> exact ⟨exact.startIdfsCtr, exact.outstanding, exact.nodes⟩

/-! ## Runs -/

def Tracked.Exact (entries : Queue → List FdiNodeIns) (tracked : Tracked Queue) : Prop :=
  System.Exact entries tracked.fdi tracked.pairing

/-- A step keeps the queue and the statistics exact if and only if it meets the condition. -/
theorem Tracked.Exact.step_iff (lawful : fifo.Lawful capacity entries) {tracked : Tracked Queue}
    (exact : tracked.Exact entries) (action : Action) :
    (∀ next, tracked.step fifo capacity action = some next → next.Exact entries) ↔
      PairedAsMeant entries tracked action := by
  cases action with
  | record nodeRet =>
      by_cases room : (nodeRet.isStop || nodeRet.identifier = 0 ||
          tracked.pairing.outstanding.length < capacity) = true
      · have fits : nodeRet.isStop = true ∨ nodeRet.identifier = 0 ∨
            tracked.pairing.outstanding.length < capacity := by
          simpa [or_assoc] using room
        have stepped : tracked.step fifo capacity (.record nodeRet) =
            some ⟨tracked.fdi.processRecord fifo nodeRet, tracked.pairing.record nodeRet⟩ :=
          if_pos room
        have kept := System.Exact.record_iff lawful exact fits
        rw [stepped]
        constructor
        · intro keeps
          exact kept.mp (keeps _ rfl)
        · intro meant next same
          cases same
          exact kept.mpr meant
      · have stuck : tracked.step fifo capacity (.record nodeRet) = none := if_neg room
        rw [stuck]
        refine iff_of_true nofun fun stop => ?_
        simp [stop] at room
  | printLog clear =>
      refine iff_of_true ?_ trivial
      rintro next stepped
      cases stepped
      exact System.Exact.printLog exact clear
  | modEn bmap enFlag =>
      refine iff_of_true ?_ trivial
      rintro next stepped
      cases stepped
      exact System.Exact.modEn exact bmap enFlag

/-- A batch is a run of its records, however the records are cut into batches. -/
theorem exec_batch {tracked last : Tracked Queue} {records : List FdiNodeIns}
    (run : Runs.exec (Tracked.step fifo capacity) tracked (records.map .record) = some last) :
    last.fdi = tracked.fdi.processBatch fifo records := by
  induction records generalizing tracked with
  | nil =>
      cases run
      rfl
  | cons nodeRet records ih =>
      obtain ⟨next, stepped, rest⟩ := Runs.exec_cons.mp run
      have processed : next.fdi = tracked.fdi.processRecord fifo nodeRet := by
        unfold Tracked.step at stepped
        dsimp only at stepped
        split at stepped
        · cases stepped
          rfl
        · cases stepped
      rw [ih rest, processed]
      rfl

/-- The thread at its start: nothing is outstanding and nothing has been counted. -/
structure Fdi.Reset (entries : Queue → List FdiNodeIns) (fdi : Fdi Queue) : Prop where
  startIdfsCtr : fdi.startIdfsCtr = 0
  bufferPtrIdfs : entries fdi.bufferPtrIdfs = []
  nodes : ∀ node, (fdi.pRegTable node).evtStart = 0 ∧ (fdi.pRegTable node).clear =
    fdi.pRegTable node

theorem Fdi.Reset.exact {fdi : Fdi Queue} (reset : fdi.Reset entries) :
    Exact entries fdi Pairing.empty := by
  refine ⟨?_, ?_, fun node => ?_⟩
  · rw [reset.startIdfsCtr, reset.bufferPtrIdfs]
    rfl
  · rw [reset.bufferPtrIdfs]
    exact List.Perm.refl _
  · obtain ⟨idle, cleared⟩ := reset.nodes node
    rw [← cleared]
    exact ⟨idle, rfl, rfl, rfl, rfl⟩

/-- In every state of a run the queue holds the outstanding starts and the statistics of each node
are those of its durations, if and only if every step of the run meets the condition. -/
theorem fdi_statistics_iff (lawful : fifo.Lawful capacity entries) {fdi : Fdi Queue}
    (reset : fdi.Reset entries) (actions : List Action) :
    (∀ before after reached, actions = before ++ after →
      Runs.exec (Tracked.step fifo capacity) ⟨fdi, Pairing.empty⟩ before = some reached →
      reached.Exact entries) ↔
      Runs.Meets (Tracked.step fifo capacity) (PairedAsMeant entries) ⟨fdi, Pairing.empty⟩
        actions := by
  have start : Tracked.Exact entries ⟨fdi, Pairing.empty⟩ := reset.exact
  rw [Runs.always_iff start]
  exact Runs.meets_iff (fun _ action exact _ => exact.step_iff lawful action)
    (fun _ action next exact _ meant stepped =>
      (exact.step_iff lawful action).mpr meant next stepped)
    start fun _ _ => trivial

/-- A thread with a queue of `FDI_FIFO_DEPTH` starts. -/
def idleFdi : Fdi { starts : List FdiNodeIns // starts.length ≤ 64 } where
  pRegTable _ := ⟨2, 0, 0, 0, 0, 0, 0⟩
  moduleBmapEn := 2
  bufferPtrIdfs := ⟨[], Nat.zero_le 64⟩
  startIdfsCtr := 0
  getStartNode := ⟨0, 0, 0, 0⟩
  processedSqNo := 0
  missedSqNo := 0

theorem idleFdi_reset : idleFdi.Reset Subtype.val := ⟨rfl, rfl, fun _ => ⟨rfl, rfl⟩⟩

/-- Two nodes start with two identifiers, and the one that started last stops first. -/
def crossedPairs : List Action :=
  [.record ⟨1, 1, 5, 7⟩, .record ⟨2, 2, 6, 9⟩, .record ⟨3, 0x4002, 10, 9⟩,
    .record ⟨4, 0x4001, 12, 7⟩]

theorem fdi_statistics_crossedPairs :
    ∃ reached, Runs.exec (Tracked.step (FifoQueue.ofList 64) 64) ⟨idleFdi, Pairing.empty⟩
        crossedPairs = some reached ∧
      reached.pairing.durations 1 = [7] ∧ reached.pairing.durations 2 = [4] ∧
      reached.Exact Subtype.val := by
  have meets : Runs.Meets (Tracked.step (FifoQueue.ofList 64) 64) (PairedAsMeant Subtype.val)
      ⟨idleFdi, Pairing.empty⟩ crossedPairs := by
    refine ⟨nofun, nofun, ⟨fun _ => ?_, ⟨fun _ => ?_, trivial⟩⟩⟩
    · refine ⟨rfl, rfl, fun start oldest => ?_⟩
      cases oldest
      exact ⟨by decide, by decide, by decide⟩
    · refine ⟨rfl, rfl, fun start oldest => ?_⟩
      cases oldest
      exact ⟨by decide, by decide, by decide⟩
  exact ⟨_, rfl, by decide, by decide,
    (fdi_statistics_iff (FifoQueue.ofList_lawful 64) idleFdi_reset _).mpr meets _ [] _
      (List.append_nil _).symm rfl⟩

/-- The stop of a node takes the start of another node that has the same identifier. -/
theorem stop_takes_start_of_other_node :
    ¬ ∀ actions before after reached,
      actions = before ++ after →
      Runs.exec (Tracked.step (FifoQueue.ofList 64) 64) ⟨idleFdi, Pairing.empty⟩ before =
        some reached →
      reached.Exact Subtype.val := by
  intro exact
  have after := exact [.record ⟨1, 1, 5, 7⟩, .record ⟨2, 0x4002, 9, 7⟩] _ [] _
    (List.append_nil _).symm rfl
  exact absurd (after.nodes 2).eventCtr (by decide)

end QHal.System
