/-
Module: QHal.Lib.FifoQueue
Purpose: FIFO queues of limited length, given by their operations, and the search that takes the
  entries out one after the other and puts those behind that do not match.
Trusted boundary: none
Main exports: FifoQueue, FifoQueue.Lawful, FifoQueue.search, FifoQueue.Lawful.search_some,
  FifoQueue.Lawful.search_none, FifoQueue.ofList
-/
import Mathlib.Data.List.Basic

namespace QHal

/-- The operations of a queue.  Taking an entry out of an empty queue gives none. -/
structure FifoQueue (Queue Entry : Type) where
  enqueue : Queue → Entry → Queue
  dequeue : Queue → Option (Entry × Queue)

namespace FifoQueue

variable {Queue Entry : Type}

/-- A queue with room for `capacity` entries, the oldest of which is taken out first. -/
structure Lawful (fifo : FifoQueue Queue Entry) (capacity : Nat)
    (entries : Queue → List Entry) : Prop where
  bounded : ∀ queue, (entries queue).length ≤ capacity
  enqueue : ∀ queue entry, (entries queue).length < capacity →
    entries (fifo.enqueue queue entry) = entries queue ++ [entry]
  dequeue : ∀ queue entry rest, entries queue = entry :: rest →
    ∃ next, fifo.dequeue queue = some (entry, next) ∧ entries next = rest

/-- Takes out at most `count` entries and puts them behind until one of them matches.  Returns
whether there was a match, the queue and the entry that was taken out last, which stays what it was
when nothing can be taken out. -/
def search (fifo : FifoQueue Queue Entry) (matching : Entry → Bool) :
    Nat → Queue → Entry → Bool × Queue × Entry
  | 0, queue, entry => (false, queue, entry)
  | count + 1, queue, entry =>
      let (entry, queue) := (fifo.dequeue queue).getD (entry, queue)
      if matching entry then (true, queue, entry)
      else fifo.search matching count (fifo.enqueue queue entry) entry

variable {fifo : FifoQueue Queue Entry} {capacity : Nat} {entries : Queue → List Entry}
  {matching : Entry → Bool}

/-- An entry that does not match is put behind the others. -/
theorem Lawful.search_cons (lawful : fifo.Lawful capacity entries) {queue : Queue} {first : Entry}
    {rest : List Entry} (holds : entries queue = first :: rest) (other : matching first = false)
    (count : Nat) (stale : Entry) :
    ∃ next, fifo.search matching (count + 1) queue stale = fifo.search matching count next first ∧
      entries next = rest ++ [first] := by
  obtain ⟨taken, dequeued, behind⟩ := lawful.dequeue queue first rest holds
  have room : (entries taken).length < capacity := by
    have bounded := lawful.bounded queue
    rw [holds, List.length_cons] at bounded
    rw [behind]
    exact bounded
  refine ⟨fifo.enqueue taken first, ?_, ?_⟩
  · rw [search, dequeued]
    simp [other]
  · rw [lawful.enqueue taken first room, behind]

/-- The first match is taken out, and the entries before it stand behind the others. -/
theorem Lawful.search_match (lawful : fifo.Lawful capacity entries) {queue : Queue}
    {front back : List Entry} {found : Entry} (holds : entries queue = front ++ found :: back)
    (others : ∀ entry ∈ front, matching entry = false) (hit : matching found = true)
    {count : Nat} (enough : front.length < count) (stale : Entry) :
    ∃ next, fifo.search matching count queue stale = (true, next, found) ∧
      entries next = back ++ front := by
  induction front generalizing queue back count stale with
  | nil =>
      obtain ⟨rest, rfl⟩ := Nat.exists_eq_succ_of_ne_zero (Nat.ne_of_gt enough)
      obtain ⟨next, dequeued, behind⟩ := lawful.dequeue queue found back holds
      refine ⟨next, ?_, ?_⟩
      · rw [search, dequeued]
        simp [hit]
      · rw [behind, List.append_nil]
  | cons first front ih =>
      obtain ⟨rest, rfl⟩ := Nat.exists_eq_succ_of_ne_zero (Nat.ne_of_gt (Nat.zero_lt_of_lt enough))
      obtain ⟨other, others⟩ := List.forall_mem_cons.mp others
      rw [List.cons_append] at holds
      obtain ⟨rotated, same, shifted⟩ := lawful.search_cons holds other rest stale
      rw [List.append_assoc, List.cons_append] at shifted
      obtain ⟨next, result, behind⟩ := ih shifted others (Nat.lt_of_succ_lt_succ enough) first
      refine ⟨next, same.trans result, ?_⟩
      rw [behind, List.append_assoc, List.singleton_append]

/-- Entries of which none matches are put behind the others. -/
theorem Lawful.search_miss (lawful : fifo.Lawful capacity entries) {queue : Queue}
    {front back : List Entry} (holds : entries queue = front ++ back)
    (others : ∀ entry ∈ front, matching entry = false) (stale : Entry) :
    ∃ next last, fifo.search matching front.length queue stale = (false, next, last) ∧
      entries next = back ++ front := by
  induction front generalizing queue back stale with
  | nil => exact ⟨queue, stale, rfl, holds.trans (List.append_nil back).symm⟩
  | cons first front ih =>
      obtain ⟨other, others⟩ := List.forall_mem_cons.mp others
      rw [List.cons_append] at holds
      obtain ⟨rotated, same, shifted⟩ := lawful.search_cons holds other front.length stale
      rw [List.append_assoc] at shifted
      obtain ⟨next, last, result, behind⟩ := ih shifted others first
      refine ⟨next, last, same.trans result, ?_⟩
      rw [behind, List.append_assoc, List.singleton_append]

/-- A search through the whole queue takes out the first match. -/
theorem Lawful.search_some (lawful : fifo.Lawful capacity entries) {queue : Queue} {found : Entry}
    (first : (entries queue).find? matching = some found) (stale : Entry) :
    ∃ next, fifo.search matching (entries queue).length queue stale = (true, next, found) ∧
      (entries queue).Perm (found :: entries next) := by
  obtain ⟨hit, front, back, holds, others⟩ := List.find?_eq_some_iff_append.mp first
  have none : ∀ entry ∈ front, matching entry = false := by simpa using others
  have enough : front.length < (entries queue).length := by
    rw [holds, List.length_append, List.length_cons]
    exact Nat.lt_add_of_pos_right (Nat.zero_lt_succ _)
  obtain ⟨next, result, behind⟩ := lawful.search_match holds none hit enough stale
  refine ⟨next, result, ?_⟩
  rw [holds, behind]
  exact List.perm_middle.trans (List.perm_append_comm.cons found)

/-- A search through the whole queue without a match leaves the queue as it was. -/
theorem Lawful.search_none (lawful : fifo.Lawful capacity entries) {queue : Queue}
    (none : (entries queue).find? matching = none) (stale : Entry) :
    ∃ next last, fifo.search matching (entries queue).length queue stale = (false, next, last) ∧
      entries next = entries queue := by
  have others : ∀ entry ∈ entries queue, matching entry = false := by
    simpa using List.find?_eq_none.mp none
  exact lawful.search_miss (List.append_nil (entries queue)).symm others stale

/-- A list as a queue. -/
def ofList (capacity : Nat) : FifoQueue { entries : List Entry // entries.length ≤ capacity } Entry
    where
  enqueue queue entry :=
    if room : queue.val.length < capacity then
      ⟨queue.val ++ [entry], Nat.le_trans (Nat.le_of_eq List.length_append) room⟩
    else queue
  dequeue
    | ⟨[], _⟩ => none
    | ⟨entry :: rest, bounded⟩ => some (entry, ⟨rest, Nat.le_of_succ_le bounded⟩)

theorem ofList_lawful (capacity : Nat) :
    (@ofList Entry capacity).Lawful capacity Subtype.val where
  bounded queue := queue.property
  enqueue queue entry room := by
    rw [ofList]
    simp [room]
  dequeue := by
    rintro ⟨_, bounded⟩ entry rest rfl
    exact ⟨⟨rest, Nat.le_of_succ_le bounded⟩, rfl, rfl⟩

end FifoQueue

end QHal
