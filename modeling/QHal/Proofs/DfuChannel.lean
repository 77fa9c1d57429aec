/-
Module: QHal.Proofs.DfuChannel
Purpose: The two rings between the loader of resources and an honest host: what the elements hold
  while nothing or one answer is awaited, which of the two has the next move, and that an element
  that is not consumed is not rewritten.
Trusted boundary: none
Main exports: Ring.Empty, Ring.Single, Ring.Kept, Quiet, Pending, Channel, System.weight,
  System.helpful
-/
import QHal.Boot.DfuHost
import QHal.Lib.Fair

namespace QHal.SysLoader

variable {api : Api}

/-! ## Rings of two elements -/

namespace Ring

variable {α : Type} {ring : Ring α} {message : α}

/-- Nothing waits in the ring. -/
def Empty (ring : Ring α) : Prop := ring.writeIdx = ring.readIdx

/-- One message waits, which is all that a ring of two elements takes. -/
structure Single (ring : Ring α) (message : α) : Prop where
  next : ring.writeIdx = ring.readIdx + 1
  front : ring.front = message

/-- The element waits to be consumed. -/
def Waits (ring : Ring α) (index : Fin 2) : Prop :=
  ring.readIdx ≠ ring.writeIdx ∧ index = ring.readIdx

/-- An element that still waits is as it was. -/
def Kept (ring later : Ring α) : Prop :=
  ∀ index, ring.Waits index → later.Waits index → later.element index = ring.element index

theorem Kept.refl (ring : Ring α) : Kept ring ring := fun _ _ _ => rfl

theorem Kept.of_empty {later : Ring α} (empty : ring.Empty) : Kept ring later :=
  fun _ waits _ => absurd empty.symm waits.1

theorem Kept.to_empty {later : Ring α} (empty : later.Empty) : Kept ring later :=
  fun _ _ waits => absurd empty.symm waits.1

theorem Empty.checkEmpty (empty : ring.Empty) : ring.checkEmpty = true :=
  beq_iff_eq.mpr (Eq.symm empty)

theorem Single.checkEmpty (single : ring.Single message) : ring.checkEmpty = false := by
  rw [Ring.checkEmpty, single.next]
  generalize ring.readIdx = index
  revert index
  decide

theorem Single.not_empty (single : ring.Single message) : ¬ ring.Empty := by
  intro empty
  have filled := single.checkEmpty
  rw [empty.checkEmpty] at filled
  cases filled

theorem Empty.checkOccupancy (empty : ring.Empty) : ring.checkOccupancy = true := by
  rw [Ring.checkOccupancy, show ring.writeIdx = ring.readIdx from empty]
  generalize ring.readIdx = index
  revert index
  decide

theorem Single.checkOccupancy (single : ring.Single message) : ring.checkOccupancy = false := by
  rw [Ring.checkOccupancy, single.next]
  generalize ring.readIdx = index
  revert index
  decide

/-- A ring is empty or holds one message. -/
theorem empty_or_single (ring : Ring α) : ring.Empty ∨ ring.Single ring.front := by
  have cases : ∀ read write : Fin 2, write = read ∨ write = read + 1 := by decide
  exact (cases ring.readIdx ring.writeIdx).imp id fun next => ⟨next, rfl⟩

theorem Empty.put (empty : ring.Empty) (len : UInt16) (message : α) :
    (ring.put len message).Single message where
  next := congrArg (· + 1) empty
  front := by
    unfold Ring.front Ring.put
    dsimp only
    rw [show ring.writeIdx = ring.readIdx from empty, Function.update_self]

theorem Single.increment (single : ring.Single message) : ring.incrementReadIndex.Empty :=
  single.next

theorem Single.setLen (single : ring.Single message) (index : Fin 2) (len : UInt16) :
    (ring.setLen index len).Single message where
  next := single.next
  front := by
    rw [← single.front]
    unfold Ring.front Ring.setLen
    dsimp only
    rw [Function.update_apply]
    split
    case isTrue here => rw [here]
    case isFalse => rfl

theorem Single.attach (single : ring.Single message) (index : UInt8) :
    (ring.attachBufferToElement index).Single message := by
  unfold Ring.attachBufferToElement
  split
  · exact single.setLen _ _
  · exact single

theorem Empty.attach (empty : ring.Empty) (index : UInt8) :
    (ring.attachBufferToElement index).Empty := by
  unfold Ring.attachBufferToElement
  split
  · exact empty
  · exact empty

/-- A buffer is attached to an element that does not wait. -/
theorem Kept.attach_zero (apart : ring.readIdx ≠ ring.writeIdx → ring.readIdx ≠ 0) :
    Kept ring (ring.attachBufferToElement 0) := by
  intro index waits _
  have other : index ≠ 0 := waits.2 ▸ apart waits.1
  exact Function.update_of_ne other _ _

end Ring

/-- The two rings of a later machine keep what waits. -/
structure RingsKept (machine later : Machine) : Prop where
  a2f : machine.a2f.Kept later.a2f
  f2a : machine.f2a.Kept later.f2a

theorem RingsKept.of_eq {machine later : Machine} (a2f : later.a2f = machine.a2f)
    (f2a : later.f2a = machine.f2a) : RingsKept machine later :=
  ⟨a2f ▸ Ring.Kept.refl _, f2a ▸ Ring.Kept.refl _⟩

theorem RingsKept.of_sent {machine later : Machine} (empty : machine.f2a.Empty)
    (a2f : later.a2f = machine.a2f) : RingsKept machine later :=
  ⟨a2f ▸ Ring.Kept.refl _, Ring.Kept.of_empty empty⟩

theorem RingsKept.of_received {machine later : Machine} (empty : later.a2f.Empty)
    (f2a : later.f2a = machine.f2a) : RingsKept machine later :=
  ⟨Ring.Kept.to_empty empty, f2a ▸ Ring.Kept.refl _⟩

/-! ## The state of the exchange -/

/-- The host has read what is in its ring. -/
def System.Handed (system : System) : Prop :=
  (system.machine.f2a.Empty ∧ system.read = false) ∨
    ((∃ message, system.machine.f2a.Single message) ∧ system.read = true)

/-- A message of the loader waits that the host has not read. -/
structure System.Unread (system : System) (message : F2aMessage) : Prop where
  single : system.machine.f2a.Single message
  read : system.read = false

/-- Nothing is awaited from the host; what it has not read needs no answer. -/
structure Quiet (host : Host api) (system : System) : Prop where
  a2f : system.machine.a2f.Empty
  todo : system.todo = none
  f2a : system.Handed ∨ ∃ message, system.Unread message ∧ host.answer message = none

/-- One message is awaited from the host: it was asked for, or it is about to be sent, or it
waits. -/
inductive Pending (host : Host api) (answer : A2fMessage) (system : System) : Prop where
  | asked (message : F2aMessage) (unread : system.Unread message)
      (answers : host.answer message = some answer) (a2f : system.machine.a2f.Empty)
      (todo : system.todo = none)
  | answering (handed : system.Handed) (a2f : system.machine.a2f.Empty)
      (todo : system.todo = some answer)
  | answered (handed : system.Handed) (a2f : system.machine.a2f.Single answer)
      (todo : system.todo = none)

/-- What is awaited, if anything is. -/
def Channel (host : Host api) : Option A2fMessage → System → Prop
  | none => Quiet host
  | some answer => Pending host answer

/-! ## Whose move it is -/

namespace System

variable (system : System)

/-- How much the exchange has to do before the loader has the next move. -/
def weight : Nat :=
  (if system.machine.f2a.checkEmpty then 0 else if system.read then 1 else 8) +
    (if system.todo.isSome then 4 else 0) +
    (if system.machine.a2f.checkEmpty then 0
      else if system.machine.control = .attaching then 3 else 2)

/-- The party whose move helps. -/
def helpful : Party :=
  if system.machine.a2f.checkEmpty = false then .loader
  else if system.todo.isSome then .put
  else if system.machine.f2a.checkEmpty then .loader
  else if system.read then .take
  else .read

theorem weight_lt : system.weight < 16 := by
  unfold weight
  split_ifs <;> omega

/-- A move of the host changes the machine in its rings only. -/
structure SameLoader (machine later : Machine) : Prop where
  control : later.control = machine.control
  cntxt : later.cntxt = machine.cntxt
  memory : later.memory = machine.memory
  trace : later.trace = machine.trace

/-- What a move of the host, by one of its parties, leaves. -/
structure HostMoved (host : Host api) (awaited : Option A2fMessage) (party : Party)
    (system next : System) : Prop where
  loader : SameLoader system.machine next.machine
  channel : Channel host awaited next
  kept : RingsKept system.machine next.machine
  advances : next.weight < system.weight ∨
    next.weight = system.weight ∧ next.helpful = system.helpful ∧ party ≠ system.helpful
  a2f : next.machine.a2f = system.machine.a2f ∨
    party = .put ∧ system.todo.isSome = true ∧ system.machine.a2f.Empty ∧
      next.machine.a2f.readIdx = system.machine.a2f.readIdx

variable {system : System} {host : Host api} {awaited : Option A2fMessage}

theorem HostMoved.idle {party : Party} (channel : Channel host awaited system)
    (other : party ≠ system.helpful) : HostMoved host awaited party system system where
  loader := ⟨rfl, rfl, rfl, rfl⟩
  channel := channel
  kept := .of_eq rfl rfl
  advances := .inr ⟨rfl, rfl, other⟩
  a2f := .inl rfl

theorem not_helpful_read
    (idle : system.read = true ∨ system.machine.f2a.checkEmpty = true ∨ system.todo.isSome = true) :
    Party.read ≠ system.helpful := by
  unfold helpful
  split_ifs <;> simp_all

theorem not_helpful_take (idle : system.read ≠ true) : Party.take ≠ system.helpful := by
  unfold helpful
  split_ifs <;> simp_all

theorem not_helpful_put (idle : system.todo = none) : Party.put ≠ system.helpful := by
  unfold helpful
  split_ifs <;> simp_all

theorem Handed.read_of_single {message : F2aMessage} (handed : system.Handed)
    (single : system.machine.f2a.Single message) : system.read = true := by
  rcases handed with ⟨empty, -⟩ | ⟨-, read⟩
  · exact absurd empty single.not_empty
  · exact read

/-- The host reads a message that it has not read yet, and is about to answer it. -/
theorem readMessage_moved (channel : Channel host awaited system) :
    HostMoved host awaited .read system (system.readMessage host) := by
  unfold readMessage
  split
  case isTrue idle => exact .idle channel (not_helpful_read idle)
  case isFalse busy =>
    obtain ⟨unread, filled, free⟩ : system.read = false ∧
        system.machine.f2a.checkEmpty = false ∧ system.todo = none := by
      simpa [not_or] using busy
    have single : system.machine.f2a.Single system.machine.f2a.front := by
      rcases system.machine.f2a.empty_or_single with empty | single
      · rw [empty.checkEmpty] at filled
        cases filled
      · exact single
    have away : ¬ system.Handed := by
      intro handed
      rw [handed.read_of_single single] at unread
      cases unread
    have lighter : 1 + (if (host.answer system.machine.f2a.front).isSome then 4 else 0) < 8 := by
      split <;> omega
    refine ⟨⟨rfl, rfl, rfl, rfl⟩, ?_, .of_eq rfl rfl, .inl ?_, .inl rfl⟩
    · cases awaited with
      | none =>
          have quiet : Quiet host system := channel
          obtain ⟨message, waits, silent⟩ := quiet.f2a.resolve_left away
          refine ⟨quiet.a2f, ?_, .inl (.inr ⟨⟨_, single⟩, rfl⟩)⟩
          rw [waits.single.front]
          exact silent
      | some answer =>
          rcases (channel : Pending host answer system) with
            ⟨message, waits, answers, a2f, -⟩ | ⟨handed, -⟩ | ⟨handed, -⟩
          · refine .answering (.inr ⟨⟨_, single⟩, rfl⟩) a2f ?_
            dsimp only
            rw [waits.single.front]
            exact answers
          · exact absurd handed away
          · exact absurd handed away
    · unfold weight
      simp only [filled, unread, free, Bool.false_eq_true, if_false, if_true, Option.isSome_none]
      omega

/-- The host gives an element back that it has read. -/
theorem takeMessage_moved (channel : Channel host awaited system) :
    HostMoved host awaited .take system system.takeMessage := by
  unfold takeMessage
  split
  case isFalse idle => exact .idle channel (not_helpful_take idle)
  case isTrue read =>
    have single : system.Handed → ∃ message, system.machine.f2a.Single message := by
      rintro (⟨-, unread⟩ | ⟨single, -⟩)
      · rw [read] at unread
        cases unread
      · exact single
    have noUnread : ∀ message, ¬ system.Unread message := by
      intro message unread
      have still := unread.read
      rw [read] at still
      cases still
    have handed : system.Handed := by
      cases awaited with
      | none =>
          have quiet : Quiet host system := channel
          exact quiet.f2a.resolve_right fun ⟨message, unread, _⟩ => noUnread message unread
      | some answer =>
          rcases (channel : Pending host answer system) with
            ⟨message, unread, -⟩ | ⟨handed, -⟩ | ⟨handed, -⟩
          · exact absurd unread (noUnread message)
          · exact handed
          · exact handed
    obtain ⟨message, waits⟩ := single handed
    have empty : system.machine.f2a.incrementReadIndex.Empty := waits.increment
    refine ⟨⟨rfl, rfl, rfl, rfl⟩, ?_, ⟨.refl _, .to_empty empty⟩, .inl ?_, .inl rfl⟩
    · cases awaited with
      | none =>
          have quiet : Quiet host system := channel
          exact ⟨quiet.a2f, quiet.todo, .inl (.inl ⟨empty, rfl⟩)⟩
      | some answer =>
          rcases (channel : Pending host answer system) with
            ⟨message, unread, -⟩ | ⟨-, a2f, todo⟩ | ⟨-, a2f, todo⟩
          · exact absurd unread (noUnread message)
          · exact .answering (.inl ⟨empty, rfl⟩) a2f todo
          · exact .answered (.inl ⟨empty, rfl⟩) a2f todo
    · unfold weight
      simp only [empty.checkEmpty, waits.checkEmpty, read, Bool.false_eq_true, if_false, if_true]
      omega

/-- The host sends the answer that it owes. -/
theorem putMessage_moved (channel : Channel host awaited system) :
    HostMoved host awaited .put system (system.putMessage host) := by
  unfold putMessage
  split
  case h_1 idle => exact .idle channel (not_helpful_put idle)
  case h_2 message owed =>
    cases awaited with
    | none =>
        have quiet : Quiet host system := channel
        rw [quiet.todo] at owed
        cases owed
    | some answer =>
        rcases (channel : Pending host answer system) with
          ⟨_, -, -, -, todo⟩ | ⟨handed, a2f, todo⟩ | ⟨-, -, todo⟩
        · rw [todo] at owed
          cases owed
        · obtain rfl : answer = message := Option.some.inj (todo.symm.trans owed)
          rw [if_pos a2f.checkOccupancy]
          have single := a2f.put (host.lenOf answer) answer
          refine ⟨⟨rfl, rfl, rfl, rfl⟩, .answered handed single rfl, ⟨.of_empty a2f, .refl _⟩,
            .inl ?_, .inr ⟨rfl, by rw [todo]; rfl, a2f, rfl⟩⟩
          have light : (if system.machine.control = .attaching then 3 else 2) < 4 := by
            split <;> omega
          unfold weight
          simp only [single.checkEmpty, a2f.checkEmpty, todo, Option.isSome_some,
            Option.isSome_none, Bool.false_eq_true, if_false, if_true]
          omega
        · rw [todo] at owed
          cases owed

/-! ## The moves of the loader -/

/-- A pass of the loader that leaves the exchange as it is, where the host has the next move. -/
structure PassIdle (host : Host api) (awaited : Option A2fMessage) (system : System)
    (later : Machine) : Prop where
  channel : Channel host awaited { system with machine := later }
  weight : weight { system with machine := later } = system.weight
  helpful : System.helpful { system with machine := later } = system.helpful
  other : Party.loader ≠ system.helpful

variable {later : Machine}

/-- The rings are as they were. -/
theorem still (quiet : Quiet host system) (a2f : later.a2f = system.machine.a2f)
    (f2a : later.f2a = system.machine.f2a) : Quiet host { system with machine := later } := by
  refine ⟨?_, quiet.todo, ?_⟩
  · dsimp only
    rw [a2f]
    exact quiet.a2f
  · rcases quiet.f2a with handed | ⟨other, unread, silent⟩
    · left
      unfold Handed at handed ⊢
      dsimp only
      rw [f2a]
      exact handed
    · exact .inr ⟨other, ⟨f2a ▸ unread.single, unread.read⟩, silent⟩

/-- The ring to the host is full. -/
theorem blocked (quiet : Quiet host system) {message : F2aMessage}
    (full : system.machine.f2a.Single message) (a2f : later.a2f = system.machine.a2f)
    (f2a : later.f2a = system.machine.f2a) : PassIdle host none system later where
  channel := still quiet a2f f2a
  weight := by
    unfold System.weight
    dsimp only
    rw [a2f, f2a, quiet.a2f.checkEmpty, if_pos rfl, if_pos rfl]
  helpful := by
    unfold System.helpful
    dsimp only
    rw [a2f, f2a]
  other := by
    unfold System.helpful
    rw [quiet.a2f.checkEmpty, full.checkEmpty, quiet.todo]
    cases system.read <;> simp

/-- The answer is not there yet. -/
theorem waiting {answer : A2fMessage} (pending : Pending host answer system)
    (before : system.machine.a2f.Empty) (behind : later.a2f.Empty)
    (f2a : later.f2a = system.machine.f2a) : PassIdle host (some answer) system later where
  channel := by
    rcases pending with ⟨message, unread, answers, -, todo⟩ | ⟨handed, -, todo⟩ | ⟨-, single, -⟩
    · exact .asked message ⟨f2a ▸ unread.single, unread.read⟩ answers behind todo
    · refine .answering ?_ behind todo
      unfold Handed at handed ⊢
      dsimp only
      rw [f2a]
      exact handed
    · exact absurd before single.not_empty
  weight := by
    unfold System.weight
    dsimp only
    rw [f2a, before.checkEmpty, behind.checkEmpty, if_pos rfl, if_pos rfl]
  helpful := by
    unfold System.helpful
    dsimp only
    rw [f2a, before.checkEmpty, behind.checkEmpty]
  other := by
    unfold System.helpful
    rcases pending with ⟨message, unread, -, -, todo⟩ | ⟨-, -, todo⟩ | ⟨-, single, -⟩
    · rw [before.checkEmpty, todo, unread.single.checkEmpty, unread.read]
      simp
    · rw [before.checkEmpty, todo]
      simp
    · exact absurd before single.not_empty

theorem read_of_quiet (quiet : Quiet host system) (empty : system.machine.f2a.Empty) :
    system.read = false := by
  rcases quiet.f2a with (⟨-, read⟩ | ⟨⟨message, single⟩, -⟩) | ⟨message, unread, -⟩
  · exact read
  · exact absurd empty single.not_empty
  · exact unread.read

/-- A request is sent. -/
theorem asked (quiet : Quiet host system) (empty : system.machine.f2a.Empty)
    {message : F2aMessage} {answer : A2fMessage} (answers : host.answer message = some answer)
    {len : UInt16} (a2f : later.a2f = system.machine.a2f)
    (f2a : later.f2a = system.machine.f2a.put len message) :
    Pending host answer { system with machine := later } := by
  have unread : system.read = false := read_of_quiet quiet empty
  exact .asked message ⟨f2a ▸ empty.put len message, unread⟩ answers (a2f ▸ quiet.a2f) quiet.todo

/-- A message is sent that needs no answer. -/
theorem told (quiet : Quiet host system) (empty : system.machine.f2a.Empty)
    {message : F2aMessage} (silent : host.answer message = none) {len : UInt16}
    (a2f : later.a2f = system.machine.a2f)
    (f2a : later.f2a = system.machine.f2a.put len message) :
    Quiet host { system with machine := later } := by
  have unread : system.read = false := read_of_quiet quiet empty
  exact ⟨a2f ▸ quiet.a2f, quiet.todo,
    .inr ⟨message, ⟨f2a ▸ empty.put len message, unread⟩, silent⟩⟩

/-- The host has handed over an answer that waits. -/
theorem handed_of_single {answer message : A2fMessage} (pending : Pending host answer system)
    (single : system.machine.a2f.Single message) : system.Handed ∧ system.todo = none := by
  rcases pending with ⟨-, -, -, empty, -⟩ | ⟨-, empty, -⟩ | ⟨handed, -, todo⟩
  · exact absurd empty single.not_empty
  · exact absurd empty single.not_empty
  · exact ⟨handed, todo⟩

/-- The answer is received. -/
theorem received {answer : A2fMessage} (pending : Pending host answer system)
    (single : system.machine.a2f.Single answer) (a2f : later.a2f.Empty)
    (f2a : later.f2a = system.machine.f2a) : Quiet host { system with machine := later } := by
  obtain ⟨handed, todo⟩ := handed_of_single pending single
  refine ⟨a2f, todo, .inl ?_⟩
  unfold Handed at handed ⊢
  dsimp only
  rw [f2a]
  exact handed

/-- A buffer is attached while the answer waits. -/
theorem attached (later : Machine) {answer : A2fMessage} (pending : Pending host answer system)
    (single : system.machine.a2f.Single answer) (a2f : later.a2f.Single answer)
    (f2a : later.f2a = system.machine.f2a) (before : system.machine.control = .attaching)
    (behind : later.control ≠ .attaching) :
    Pending host answer { system with machine := later } ∧
      weight { system with machine := later } < system.weight := by
  obtain ⟨handed, todo⟩ := handed_of_single pending single
  constructor
  · refine .answered ?_ a2f todo
    unfold Handed at handed ⊢
    dsimp only
    rw [f2a]
    exact handed
  · unfold System.weight
    dsimp only
    rw [f2a, single.checkEmpty, a2f.checkEmpty, before, if_neg behind, if_pos rfl,
      if_neg Bool.false_ne_true, if_neg Bool.false_ne_true]
    exact Nat.add_lt_add_left (Nat.lt_succ_self 2) _

/-- What waits of a pending answer. -/
theorem pending_a2f {answer : A2fMessage} (pending : Pending host answer system) :
    system.machine.a2f.Empty ∨ system.machine.a2f.Single answer := by
  rcases pending with ⟨-, -, -, empty, -⟩ | ⟨-, empty, -⟩ | ⟨-, single, -⟩
  · exact .inl empty
  · exact .inl empty
  · exact .inr single

end System

end QHal.SysLoader
