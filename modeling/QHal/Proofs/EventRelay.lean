/-
Module: QHal.Proofs.EventRelay
Purpose: The payload slots of relayed Wi-Fi events: each is held by one event until that was
  dispatched and freed, and every event that took one is dispatched once with its payload,
  as long as no event with an unknown id takes a slot.
Trusted boundary: none
Main exports: Allocated, Good, Inv, Inv.step, Sound, relay_sound_iff
-/
import Mathlib.Data.List.Forall2
import Mathlib.Tactic.ByContra
import QHal.Lib.Circular
import QHal.Wlan.EventRelay

namespace QHal.EventRelay

variable {buf : PayloadType → Nat}

/-- The two buffers are there, and apart. -/
structure Allocated (buf : PayloadType → Nat) : Prop where
  some : ∀ payloadType, 0 < buf payloadType
  apart : buf .large + bufNum .large * bufLength .large ≤ buf .small ∨
    buf .small + bufNum .small * bufLength .small ≤ buf .large

/-! ## Slots -/

theorem bufNum_pos (payloadType : PayloadType) : 0 < bufNum payloadType := by
  cases payloadType <;> decide

theorem bufLength_pos (payloadType : PayloadType) : 0 < bufLength payloadType := by
  cases payloadType <;> decide

theorem slot_le (buf : PayloadType → Nat) {payloadType : PayloadType} {j : Nat}
    (below : j < bufNum payloadType) :
    slot buf payloadType j + bufLength payloadType ≤
      buf payloadType + bufNum payloadType * bufLength payloadType := by
  unfold slot
  have turns : (j + 1) * bufLength payloadType ≤ bufNum payloadType * bufLength payloadType :=
    Nat.mul_le_mul_right _ below
  rw [Nat.succ_mul] at turns
  omega

/-- Different slots do not overlap. -/
theorem slot_apart (allocated : Allocated buf) {first second : PayloadType} {j k : Nat}
    (below : j < bufNum first) (below' : k < bufNum second) (ne : first = second → j ≠ k) :
    slot buf first j + bufLength first ≤ slot buf second k ∨
      slot buf second k + bufLength second ≤ slot buf first j := by
  have left := slot_le buf below
  have right := slot_le buf below'
  by_cases same : first = second
  case pos =>
    subst same
    unfold slot
    rcases Nat.lt_or_gt_of_ne (ne rfl) with lt | gt
    · have turns : (j + 1) * bufLength first ≤ k * bufLength first := Nat.mul_le_mul_right _ lt
      rw [Nat.succ_mul] at turns
      omega
    · have turns : (k + 1) * bufLength first ≤ j * bufLength first := Nat.mul_le_mul_right _ gt
      rw [Nat.succ_mul] at turns
      omega
  case neg =>
    have base : buf first ≤ slot buf first j := Nat.le_add_right _ _
    have base' : buf second ≤ slot buf second k := Nat.le_add_right _ _
    cases first <;> cases second <;> rcases allocated.apart with apart | apart <;>
      first | exact absurd rfl same | omega

theorem slot_ne_zero (allocated : Allocated buf) (payloadType : PayloadType) (j : Nat) :
    slot buf payloadType j ≠ 0 := by
  have positive := allocated.some payloadType
  unfold slot
  omega

/-- The search for a slot finds its size class. -/
theorem owner_slot (allocated : Allocated buf) {payloadType : PayloadType} {j : Nat}
    (below : j < bufNum payloadType) : owner buf (slot buf payloadType j) = some payloadType := by
  have found : (List.range (bufNum payloadType)).any fun k =>
      slot buf payloadType j = slot buf payloadType k := by
    refine List.any_eq_true.mpr ⟨j, List.mem_range.mpr below, ?_⟩
    simp
  unfold owner
  cases payloadType with
  | large => rw [if_pos found]
  | small =>
      have missed : ¬((List.range (bufNum .large)).any fun k =>
          slot buf .small j = slot buf .large k) = true := by
        intro some
        obtain ⟨k, isIn, same⟩ := List.any_eq_true.mp some
        have equal := of_decide_eq_true same
        rcases slot_apart allocated below (List.mem_range.mp isIn) nofun with apart | apart
        · rw [equal] at apart
          exact absurd apart (by simp [bufLength])
        · rw [equal] at apart
          exact absurd apart (by simp [bufLength])
      rw [if_neg missed, if_pos found]

theorem writeSlot_outside (memory payload : Nat → UInt8) {dst length address : Nat}
    (apart : address < dst ∨ dst + length ≤ address) :
    writeSlot memory dst length payload address = memory address := by
  unfold writeSlot
  rw [if_neg (by omega)]

theorem writeSlot_inside (memory payload : Nat → UInt8) {dst length i : Nat}
    (below : i < length) : writeSlot memory dst length payload (dst + i) = payload i := by
  unfold writeSlot
  rw [if_pos (by omega), Nat.add_sub_cancel_left]

/-! ## The property -/

/-- How many events have a size class. -/
def countOf (payloadType : PayloadType) (events : List Taken) : Nat :=
  events.countP fun event => event.payloadType = payloadType

/-- The events that hold a slot. -/
def State.unfreed (state : State) : List Taken := state.accepted.drop state.freed

/-- The message that the consumer works on. -/
def Consumer.messages : Consumer → List Message
  | .idle => []
  | .taken message => [message]
  | .dispatched message => [message]

/-- The message that the consumer has yet to dispatch. -/
def Consumer.undispatched : Consumer → List Message
  | .taken message => [message]
  | _ => []

/-- The message of the relay that holds the mutex. -/
def State.relayed (state : State) : List Message :=
  (state.relaying.map Prod.fst).toList

/-- An event was dispatched with its own payload. -/
def Delivered (event : Taken) (dispatched : Dispatched) : Prop :=
  dispatched.message = event.message ∧
    ∀ i < bufLength event.payloadType, dispatched.content i = event.payload i

/-- What holds of the pool and of the events at every moment: the counters count the slots
that are held, the slots are held once and keep their payload, and the events that took a
slot were dispatched in order with their payload, or wait for it. -/
structure Good (state : State) : Prop where
  used : ∀ payloadType, state.pool.bufUsed payloadType = countOf payloadType state.unfreed
  bounds : ∀ payloadType, 0 ≤ state.pool.bufUsed payloadType ∧
    state.pool.bufUsed payloadType ≤ bufNum payloadType
  slots : (state.unfreed.map fun event => event.message.data).Nodup
  kept : ∀ event ∈ state.unfreed, ∀ i < bufLength event.payloadType,
    state.pool.memory (event.message.data + i) = event.payload i
  once : List.Forall₂ Delivered (state.accepted.take state.dispatched.length) state.dispatched
  waits : (state.accepted.drop state.dispatched.length).map Taken.message =
    state.consumer.undispatched ++ state.pipe ++ state.relayed

/-- How a relay is refused: at once, or by `wmi_event_notify`.  The pool before the relay
is left. -/
def RefusedUnchanged (state next : State) : Action → Prop
  | .relay _ _ _ => next.relaying = none → next.pool = state.pool
  | .notify => ∀ message before, state.relaying = some (message, before) →
      next.pipe = state.pipe → next.pool = before
  | _ => True

variable (buf) in
/-- Along a run, every state is good and every refused relay leaves the pool. -/
def Sound : State → List Action → Prop
  | state, [] => Good state
  | state, action :: actions =>
      Good state ∧ ∀ next, step buf state action = some next →
        RefusedUnchanged state next action ∧ Sound next actions

/-- An event that took a slot has an id that `wmi_event_notify` sends. -/
def Notified (state : State) : Action → Prop
  | .notify => ∀ message before, state.relaying = some (message, before) →
      notifies message.eventId = true
  | _ => True

/-! ## The invariant -/

/-- What the steps keep. -/
structure Inv (buf : PayloadType → Nat) (state : State) : Prop where
  tickets : ∀ (k : Nat) (event : Taken), state.accepted[k]? = some event →
    event.ticket = countOf event.payloadType (state.accepted.take k)
  placed : ∀ event ∈ state.accepted, event.message.data =
    slot buf event.payloadType (event.ticket % bufNum event.payloadType)
  pointer : ∀ payloadType, state.pool.bufWritePointer payloadType =
    countOf payloadType state.accepted % bufNum payloadType
  used : ∀ payloadType, state.pool.bufUsed payloadType = countOf payloadType state.unfreed
  room : ∀ payloadType, countOf payloadType state.unfreed ≤ bufNum payloadType
  kept : ∀ event ∈ state.unfreed, ∀ i < bufLength event.payloadType,
    state.pool.memory (event.message.data + i) = event.payload i
  pending : state.unfreed.map Taken.message =
    state.consumer.messages ++ state.pipe ++ state.relayed
  progress : state.dispatched.length + state.consumer.undispatched.length =
    state.freed + state.consumer.messages.length
  once : List.Forall₂ Delivered (state.accepted.take state.dispatched.length) state.dispatched
  sent : ∀ message ∈ state.consumer.messages ++ state.pipe, notifies message.eventId = true
  before : ∀ message pool, state.relaying = some (message, pool) → state.pool ≠ pool

theorem countOf_append (payloadType : PayloadType) (first second : List Taken) :
    countOf payloadType (first ++ second) =
      countOf payloadType first + countOf payloadType second :=
  List.countP_append

theorem countOf_singleton (payloadType : PayloadType) (event : Taken) :
    countOf payloadType [event] = if event.payloadType = payloadType then 1 else 0 := by
  simp [countOf, List.countP_cons]

theorem countOf_cons (payloadType : PayloadType) (event : Taken) (events : List Taken) :
    countOf payloadType (event :: events) =
      countOf payloadType events + if event.payloadType = payloadType then 1 else 0 := by
  simp [countOf, List.countP_cons]

theorem inv_start (buf : PayloadType → Nat) (memory : Nat → UInt8) :
    Inv buf (State.start memory) where
  tickets _ _ is := by cases is
  placed _ is := by cases is
  pointer payloadType := by cases payloadType <;> rfl
  used _ := rfl
  room _ := Nat.zero_le _
  kept _ is := by cases is
  pending := rfl
  progress := rfl
  once := List.Forall₂.nil
  sent _ is := by cases is
  before _ _ is := by cases is

namespace Inv

variable {state : State}

theorem freed_le (inv : Inv buf state) : state.freed ≤ state.accepted.length := by
  have same := inv.once.length_eq
  rw [List.length_take] at same
  have progress := inv.progress
  have behind : state.consumer.undispatched.length ≤ state.consumer.messages.length := by
    cases state.consumer <;> simp [Consumer.undispatched, Consumer.messages]
  omega

/-- Behind an event, the next ticket of its size class. -/
theorem ticket_succ (inv : Inv buf state) {event : Taken} {k : Nat}
    (is : state.accepted[k]? = some event) :
    countOf event.payloadType (state.accepted.take (k + 1)) = event.ticket + 1 := by
  rw [List.take_add_one, is, countOf_append, inv.tickets k event is]
  simp [countOf]

/-- The ticket of an event that holds a slot lies in the window of its size class. -/
theorem ticket_window (inv : Inv buf state) {event : Taken} {k : Nat}
    (is : state.accepted[k]? = some event) (unfreed : state.freed ≤ k) :
    event.ticket < countOf event.payloadType state.accepted ∧
      countOf event.payloadType state.accepted ≤
        event.ticket + countOf event.payloadType state.unfreed := by
  have whole : countOf event.payloadType state.accepted =
      countOf event.payloadType (state.accepted.take state.freed) +
        countOf event.payloadType state.unfreed := by
    rw [← countOf_append]
    exact congrArg _ (List.take_append_drop _ _).symm
  have ticket := inv.tickets k event is
  have before : countOf event.payloadType (state.accepted.take state.freed) ≤
      countOf event.payloadType (state.accepted.take k) :=
    ((List.take_prefix_take_left unfreed).sublist).countP_le
  have after : countOf event.payloadType (state.accepted.take (k + 1)) ≤
      countOf event.payloadType state.accepted :=
    (List.take_sublist _ _).countP_le
  rw [inv.ticket_succ is] at after
  omega

/-- Later events of a size class have larger tickets. -/
theorem ticket_lt (inv : Inv buf state) {first second : Taken} {j k : Nat}
    (isFirst : state.accepted[j]? = some first) (isSecond : state.accepted[k]? = some second)
    (lt : j < k) (same : first.payloadType = second.payloadType) :
    first.ticket < second.ticket := by
  have later : countOf first.payloadType (state.accepted.take (j + 1)) ≤
      countOf first.payloadType (state.accepted.take k) :=
    ((List.take_prefix_take_left lt).sublist).countP_le
  rw [inv.ticket_succ isFirst, same, ← inv.tickets k second isSecond] at later
  exact later

/-- An event that holds a slot, by its position. -/
theorem mem_unfreed {event : Taken} (is : event ∈ state.unfreed) :
    ∃ k, state.accepted[k]? = some event ∧ state.freed ≤ k := by
  obtain ⟨i, isAt⟩ := List.mem_iff_getElem?.mp is
  rw [State.unfreed, List.getElem?_drop] at isAt
  exact ⟨state.freed + i, isAt, Nat.le_add_right _ _⟩

/-- The next slot of a size class with room overlaps no slot that is held. -/
theorem next_apart (inv : Inv buf state) (allocated : Allocated buf) {payloadType : PayloadType}
    (more : countOf payloadType state.unfreed < bufNum payloadType) {event : Taken}
    (is : event ∈ state.unfreed) :
    event.message.data + bufLength event.payloadType ≤
        slot buf payloadType (state.pool.bufWritePointer payloadType) ∨
      slot buf payloadType (state.pool.bufWritePointer payloadType) + bufLength payloadType ≤
        event.message.data := by
  obtain ⟨k, isAt, unfreed⟩ := mem_unfreed is
  obtain ⟨below, near⟩ := inv.ticket_window isAt unfreed
  rw [inv.placed event (List.mem_of_getElem? isAt), inv.pointer]
  refine slot_apart allocated (Nat.mod_lt _ (bufNum_pos _)) (Nat.mod_lt _ (bufNum_pos _))
    fun same => ?_
  subst same
  exact Circular.index_ne below (by omega)

/-- Two events that hold slots hold different ones. -/
theorem slots_nodup (inv : Inv buf state) (allocated : Allocated buf) :
    (state.unfreed.map fun event => event.message.data).Nodup := by
  unfold List.Nodup
  rw [List.pairwise_map, List.pairwise_iff_getElem]
  intro i j iLt jLt lt same
  have isFirst : state.accepted[state.freed + i]? = some state.unfreed[i] := by
    rw [← List.getElem?_drop]
    exact List.getElem?_eq_getElem iLt
  have isSecond : state.accepted[state.freed + j]? = some state.unfreed[j] := by
    rw [← List.getElem?_drop]
    exact List.getElem?_eq_getElem jLt
  generalize state.unfreed[i] = first at same isFirst
  generalize state.unfreed[j] = second at same isSecond
  obtain ⟨below, near⟩ := inv.ticket_window isFirst (Nat.le_add_right _ _)
  obtain ⟨below', -⟩ := inv.ticket_window isSecond (Nat.le_add_right _ _)
  have room := inv.room first.payloadType
  rw [inv.placed first (List.mem_of_getElem? isFirst),
    inv.placed second (List.mem_of_getElem? isSecond)] at same
  have some := bufLength_pos first.payloadType
  have some' := bufLength_pos second.payloadType
  rcases slot_apart allocated (Nat.mod_lt first.ticket (bufNum_pos _))
    (Nat.mod_lt second.ticket (bufNum_pos _)) (fun sameType => by
      have later := inv.ticket_lt isFirst isSecond (Nat.add_lt_add_left lt _) sameType
      rw [← sameType] at below' ⊢
      exact Circular.index_ne later (by omega)) with apart | apart
  · omega
  · omega

/-- The invariant gives the property. -/
theorem good (inv : Inv buf state) (allocated : Allocated buf) : Good state where
  used := inv.used
  bounds payloadType := by
    have room := inv.room payloadType
    rw [inv.used]
    omega
  slots := inv.slots_nodup allocated
  kept := inv.kept
  once := inv.once
  waits := by
    have progress := inv.progress
    have pending := inv.pending
    unfold State.unfreed at pending
    cases isConsumer : state.consumer with
    | idle =>
        rw [isConsumer] at progress pending
        rw [show state.dispatched.length = state.freed from progress]
        exact pending
    | taken message =>
        rw [isConsumer] at progress pending
        rw [show state.dispatched.length = state.freed from Nat.succ.inj progress]
        exact pending
    | dispatched message =>
        rw [isConsumer] at progress pending
        rw [show state.dispatched.length = state.freed + 1 from progress, ← List.drop_drop,
          List.map_drop, pending]
        rfl

/-! ## The steps -/

/-- An event takes a slot. -/
theorem relay (inv : Inv buf state) (allocated : Allocated buf) (eventId : UInt32)
    (data : Option (Nat → UInt8)) (dataLength : UInt32) (idle : state.relaying = none)
    {dst : Nat} {pool : Pool} (takes : takeSlot buf state.pool data dataLength = some (dst, pool)) :
    Inv buf { state with
      pool
      relaying := some ({ eventId, data := dst }, state.pool)
      accepted := state.accepted ++
        [{ message := { eventId, data := dst }
           payloadType := chooseType dataLength
           ticket := countOf (chooseType dataLength) state.accepted
           payload := slotPayload data dataLength }] } := by
  unfold takeSlot at takes
  generalize chooseType dataLength = payloadType at takes ⊢
  dsimp only at takes
  by_cases full : state.pool.bufUsed payloadType ≥ bufNum payloadType
  · rw [if_pos full] at takes
    cases takes
  rw [if_neg full] at takes
  obtain ⟨rfl, rfl⟩ := Prod.mk.inj (Option.some.inj takes)
  have more : countOf payloadType state.unfreed < bufNum payloadType := by
    rw [inv.used] at full
    omega
  -- The new event stands behind those that hold a slot.
  generalize isEvent : (⟨⟨eventId, slot buf payloadType (state.pool.bufWritePointer payloadType)⟩,
    payloadType, countOf payloadType state.accepted, slotPayload data dataLength⟩ : Taken) = event
  have unfreed : (state.accepted ++ [event]).drop state.freed = state.unfreed ++ [event] :=
    List.drop_append_of_le_length inv.freed_le
  have count : ∀ type, countOf type [event] = if type = payloadType then 1 else 0 := by
    intro type
    rw [countOf_singleton, ← isEvent]
    simp only [eq_comm]
  constructor
  case tickets =>
    intro k other is
    rcases Nat.lt_or_ge k state.accepted.length with old | new
    · rw [List.getElem?_append_left old] at is
      rw [inv.tickets k other is, List.take_append_of_le_length (Nat.le_of_lt old)]
    · rw [List.getElem?_append_right new] at is
      rw [List.getElem?_singleton] at is
      split at is
      case isTrue last =>
        obtain rfl := Option.some.inj is
        have isLength : k = state.accepted.length :=
          Nat.le_antisymm (Nat.le_of_sub_eq_zero last) new
        rw [isLength, List.take_left, ← isEvent]
      case isFalse => cases is
  case placed =>
    intro other is
    rcases List.mem_append.mp is with old | new
    · exact inv.placed other old
    · rw [List.mem_singleton.mp new, ← isEvent]
      exact congrArg (slot buf payloadType) (inv.pointer payloadType)
  case pointer =>
    intro type
    rw [countOf_append, count]
    dsimp only
    by_cases same : type = payloadType
    · rw [if_pos same, if_pos same, inv.pointer, Circular.index_next]
    · rw [if_neg same, if_neg same, inv.pointer, Nat.add_zero]
  case used =>
    intro type
    unfold State.unfreed
    rw [unfreed, countOf_append, count]
    dsimp only
    by_cases same : type = payloadType
    · rw [if_pos same, if_pos same, inv.used]
      rfl
    · rw [if_neg same, if_neg same, inv.used, Nat.add_zero]
  case room =>
    intro type
    unfold State.unfreed
    rw [unfreed, countOf_append, count]
    by_cases same : type = payloadType
    · rw [if_pos same, same]
      exact more
    · rw [if_neg same]
      exact inv.room type
  case kept =>
    intro other is i below
    unfold State.unfreed at is
    rw [unfreed] at is
    rcases List.mem_append.mp is with old | new
    · have apart := inv.next_apart allocated more old
      exact (writeSlot_outside _ _ (by omega)).trans (inv.kept other old i below)
    · rw [List.mem_singleton.mp new, ← isEvent] at below ⊢
      exact writeSlot_inside _ _ below
  case pending =>
    have pending := inv.pending
    unfold State.relayed at pending ⊢
    unfold State.unfreed
    rw [idle] at pending
    rw [unfreed, List.map_append, pending, ← isEvent]
    simp
  case progress => exact inv.progress
  case once =>
    have le : state.dispatched.length ≤ state.accepted.length := by
      have same := inv.once.length_eq
      rw [List.length_take] at same
      omega
    rw [List.take_append_of_le_length le]
    exact inv.once
  case sent => exact inv.sent
  case before =>
    intro message pool is same
    obtain ⟨-, rfl⟩ := Prod.mk.inj (Option.some.inj is)
    have more := congrArg (fun pool : Pool => pool.bufUsed payloadType) same
    dsimp only at more
    rw [if_pos rfl] at more
    omega

/-- The relay ends with the message in the pipe. -/
theorem notify (inv : Inv buf state) {message : Message} {pool : Pool}
    (relaying : state.relaying = some (message, pool)) (sends : notifies message.eventId = true) :
    Inv buf { state with relaying := none, pipe := state.pipe ++ [message] } where
  tickets := inv.tickets
  placed := inv.placed
  pointer := inv.pointer
  used := inv.used
  room := inv.room
  kept := inv.kept
  pending := by
    refine inv.pending.trans ?_
    unfold State.relayed
    rw [relaying]
    simp
  progress := inv.progress
  once := inv.once
  sent := by
    intro other is
    rw [← List.append_assoc] at is
    rcases List.mem_append.mp is with old | new
    · exact inv.sent other old
    · rw [List.mem_singleton.mp new]
      exact sends
  before _ _ is := by cases is

/-- The consumer takes a message. -/
theorem take (inv : Inv buf state) {message : Message} {rest : List Message}
    (idle : state.consumer = .idle) (isPipe : state.pipe = message :: rest) :
    Inv buf { state with consumer := .taken message, pipe := rest } where
  tickets := inv.tickets
  placed := inv.placed
  pointer := inv.pointer
  used := inv.used
  room := inv.room
  kept := inv.kept
  pending := by
    have pending := inv.pending
    rw [idle, isPipe] at pending
    exact pending
  progress := by
    have progress := inv.progress
    rw [idle] at progress
    exact congrArg (· + 1) progress
  once := inv.once
  sent := by
    have sent := inv.sent
    rw [idle, isPipe] at sent
    exact sent
  before := inv.before

/-- The message that the consumer works on is that of the first event that holds a slot. -/
theorem first (inv : Inv buf state) {message : Message} {rest : List Message}
    (works : state.consumer.messages = message :: rest) :
    ∃ event events, state.unfreed = event :: events ∧ event.message = message ∧
      events.map Taken.message = rest ++ state.pipe ++ state.relayed := by
  have pending := inv.pending
  rw [works] at pending
  obtain ⟨event, events, isUnfreed, isMessage, others⟩ := List.map_eq_cons_iff.mp pending
  exact ⟨event, events, isUnfreed, isMessage, others⟩

/-- The consumer dispatches an event with its payload. -/
theorem dispatch (inv : Inv buf state) {message : Message}
    (taken : state.consumer = .taken message) :
    Inv buf { state with
      consumer := .dispatched message
      dispatched := state.dispatched ++
        [{ message, content := fun i => state.pool.memory (message.data + i) }] } := by
  obtain ⟨event, events, isUnfreed, rfl, -⟩ :=
    inv.first (show state.consumer.messages = [message] by rw [taken]; rfl)
  have progress := inv.progress
  rw [taken] at progress
  have behind : state.dispatched.length = state.freed := Nat.succ.inj progress
  have isAt : state.accepted.drop state.dispatched.length = event :: events := by
    rw [behind]
    exact isUnfreed
  constructor
  case tickets => exact inv.tickets
  case placed => exact inv.placed
  case pointer => exact inv.pointer
  case used => exact inv.used
  case room => exact inv.room
  case kept => exact inv.kept
  case pending =>
    have pending := inv.pending
    rw [taken] at pending
    exact pending
  case progress =>
    dsimp only
    rw [List.length_append, behind]
    rfl
  case once =>
    dsimp only
    have one : state.accepted.take (state.dispatched ++
        [(⟨event.message, fun i => state.pool.memory (event.message.data + i)⟩ :
          Dispatched)]).length = state.accepted.take state.dispatched.length ++ [event] := by
      rw [List.length_append, List.length_singleton, List.take_add, isAt]
      rfl
    rw [one]
    refine List.rel_append inv.once (List.Forall₂.cons ⟨rfl, ?_⟩ List.Forall₂.nil)
    exact inv.kept event (isUnfreed ▸ List.mem_cons_self)
  case sent =>
    have sent := inv.sent
    rw [taken] at sent
    exact sent
  case before => exact inv.before

/-- The slot of the event that was dispatched is found. -/
theorem owner_first (inv : Inv buf state) (allocated : Allocated buf) {message : Message}
    (dispatched : state.consumer = .dispatched message) :
    ∃ event events, state.unfreed = event :: events ∧
      events.map Taken.message = state.pipe ++ state.relayed ∧
      owner buf message.data = some event.payloadType ∧ message.data ≠ 0 := by
  obtain ⟨event, events, isUnfreed, rfl, others⟩ :=
    inv.first (show state.consumer.messages = [message] by rw [dispatched]; rfl)
  have isAccepted : event ∈ state.accepted :=
    List.mem_of_mem_drop (isUnfreed ▸ List.mem_cons_self)
  refine ⟨event, events, isUnfreed, others, ?_, ?_⟩
  · rw [inv.placed event isAccepted]
    exact owner_slot allocated (Nat.mod_lt _ (bufNum_pos _))
  · rw [inv.placed event isAccepted]
    exact slot_ne_zero allocated _ _

/-- The consumer gives a slot back. -/
theorem free (inv : Inv buf state) {event : Taken} {events : List Taken} {message : Message}
    (dispatched : state.consumer = .dispatched message) (unlocked : state.relaying = none)
    (isUnfreed : state.unfreed = event :: events)
    (others : events.map Taken.message = state.pipe ++ state.relayed) :
    Inv buf { state with
      pool := state.pool.release event.payloadType
      consumer := .idle
      freed := state.freed + 1 } := by
  have rest : state.accepted.drop (state.freed + 1) = events := by
    rw [← List.drop_drop]
    have tail := congrArg (List.drop 1) isUnfreed
    exact tail
  have count : ∀ type, countOf type state.unfreed =
      countOf type events + if event.payloadType = type then 1 else 0 := by
    intro type
    rw [isUnfreed, countOf_cons]
  constructor
  case tickets => exact inv.tickets
  case placed => exact inv.placed
  case pointer => exact inv.pointer
  case used =>
    intro type
    have used := inv.used type
    rw [count] at used
    unfold State.unfreed Pool.release
    dsimp only
    rw [rest]
    by_cases same : type = event.payloadType
    · rw [if_pos same, used, if_pos same.symm]
      omega
    · rw [if_neg same, used, if_neg (Ne.symm same), Nat.add_zero]
  case room =>
    intro type
    have room := inv.room type
    rw [count] at room
    unfold State.unfreed
    dsimp only
    rw [rest]
    omega
  case kept =>
    intro other is
    unfold State.unfreed at is
    dsimp only at is
    rw [rest] at is
    exact inv.kept other (isUnfreed ▸ List.mem_cons_of_mem _ is)
  case pending =>
    unfold State.unfreed
    dsimp only
    rw [rest]
    exact others
  case progress =>
    have progress := inv.progress
    rw [dispatched] at progress
    exact progress
  case once => exact inv.once
  case sent =>
    intro other is
    exact inv.sent other (List.mem_append_right _ is)
  case before =>
    intro other pool is
    rw [unlocked] at is
    cases is

/-- Each action whose event has a known id keeps the invariant, and leaves the pool if it
refuses a relay. -/
theorem step (inv : Inv buf state) (allocated : Allocated buf) {action : Action} {next : State}
    (notified : Notified state action) (stepped : EventRelay.step buf state action = some next) :
    Inv buf next ∧ RefusedUnchanged state next action := by
  cases action with
  | relay eventId data dataLength =>
      unfold EventRelay.step at stepped
      dsimp only at stepped
      by_cases rejected : rejects data dataLength = true
      · rw [if_pos rejected] at stepped
        obtain rfl := Option.some.inj stepped
        exact ⟨inv, fun _ => rfl⟩
      · rw [if_neg rejected] at stepped
        cases idle : state.relaying with
        | some held =>
            rw [idle] at stepped
            cases stepped
        | none =>
            rw [idle] at stepped
            dsimp only at stepped
            cases takes : takeSlot buf state.pool data dataLength with
            | none =>
                rw [takes] at stepped
                obtain rfl := Option.some.inj stepped
                exact ⟨inv, fun _ => rfl⟩
            | some taken =>
                rw [takes] at stepped
                obtain rfl := Option.some.inj stepped
                exact ⟨inv.relay allocated eventId data dataLength idle takes, nofun⟩
  | notify =>
      unfold EventRelay.step at stepped
      dsimp only at stepped
      cases relaying : state.relaying with
      | none =>
          rw [relaying] at stepped
          cases stepped
      | some held =>
          obtain ⟨message, before⟩ := held
          have sends := notified message before relaying
          rw [relaying] at stepped
          dsimp only at stepped
          rw [if_pos sends] at stepped
          obtain rfl := Option.some.inj stepped
          refine ⟨inv.notify relaying sends, fun other pool _ same => ?_⟩
          exact absurd (congrArg List.length same) (by simp)
  | take =>
      unfold EventRelay.step at stepped
      dsimp only at stepped
      cases idle : state.consumer with
      | idle =>
          cases isPipe : state.pipe with
          | nil =>
              rw [idle, isPipe] at stepped
              cases stepped
          | cons message rest =>
              rw [idle, isPipe] at stepped
              obtain rfl := Option.some.inj stepped
              exact ⟨inv.take idle isPipe, trivial⟩
      | taken message =>
          rw [idle] at stepped
          cases stepped
      | dispatched message =>
          rw [idle] at stepped
          cases stepped
  | dispatch =>
      unfold EventRelay.step at stepped
      dsimp only at stepped
      cases taken : state.consumer with
      | idle =>
          rw [taken] at stepped
          cases stepped
      | taken message =>
          have sends := inv.sent message (by rw [taken]; exact List.mem_cons_self)
          have known : message.eventId ≠ 0 := by
            intro zero
            rw [zero] at sends
            cases sends
          rw [taken] at stepped
          dsimp only at stepped
          rw [if_neg known] at stepped
          obtain rfl := Option.some.inj stepped
          exact ⟨inv.dispatch taken, trivial⟩
      | dispatched message =>
          rw [taken] at stepped
          cases stepped
  | free =>
      unfold EventRelay.step at stepped
      dsimp only at stepped
      cases dispatched : state.consumer with
      | idle =>
          rw [dispatched] at stepped
          cases stepped
      | taken message =>
          rw [dispatched] at stepped
          cases stepped
      | dispatched message =>
          obtain ⟨event, events, isUnfreed, others, owns, there⟩ :=
            inv.owner_first allocated dispatched
          rw [dispatched] at stepped
          dsimp only at stepped
          rw [if_neg there, owns] at stepped
          cases unlocked : state.relaying with
          | some held =>
              rw [unlocked] at stepped
              cases stepped
          | none =>
              rw [unlocked] at stepped
              obtain rfl := Option.some.inj stepped
              have after := inv.free dispatched unlocked isUnfreed others
              rw [unlocked] at after
              exact ⟨after, trivial⟩

end Inv

/-- An event with an unknown id takes a slot for good. -/
theorem refused_changed {state next : State} (inv : Inv buf state) {action : Action}
    (unknown : ¬Notified state action) (stepped : step buf state action = some next) :
    ¬RefusedUnchanged state next action := by
  cases action with
  | notify =>
      unfold Notified at unknown
      push Not at unknown
      obtain ⟨message, before, relaying, drops⟩ := unknown
      unfold step at stepped
      dsimp only at stepped
      rw [relaying] at stepped
      dsimp only at stepped
      rw [if_neg drops] at stepped
      obtain rfl := Option.some.inj stepped
      intro unchanged
      exact inv.before message before relaying (unchanged message before relaying rfl)
  | _ => exact absurd trivial unknown

/-- An event with an unknown id is on its way to `wmi_event_notify`. -/
theorem notified_of_disabled {state : State} {action : Action}
    (disabled : step buf state action = none) : Notified state action := by
  cases action with
  | notify =>
      intro message before relaying
      unfold step at disabled
      dsimp only at disabled
      rw [relaying] at disabled
      cases disabled
  | _ => trivial

/-- In every run of relays and of the consumer, the pool is good in every state and left by
every refused relay, exactly if every event that takes a slot has an id that is sent. -/
theorem relay_sound_iff (allocated : Allocated buf) (memory : Nat → UInt8)
    (actions : List Action) :
    Sound buf (State.start memory) actions ↔
      Runs.Meets (step buf) Notified (State.start memory) actions := by
  have inv := inv_start buf memory
  generalize State.start memory = state at inv
  induction actions generalizing state with
  | nil => exact ⟨fun _ => trivial, fun _ => inv.good allocated⟩
  | cons action actions ih =>
      constructor
      · rintro ⟨-, later⟩
        cases stepped : step buf state action with
        | none =>
            refine ⟨notified_of_disabled stepped, ?_⟩
            rw [stepped]
            trivial
        | some next =>
            obtain ⟨refused, rest⟩ := later next stepped
            have notified : Notified state action := by
              by_contra unknown
              exact refused_changed inv unknown stepped refused
            refine ⟨notified, ?_⟩
            rw [stepped]
            exact (ih next (inv.step allocated notified stepped).1).mp rest
      · rintro ⟨notified, rest⟩
        refine ⟨inv.good allocated, fun next stepped => ?_⟩
        obtain ⟨after, refused⟩ := inv.step allocated notified stepped
        rw [stepped] at rest
        exact ⟨refused, (ih next after).mpr rest⟩

/-- Two buffers of the sizes that `wlan_qapi_init` asks for. -/
def exampleBuf : PayloadType → Nat
  | .large => 0x1000
  | .small => 0x2000

theorem exampleBuf_allocated : Allocated exampleBuf :=
  ⟨fun payloadType => by cases payloadType <;> decide, Or.inl (by decide)⟩

/-- A relay of `invalid_app_event_id` is dropped, but keeps its slot. -/
theorem relay_leaks :
    ¬Sound exampleBuf (State.start fun _ => 0)
      [.relay 0xff (some fun _ => 0x5A) 4, .notify] := by
  rintro ⟨-, later⟩
  obtain ⟨-, -, later⟩ := later _ rfl
  obtain ⟨unchanged, -⟩ := later _ rfl
  have same := congrArg (fun pool : Pool => pool.bufUsed .small) (unchanged _ _ rfl rfl)
  exact absurd same (by decide)

theorem relay_sound_iff_example :
    Sound exampleBuf (State.start fun _ => 0)
      [.relay 1 (some fun _ => 0x5A) 4, .notify, .take, .relay 2 none 0, .dispatch, .notify,
        .free] :=
  (relay_sound_iff exampleBuf_allocated (fun _ => 0) _).mpr
    ⟨trivial, by rintro message before ⟨⟩; rfl, trivial, trivial, trivial,
      by rintro message before ⟨⟩; rfl, trivial, trivial⟩

end QHal.EventRelay
