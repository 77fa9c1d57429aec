/-
Module: QHal.Wlan.EventRelay
Purpose: The relay of Wi-Fi events, qwifi/src/wlan_drv/wmi_api.c: payload slots that are
  taken by `wmi_event_relay`, a pipe of messages, and the consumer that dispatches each
  event and gives its slot back.
Trusted boundary: the pipe is a FIFO that loses nothing, the two payload buffers were
  allocated, and an event handler only reads the payload.  The history beside the state is
  read by no step.
Main exports: PayloadType, Message, Pool, State, Action, step, State.start
-/
import QHal.Lib.Runs

namespace QHal.EventRelay

/-- `EVT_PAYLOAD_TYPE`. -/
inductive PayloadType where
  | large | small
deriving Repr, DecidableEq

/-- `buf_length`, as `wlan_qapi_init` sets it. -/
def bufLength : PayloadType → Nat
  | .large => 1000
  | .small => 256

/-- `buf_num`, as `wlan_qapi_init` sets it. -/
def bufNum : PayloadType → Nat
  | .large => 3
  | .small => 5

/-- `aws_app_event_id` and `invalid_app_event_id`. -/
def awsAppEventId : UInt32 := 0x1
def invalidAppEventId : UInt32 := 0xff

/-- A `wmi_msg_struct_t` of a relayed event: its `id` and its `vo_data`.  Its status is
`eWiFiSuccess` and its command `WMI_GET_RETURN_STATUS_CMDID`. -/
structure Message where
  eventId : UInt32
  data : Nat
deriving Repr, DecidableEq

/-- The memory and the counters of `event_payload_buf`. -/
structure Pool where
  memory : Nat → UInt8
  bufUsed : PayloadType → Int
  bufWritePointer : PayloadType → Nat

/-- The consumer: it waits for a message, or is in `wmi_cmd_result` before or behind
`wmi_event_dispatch`. -/
inductive Consumer where
  | idle
  | taken (message : Message)
  | dispatched (message : Message)

/-- An event that took a slot, for the history: how many of its type came before it, and
the slot with its payload. -/
structure Taken where
  message : Message
  payloadType : PayloadType
  ticket : Nat
  payload : Nat → UInt8

/-- An event that was dispatched, for the history: what its data pointed to. -/
structure Dispatched where
  message : Message
  content : Nat → UInt8

/-- The pool, the pipe and the consumer.  A relay that holds the mutex behind the taking of
its slot is kept with the pool before it; the history are the events that took a slot, those
that were dispatched, and how many were freed. -/
structure State where
  pool : Pool
  relaying : Option (Message × Pool)
  pipe : List Message
  consumer : Consumer
  accepted : List Taken
  dispatched : List Dispatched
  freed : Nat

section

-- The addresses of the two buffers.
variable (buf : PayloadType → Nat)

/-- `buf + j * buf_length`. -/
def slot (payloadType : PayloadType) (j : Nat) : Nat :=
  buf payloadType + j * bufLength payloadType

/-- The arguments that `wmi_event_relay` rejects before it takes the mutex. -/
def rejects (data : Option (Nat → UInt8)) (dataLength : UInt32) : Bool :=
  dataLength.toNat > bufLength .large || (data.isNone && dataLength ≠ 0)

/-- The size class by payload length. -/
def chooseType (dataLength : UInt32) : PayloadType :=
  if dataLength.toNat > bufLength .small then .large else .small

/-- What the slot holds of a payload: its bytes, and zeros. -/
def slotPayload (data : Option (Nat → UInt8)) (dataLength : UInt32) (i : Nat) : UInt8 :=
  match data with
  | none => 0
  | some data => if i < dataLength.toNat then data i else 0

/-- `memset` and `memscpy` into a slot. -/
def writeSlot (memory : Nat → UInt8) (dst length : Nat) (payload : Nat → UInt8) :
    Nat → UInt8 := fun address =>
  if dst ≤ address ∧ address < dst + length then payload (address - dst) else memory address

/-- The part of `wmi_event_relay` between the lock and `wmi_event_notify`: the slot and the
pool, or nothing if the pool is exhausted. -/
def takeSlot (pool : Pool) (data : Option (Nat → UInt8)) (dataLength : UInt32) :
    Option (Nat × Pool) :=
  let payloadType := chooseType dataLength
  if pool.bufUsed payloadType ≥ bufNum payloadType then none
  else
    let dst := slot buf payloadType (pool.bufWritePointer payloadType)
    some (dst,
      { memory := writeSlot pool.memory dst (bufLength payloadType) (slotPayload data dataLength)
        bufUsed := fun other =>
          if other = payloadType then pool.bufUsed other + 1 else pool.bufUsed other
        bufWritePointer := fun other =>
          if other = payloadType then (pool.bufWritePointer other + 1) % bufNum other
          else pool.bufWritePointer other })

/-- `wmi_event_notify`: whether the event is sent. -/
def notifies (eventId : UInt32) : Bool :=
  !(eventId ≥ invalidAppEventId || eventId < awsAppEventId)

/-- The search of `wmi_event_buf_free`: the size class that has the address as a slot. -/
def owner (data : Nat) : Option PayloadType :=
  if (List.range (bufNum .large)).any fun j => data = slot buf .large j then some .large
  else if (List.range (bufNum .small)).any fun j => data = slot buf .small j then some .small
  else none

/-- `buf_used--` of a size class. -/
def Pool.release (pool : Pool) (payloadType : PayloadType) : Pool :=
  { pool with
    bufUsed := fun other =>
      if other = payloadType then pool.bufUsed other - 1 else pool.bufUsed other }

/-- What the threads do: a call of `wmi_event_relay` up to the slot, and its end with
`wmi_event_notify`; the consumer takes a message, dispatches it and frees its slot. -/
inductive Action where
  | relay (eventId : UInt32) (data : Option (Nat → UInt8)) (dataLength : UInt32)
  | notify
  | take
  | dispatch
  | free

/-- One action, if it is enabled: the mutex is free for it, and there is something to do. -/
def step (state : State) : Action → Option State
  | .relay eventId data dataLength =>
      if rejects data dataLength then some state
      else
        match state.relaying with
        | some _ => none
        | none =>
            match takeSlot buf state.pool data dataLength with
            | none => some state
            | some (dst, pool) =>
                let payloadType := chooseType dataLength
                some { state with
                  pool
                  relaying := some ({ eventId, data := dst }, state.pool)
                  accepted := state.accepted ++
                    [{ message := { eventId, data := dst }
                       payloadType
                       ticket := state.accepted.countP fun event =>
                         event.payloadType = payloadType
                       payload := slotPayload data dataLength }] }
  | .notify =>
      match state.relaying with
      | none => none
      | some (message, _) =>
          some { state with
            relaying := none
            pipe := if notifies message.eventId then state.pipe ++ [message] else state.pipe }
  | .take =>
      match state.consumer, state.pipe with
      | .idle, message :: rest =>
          some { state with consumer := .taken message, pipe := rest }
      | _, _ => none
  | .dispatch =>
      match state.consumer with
      | .taken message =>
          some { state with
            consumer := .dispatched message
            dispatched :=
              -- The default response is not dispatched.
              if message.eventId = 0 then state.dispatched
              else
                state.dispatched ++
                  [{ message, content := fun i => state.pool.memory (message.data + i) }] }
      | _ => none
  | .free =>
      match state.consumer with
      | .dispatched message =>
          if message.data = 0 then some { state with consumer := .idle }
          else
            match owner buf message.data with
            | none => some { state with consumer := .idle }
            | some payloadType =>
                match state.relaying with
                | some _ => none
                | none =>
                    some { state with
                      pool := state.pool.release payloadType
                      consumer := .idle
                      freed := state.freed + 1 }
      | _ => none

end

/-- Behind `wlan_qapi_init`. -/
def State.start (memory : Nat → UInt8) : State where
  pool := { memory, bufUsed := fun _ => 0, bufWritePointer := fun _ => 0 }
  relaying := none
  pipe := []
  consumer := .idle
  accepted := []
  dispatched := []
  freed := 0

end QHal.EventRelay
