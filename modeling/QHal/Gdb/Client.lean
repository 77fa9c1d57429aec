/-
Module: QHal.Gdb.Client
Purpose: The remote control of GDB, tools/qprgc/gdb_framework/gdb_client.py: the packets, the tool
  that sends a command and waits for the response, and the script inside GDB that executes it.
Trusted boundary: the interpreter of the commands is a parameter; the loopback device neither
  drops, copies nor reorders datagrams and takes datagrams of any length, and a datagram longer than
  the buffer of its reader is cut; a socket raises timeouts only.
Main exports: formatPacket, parsePacket, Python, serve, readResponse, System, System.step
-/
import QHal.Lib.Numerals

namespace QHal.Gdb

open Numerals (Text readInt)

/-- `MAX_PACKET_SIZE`. -/
def maxPacketSize : Nat := 1024

def commandExec : Text := "EXEC".toList
def commandEval : Text := "EVAL".toList
def commandExit : Text := "EXIT".toList
def responseSuccess : Text := "SUCCESS".toList
def responseResult : Text := "RESULT".toList
def responseExcept : Text := "EXCEPT".toList

/-! ## Packets -/

/-- `format_packet`. -/
def formatPacket (command data : Text) : ByteArray :=
  (String.ofList (command ++ '|' :: (Nat.toDigits 10 data.length ++ '|' :: data))).toUTF8

/-- `text.split('|', more)`. -/
def splitBar : Nat → Text → List Text
  | 0, text => [text]
  | more + 1, text =>
      match text.dropWhile (· ≠ '|') with
      | [] => [text]
      | _ :: rest => text.takeWhile (· ≠ '|') :: splitBar more rest

/-- What `parse_packet` raises. -/
inductive ParseError where
  | unicodeDecodeError | indexError | valueError | gdbClientError
deriving Repr, DecidableEq

/-- The list that `parse_packet` returns. -/
structure Packet where
  command : Text
  length : Int
  data : Text
deriving Repr, DecidableEq

/-- `parse_packet` behind the decoding. -/
def parseText (text : Text) : Except ParseError Packet :=
  match splitBar 2 text with
  | command :: length :: rest =>
      match readInt 10 length with
      | none => throw .valueError
      | some value =>
          match rest with
          | [] => throw .indexError
          | data :: _ =>
              if value ≠ data.length then throw .gdbClientError
              else return ⟨command, value, data⟩
  | _ => throw .indexError

/-- `parse_packet`. -/
def parsePacket (packet : ByteArray) : Except ParseError Packet :=
  match packet.utf8Decode? with
  | none => throw .unicodeDecodeError
  | some text => parseText text.toList

/-- `recvfrom` with a buffer of `MAX_PACKET_SIZE`. -/
def cut (packet : ByteArray) : ByteArray := packet.extract 0 maxPacketSize

/-! ## The script inside GDB -/

/-- How the execution of a command ends: with a value, with an exception, of which the script sees
its `repr` and the traceback, or with an exception that ends the script, as `exit()` does. -/
inductive Ended (α : Type) where
  | value (result : α)
  | exception (repr traceback : Text)
  | exit

/-- What the script itself raises on a packet. -/
inductive Fault where
  | parse (error : ParseError)
  | unexpectedCommand (packet : Packet)

/-- The interpreter with `client_globals` and `client_locals` as its state: `exec`, `eval` as the
text of its result, and `repr` and traceback of what the script raises. -/
structure Python (σ : Type) where
  exec : σ → Text → σ × Ended Unit
  eval : σ → Text → σ × Ended Text
  fault : Fault → Text × Text

/-- The data of an `EXCEPT` response. -/
def exceptData (comString repr traceback : Text) : Text :=
  repr ++ '|' ::
    (if comString = [] then traceback else "Error: ".toList ++ comString ++ '\n' :: traceback)

/-- What the loop of `main` does with a packet: the state behind it, whether the loop goes on, and
the type and data of the response. -/
structure Served (σ : Type) where
  globals : σ
  running : Bool
  response : Option (Text × Text)

variable {σ : Type}

/-- The branches of `main` for a packet that was parsed. -/
def dispatch (python : Python σ) (globals : σ) (packet : Packet) : Served σ :=
  if packet.command = commandExec then
    let comString := "exec('".toList ++ packet.data ++ "')".toList
    match python.exec globals packet.data with
    | (globals, .value ()) => ⟨globals, true, some (responseSuccess, [])⟩
    | (globals, .exception repr traceback) =>
        ⟨globals, true, some (responseExcept, exceptData comString repr traceback)⟩
    | (globals, .exit) => ⟨globals, false, none⟩
  else if packet.command = commandEval then
    let comString := "exec('__GDB_EVAL_RESULT__ = (<expr>)')".toList
    match python.eval globals packet.data with
    | (globals, .value result) => ⟨globals, true, some (responseResult, result)⟩
    | (globals, .exception repr traceback) =>
        ⟨globals, true, some (responseExcept, exceptData comString repr traceback)⟩
    | (globals, .exit) => ⟨globals, false, none⟩
  else if packet.command = commandExit then
    ⟨globals, false, some ("EXIT|0|".toList, [])⟩
  else
    let (repr, traceback) := python.fault (.unexpectedCommand packet)
    ⟨globals, true, some (responseExcept, exceptData [] repr traceback)⟩

/-- One turn of the loop of `main`. -/
def serve (python : Python σ) (globals : σ) (packet : ByteArray) : Served σ :=
  match parsePacket (cut packet) with
  | .ok packet => dispatch python globals packet
  | .error error =>
      let (repr, traceback) := python.fault (.parse error)
      ⟨globals, true, some (responseExcept, exceptData [] repr traceback)⟩

/-- The datagrams that a turn of the loop sends. -/
def Served.packet (served : Served σ) : Option ByteArray :=
  served.response.map fun (response, data) => formatPacket response data

/-! ## The tool -/

/-- How `send_command` ends with a response. -/
inductive Outcome where
  | returned (packet : Packet)
  | remoteError (name : Text)
  | raised (error : ParseError)
deriving Repr, DecidableEq

/-- `send_command` behind the reading of the response. -/
def readPacket (packet : Packet) : Outcome :=
  if packet.command = responseExcept then
    match splitBar 1 packet.data with
    | name :: _ :: _ => .remoteError name
    | _ => .raised .indexError
  else .returned packet

def readResponse (response : ByteArray) : Outcome :=
  match parsePacket (cut response) with
  | .ok packet => readPacket packet
  | .error error => .raised error

/-- How a call of `send_command` ended.  `source` is the call whose response it has read. -/
inductive Result where
  | waiting
  | timeout
  | answered (source : Nat) (outcome : Outcome)
deriving Repr, DecidableEq

/-- A call of `send_command`.  `alone` is whether the script had nothing to do when the call had
emptied its socket; no branch reads it. -/
structure Call where
  command : Text
  data : Text
  alone : Bool
  result : Result
deriving Repr, DecidableEq

/-- A datagram with the number of the call that it belongs to, which no branch reads. -/
structure Datagram where
  call : Nat
  bytes : ByteArray

/-- The tool, the script and the two sockets.  `calling` is whether the last call is under way,
`sending` its command until it is sent, and `busy` the command that the script executes. -/
structure System (σ : Type) where
  calls : List Call
  calling : Bool
  sending : Option Datagram
  toScript : List Datagram
  running : Bool
  busy : Option Datagram
  globals : σ
  toTool : List Datagram

/-- What can happen next. -/
inductive Action where
  | flush (command data : Text)
  | send
  | receive
  | timeout
  | take
  | respond
  | scriptTimeout
deriving Repr, DecidableEq

namespace System

/-- The last call ends. -/
def endCall (system : System σ) (result : Result) : System σ :=
  { system with
    calling := false
    calls := system.calls.modify (system.calls.length - 1) fun call => { call with result } }

/-- A step of the tool or of the script.  `send_command` throws away what lies in its socket until
it finds it empty, sends, and waits until a response or the timeout. -/
def step (python : Python σ) (system : System σ) : Action → Option (System σ)
  | .flush command data =>
      if system.calling then none
      else
        some { system with
          calling := true
          calls := system.calls ++
            [⟨command, data, system.toScript.isEmpty && system.busy.isNone, .waiting⟩]
          sending := some ⟨system.calls.length, formatPacket command data⟩
          toTool := [] }
  | .send =>
      system.sending.map fun packet =>
        { system with
          sending := none
          toScript := system.toScript ++ [packet] }
  | .receive =>
      match system.calling && system.sending.isNone, system.toTool with
      | true, response :: rest =>
          some (endCall { system with toTool := rest }
            (.answered response.call (readResponse response.bytes)))
      | _, _ => none
  | .timeout =>
      if system.calling ∧ system.sending.isNone ∧ system.toTool = [] then
        some (system.endCall .timeout)
      else none
  | .take =>
      match system.running, system.busy, system.toScript with
      | true, none, packet :: rest =>
          some { system with
            busy := some packet
            toScript := rest }
      | _, _, _ => none
  | .respond =>
      system.busy.map fun packet =>
        let served := serve python system.globals packet.bytes
        { system with
          busy := none
          globals := served.globals
          running := served.running
          toTool := system.toTool ++ (served.packet.map (⟨packet.call, ·⟩)).toList }
  | .scriptTimeout =>
      if system.running ∧ system.busy.isNone ∧ system.toScript.isEmpty then
        some { system with running := false }
      else none

/-- The tool and the script behind the start. -/
def start (globals : σ) : System σ where
  calls := []
  calling := false
  sending := none
  toScript := []
  running := true
  busy := none
  globals := globals
  toTool := []

end System

end QHal.Gdb
