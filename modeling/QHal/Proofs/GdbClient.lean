/-
Module: QHal.Proofs.GdbClient
Purpose: The remote control of GDB: which packets are read and that a packet which was cut is not,
  and over whole runs of the tool and the script, which response a call gets.
Trusted boundary: none
Main exports: parsePacket_ok_iff, packet_reads_back, Paired, Answers, calls_answered
-/
import QHal.Gdb.Client
import QHal.Lib.Runs

namespace QHal.Gdb

open Numerals (Text readInt)

/-! ## Packets -/

theorem splitBar_plain {text : Text} (plain : '|' ∉ text) (more : Nat) :
    splitBar more text = [text] := by
  cases more with
  | zero => rfl
  | succ more =>
      have all : ∀ c ∈ text, decide (c ≠ '|') = true := fun c mem =>
        decide_eq_true fun bar => plain (bar ▸ mem)
      rw [splitBar, List.dropWhile_eq_nil_iff.mpr all]

theorem splitBar_field {field : Text} (plain : '|' ∉ field) (more : Nat) (rest : Text) :
    splitBar (more + 1) (field ++ '|' :: rest) = field :: splitBar more rest := by
  have all : ∀ c ∈ field, decide (c ≠ '|') = true := fun c mem =>
    decide_eq_true fun bar => plain (bar ▸ mem)
  rw [splitBar, List.dropWhile_append_of_pos all, List.takeWhile_append_of_pos all,
    List.dropWhile_cons_of_neg (by decide), List.takeWhile_cons_of_neg (by decide), List.append_nil]

/-- A text has no bar, or a field in front of its first one. -/
theorem splitBar_cases (more : Nat) (text : Text) :
    ('|' ∉ text ∧ splitBar (more + 1) text = [text]) ∨
      ∃ field rest, '|' ∉ field ∧ text = field ++ '|' :: rest ∧
        splitBar (more + 1) text = field :: splitBar more rest := by
  by_cases bar : '|' ∈ text
  · right
    obtain ⟨field, rest, rfl, plain⟩ := List.eq_append_cons_of_mem bar
    exact ⟨field, rest, plain, rfl, splitBar_field plain more rest⟩
  · exact Or.inl ⟨bar, splitBar_plain bar _⟩

theorem bar_not_mem_toDigits (value : Nat) : '|' ∉ Nat.toDigits 10 value := by
  intro mem
  obtain ⟨digit, below, isBar⟩ := Numerals.mem_toDigits (by decide) mem
  have none : ∀ digit < 10, '|' ≠ Nat.digitChar digit := by decide
  exact none digit below isBar

/-- What a packet is read as. -/
theorem parseText_ok_iff {text : Text} {packet : Packet} :
    parseText text = .ok packet ↔
      '|' ∉ packet.command ∧ packet.length = packet.data.length ∧
        ∃ numeral, '|' ∉ numeral ∧ readInt 10 numeral = some packet.length ∧
          text = packet.command ++ '|' :: (numeral ++ '|' :: packet.data) := by
  constructor
  · intro parsed
    rcases splitBar_cases 1 text with ⟨-, split⟩ | ⟨command, rest, plain, isText, split⟩
    · rw [parseText, split] at parsed
      cases parsed
    · rcases splitBar_cases 0 rest with ⟨-, splitRest⟩ | ⟨numeral, data, plain', isRest, splitRest⟩
      · rw [parseText, split, splitRest] at parsed
        dsimp only at parsed
        split at parsed
        · cases parsed
        · cases parsed
      · rw [parseText, split, splitRest, splitBar] at parsed
        dsimp only at parsed
        split at parsed
        · cases parsed
        · rename_i value read
          split_ifs at parsed with wrong
          · cases parsed
            exact ⟨plain, not_not.mp wrong, numeral, plain', read, by rw [isText, isRest]⟩
  · rintro ⟨plain, length, numeral, plain', read, rfl⟩
    rw [parseText, splitBar_field plain, splitBar_field plain', splitBar]
    dsimp only
    rw [read]
    dsimp only
    rw [if_neg (not_not.mpr length)]
    rfl

/-- The bytes that are read as a packet. -/
theorem parsePacket_ok_iff {bytes : ByteArray} {packet : Packet} :
    parsePacket bytes = .ok packet ↔
      '|' ∉ packet.command ∧ packet.length = packet.data.length ∧
        ∃ numeral, '|' ∉ numeral ∧ readInt 10 numeral = some packet.length ∧
          bytes = (packet.command ++ '|' :: (numeral ++ '|' :: packet.data)).utf8Encode := by
  constructor
  · intro parsed
    rw [parsePacket] at parsed
    cases decoded : bytes.utf8Decode? with
    | none =>
        rw [decoded] at parsed
        cases parsed
    | some text =>
        rw [decoded] at parsed
        obtain ⟨plain, length, numeral, plain', read, isText⟩ := parseText_ok_iff.mp parsed
        refine ⟨plain, length, numeral, plain', read, ?_⟩
        obtain ⟨chars, rfl⟩ :=
          ByteArray.isSome_utf8Decode?_iff.mp (Option.isSome_of_eq_some decoded)
        rw [List.utf8Decode?_utf8Encode] at decoded
        rw [← isText, ← Option.some.inj decoded]
  · rintro ⟨plain, length, numeral, plain', read, rfl⟩
    rw [parsePacket, List.utf8Decode?_utf8Encode]
    exact parseText_ok_iff.mpr ⟨plain, length, numeral, plain', read, rfl⟩

theorem formatPacket_eq (command data : Text) :
    formatPacket command data =
      (command ++ '|' :: (Nat.toDigits 10 data.length ++ '|' :: data)).utf8Encode := by
  rw [formatPacket, String.toUTF8_eq_toByteArray, String.toByteArray_ofList]

theorem parsePacket_formatPacket {command : Text} (plain : '|' ∉ command) (data : Text) :
    parsePacket (formatPacket command data) = .ok ⟨command, data.length, data⟩ :=
  parsePacket_ok_iff.mpr ⟨plain, rfl, Nat.toDigits 10 data.length, bar_not_mem_toDigits _,
    Numerals.readInt_decimal (Or.inr rfl) data.length, formatPacket_eq command data⟩

/-- A field without a bar ends at the first one. -/
theorem field_eq_of_prefix {field other rest rest' : Text} (plain : '|' ∉ field)
    (plain' : '|' ∉ other) (isPrefix : field ++ '|' :: rest <+: other ++ '|' :: rest') :
    field = other ∧ rest <+: rest' := by
  induction field generalizing other with
  | nil =>
      cases other with
      | nil => exact ⟨rfl, (List.cons_prefix_cons.mp isPrefix).2⟩
      | cons c other =>
          have bar := (List.cons_prefix_cons.mp isPrefix).1
          exact absurd (bar ▸ List.mem_cons_self) plain'
  | cons c field ih =>
      cases other with
      | nil =>
          have bar := (List.cons_prefix_cons.mp isPrefix).1
          exact absurd (bar ▸ List.mem_cons_self) plain
      | cons c' other =>
          obtain ⟨same, isPrefix⟩ := List.cons_prefix_cons.mp isPrefix
          obtain ⟨eq, rest⟩ := ih (fun mem => plain (List.mem_cons_of_mem _ mem))
            (fun mem => plain' (List.mem_cons_of_mem _ mem)) isPrefix
          exact ⟨by rw [same, eq], rest⟩

/-- A packet that was cut is not read. -/
theorem parsePacket_cut {command : Text} (plain : '|' ∉ command) (data : Text) {size : Nat}
    (short : size < (formatPacket command data).size) :
    ∃ error, parsePacket ((formatPacket command data).extract 0 size) = .error error := by
  cases parsed : parsePacket ((formatPacket command data).extract 0 size) with
  | error error => exact ⟨error, rfl⟩
  | ok packet =>
      exfalso
      obtain ⟨plain', length, numeral, numeralPlain, read, isBytes⟩ := parsePacket_ok_iff.mp parsed
      have whole : (formatPacket command data).extract 0 size ++
          (formatPacket command data).extract size (formatPacket command data).size =
            formatPacket command data := by
        rw [ByteArray.extract_append_extract, Nat.min_eq_left (Nat.zero_le _),
          Nat.max_eq_right (Nat.le_of_lt short), ByteArray.extract_zero_size]
      have isPrefix := whole
      rw [isBytes, formatPacket_eq command data] at isPrefix
      obtain ⟨sameCommand, isRest⟩ := field_eq_of_prefix plain' plain
        (List.isPrefix_of_utf8Encode_append_eq_utf8Encode _ isPrefix)
      obtain ⟨sameNumeral, isData⟩ :=
        field_eq_of_prefix numeralPlain (bar_not_mem_toDigits _) isRest
      have count : packet.data.length = data.length := by
        rw [sameNumeral] at read
        have decimal := @Numerals.readInt_decimal 10 (Or.inr rfl) data.length
        have same := Option.some.inj (decimal.symm.trans read)
        omega
      have sameBytes : (formatPacket command data).extract 0 size = formatPacket command data := by
        rw [isBytes, formatPacket_eq, sameCommand, sameNumeral, isData.eq_of_length count]
      have sizes := congrArg ByteArray.size sameBytes
      rw [ByteArray.size_extract] at sizes
      omega

variable {σ : Type}

theorem cut_eq {packet : ByteArray} (fits : packet.size ≤ maxPacketSize) : cut packet = packet := by
  rw [cut, ← Nat.max_eq_left fits]
  exact ByteArray.extract_zero_max_size

/-- A command that fits into the buffer of the script is executed as it was given. -/
theorem serve_whole {command data : Text} (plain : '|' ∉ command)
    (fits : (formatPacket command data).size ≤ maxPacketSize) (python : Python σ) (globals : σ) :
    serve python globals (formatPacket command data) =
      dispatch python globals ⟨command, data.length, data⟩ := by
  rw [serve, cut_eq fits, parsePacket_formatPacket plain]

/-- A command that does not fit is not executed. -/
theorem serve_long {command data : Text} (plain : '|' ∉ command)
    (long : maxPacketSize < (formatPacket command data).size) (python : Python σ) (globals : σ) :
    ∃ data', serve python globals (formatPacket command data) =
      ⟨globals, true, some (responseExcept, data')⟩ := by
  obtain ⟨error, failed⟩ := parsePacket_cut plain data long
  rw [serve, cut, failed]
  exact ⟨_, rfl⟩

/-- Packets are read back exactly if their command has no bar.  What is read has the length it
names, and a packet that was cut is not read; so a command is executed as it was given or, if it
does not fit into a datagram, not at all. -/
theorem packet_reads_back (command data : Text) (python : Python σ) (globals : σ) :
    (parsePacket (formatPacket command data) = .ok ⟨command, data.length, data⟩ ↔
      '|' ∉ command) ∧
    (∀ bytes packet, parsePacket bytes = .ok packet → packet.length = packet.data.length ∧
      parsePacket (formatPacket packet.command packet.data) = .ok packet) ∧
    ('|' ∉ command → ∀ size < (formatPacket command data).size,
      ∃ error, parsePacket ((formatPacket command data).extract 0 size) = .error error) ∧
    ('|' ∉ command →
      if (formatPacket command data).size ≤ maxPacketSize then
        serve python globals (formatPacket command data) =
          dispatch python globals ⟨command, data.length, data⟩
      else ∃ data', serve python globals (formatPacket command data) =
        ⟨globals, true, some (responseExcept, data')⟩) := by
  refine ⟨⟨fun parsed => (parsePacket_ok_iff.mp parsed).1, fun plain => ?_⟩, ?_, ?_, ?_⟩
  · exact parsePacket_formatPacket plain data
  · intro bytes packet parsed
    obtain ⟨plain, length, -⟩ := parsePacket_ok_iff.mp parsed
    refine ⟨length, ?_⟩
    rw [parsePacket_formatPacket plain, ← length]
  · exact fun plain size => parsePacket_cut plain data
  · intro plain
    split_ifs with fits
    · exact serve_whole plain fits python globals
    · exact serve_long plain (Nat.lt_of_not_le fits) python globals

theorem packet_reads_back_exec :
    parsePacket (formatPacket commandExec "x = 1|2".toList) =
      .ok ⟨commandExec, 7, "x = 1|2".toList⟩ :=
  (@packet_reads_back Unit commandExec "x = 1|2".toList
    ⟨fun _ _ => ((), .value ()), fun _ _ => ((), .value []), fun _ => ([], [])⟩ ()).1.mpr
    (by decide)

/-! ## Calls -/

/-- The packet of a call. -/
def Call.packet (call : Call) : ByteArray := formatPacket call.command call.data

def System.packets (system : System σ) : List ByteArray := system.calls.map Call.packet

/-- The interpreter behind some commands. -/
def globalsAfter (python : Python σ) (globals : σ) (packets : List ByteArray) : σ :=
  packets.foldl (fun globals packet => (serve python globals packet).globals) globals

/-- The response to a command behind those before it. -/
def replyTo (python : Python σ) (globals : σ) (packets : List ByteArray) (k : Nat) :
    Option ByteArray :=
  packets[k]?.bind fun packet =>
    (serve python (globalsAfter python globals (packets.take k)) packet).packet

theorem globalsAfter_succ {python : Python σ} {globals : σ} {packets : List ByteArray} {k : Nat}
    {packet : ByteArray} (here : packets[k]? = some packet) :
    globalsAfter python globals (packets.take (k + 1)) =
      (serve python (globalsAfter python globals (packets.take k)) packet).globals := by
  rw [List.take_add_one, here, Option.toList_some, globalsAfter, List.foldl_append]
  rfl

/-- Later commands leave a response as it is. -/
theorem replyTo_append {python : Python σ} {globals : σ} {packets : List ByteArray} {k : Nat}
    (old : k < packets.length) (later : List ByteArray) :
    replyTo python globals (packets ++ later) k = replyTo python globals packets k := by
  rw [replyTo, replyTo, List.getElem?_append_left old,
    List.take_append_of_le_length (Nat.le_of_lt old)]

/-- Without a response the script has ended. -/
theorem serve_silent {python : Python σ} {globals : σ} {packet : ByteArray}
    (silent : (serve python globals packet).packet = none) :
    (serve python globals packet).running = false := by
  rw [Served.packet, Option.map_eq_none_iff] at silent
  unfold serve at silent ⊢
  split at silent
  · unfold dispatch at silent ⊢
    split_ifs at silent ⊢
    · split at silent
      · cases silent
      · cases silent
      · rfl
    · split at silent
      · cases silent
      · cases silent
      · rfl
  · cases silent

/-- The commands that the script has not executed are under way to it, in their order; the responses
under way to the tool are those of executed commands.  `done` counts the executed commands. -/
structure Paired (python : Python σ) (first : σ) (done : Nat) (system : System σ) : Prop where
  done_le : done ≤ system.calls.length
  globals : system.globals = globalsAfter python first (system.packets.take done)
  queue : system.busy.toList ++ system.toScript ++ system.sending.toList =
    (system.packets.mapIdx Datagram.mk).drop done
  sending : system.calling = false → system.sending = none
  answers : ∀ response ∈ system.toTool, response.call < done ∧
    replyTo python first system.packets response.call = some response.bytes
  calling : system.calling = true → ∃ call : Call,
    system.calls[system.calls.length - 1]? = some call ∧ call.result = .waiting
  waiting : ∀ (k : Nat) (call : Call), system.calls[k]? = some call → call.result = .waiting →
    system.calling = true ∧ k + 1 = system.calls.length
  own : system.calling = true → ∀ call : Call, system.calls[system.calls.length - 1]? = some call →
    call.alone = true → system.calls.length ≤ done + 1 ∧
      ∀ response ∈ system.toTool, response.call + 1 = system.calls.length
  other : system.calling = true → ∀ call : Call,
    system.calls[system.calls.length - 1]? = some call →
    call.alone = false →
      match system.toTool with
      | [] => done + 1 < system.calls.length ∨ (system.running = false ∧ system.busy = none)
      | response :: _ => response.call + 1 < system.calls.length
  answered : ∀ (k : Nat) (call : Call) (source : Nat) outcome, system.calls[k]? = some call →
    call.result = .answered source outcome → source ≤ k ∧ (source = k ↔ call.alone = true) ∧
      source < done ∧ (replyTo python first system.packets source).map readResponse = some outcome
  blamed : ∀ (k : Nat) (call : Call), system.calls[k]? = some call → call.alone = false →
    ∃ j < k, ∃ earlier : Call, system.calls[j]? = some earlier ∧ earlier.result = .timeout

theorem System.length_packets (system : System σ) : system.packets.length = system.calls.length :=
  List.length_map _

theorem getElem?_concat_cases {α : Type} {list : List α} {x y : α} {k : Nat}
    (here : (list ++ [x])[k]? = some y) : list[k]? = some y ∨ (k = list.length ∧ y = x) := by
  rcases Nat.lt_trichotomy k list.length with below | same | above
  · rw [List.getElem?_append_left below] at here
    exact Or.inl here
  · rw [same, List.getElem?_concat_length] at here
    exact Or.inr ⟨same, (Option.some.inj here).symm⟩
  · rw [List.getElem?_eq_none (by simp; omega)] at here
    cases here

/-- The end of a call changes its result only. -/
theorem System.endCall_packets (system : System σ) (result : Result) :
    (system.endCall result).packets = system.packets := by
  show List.map Call.packet (system.calls.modify _ _) = _
  apply List.ext_getElem?
  intro k
  rw [List.getElem?_map, List.getElem?_modify, System.packets, List.getElem?_map]
  cases system.calls[k]? with
  | none => rfl
  | some call =>
      show some (Call.packet (if _ then _ else _)) = _
      split_ifs
      · rfl
      · rfl

theorem System.endCall_calls {system : System σ} {result : Result} {last call : Call} {k : Nat}
    (isLast : system.calls[system.calls.length - 1]? = some last)
    (here : (system.endCall result).calls[k]? = some call) :
    (k + 1 ≠ system.calls.length ∧ system.calls[k]? = some call) ∨
      (k + 1 = system.calls.length ∧ call = { last with result }) := by
  have inside := (List.getElem?_eq_some_iff.mp isLast).1
  have modified : (system.calls.modify (system.calls.length - 1)
      fun call => { call with result })[k]? = some call := here
  by_cases same : system.calls.length - 1 = k
  · right
    refine ⟨by omega, ?_⟩
    subst same
    rw [List.getElem?_modify_eq, isLast] at modified
    exact (Option.some.inj modified).symm
  · left
    rw [List.getElem?_modify_ne _ _ same] at modified
    exact ⟨by omega, modified⟩

section Steps

variable {python : Python σ} {first : σ} {done : Nat} {system : System σ}
  (paired : Paired python first done system)

include paired

theorem Paired.length_queue :
    (system.busy.toList ++ system.toScript ++ system.sending.toList).length =
      system.calls.length - done := by
  rw [paired.queue, List.length_drop, List.length_mapIdx, system.length_packets]

/-- Between two calls, a script that has something to do has not executed all commands. -/
theorem Paired.unfinished (idle : system.calling = false)
    (busy : (system.toScript.isEmpty && system.busy.isNone) = false) :
    done < system.calls.length := by
  have count := paired.length_queue
  rw [paired.sending idle, Option.toList_none, List.append_nil, List.length_append] at count
  rcases Bool.and_eq_false_iff.mp busy with queue | script
  · have some : system.toScript ≠ [] := by simpa using queue
    have positive := List.length_pos_iff.mpr some
    omega
  · cases isBusy : system.busy with
    | none =>
        rw [isBusy] at script
        cases script
    | some packet =>
        rw [isBusy, Option.toList_some, List.length_singleton] at count
        omega

/-- Between two calls, some call has timed out if not all commands are executed: the last one has
not read its own response, which is still to come. -/
theorem Paired.timed_out (idle : system.calling = false) (unfinished : done < system.calls.length) :
    ∃ j < system.calls.length, ∃ earlier : Call,
      system.calls[j]? = some earlier ∧ earlier.result = .timeout := by
  have isLast :=
    List.getElem?_eq_getElem (by omega : system.calls.length - 1 < system.calls.length)
  cases result : (system.calls[system.calls.length - 1]).result with
  | waiting =>
      have wrong := (paired.waiting _ _ isLast result).1
      rw [idle] at wrong
      cases wrong
  | timeout => exact ⟨_, by omega, _, isLast, result⟩
  | answered source outcome =>
      obtain ⟨-, own, early, -⟩ := paired.answered _ _ source outcome isLast result
      have notOwn : (system.calls[system.calls.length - 1]).alone = false := by
        rw [← Bool.not_eq_true, ← own]
        omega
      obtain ⟨j, before, earlier, isEarlier, out⟩ := paired.blamed _ _ isLast notOwn
      exact ⟨j, by omega, earlier, isEarlier, out⟩

/-- A call begins, with nothing left in its socket. -/
theorem Paired.flush (idle : system.calling = false) {call : Call}
    (alone : call.alone = (system.toScript.isEmpty && system.busy.isNone))
    (waiting : call.result = .waiting) :
    Paired python first done { system with
      calling := true
      calls := system.calls ++ [call]
      sending := some ⟨system.calls.length, call.packet⟩
      toTool := [] } := by
  have le := paired.done_le
  have count := paired.length_queue
  have queue := paired.queue
  rw [paired.sending idle, Option.toList_none, List.append_nil] at count queue
  have length : (system.calls ++ [call]).length = system.calls.length + 1 := by simp
  have packets : List.map Call.packet (system.calls ++ [call]) =
      system.packets ++ [call.packet] := List.map_append
  have unfinished : call.alone = false → done < system.calls.length :=
    fun busy => paired.unfinished idle (alone ▸ busy)
  have last : ∀ {other : Call},
      (system.calls ++ [call])[(system.calls ++ [call]).length - 1]? = some other →
        other = call := by
    intro other here
    rw [length, Nat.add_sub_cancel, List.getElem?_concat_length] at here
    exact (Option.some.inj here).symm
  exact {
    done_le := by
      show done ≤ (system.calls ++ [call]).length
      omega
    globals := by
      show _ = globalsAfter python first ((List.map Call.packet (system.calls ++ [call])).take done)
      rw [packets, List.take_append_of_le_length (by rw [system.length_packets]; exact le)]
      exact paired.globals
    queue := by
      show system.busy.toList ++ system.toScript ++ _ =
        ((List.map Call.packet (system.calls ++ [call])).mapIdx Datagram.mk).drop done
      rw [packets, List.mapIdx_concat, List.drop_append_of_le_length
        (by rw [List.length_mapIdx, system.length_packets]; exact le), ← queue,
        system.length_packets]
      rfl
    sending := nofun
    answers := fun _ mem => absurd mem List.not_mem_nil
    calling := by
      intro _
      refine ⟨call, ?_, waiting⟩
      show (system.calls ++ [call])[(system.calls ++ [call]).length - 1]? = _
      rw [length, Nat.add_sub_cancel, List.getElem?_concat_length]
    waiting := by
      intro k other here isWaiting
      rcases getElem?_concat_cases here with old | ⟨isLast, -⟩
      · have wrong := (paired.waiting k other old isWaiting).1
        rw [idle] at wrong
        cases wrong
      · refine ⟨rfl, ?_⟩
        show k + 1 = (system.calls ++ [call]).length
        omega
    own := by
      intro _ other here isAlone
      rw [last here, alone, Bool.and_eq_true, List.isEmpty_iff, Option.isNone_iff_eq_none]
        at isAlone
      rw [isAlone.1, isAlone.2] at count
      refine ⟨?_, fun _ mem => absurd mem List.not_mem_nil⟩
      show (system.calls ++ [call]).length ≤ done + 1
      have none : (Option.toList (none : Option Datagram) ++ []).length = 0 := rfl
      omega
    other := by
      intro _ other here notAlone
      rw [last here] at notAlone
      have below := unfinished notAlone
      left
      show done + 1 < (system.calls ++ [call]).length
      omega
    answered := by
      intro k other source outcome here isAnswer
      rcases getElem?_concat_cases here with old | ⟨-, isCall⟩
      · obtain ⟨le', own, below, reply⟩ := paired.answered k other source outcome old isAnswer
        refine ⟨le', own, below, ?_⟩
        show (replyTo python first (List.map Call.packet (system.calls ++ [call])) source).map _ = _
        rw [packets, replyTo_append (by rw [system.length_packets]; omega)]
        exact reply
      · rw [isCall, waiting] at isAnswer
        cases isAnswer
    blamed := by
      intro k other here notAlone
      have keep : ∀ {j : Nat} {earlier : Call}, system.calls[j]? = some earlier →
          (system.calls ++ [call])[j]? = some earlier := by
        intro j earlier isEarlier
        rw [List.getElem?_append_left (List.getElem?_eq_some_iff.mp isEarlier).1]
        exact isEarlier
      rcases getElem?_concat_cases here with old | ⟨isLast, isCall⟩
      · obtain ⟨j, before, earlier, isEarlier, out⟩ := paired.blamed k other old notAlone
        exact ⟨j, before, earlier, keep isEarlier, out⟩
      · rw [isCall] at notAlone
        obtain ⟨j, before, earlier, isEarlier, out⟩ :=
          paired.timed_out idle (unfinished notAlone)
        exact ⟨j, isLast ▸ before, earlier, keep isEarlier, out⟩ }

/-- A call ends: with the first response in the socket, or without one. -/
theorem Paired.endCall (calling : system.calling = true) (sent : system.sending = none)
    {rest : List Datagram}
    (sub : ∀ response ∈ rest, response ∈ system.toTool) {result : Result}
    (ended : result ≠ .waiting)
    (answer : ∀ source outcome, result = .answered source outcome →
      ∃ response later, system.toTool = response :: later ∧ source = response.call ∧
        outcome = readResponse response.bytes) :
    Paired python first done (System.endCall { system with toTool := rest } result) := by
  obtain ⟨last, isLast, -⟩ := paired.calling calling
  have inside := (List.getElem?_eq_some_iff.mp isLast).1
  have packets : (System.endCall { system with toTool := rest } result).packets =
      system.packets := System.endCall_packets { system with toTool := rest } result
  have cases : ∀ {k : Nat} {call : Call},
      (System.endCall { system with toTool := rest } result).calls[k]? = some call →
      (k + 1 ≠ system.calls.length ∧ system.calls[k]? = some call) ∨
        (k + 1 = system.calls.length ∧ call = { last with result }) :=
    fun here => System.endCall_calls isLast here
  exact {
    done_le := by
      show done ≤ (system.calls.modify _ _).length
      rw [List.length_modify]
      exact paired.done_le
    globals := by
      rw [packets]
      exact paired.globals
    queue := by
      rw [packets]
      exact paired.queue
    sending := fun _ => sent
    answers := by
      intro response mem
      rw [packets]
      exact paired.answers response (sub response mem)
    calling := nofun
    waiting := by
      intro k call here isWaiting
      rcases cases here with ⟨notLast, old⟩ | ⟨-, isCall⟩
      · exact absurd (paired.waiting k call old isWaiting).2 notLast
      · rw [isCall] at isWaiting
        exact absurd isWaiting ended
    own := nofun
    other := nofun
    answered := by
      intro k call source outcome here isAnswer
      rw [packets]
      rcases cases here with ⟨-, old⟩ | ⟨isK, isCall⟩
      · exact paired.answered k call source outcome old isAnswer
      · rw [isCall] at isAnswer ⊢
        obtain ⟨response, later, isQueue, isSource, isOutcome⟩ := answer source outcome isAnswer
        obtain ⟨below, reply⟩ := paired.answers response (isQueue ▸ List.mem_cons_self)
        have le := paired.done_le
        refine ⟨by omega, ?_, by omega, by rw [isSource, reply, isOutcome]; rfl⟩
        have isK' : k = system.calls.length - 1 := by omega
        cases alone : last.alone with
        | true =>
            have own := (paired.own calling last isLast alone).2 response
              (isQueue ▸ List.mem_cons_self)
            exact iff_of_true (by omega) rfl
        | false =>
            have other := paired.other calling last isLast alone
            rw [isQueue] at other
            dsimp only at other
            exact iff_of_false (by omega) Bool.false_ne_true
    blamed := by
      have keep : ∀ {j k : Nat} {earlier : Call}, j < k → k < system.calls.length →
          system.calls[j]? = some earlier →
          (System.endCall { system with toTool := rest } result).calls[j]? = some earlier := by
        intro j k earlier before inside isEarlier
        show (system.calls.modify (system.calls.length - 1) _)[j]? = some earlier
        rw [List.getElem?_modify_ne _ _ (by omega)]
        exact isEarlier
      intro k call here notAlone
      rcases cases here with ⟨-, old⟩ | ⟨isK, isCall⟩
      · obtain ⟨j, before, earlier, isEarlier, out⟩ := paired.blamed k call old notAlone
        exact ⟨j, before, earlier,
          keep before (List.getElem?_eq_some_iff.mp old).1 isEarlier, out⟩
      · rw [isCall] at notAlone
        have isK' : system.calls.length - 1 = k := by omega
        obtain ⟨j, before, earlier, isEarlier, out⟩ := paired.blamed k last (isK' ▸ isLast) notAlone
        exact ⟨j, before, earlier, keep before (by omega) isEarlier, out⟩ }

theorem Paired.respond {packet : Datagram} (isBusy : system.busy = some packet) :
    Paired python first (done + 1) { system with
      busy := none
      globals := (serve python system.globals packet.bytes).globals
      running := (serve python system.globals packet.bytes).running
      toTool := system.toTool ++
        ((serve python system.globals packet.bytes).packet.map (⟨packet.call, ·⟩)).toList } := by
  have le := paired.done_le
  have queue := paired.queue
  rw [isBusy, Option.toList_some, List.append_assoc, List.singleton_append] at queue
  have head : (system.packets.mapIdx Datagram.mk)[done]? = some packet := by
    rw [← List.head?_drop, ← queue]
    rfl
  rw [List.getElem?_mapIdx, Option.map_eq_some_iff] at head
  obtain ⟨bytes, here, rfl⟩ := head
  have below : done < system.calls.length :=
    system.length_packets ▸ (List.getElem?_eq_some_iff.mp here).1
  have reply : replyTo python first system.packets done =
      (serve python system.globals bytes).packet := by
    rw [replyTo, here, Option.bind_some, ← paired.globals]
  have added : ∀ response ∈ ((serve python system.globals bytes).packet.map
      (Datagram.mk done)).toList, response.call = done ∧
        replyTo python first system.packets response.call = some response.bytes := by
    intro response mem
    obtain ⟨answer, isAnswer, rfl⟩ := Option.map_eq_some_iff.mp (Option.mem_toList.mp mem)
    exact ⟨rfl, reply.trans isAnswer⟩
  exact {
    done_le := below
    globals := by
      show (serve python system.globals bytes).globals =
        globalsAfter python first (system.packets.take (done + 1))
      rw [globalsAfter_succ here, ← paired.globals]
    queue := by
      show system.toScript ++ system.sending.toList =
        (system.packets.mapIdx Datagram.mk).drop (done + 1)
      rw [← List.drop_drop, ← queue]
      rfl
    sending := paired.sending
    answers := by
      intro response mem
      rcases List.mem_append.mp mem with old | new
      · obtain ⟨early, isReply⟩ := paired.answers response old
        exact ⟨by omega, isReply⟩
      · obtain ⟨isDone, isReply⟩ := added response new
        exact ⟨by omega, isReply⟩
    calling := paired.calling
    waiting := paired.waiting
    own := by
      intro calling call isLast alone
      obtain ⟨late, responses⟩ := paired.own calling call isLast alone
      refine ⟨Nat.le_succ_of_le late, fun response mem => ?_⟩
      show response.call + 1 = system.calls.length
      rcases List.mem_append.mp mem with old | new
      · exact responses response old
      · have isDone := (added response new).1
        omega
    other := by
      intro calling call isLast notAlone
      have first := paired.other calling call isLast notAlone
      dsimp only
      cases isQueue : system.toTool with
      | cons response rest =>
          rw [isQueue] at first
          exact first
      | nil =>
          rw [isQueue] at first
          rcases first with early | ⟨-, notBusy⟩
          · cases answer : (serve python system.globals bytes).packet with
            | none => exact Or.inr ⟨serve_silent answer, rfl⟩
            | some response => exact early
          · rw [isBusy] at notBusy
            cases notBusy
    answered := by
      intro k call source outcome here' isAnswer
      obtain ⟨le', own, early, isReply⟩ := paired.answered k call source outcome here' isAnswer
      exact ⟨le', own, by omega, isReply⟩
    blamed := paired.blamed }

/-- Every step keeps calls and responses in pairs. -/
theorem Paired.step {action : Action} {next : System σ}
    (stepped : system.step python action = some next) :
    ∃ done', Paired python first done' next := by
  cases action with
  | flush command data =>
      simp only [System.step] at stepped
      split_ifs at stepped with calling
      cases stepped
      exact ⟨done, paired.flush (Bool.eq_false_iff.mpr calling) rfl rfl⟩
  | send =>
      obtain ⟨packet, isSending, rfl⟩ := Option.map_eq_some_iff.mp stepped
      refine ⟨done, { paired with queue := ?_, sending := fun _ => rfl }⟩
      have queue := paired.queue
      rw [isSending] at queue
      show system.busy.toList ++ (system.toScript ++ [packet]) ++ [] = _
      rw [List.append_nil, ← List.append_assoc]
      exact queue
  | receive =>
      simp only [System.step] at stepped
      split at stepped
      · rename_i response rest calling isQueue
        cases stepped
        rw [Bool.and_eq_true, Option.isNone_iff_eq_none] at calling
        refine ⟨done, paired.endCall calling.1 calling.2
          (fun _ mem => isQueue ▸ List.mem_cons_of_mem _ mem) nofun ?_⟩
        rintro source outcome ⟨⟩
        exact ⟨response, rest, isQueue, rfl, rfl⟩
      · cases stepped
  | timeout =>
      simp only [System.step] at stepped
      split_ifs at stepped with calling
      cases stepped
      exact ⟨done, paired.endCall calling.1 (Option.isNone_iff_eq_none.mp calling.2.1)
        (fun _ mem => mem) nofun nofun⟩
  | take =>
      simp only [System.step] at stepped
      split at stepped
      · rename_i packet rest running idle isQueue
        cases stepped
        refine ⟨done, { paired with queue := ?_, other := ?_ }⟩
        · have queue := paired.queue
          rw [idle, isQueue] at queue
          exact queue
        · intro calling call isLast notAlone
          have other := paired.other calling call isLast notAlone
          dsimp only at other ⊢
          cases isTool : system.toTool with
          | cons response later =>
              rw [isTool] at other
              exact other
          | nil =>
              rw [isTool] at other
              rcases other with early | ⟨ended, -⟩
              · exact Or.inl early
              · rw [running] at ended
                cases ended
      · cases stepped
  | respond =>
      obtain ⟨packet, isBusy, rfl⟩ := Option.map_eq_some_iff.mp stepped
      exact ⟨done + 1, paired.respond isBusy⟩
  | scriptTimeout =>
      simp only [System.step] at stepped
      split_ifs at stepped with quiet
      cases stepped
      refine ⟨done, { paired with other := ?_ }⟩
      intro calling call isLast notAlone
      have other := paired.other calling call isLast notAlone
      dsimp only at other ⊢
      cases isTool : system.toTool with
      | cons response later =>
          rw [isTool] at other
          exact other
      | nil => exact Or.inr ⟨rfl, Option.isNone_iff_eq_none.mp quiet.2.1⟩

end Steps

theorem Paired.start (python : Python σ) (first : σ) :
    Paired python first 0 (System.start first) where
  done_le := Nat.le_refl 0
  globals := rfl
  queue := rfl
  sending := fun _ => rfl
  answers := nofun
  calling := nofun
  waiting k call here := by
    rw [System.start, List.getElem?_nil] at here
    cases here
  own := nofun
  other := nofun
  answered k call source outcome here := by
    rw [System.start, List.getElem?_nil] at here
    cases here
  blamed k call here := by
    rw [System.start, List.getElem?_nil] at here
    cases here

/-! ## Runs -/

/-- What `send_command` makes of a response that the script gives. -/
def readFormatted (response data : Text) : Outcome :=
  readResponse (formatPacket response data)

/-- A response that fits is read as it was given, and one that does not is an error. -/
theorem readFormatted_spec {response : Text} (plain : '|' ∉ response) (data : Text) :
    if (formatPacket response data).size ≤ maxPacketSize then
      readFormatted response data = readPacket ⟨response, data.length, data⟩
    else ∃ error, readFormatted response data = .raised error := by
  unfold readFormatted readResponse
  split_ifs with fits
  · rw [cut_eq fits, parsePacket_formatPacket plain]
  · obtain ⟨error, failed⟩ := parsePacket_cut plain data (Nat.lt_of_not_le fits)
    rw [cut, failed]
    exact ⟨error, rfl⟩

/-- The types of the responses have no bar, but for the one to `EXIT`. -/
theorem dispatch_plain {python : Python σ} {globals : σ} {packet : Packet}
    (stays : packet.command ≠ commandExit) {response data : Text}
    (gives : (dispatch python globals packet).response = some (response, data)) :
    '|' ∉ response := by
  have plain : '|' ∉ responseSuccess ∧ '|' ∉ responseResult ∧ '|' ∉ responseExcept := by decide
  unfold dispatch at gives
  split_ifs at gives
  · split at gives
    · cases gives
      exact plain.1
    · cases gives
      exact plain.2.2
    · cases gives
  · split at gives
    · cases gives
      exact plain.2.1
    · cases gives
      exact plain.2.2
    · cases gives
  · cases gives
    exact plain.2.2

/-- The script has executed the first commands in their order.  A call that got a response got the
one of a command sent before it or its own: its own exactly if the script had nothing to do when the
call had emptied its socket, as it has unless an earlier call timed out; and its own says what the
interpreter makes of the command behind all earlier ones. -/
structure Answers (python : Python σ) (first : σ) (done : Nat) (system : System σ) : Prop where
  done_le : done ≤ system.calls.length
  executed : system.globals = globalsAfter python first (system.packets.take done)
  answered : ∀ (k : Nat) (call : Call) (source : Nat) (outcome : Outcome),
    system.calls[k]? = some call → call.result = .answered source outcome →
      source ≤ k ∧ source < done ∧ (source = k ↔ call.alone = true) ∧
        (replyTo python first system.packets source).map readResponse = some outcome
  late : ∀ (k : Nat) (call : Call), system.calls[k]? = some call → call.alone = false →
    ∃ j < k, ∃ earlier : Call, system.calls[j]? = some earlier ∧ earlier.result = .timeout
  own : ∀ (k : Nat) (call : Call) (outcome : Outcome), system.calls[k]? = some call →
    call.result = .answered k outcome → '|' ∉ call.command → call.command ≠ commandExit →
      call.packet.size ≤ maxPacketSize →
        ∃ response data,
          (dispatch python (globalsAfter python first (system.packets.take k))
            ⟨call.command, call.data.length, call.data⟩).response = some (response, data) ∧
          if (formatPacket response data).size ≤ maxPacketSize then
            outcome = readPacket ⟨response, data.length, data⟩
          else ∃ error, outcome = .raised error

/-- The response to a command that fits, as `send_command` reads it. -/
theorem replyTo_read {python : Python σ} {globals : σ} {packets : List ByteArray} {k : Nat}
    {command data : Text} {outcome : Outcome} (plain : '|' ∉ command)
    (stays : command ≠ commandExit)
    (fits : (formatPacket command data).size ≤ maxPacketSize)
    (here : packets[k]? = some (formatPacket command data))
    (reply : (replyTo python globals packets k).map readResponse = some outcome) :
    ∃ response data',
      (dispatch python (globalsAfter python globals (packets.take k))
        ⟨command, data.length, data⟩).response = some (response, data') ∧
      if (formatPacket response data').size ≤ maxPacketSize then
        outcome = readPacket ⟨response, data'.length, data'⟩
      else ∃ error, outcome = .raised error := by
  rw [replyTo, here, Option.bind_some, serve_whole plain fits] at reply
  generalize served : dispatch python (globalsAfter python globals (packets.take k))
    ⟨command, data.length, data⟩ = result at reply ⊢
  obtain ⟨packet, sent, read⟩ := Option.map_eq_some_iff.mp reply
  obtain ⟨⟨response, data'⟩, gives, isPacket⟩ := Option.map_eq_some_iff.mp sent
  refine ⟨response, data', gives, ?_⟩
  have bars : '|' ∉ response :=
    @dispatch_plain σ python _ ⟨command, data.length, data⟩ stays response data' (served ▸ gives)
  have spec := readFormatted_spec bars data'
  have same : readFormatted response data' = outcome := by
    rw [readFormatted, ← read, ← isPacket]
  rwa [same] at spec

theorem Paired.answers_all {python : Python σ} {first : σ} {done : Nat} {system : System σ}
    (paired : Paired python first done system) : Answers python first done system where
  done_le := paired.done_le
  executed := paired.globals
  answered k call source outcome here isAnswer := by
    obtain ⟨le, own, early, reply⟩ := paired.answered k call source outcome here isAnswer
    exact ⟨le, early, own, reply⟩
  late := paired.blamed
  own k call outcome here isAnswer plain stays fits := by
    obtain ⟨-, -, -, reply⟩ := paired.answered k call k outcome here isAnswer
    have packet : system.packets[k]? = some (formatPacket call.command call.data) := by
      rw [System.packets, List.getElem?_map, here]
      rfl
    exact replyTo_read plain stays fits packet reply

/-- Over every run of the tool and the script, however late the script is. -/
theorem calls_answered (python : Python σ) (first : σ) {actions : List Action} {last : System σ}
    (run : Runs.exec (System.step python) (System.start first) actions = some last) :
    ∃ done, Answers python first done last := by
  have keeps : ∀ system action next, (∃ done, Paired python first done system) →
      System.step python system action = some next → ∃ done, Paired python first done next :=
    fun _ _ _ ⟨_, paired⟩ stepped => paired.step stepped
  obtain ⟨done, paired⟩ := Runs.invariant_always keeps ⟨0, Paired.start python first⟩ run
  exact ⟨done, paired.answers_all⟩

/-- An interpreter that counts what it executes, and evaluates an expression to the count. -/
def countingPython : Python Nat where
  exec count _ := (count + 1, .value ())
  eval count _ := (count, .value (Nat.toDigits 10 count))
  fault _ := ([], [])

/-- The second call times out and is executed all the same; its response comes when the third has
emptied its socket and has not sent its command yet, so the third reads it. -/
def lateRun : List Action :=
  [.flush commandExec "x = 1".toList, .send, .take, .respond, .receive,
    .flush commandExec "y = 2".toList, .send, .take, .timeout,
    .flush commandEval "y".toList, .respond, .send, .receive]

theorem calls_answered_late :
    ∃ last done, Runs.exec (System.step countingPython) (System.start 0) lateRun = some last ∧
      last.calls.map Call.result =
        [.answered 0 (.returned ⟨responseSuccess, 0, []⟩), .timeout,
          .answered 1 (.returned ⟨responseSuccess, 0, []⟩)] ∧
      Answers countingPython 0 done last := by
  have ends : (Runs.exec (System.step countingPython) (System.start 0) lateRun).map
      (fun last => last.calls.map Call.result) =
        some [.answered 0 (.returned ⟨responseSuccess, 0, []⟩), .timeout,
          .answered 1 (.returned ⟨responseSuccess, 0, []⟩)] := by
    decide +kernel
  obtain ⟨last, run, results⟩ := Option.map_eq_some_iff.mp ends
  obtain ⟨done, answers⟩ := calls_answered countingPython 0 run
  exact ⟨last, done, run, results, answers⟩

end QHal.Gdb
