/-
Module: QHal.Proofs.NvmCommands
Purpose: The NVM programmer takes a command only behind the write of it by the host, as long
  as no checksum leaves a command in the word that it shares with the status.
Trusted boundary: none
Main exports: crc32, checksum_eq, Answered, Session.ChecksumHarmless, Session.Safe,
  commands_answered
-/
import QHal.Lib.Crc
import QHal.Lib.Runs
import QHal.Nvm.Programmer

namespace QHal.Nvm

variable {σ : Type} {drivers : Drivers σ}

/-! ## The checksum -/

/-- The polynomial of CRC-32, with its lowest power at the high end. -/
def crc32Poly : BitVec 32 := 0xEDB88320

/-- CRC-32 of some bytes, bit by bit. -/
def crc32 (bytes : List UInt8) : UInt32 :=
  ⟨Crc.remainder crc32Poly 0xFFFFFFFF (bytes.map UInt8.toBitVec)⟩ ^^^ 0xFFFFFFFF

/-- The table has the remainders of the low bytes. -/
theorem crc32Table_eq : crc32Table.map UInt32.toBitVec =
    (List.range 256).map fun i => Crc.shifts crc32Poly 8 (BitVec.ofNat 32 i) := by
  decide +kernel

theorem crc32Table_getD (byte : BitVec 8) :
    (crc32Table.getD byte.toNat 0).toBitVec = Crc.shifts crc32Poly 8 (byte.setWidth 32) := by
  have below : byte.toNat < 256 := byte.isLt
  have entry := congrArg (fun words => words[byte.toNat]?) crc32Table_eq
  simp only [List.getElem?_map, List.getElem?_range below, Option.map_some,
    Option.map_eq_some_iff] at entry
  obtain ⟨word, found, same⟩ := entry
  rw [List.getD_eq_getElem?_getD, found, Option.getD_some, same, BitVec.ofNat_toNat]

/-- The loop of the checksum takes a byte as the bits do. -/
theorem crcByte_eq (result : UInt32) (byte : UInt8) :
    (crcByte result byte).toBitVec = Crc.feed crc32Poly result.toBitVec byte.toBitVec := by
  have index : ((result ^^^ byte.toUInt32) &&& 0xFF).toNat =
      (result.toBitVec.setWidth 8 ^^^ byte.toBitVec).toNat := by
    have low : ∀ word : UInt32, (word &&& 0xFF).toNat = (word.toBitVec.setWidth 8).toNat := by
      intro word
      rw [UInt32.toNat_and, BitVec.toNat_setWidth]
      exact Nat.and_two_pow_sub_one_eq_mod _ 8
    rw [low, UInt32.toBitVec_xor, BitVec.setWidth_xor]
    congr 2
    refine BitVec.eq_of_getLsbD_eq fun i inside => ?_
    simp [inside]
  rw [Crc.feed_table (by decide) crc32Table_getD, crcByte, index]
  rfl

/-! ## The content of a range -/

/-- The bytes of a range as the reads of the checksum give them, unless one fails. -/
def readRange (read : σ → UInt32 → (Nat → UInt8) → UInt32 → Int × (Nat → UInt8) × σ)
    (device : σ) (buffer : Nat → UInt8) (address length : UInt32) : Option (List UInt8) :=
  if _ : length = 0 then some []
  else
    match read device address buffer (blockSize length) with
    | (status, buffer, device) =>
        if status ≠ 0 then none
        else
          (readRange read device buffer (address + blockSize length)
            (length - blockSize length)).map fun bytes =>
              (List.range (blockSize length).toNat).map buffer ++ bytes
termination_by length.toNat
decreasing_by exact blockSize_rest ‹_›

theorem crcBlock_eq (result : UInt32) (buffer : Nat → UInt8) (size : UInt32) :
    (crcBlock result buffer size).toBitVec =
      Crc.remainder crc32Poly result.toBitVec
        (((List.range size.toNat).map buffer).map UInt8.toBitVec) := by
  unfold crcBlock Crc.remainder
  generalize List.range size.toNat = offsets
  induction offsets generalizing result with
  | nil => rfl
  | cons offset offsets ih =>
      rw [List.foldl_cons, ih, crcByte_eq]
      rfl

theorem checksumLoop_eq (read : σ → UInt32 → (Nat → UInt8) → UInt32 → Int × (Nat → UInt8) × σ)
    (device : σ) (buffer : Nat → UInt8) (address length result : UInt32) :
    (checksumLoop read device buffer address length result).2.2 =
      (readRange read device buffer address length).map fun bytes =>
        ⟨Crc.remainder crc32Poly result.toBitVec (bytes.map UInt8.toBitVec)⟩ := by
  induction device, buffer, address, length, result using checksumLoop.induct read with
  | case1 device buffer address result =>
      unfold checksumLoop readRange
      simp [Crc.remainder]
  | case2 device buffer address length result left status buffer' device' got failed =>
      unfold checksumLoop readRange
      rw [dif_neg left, dif_neg left, got]
      simp [failed]
  | case3 device buffer address length result left status buffer' device' got done ih =>
      unfold checksumLoop readRange
      rw [dif_neg left, dif_neg left, got]
      simp only [if_neg done]
      rw [ih, Option.map_map]
      congr 1
      funext bytes
      simp only [Function.comp_apply, List.map_append, crcBlock_eq]
      unfold Crc.remainder
      rw [List.foldl_append]

/-- A checksum stores CRC-32 of the range, unless a read fails. -/
theorem checksum_eq (read : σ → UInt32 → (Nat → UInt8) → UInt32 → Int × (Nat → UInt8) × σ)
    (device : σ) (buffer : Nat → UInt8) (address length : UInt32) :
    (checksum read device buffer address length).2.2 =
      (readRange read device buffer address length).map crc32 := by
  have loop := checksumLoop_eq read device buffer address length 0xFFFFFFFF
  unfold checksum
  dsimp only
  rw [loop, Option.map_map]
  rfl

/-! ## What is seen of the commands -/

/-- The last that was seen in front of a taken command is the write of it by the host. -/
def Answered (log : List Event) : Prop :=
  ∀ (front back : List Event) (word : UInt32), log = front ++ .taken word :: back →
    front.getLast? = some (.hostCommand word)

theorem Answered.append {log : List Event} (answered : Answered log) {event : Event}
    (next : ∀ word, event = .taken word → log.getLast? = some (.hostCommand word)) :
    Answered (log ++ [event]) := by
  intro front back word split
  rcases List.eq_nil_or_concat back with rfl | ⟨back, last, rfl⟩
  · obtain ⟨same, one⟩ := List.append_inj' split rfl
    rw [← same]
    exact next word (List.cons.inj one).1
  · rw [List.concat_eq_append, ← List.cons_append, ← List.append_assoc] at split
    exact answered front back word (List.append_inj' split rfl).1

/-- A word that is a command was written by the host after all that was seen. -/
def Awaited (word : UInt32) (log : List Event) : Prop :=
  Command.ofWord word = none ∨ log.getLast? = some (.hostCommand word)

/-- What is known of the command word at a place. -/
def WordSafe (block : Block) (log : List Event) : Place → Prop
  | .execute _ | .stopped => True
  | .storeStatus status _ => Command.ofWord status = none
  | _ => Awaited block.command log

/-- Every command so far was answered, and the next will be. -/
structure Session.Safe (session : Session σ) : Prop where
  answered : Answered session.log
  word : WordSafe session.programmer.block session.log session.programmer.place

/-- A checksum that is about to run reads its range, whose CRC-32 is no command. -/
def Session.ChecksumHarmless (session : Session σ) : Action → Prop
  | .host _ => True
  | .run =>
      let programmer := session.programmer
      let block := programmer.block
      programmer.place = .execute .computeCrc →
        programmer.functions.all (fun functions =>
          (readRange functions.read programmer.device block.buffer (block.address + block.offset)
            block.size).any fun bytes => Command.ofWord (crc32 bytes) = none) = true

instance (session : Session σ) (action : Action) : Decidable (session.ChecksumHarmless action) :=
  match action with
  | .host _ => inferInstanceAs (Decidable True)
  | .run => inferInstanceAs (Decidable (_ → _))

theorem ofWord_ofResult (result : Int) {error : UInt32} (safe : Command.ofWord error = none) :
    Command.ofWord (Status.ofResult result error) = none := by
  unfold Status.ofResult
  split
  · rfl
  · exact safe

theorem ofWord_ofBoundedResult (result : Int) {error : UInt32}
    (safe : Command.ofWord error = none) :
    Command.ofWord (Status.ofBoundedResult result error) = none := by
  unfold Status.ofBoundedResult
  split
  · rfl
  · exact ofWord_ofResult result safe

/-- A command ends with a status that is no command, or the programmer stops. -/
theorem execute_safe (programmer : Programmer σ) {command : Command}
    (harmless : command = .computeCrc → programmer.functions.all (fun functions =>
      (readRange functions.read programmer.device programmer.block.buffer
        (programmer.block.address + programmer.block.offset) programmer.block.size).any
          fun bytes => Command.ofWord (crc32 bytes) = none) = true) :
    (execute programmer command).2 = [] ∧
      ((execute programmer command).1.place = .stopped ∨
        ∃ status address, (execute programmer command).1.place = .storeStatus status address ∧
          Command.ofWord status = none) := by
  cases command with
  | program =>
      unfold execute
      cases programmer.functions with
      | none => exact ⟨rfl, Or.inl rfl⟩
      | some functions => exact ⟨rfl, Or.inr ⟨_, _, rfl, ofWord_ofBoundedResult _ rfl⟩⟩
  | read =>
      unfold execute
      cases programmer.functions with
      | none => exact ⟨rfl, Or.inl rfl⟩
      | some functions => exact ⟨rfl, Or.inr ⟨_, _, rfl, ofWord_ofBoundedResult _ rfl⟩⟩
  | otpWrite =>
      unfold execute
      cases programmer.functions with
      | none => exact ⟨rfl, Or.inl rfl⟩
      | some functions => exact ⟨rfl, Or.inr ⟨_, _, rfl, ofWord_ofResult _ rfl⟩⟩
  | otpRead =>
      unfold execute
      cases programmer.functions with
      | none => exact ⟨rfl, Or.inl rfl⟩
      | some functions => exact ⟨rfl, Or.inr ⟨_, _, rfl, ofWord_ofResult _ rfl⟩⟩
  | systemReset => exact ⟨rfl, Or.inr ⟨_, _, rfl, rfl⟩⟩
  | chipErase =>
      unfold execute
      cases programmer.functions.bind NvmFunctions.chipErase with
      | none => exact ⟨rfl, Or.inr ⟨_, _, rfl, rfl⟩⟩
      | some chipErase => exact ⟨rfl, Or.inr ⟨_, _, rfl, ofWord_ofResult _ rfl⟩⟩
  | partialErase =>
      unfold execute
      cases programmer.functions.bind NvmFunctions.partialErase with
      | none => exact ⟨rfl, Or.inl rfl⟩
      | some partialErase => exact ⟨rfl, Or.inr ⟨_, _, rfl, ofWord_ofBoundedResult _ rfl⟩⟩
  | computeCrc =>
      unfold execute
      cases given : programmer.functions with
      | none => exact ⟨rfl, Or.inl rfl⟩
      | some functions =>
          have content := harmless rfl
          rw [given, Option.all_some] at content
          obtain ⟨bytes, range, noCommand⟩ := (Option.any_eq_true _ _).mp content
          have safe := of_decide_eq_true noCommand
          have stored := checksum_eq functions.read programmer.device programmer.block.buffer
            (programmer.block.address + programmer.block.offset) programmer.block.size
          rw [range, Option.map_some] at stored
          generalize result : checksum functions.read programmer.device programmer.block.buffer
            (programmer.block.address + programmer.block.offset) programmer.block.size = outcome
            at stored
          obtain ⟨device, buffer, crc⟩ := outcome
          cases stored
          dsimp only
          rw [result]
          exact ⟨rfl, Or.inr ⟨_, _, rfl, safe⟩⟩

theorem deviceSwitch_block (drivers : Drivers σ) (programmer : Programmer σ) :
    (deviceSwitch drivers programmer).2.block = programmer.block := by
  unfold deviceSwitch
  dsimp only
  repeat' split
  all_goals rfl

/-! ## Steps and runs -/

/-- An access of the host. -/
theorem Session.Safe.host {session : Session σ} (safe : session.Safe) (access : Access) :
    Session.Safe
      { programmer :=
          { session.programmer with
            block := access.apply session.programmer.block
            deviceType := access.deviceType session.programmer.deviceType }
        log := session.log ++ access.events } := by
  have word := safe.word
  cases access with
  | writeCommand written =>
      refine ⟨safe.answered.append nofun, ?_⟩
      have awaited : Awaited written (session.log ++ [.hostCommand written]) :=
        Or.inr List.getLast?_concat
      cases place : session.programmer.place with
      | storeStatus status address =>
          rw [place] at word
          exact word
      | execute command => trivial
      | stopped => trivial
      | _ => exact awaited
  | _ =>
      -- The word and what was seen stay the same.
      simp only [Access.events, List.append_nil]
      refine ⟨safe.answered, ?_⟩
      cases place : session.programmer.place <;>
        · rw [place] at word
          exact word

/-- An access of the programmer. -/
theorem Session.Safe.run {session next : Session σ} (safe : session.Safe)
    (harmless : session.ChecksumHarmless .run)
    (stepped : session.step drivers .run = some next) : next.Safe := by
  have word := safe.word
  obtain ⟨programmer, log⟩ := session
  obtain ⟨⟨ran, events⟩, run, rfl⟩ := Option.map_eq_some_iff.mp stepped
  unfold jtagRun at run
  dsimp only at word run harmless ⊢
  cases place : programmer.place with
  | stopped =>
      rw [place] at run
      cases run
  | attach =>
      rw [place] at run word
      cases run
      rw [List.append_nil]
      refine ⟨safe.answered, ?_⟩
      dsimp only
      split <;> exact word
  | attachSwitch =>
      rw [place] at run word
      cases run
      rw [List.append_nil]
      refine ⟨safe.answered, ?_⟩
      dsimp only
      rw [deviceSwitch_block]
      split <;> exact word
  | attachStore =>
      rw [place] at run word
      cases run
      rw [List.append_nil]
      exact ⟨safe.answered, word⟩
  | attachFailed =>
      rw [place] at run
      cases run
      rw [List.append_nil]
      exact ⟨safe.answered, Or.inl rfl⟩
  | dispatch =>
      rw [place] at run word
      dsimp only at run
      cases known : Command.ofWord programmer.block.command with
      | none =>
          rw [known] at run
          cases run
          rw [List.append_nil]
          exact ⟨safe.answered, word⟩
      | some command =>
          rw [known] at run
          cases run
          refine ⟨safe.answered.append fun taken same => ?_, trivial⟩
          injection same with same
          rw [← same]
          refine word.resolve_left fun none => ?_
          rw [none] at known
          cases known
  | execute command =>
      rw [place] at run
      have done := Option.some.inj run
      obtain ⟨unseen, stops | ⟨status, address, stores, noCommand⟩⟩ :=
        execute_safe programmer fun same : command = .computeCrc =>
          harmless (by rw [place, same])
      · rw [done] at unseen stops
        dsimp only at unseen stops
        rw [unseen, List.append_nil]
        refine ⟨safe.answered, ?_⟩
        dsimp only
        rw [stops]
        trivial
      · rw [done] at unseen stores
        dsimp only at unseen stores
        rw [unseen, List.append_nil]
        refine ⟨safe.answered, ?_⟩
        dsimp only
        rw [stores]
        exact noCommand
  | storeStatus status address =>
      rw [place] at run word
      cases address with
      | none =>
          cases run
          exact ⟨safe.answered.append nofun, Or.inl word⟩
      | some address =>
          cases run
          exact ⟨safe.answered.append nofun, Or.inl word⟩
  | storeAddress address =>
      rw [place] at run word
      cases run
      rw [List.append_nil]
      exact ⟨safe.answered, word⟩
  | idle =>
      rw [place] at run word
      cases run
      rw [List.append_nil]
      refine ⟨safe.answered, ?_⟩
      dsimp only
      split
      · trivial
      · split <;> exact word
  | storeIdle =>
      rw [place] at run
      cases run
      rw [List.append_nil]
      exact ⟨safe.answered, Or.inl rfl⟩

theorem Session.Safe.step {session next : Session σ} {action : Action} (safe : session.Safe)
    (harmless : session.ChecksumHarmless action)
    (stepped : session.step drivers action = some next) : next.Safe := by
  cases action with
  | host access =>
      cases stepped
      exact safe.host access
  | run => exact safe.run harmless stepped

theorem start_safe (device : σ) : (Session.start device).Safe where
  answered := by
    intro front back word split
    simp [Session.start] at split
  word := Or.inl rfl

/-- Whatever the host does, every command that is taken answers a write of the host behind all
else that was seen, as long as the checksums leave no command. -/
theorem commands_answered (drivers : Drivers σ) (device : σ) {actions : List Action}
    {session : Session σ}
    (harmless : Runs.Meets (Session.step drivers) Session.ChecksumHarmless (Session.start device)
      actions)
    (run : Runs.exec (Session.step drivers) (Session.start device) actions = some session) :
    Answered session.log :=
  (Runs.invariant (fun _ _ _ safe meets stepped => Session.Safe.step safe meets stepped)
    (start_safe device) harmless run).answered

/-- A device whose content is the same four bytes over and over. -/
def constantDrivers (content : Nat → UInt8) : Drivers Unit :=
  let functions : NvmFunctions Unit :=
    { write := fun _ _ _ _ => (0, ())
      read := fun _ _ _ _ => (0, content, ())
      partialErase := none
      chipErase := none }
  { rram := functions
    otp := functions
    flash := none }

/-- The host asks for the checksum of some bytes, and the programmer goes on. -/
def checksumRun (size : UInt32) (rounds : Nat) : List Action :=
  [Action.host (.writeSize size), Action.host (.writeCommand 0x41)] ++
    List.replicate rounds Action.run

theorem commands_answered_zeros :
    ∃ session, Runs.exec (Session.step (constantDrivers fun _ => 0)) (Session.start ())
        (checksumRun 4 7) = some session ∧
      session.log = [.hostCommand 0x41, .taken 0x41, .completed] ∧ Answered session.log := by
  have seen : (Runs.exec (Session.step (constantDrivers fun _ => 0)) (Session.start ())
      (checksumRun 4 7)).map Session.log =
        some [.hostCommand 0x41, .taken 0x41, .completed] := by
    decide +kernel
  obtain ⟨session, run, log⟩ := Option.map_eq_some_iff.mp seen
  have harmless : Runs.Meets (Session.step (constantDrivers fun _ => 0)) Session.ChecksumHarmless
      (Session.start ()) (checksumRun 4 7) := by
    decide +kernel
  exact ⟨session, run, log, commands_answered (constantDrivers fun _ => 0) () harmless run⟩

/-- Four bytes with the checksum 1: the result is taken as the command to program. -/
theorem commands_not_answered :
    ∃ session, Runs.exec (Session.step (constantDrivers fun i =>
          [0xDC, 0x0C, 0xA8, 0xB6].getD (i % 4) 0)) (Session.start ()) (checksumRun 4 8) =
        some session ∧
      session.log = [.hostCommand 0x41, .taken 0x41, .completed, .taken 1] ∧
      ¬ Answered session.log := by
  have seen : (Runs.exec (Session.step (constantDrivers fun i =>
      [0xDC, 0x0C, 0xA8, 0xB6].getD (i % 4) 0)) (Session.start ()) (checksumRun 4 8)).map
        Session.log = some [.hostCommand 0x41, .taken 0x41, .completed, .taken 1] := by
    decide +kernel
  obtain ⟨session, run, log⟩ := Option.map_eq_some_iff.mp seen
  refine ⟨session, run, log, fun answered => ?_⟩
  have last := answered [.hostCommand 0x41, .taken 0x41, .completed] [] 1 log
  exact absurd last (by decide)

end QHal.Nvm
