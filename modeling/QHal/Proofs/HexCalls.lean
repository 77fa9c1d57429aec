/-
Module: QHal.Proofs.HexCalls
Purpose: Sequences of the calls that change a hex file.
Trusted boundary: a call that raises leaves the object to the next call.
Main exports: Call, Call.run, Call.Correct, Call.Changeable, calls_correct_iff
-/
import QHal.Lib.Runs
import QHal.Proofs.HexRanges

namespace QHal.Hex.HexFile

/-- The calls that change the bytes of a hex file. -/
inductive Call where
  | add (address : Int) (data : List UInt8)
  | modify (address : Int) (data : List UInt8)
  | delete (address : Int) (length : Nat)
  | merge (other : HexFile)
  | fill (address length : Option Int) (byte : UInt8)
  | offsetAddress (offset : Int)
deriving Repr, DecidableEq

/-- The blocks are sorted, have no address in common, and none is empty. -/
abbrev Tidy (file : HexFile) : Prop := Canonical 0 file.blocks

namespace Call

/-- What a call that checks before it changes anything leaves, and what it raises. -/
def checked (file : HexFile) : Except String HexFile → HexFile × Option String
  | .ok after => (after, none)
  | .error error => (file, some error)

/-- The object that a call leaves, and the exception that it raises. -/
def run (file : HexFile) : Call → HexFile × Option String
  | add address data => checked file (file.add address data)
  | modify address data => (file.modify address data, none)
  | delete address length => file.delete address length
  | merge other => checked file (file.merge other)
  | fill address length byte => (file.fill address length byte, none)
  | offsetAddress offset => checked file (file.offsetAddress offset)

def step (file : HexFile) (call : Call) : Option HexFile := some (call.run file).1

/-- The data of a call is not empty, and its length, where it is given, is positive. -/
def Given : Call → Prop
  | add _ data => data ≠ []
  | modify _ data => data ≠ []
  | delete _ length => 0 < length
  | merge other => other.Tidy
  | fill _ length _ => ∀ given, length = some given → 0 < given
  | offsetAddress _ => True

/-- A call that has to raise. -/
def Refused (file : HexFile) : Call → Prop
  | add address data => Bytes.Meets file.byteAt address data.length
  | merge other => Bytes.Overlap file.byteAt other.byteAt
  | offsetAddress offset => Bytes.LeavesRange file.byteAt offset
  | _ => False

/-- What a call makes of the bytes. -/
def update (file : HexFile) : Call → Bytes
  | add address data => Bytes.put file.byteAt address data
  | modify address data => Bytes.put file.byteAt address data
  | delete address length => Bytes.cut file.byteAt address length
  | merge other => Bytes.union file.byteAt other.byteAt
  | fill address length byte =>
      Bytes.fillUp file.byteAt (file.fillRange address length).1
        (file.fillRange address length).2 byte
  | offsetAddress offset => Bytes.shift file.byteAt offset

/-- A call raises and leaves the object, or completes with the bytes of the update, and leaves
the blocks in order. -/
structure Correct (file : HexFile) (call : Call) : Prop where
  refuses : call.Refused file → (call.run file).2 ≠ none ∧ (call.run file).1 = file
  completes : ¬ call.Refused file →
    (call.run file).2 = none ∧ (call.run file).1.byteAt = call.update file
  tidy : (call.run file).1.Tidy

/-- A `delete` comes upon no block of `bytes`, and a `fill` of a file without blocks is given a
range. -/
def Changeable (file : HexFile) : Call → Prop
  | delete address length => ¬ Frozen address (address + length) file.blocks
  | fill address length _ =>
      file.blocks = [] → (file.fillRange address length).1 < (file.fillRange address length).2
  | _ => True

variable {file : HexFile} {call : Call}

theorem correct_checked {result : Except String HexFile}
    (run : call.run file = checked file result) (tidy : file.Tidy)
    (refuses : call.Refused file → ∃ error, result = .error error)
    (completes : ¬ call.Refused file → ∃ after, result = .ok after ∧ after.Tidy ∧
      after.byteAt = call.update file) : call.Correct file := by
  by_cases refused : call.Refused file
  · obtain ⟨error, rfl⟩ := refuses refused
    exact ⟨fun _ => by rw [run]; exact ⟨Option.some_ne_none error, rfl⟩,
      fun none => (none refused).elim, by rw [run]; exact tidy⟩
  · obtain ⟨after, rfl, kept, bytes⟩ := completes refused
    exact ⟨fun yes => (refused yes).elim, fun _ => by rw [run]; exact ⟨rfl, bytes⟩,
      by rw [run]; exact kept⟩

/-- A call that never has to raise. -/
theorem correct_iff (never : ¬ call.Refused file) : call.Correct file ↔
    (call.run file).2 = none ∧ (call.run file).1.Tidy ∧
      (call.run file).1.byteAt = call.update file :=
  ⟨fun correct => ⟨(correct.completes never).1, correct.tidy, (correct.completes never).2⟩,
    fun ⟨error, tidy, bytes⟩ =>
      ⟨fun refused => (never refused).elim, fun _ => ⟨error, bytes⟩, tidy⟩⟩

/-- One call does what it should exactly when it finds what it can change. -/
theorem correct_iff_changeable (tidy : file.Tidy) (given : call.Given) :
    call.Correct file ↔ call.Changeable file := by
  have small : 0 ≤ 1 := Nat.zero_le 1
  cases call with
  | add address data =>
      refine iff_of_true (correct_checked rfl tidy (fun taken => ⟨_, add_overlap tidy given taken⟩)
        fun free => ⟨_, add_put tidy given free, modify_put small tidy given address⟩) trivial
  | modify address data =>
      obtain ⟨kept, put⟩ := modify_put small tidy given address
      exact iff_of_true ((correct_iff id).mpr ⟨rfl, kept, put⟩) trivial
  | delete address length =>
      rw [correct_iff id]
      refine ⟨fun ⟨done, _⟩ frozen => delete_raises tidy frozen done, fun free => ?_⟩
      exact delete_cut small tidy (Or.inl given) free
  | merge other =>
      refine iff_of_true
        (correct_checked rfl tidy (fun clash => ⟨_, merge_overlap tidy given clash⟩)
          fun free => merge_union small tidy given free) trivial
  | fill address length byte =>
      rw [correct_iff id]
      refine ⟨fun ⟨_, kept, _⟩ empty => ?_, fun some => ?_⟩
      · exact Int.not_le.mp fun nothing => fill_leaves_empty empty rfl nothing kept
      · refine ⟨rfl, fill_fillUp small tidy rfl ?_⟩
        cases length with
        | none =>
            by_cases empty : file.blocks = []
            · exact Or.inl (some empty)
            · exact fills_default tidy rfl empty
        | some length =>
            have positive := given length rfl
            left
            show address.getD file.startAddress < address.getD file.startAddress + length
            omega
  | offsetAddress offset =>
      refine iff_of_true (correct_checked rfl tidy
        (fun leaves => ⟨_, offsetAddress_refused tidy leaves⟩)
        fun stays => offsetAddress_shift tidy stays) trivial

end Call

/-- Every call of a sequence does what it should exactly when each finds what it can change. -/
theorem calls_correct_iff (file : HexFile) (calls : List Call) (tidy : file.Tidy)
    (given : ∀ call ∈ calls, call.Given) :
    Runs.Meets Call.step (fun file call => call.Correct file) file calls ↔
      Runs.Meets Call.step (fun file call => call.Changeable file) file calls := by
  refine Runs.meets_iff (fun file call tidy given => ?_)
    (fun file call next tidy given changeable stepped => ?_) tidy given
  · exact Call.correct_iff_changeable tidy given
  cases stepped
  exact ((Call.correct_iff_changeable tidy given).mpr changeable).tidy

/-- Bytes are added, and one of them is removed. -/
theorem calls_correct_delete :
    Runs.Meets Call.step (fun file call => call.Correct file) HexFile.empty
      [.add 0x100 [1, 2, 3], .delete 0x101 1] := by
  refine (calls_correct_iff _ _ canonical_nil ?_).mpr ⟨trivial, ?_, trivial⟩
  · intro call member
    rcases List.mem_cons.mp member with rfl | member
    · exact List.cons_ne_nil _ _
    · rw [List.mem_singleton.mp member]
      exact Nat.one_pos
  · rintro ⟨block, member, bytes, -⟩
    have added : ∀ block ∈ (Call.run HexFile.empty (.add 0x100 [1, 2, 3])).1.blocks,
        block.kind = .bytearray := by decide
    rw [added block member] at bytes
    cases bytes

/-- Removing a byte of what was filled raises. -/
theorem delete_filled_raises :
    ¬ ∀ (file : HexFile) (calls : List Call), file.Tidy → (∀ call ∈ calls, call.Given) →
      Runs.Meets Call.step (fun file call => call.Correct file) file calls := by
  intro all
  have given : ∀ call ∈ [Call.fill (some 0x100) (some 4) 0xFF, .delete 0x101 1], call.Given := by
    intro call member
    rcases List.mem_cons.mp member with rfl | member
    · rintro length ⟨⟩
      decide
    · rw [List.mem_singleton.mp member]
      exact Nat.one_pos
  obtain ⟨-, correct, -⟩ := all HexFile.empty _ canonical_nil given
  obtain ⟨none, -⟩ := correct.completes id
  revert none
  decide

end QHal.Hex.HexFile
