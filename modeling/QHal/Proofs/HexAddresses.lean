/-
Module: QHal.Proofs.HexAddresses
Purpose: The blocks that the parser makes of any file it accepts: in order, with a gap in front of
  each, and at addresses of 32 bits.
Trusted boundary: none
Main exports: fromHex_noSign, parseFields_bounds, Low, Spaced, joinLines_spaced, parse_spaced
-/
import QHal.Hex.HexParse
import QHal.Lib.Steps

namespace QHal.Hex

open Numerals (Text digitIn readInt readInt_bounds)
open Nvm (fromHex)
open Steps (bind_ok_iff foldlM_invariant)

/-! ## The numbers of a line -/

/-- Text that spells bytes has no sign in it. -/
theorem fromHex_noSign : ∀ {text : Text} {bytes : List UInt8},
    fromHex text = some bytes → '-' ∉ text
  | [], _, _ => List.not_mem_nil
  | [c], _, spelled => by
      rw [fromHex] at spelled
      split at spelled
      · rename_i blank
        rw [List.mem_singleton]
        rintro rfl
        exact absurd blank (by decide)
      · cases spelled
  | high :: low :: rest, _, spelled => by
      have digit : ∀ c value, digitIn 16 c = some value → '-' ≠ c := by
        rintro c value isDigit rfl
        cases isDigit
      rw [fromHex] at spelled
      split at spelled
      · rename_i blank
        rw [List.mem_cons, not_or]
        refine ⟨?_, fromHex_noSign spelled⟩
        rintro rfl
        exact absurd blank (by decide)
      · obtain ⟨first, isFirst, spelled⟩ := Option.bind_eq_some_iff.mp spelled
        obtain ⟨second, isSecond, spelled⟩ := Option.bind_eq_some_iff.mp spelled
        obtain ⟨tail, isTail, -⟩ := Option.bind_eq_some_iff.mp spelled
        rw [List.mem_cons, List.mem_cons, not_or, not_or]
        exact ⟨digit high first isFirst, digit low second isSecond, fromHex_noSign isTail⟩

namespace HexFile

theorem converted_ok_iff {α : Type} {value : Option α} {result : α} :
    converted value = .ok result ↔ value = some result := by
  cases value with
  | none => exact ⟨nofun, nofun⟩
  | some value =>
      exact ⟨fun same => Except.ok.inj same ▸ rfl, fun same => Option.some.inj same ▸ rfl⟩

/-- The address of a line has 16 bits, and its data has as many digits as its length says, without
a sign. -/
theorem parseFields_bounds {line data : Text} {length address command : Int}
    (read : parseFields line = .ok (length, address, command, data)) :
    (0 ≤ address ∧ address < 0x10000) ∧ length * 2 = data.length ∧ '-' ∉ data := by
  unfold parseFields at read
  obtain ⟨bytes, spelled, read⟩ := bind_ok_iff.mp read
  have noSign := fromHex_noSign (converted_ok_iff.mp spelled)
  split at read
  · cases read
  obtain ⟨_, -, read⟩ := bind_ok_iff.mp read
  obtain ⟨_, isAddress, read⟩ := bind_ok_iff.mp read
  obtain ⟨_, -, read⟩ := bind_ok_iff.mp read
  dsimp only at read
  split at read
  · cases read
  · rename_i sized
    cases read
    have digits : ((line.drop 3).take 4).length ≤ 4 := List.length_take_le ..
    have bounds :=
      readInt_bounds (by decide) (fun sign => noSign ?_) (converted_ok_iff.mp isAddress)
    · have small : 16 ^ ((line.drop 3).take 4).length ≤ 16 ^ 4 :=
        Nat.pow_le_pow_right (by decide) digits
      refine ⟨by omega, not_not.mp sized, fun sign => noSign ?_⟩
      rw [List.drop_take] at sign
      have later := List.mem_of_mem_take sign
      rw [show 9 = 1 + 8 from rfl, ← List.drop_drop] at later
      exact List.mem_of_mem_drop later
    · have later := List.mem_of_mem_take sign
      rw [show 3 = 1 + 2 from rfl, ← List.drop_drop] at later
      exact List.mem_of_mem_drop later

/-- The addresses so far have 32 bits, and the next ones will if they have 16 bits of their own. -/
structure Low (state : ParseState) : Prop where
  extAddr : 0 ≤ state.extAddr ∧ state.extAddr + 0x10000 ≤ 2 ^ 32
  lines : ∀ line ∈ state.lineData, 0 ≤ line.address ∧ line.address < 2 ^ 32

theorem Low.record {state next : ParseState} (low : Low state) {length address : Int} {data : Text}
    {group : RecordGroup} (place : 0 ≤ address ∧ address < 0x10000)
    (sized : length * 2 = data.length) (noSign : '-' ∉ data)
    (processed : processRecord state length address data group = .ok next) : Low next := by
  obtain ⟨extAddr, lines⟩ := low
  cases group with
  | data =>
      obtain ⟨bytes, -, processed⟩ := bind_ok_iff.mp processed
      cases processed
      refine ⟨extAddr, fun line member => ?_⟩
      rcases List.mem_append.mp member with before | new
      · exact lines line before
      · rw [List.mem_singleton.mp new]
        dsimp only
        omega
  | endOfFile =>
      cases processed
      exact ⟨extAddr, lines⟩
  | extendedAddress =>
      rw [processRecord] at processed
      split at processed
      · cases processed
      · rename_i two
        obtain ⟨value, isValue, processed⟩ := bind_ok_iff.mp processed
        cases processed
        have four : data.length = 4 := by omega
        have bounds := readInt_bounds (by decide) noSign (converted_ok_iff.mp isValue)
        rw [four] at bounds
        exact ⟨by dsimp only; omega, lines⟩
  | startAddress =>
      rw [processRecord] at processed
      split at processed
      · cases processed
      dsimp only at processed
      split at processed
      · cases processed
      · obtain ⟨value, -, processed⟩ := bind_ok_iff.mp processed
        cases processed
        exact ⟨extAddr, lines⟩

theorem Low.line (state : ParseState) (line : Text) (next : ParseState) (low : Low state)
    (parsed : parseLine state line = .ok next) : Low next := by
  unfold parseLine at parsed
  by_cases ended : state.endReached
  · rw [if_pos ended] at parsed
    cases parsed
  rw [if_neg ended] at parsed
  dsimp only at parsed
  split at parsed
  · cases parsed
  obtain ⟨⟨length, address, command, data⟩, fields, parsed⟩ := bind_ok_iff.mp parsed
  obtain ⟨place, sized, noSign⟩ := parseFields_bounds fields
  dsimp only at parsed
  split at parsed
  · cases parsed
  · refine Low.record ?_ place sized noSign parsed
    exact ⟨low.extAddr, low.lines⟩

/-! ## The blocks -/

/-- Blocks that start behind a place, each in front of the next, and all at 32-bit addresses. -/
structure Spaced (nextAddr : Int) (blocks : List HexBlock) : Prop where
  apart : blocks.Pairwise fun block next => block.stop < next.start
  ended : ∀ block ∈ blocks, block.stop ≤ nextAddr
  inside : ∀ block ∈ blocks, 0 ≤ block.start ∧ block.start < 2 ^ 32

/-- A line that starts behind the end of all blocks becomes the last one. -/
theorem Spaced.push {nextAddr : Int} {blocks : List HexBlock} {line : LineData}
    (spaced : Spaced nextAddr blocks) (behind : nextAddr < line.address)
    (low : 0 ≤ line.address ∧ line.address < 2 ^ 32) :
    Spaced (line.address + line.data.length)
      (blocks ++ [⟨line.address, line.data, .bytearray⟩]) where
  apart := by
    refine List.pairwise_append.mpr ⟨spaced.apart, List.pairwise_singleton .., ?_⟩
    intro block member next isLast
    rw [List.mem_singleton.mp isLast]
    exact Int.lt_of_le_of_lt (spaced.ended block member) behind
  ended := by
    intro block member
    rcases List.mem_append.mp member with before | isLast
    · have ended := spaced.ended block before
      omega
    · rw [List.mem_singleton.mp isLast]
      exact Int.le_refl _
  inside := by
    intro block member
    rcases List.mem_append.mp member with before | isLast
    · exact spaced.inside block before
    · rw [List.mem_singleton.mp isLast]
      exact low

/-- A line that starts at the end of the blocks becomes a part of the last one. -/
theorem Spaced.extend {nextAddr : Int} {front : List HexBlock} {last : HexBlock}
    (spaced : Spaced nextAddr (front ++ [last])) (data : List UInt8) :
    Spaced (nextAddr + data.length) (front ++ [{ last with data := last.data ++ data }]) where
  apart := by
    obtain ⟨others, -, behind⟩ := List.pairwise_append.mp spaced.apart
    refine List.pairwise_append.mpr ⟨others, List.pairwise_singleton .., ?_⟩
    intro block member next isLast
    rw [List.mem_singleton.mp isLast]
    exact behind block member last List.mem_cons_self
  ended := by
    intro block member
    rcases List.mem_append.mp member with before | isLast
    · have ended := spaced.ended block (List.mem_append_left _ before)
      omega
    · have ended := spaced.ended last (List.mem_append_right _ List.mem_cons_self)
      rw [List.mem_singleton.mp isLast]
      unfold HexBlock.stop at ended ⊢
      dsimp only
      rw [List.length_append]
      omega
  inside := by
    intro block member
    rcases List.mem_append.mp member with before | isLast
    · exact spaced.inside block (List.mem_append_left _ before)
    · rw [List.mem_singleton.mp isLast]
      exact spaced.inside last (List.mem_append_right _ List.mem_cons_self)

theorem joinLines_spaced {lines : List LineData} {nextAddr : Int} {blocks result : List HexBlock}
    (spaced : Spaced nextAddr blocks)
    (low : ∀ line ∈ lines, 0 ≤ line.address ∧ line.address < 2 ^ 32)
    (joined : joinLines nextAddr blocks lines = .ok result) : ∃ last, Spaced last result := by
  induction lines generalizing nextAddr blocks with
  | nil =>
      cases joined
      exact ⟨nextAddr, spaced⟩
  | cons line rest ih =>
      obtain ⟨own, later⟩ := List.forall_mem_cons.mp low
      rw [joinLines] at joined
      split at joined
      · cases joined
      rename_i notBefore
      split at joined
      · split at joined
        · cases joined
        · rename_i last isLast
          obtain ⟨front, rfl⟩ := List.getLast?_eq_some_iff.mp isLast
          rw [List.dropLast_concat] at joined
          exact ih (spaced.extend line.data) later joined
      · exact ih (spaced.push (by omega) own) later joined

/-- The blocks of a file that the parser accepts. -/
theorem parse_spaced {lines : List Text} {file : HexFile} (parsed : parse lines = .ok file) :
    ∃ last, Spaced last file.blocks := by
  unfold parse at parsed
  obtain ⟨state, read, parsed⟩ := bind_ok_iff.mp parsed
  have low : Low state := foldlM_invariant Low.line
    ⟨by decide, fun _ member => absurd member List.not_mem_nil⟩ read
  split at parsed
  · cases parsed
  obtain ⟨blocks, joined, parsed⟩ := bind_ok_iff.mp parsed
  cases parsed
  have sorted : ∀ line ∈ sortLines state.lineData, 0 ≤ line.address ∧ line.address < 2 ^ 32 :=
    fun line member => low.lines line ((List.mergeSort_perm ..).subset member)
  have none : Spaced (-1) [] := ⟨List.Pairwise.nil, List.forall_mem_nil _, List.forall_mem_nil _⟩
  exact joinLines_spaced none sorted joined

end HexFile

end QHal.Hex
