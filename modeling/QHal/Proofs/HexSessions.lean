/-
Module: QHal.Proofs.HexSessions
Purpose: Hex files that are read, changed and written again.
Trusted boundary: a call that raises leaves the object to the next call.
Main exports: Edit, Edit.Keeps, Origin, session_roundTrips_iff
-/
import QHal.Proofs.HexCalls
import QHal.Proofs.HexWrite

namespace QHal.Hex.HexFile

open Numerals (Text)

/-! ## Files that are read -/

section Read

variable {lines : List LineData} {blocks result : List HexBlock} {nextAddr : Int}

/-- Blocks with a gap between any two. -/
def Separate (blocks : List HexBlock) : Prop :=
  blocks.Pairwise fun block next => block.stop + 1 ≤ next.start

/-- The loop that merges the lines leaves a gap between any two blocks. -/
theorem joinLines_separate (separate : Separate blocks)
    (before : ∀ block ∈ blocks, block.stop ≤ nextAddr)
    (joined : joinLines nextAddr blocks lines = .ok result) : Separate result := by
  induction lines generalizing nextAddr blocks with
  | nil =>
      cases joined
      exact separate
  | cons line rest ih =>
      rw [joinLines] at joined
      split at joined
      · cases joined
      · rename_i order
        split at joined
        · rename_i touches
          split at joined
          · cases joined
          · rename_i last final
            obtain ⟨front, rfl⟩ := List.getLast?_eq_some_iff.mp final
            rw [List.dropLast_concat] at joined
            obtain ⟨first, -, between⟩ := List.pairwise_append.mp separate
            obtain ⟨frontBefore, lastBefore⟩ := List.forall_mem_append.mp before
            have own := lastBefore last List.mem_cons_self
            refine ih ?_ ?_ joined
            · refine List.pairwise_append.mpr ⟨first, List.pairwise_singleton _ _, ?_⟩
              intro block member next single
              rw [List.mem_singleton.mp single]
              exact between block member last List.mem_cons_self
            · refine List.forall_mem_append.mpr ⟨fun block member => ?_, ?_⟩
              · have behind := frontBefore block member
                omega
              · intro block single
                rw [List.mem_singleton.mp single]
                show last.address + ((last.data ++ line.data).length : Int) ≤ _
                have size : last.stop = last.address + last.data.length := rfl
                rw [List.length_append]
                omega
        · rename_i gap
          refine ih ?_ ?_ joined
          · refine List.pairwise_append.mpr ⟨separate, List.pairwise_singleton _ _, ?_⟩
            intro block member next single
            have behind := before block member
            rw [List.mem_singleton.mp single]
            show block.stop + 1 ≤ line.address
            omega
          · refine List.forall_mem_append.mpr ⟨fun block member => ?_, ?_⟩
            · have behind := before block member
              omega
            · intro block single
              rw [List.mem_singleton.mp single]
              exact Int.le_refl _

/-- The blocks of a file that is read have gaps between them. -/
theorem parse_separate {texts : List Text} {file : HexFile} (read : parse texts = .ok file) :
    Separate file.blocks := by
  unfold parse at read
  cases loop : (lineList texts).foldlM parseLine ParseState.init with
  | error error =>
      rw [loop] at read
      cases read
  | ok state =>
      rw [loop] at read
      cases joined : joinLines (-1) [] (sortLines state.lineData) with
      | error error =>
          simp only [bind, Except.bind, joined] at read
          split at read <;> cases read
      | ok blocks =>
          simp only [bind, Except.bind, joined] at read
          split at read
          · cases read
          · cases read
            exact joinLines_separate List.Pairwise.nil nofun joined

end Read

/-! ## Sessions -/

/-- The calls that change a hex file. -/
inductive Edit where
  | call (made : Call)
  | removeStart
deriving Repr, DecidableEq

namespace Edit

def step (file : HexFile) : Edit → Option HexFile
  | call made => some (made.run file).1
  | removeStart => some file.removeStart

/-- No empty data is put between the blocks, no block is split by removing nothing, none that
cannot be changed is met, and no empty range is filled between the blocks. -/
def Keeps (file : HexFile) : Edit → Prop
  | call (.add address data) => ¬ Stray file.blocks address data
  | call (.modify address data) => ¬ Stray file.blocks address data
  | call (.delete address length) =>
      ¬ Frozen address (address + length) file.blocks ∧
        (0 < length ∨ ∀ block ∈ file.blocks, ¬ (block.start < address ∧ address < block.stop))
  | call (.merge other) => other.Tidy
  | call (.fill address length _) =>
      Fills file.blocks (file.fillRange address length).1 (file.fillRange address length).2
  | call (.offsetAddress _) => True
  | removeStart => True

/-- The blocks keep gaps between them. -/
theorem keeps_canonical {file next : HexFile} {edit : Edit} (canonical : Canonical 1 file.blocks)
    (keeps : edit.Keeps file) (stepped : edit.step file = some next) :
    Canonical 1 next.blocks := by
  have small : 1 ≤ 1 := Nat.le_refl 1
  cases edit with
  | removeStart =>
      cases stepped
      exact canonical
  | call made =>
      cases stepped
      cases made with
      | add address data =>
          show Canonical 1 (Call.checked file (file.add address data)).1.blocks
          unfold add
          split
          · exact canonical
          · exact canonical_modify small canonical keeps
      | modify address data => exact canonical_modify small canonical keeps
      | delete address length => exact (delete_cut small canonical keeps.2 keeps.1).2.1
      | merge other =>
          by_cases clash : Bytes.Overlap file.byteAt other.byteAt
          · show Canonical 1 (Call.checked file (file.merge other)).1.blocks
            rw [merge_overlap canonical keeps clash]
            exact canonical
          · obtain ⟨after, merged, kept, -⟩ := merge_union small canonical keeps clash
            show Canonical 1 (Call.checked file (file.merge other)).1.blocks
            rw [merged]
            exact kept
      | fill address length byte => exact (fill_fillUp small canonical rfl keeps).1
      | offsetAddress offset =>
          by_cases leaves : Bytes.LeavesRange file.byteAt offset
          · show Canonical 1 (Call.checked file (file.offsetAddress offset)).1.blocks
            rw [offsetAddress_refused canonical leaves]
            exact canonical
          · obtain ⟨after, moved, kept, -⟩ := offsetAddress_shift canonical leaves
            show Canonical 1 (Call.checked file (file.offsetAddress offset)).1.blocks
            rw [moved]
            exact kept

end Edit

/-- The empty object, or one that was read from a file. -/
def Origin (file : HexFile) : Prop := file = HexFile.empty ∨ ∃ lines, parse lines = .ok file

/-- An object that was changed by calls that keep its blocks apart is written and read as it was
exactly when its start address has a record and its end is not the address 0x10000. -/
theorem session_roundTrips_iff (file last : HexFile) (edits : List Edit) (lineLength : Nat)
    (origin : Origin file) (filled : ∀ block ∈ file.blocks, block.data ≠ [])
    (keeps : Runs.Meets Edit.step (fun file edit => edit.Keeps file) file edits)
    (run : Runs.exec Edit.step file edits = some last) (within : Within last.blocks)
    (positive : 0 < lineLength) (short : lineLength ≤ 255) :
    RoundTrips lineLength last ↔ Writable last := by
  have separate : Separate file.blocks := by
    rcases origin with rfl | ⟨lines, read⟩
    · exact List.Pairwise.nil
    · exact parse_separate read
  have canonical : Canonical 1 last.blocks :=
    Runs.invariant (fun _ _ _ canonical keeps stepped =>
      Edit.keeps_canonical canonical keeps stepped) ⟨separate, filled⟩ keeps run
  exact roundTrips_iff positive (Nat.lt_succ_of_le short) canonical within

/-- Bytes are added in two places. -/
theorem session_roundTrips_add :
    RoundTrips 16
      ⟨[⟨0x30, [1], .bytearray⟩, ⟨0x32, [3], .bytearray⟩], .i8hex, none⟩ := by
  have parts : ∀ block ∈ [(⟨0x30, [1], .bytearray⟩ : HexBlock), ⟨0x32, [3], .bytearray⟩],
      0 ≤ block.start ∧ block.stop ≤ 0x100000000 := by decide
  refine (session_roundTrips_iff HexFile.empty _
    [.call (.add 0x30 [1]), .call (.add 0x32 [3])] 16 (Or.inl rfl) nofun ?_ rfl parts (by decide)
    (by decide)).mpr ⟨nofun, by decide⟩
  exact ⟨fun stray => absurd stray.1 (List.cons_ne_nil _ _),
    fun stray => absurd stray.1 (List.cons_ne_nil _ _), trivial⟩

/-- The last byte of a file that ends at 0x10000 is read back at the address 0. -/
theorem end_misplaced :
    ¬ ∀ (file last : HexFile) (edits : List Edit) (lineLength : Nat), Origin file →
      Runs.exec Edit.step file edits = some last → Within last.blocks → 0 < lineLength →
        lineLength ≤ 255 → RoundTrips lineLength last := by
  intro all
  have within : Within [⟨0xFFFE, [1, 2, 3], .bytearray⟩] := by
    intro block single
    rw [List.mem_singleton.mp single]
    decide
  have canonical : Canonical 1 [⟨0xFFFE, [1, 2, 3], .bytearray⟩] :=
    canonical_cons.mpr ⟨nofun, List.cons_ne_nil _ _, canonical_nil⟩
  have trips := all HexFile.empty ⟨[⟨0xFFFE, [1, 2, 3], .bytearray⟩], .i8hex, none⟩
    [.call (.add 0xFFFE [1, 2, 3])] 16 (Or.inl rfl) rfl within (by decide) (by decide)
  have writable := (roundTrips_iff (by decide) (by decide) canonical within).mp trips
  exact writable.2 ⟨rfl, by decide⟩

end QHal.Hex.HexFile
