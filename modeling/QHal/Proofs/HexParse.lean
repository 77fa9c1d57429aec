/-
Module: QHal.Proofs.HexParse
Purpose: The addresses that the records of a hex file give their bytes, and those that the parser
  gives them.
Trusted boundary: none
Main exports: HexRecords, recordLines, dataBytes, Segmented, Reordered, Parsed, parsed_iff
-/
import QHal.Proofs.HexMap
import QHal.Proofs.HexRecords
import Mathlib.Algebra.BigOperators.Group.List.Basic
import Mathlib.Logic.Relation
import Mathlib.Tactic.ByContra

namespace QHal.Hex

open Numerals (Text)

/-! ## Records in a file -/

/-- The records of a file: well formed, one start address at most, and one end, which is the last
record. -/
structure HexRecords (records : List Record) : Prop where
  formed : ∀ record ∈ records, record.WellFormed
  starts : records.countP Record.isStart ≤ 1
  ended : ∃ last ∈ records.getLast?, last.type = .endOfFile
  going : ∀ record ∈ records.dropLast, record.type ≠ .endOfFile

/-- The data records with the addresses of their first bytes. A segment stands for a number of
addresses; the other values stand for 65536 each. -/
def recordLines (paragraph base : Int) : List Record → List HexFile.LineData
  | [] => []
  | record :: rest =>
      match record.type with
      | .data => ⟨base + record.address.toNat, record.data⟩ :: recordLines paragraph base rest
      | .extendedSegmentAddress => recordLines paragraph (paragraph * record.value) rest
      | .extendedLinearAddress => recordLines paragraph (0x10000 * record.value) rest
      | _ => recordLines paragraph base rest

/-- Bytes with their addresses. -/
def placeBytes (address : Int) : List UInt8 → List (Int × UInt8)
  | [] => []
  | byte :: rest => (address, byte) :: placeBytes (address + 1) rest

/-- The bytes of the data records with their addresses. -/
def dataBytes (paragraph : Int) (records : List Record) : List (Int × UInt8) :=
  (recordLines paragraph 0 records).flatMap fun line => placeBytes line.address line.data

/-- No two bytes have one address. -/
def Distinct (bytes : List (Int × UInt8)) : Prop := (bytes.map Prod.fst).Nodup

/-- The addresses that the format defines: a segment stands for 16 of them. -/
def intelBytes (records : List Record) : List (Int × UInt8) := dataBytes 16 records

/-- The addresses of the parser, which takes a segment for 65536 of them. -/
def parsedBytes (records : List Record) : List (Int × UInt8) := dataBytes 0x10000 records

/-! ## The loop over the lines -/

section Lines

variable {texts : List Text} {records : List Record} {state : HexFile.ParseState}

theorem endReached_effect (record : Record) (state : HexFile.ParseState) :
    (record.effect state).endReached = (state.endReached || record.type = .endOfFile) := by
  obtain ⟨type, address, data⟩ := record
  cases type <;> simp [Record.effect, RecordType.info]

theorem start_effect {record : Record} (other : record.isStart = false)
    (state : HexFile.ParseState) : (record.effect state).start = state.start := by
  obtain ⟨type, address, data⟩ := record
  cases type <;> first | rfl | cases other

/-- Lines that spell records are read as these records. -/
theorem foldlM_spelled (spelled : List.Forall₂ Record.Spelled texts records)
    (formed : ∀ record ∈ records, record.WellFormed) (reading : state.endReached = false)
    (going : ∀ record ∈ records.dropLast, record.type ≠ .endOfFile)
    (starts : records.countP Record.isStart ≤ if state.start = none then 1 else 0) :
    texts.foldlM HexFile.parseLine state = .ok (records.foldl Record.effect state) := by
  induction spelled generalizing state with
  | nil => rfl
  | @cons line record texts records spelled more ih =>
      obtain ⟨own, later⟩ := List.forall_mem_cons.mp formed
      rw [List.countP_cons] at starts
      have fresh : record.isStart → state.start = none := by
        intro isStart
        by_cases unset : state.start = none
        · exact unset
        · rw [if_neg unset, if_pos isStart] at starts
          omega
      rw [List.foldlM_cons, parseLine_spelled own spelled reading fresh, List.foldl_cons]
      cases more with
      | nil => rfl
      | cons =>
      rw [List.dropLast_cons_cons] at going
      obtain ⟨here, others⟩ := List.forall_mem_cons.mp going
      refine ih later ?_ others ?_
      · rw [endReached_effect, reading, decide_eq_false here]
        rfl
      · cases isStart : record.isStart with
        | true =>
            rw [if_pos isStart] at starts
            split at starts <;> split <;> omega
        | false =>
            rw [start_effect isStart]
            rw [isStart, if_neg Bool.false_ne_true] at starts
            exact starts

/-- The lines of data that the records leave. -/
theorem lineData_foldl (records : List Record) (state : HexFile.ParseState) :
    (records.foldl Record.effect state).lineData =
      state.lineData ++ recordLines 0x10000 state.extAddr records := by
  induction records generalizing state with
  | nil => exact (List.append_nil _).symm
  | cons record rest ih =>
      obtain ⟨type, address, data⟩ := record
      rw [List.foldl_cons, ih, recordLines]
      cases type with
      | data => exact List.append_assoc _ _ _
      | extendedSegmentAddress | extendedLinearAddress =>
          simp only [Record.effect, RecordType.info]
          rw [Int.mul_comm]
      | _ => rfl

/-- The parser sorts and joins the lines of data that the records give. -/
theorem parse_spelled {lines : List Text} (file : HexRecords records)
    (spelled : List.Forall₂ Record.Spelled (HexFile.lineList lines) records) :
    HexFile.parse lines =
      (HexFile.joinLines (-1) [] (HexFile.sortLines (recordLines 0x10000 0 records))).map
        fun blocks =>
          { blocks := blocks
            fileType := (records.foldl Record.effect HexFile.ParseState.init).fileType
            start := (records.foldl Record.effect HexFile.ParseState.init).start } := by
  have read : (HexFile.lineList lines).foldlM HexFile.parseLine HexFile.ParseState.init =
      .ok (records.foldl Record.effect HexFile.ParseState.init) :=
    foldlM_spelled spelled file.formed rfl file.going file.starts
  have ended : (records.foldl Record.effect HexFile.ParseState.init).endReached = true := by
    obtain ⟨last, final, isEnd⟩ := file.ended
    obtain ⟨body, rfl⟩ := List.getLast?_eq_some_iff.mp final
    rw [List.foldl_append, List.foldl_cons, List.foldl_nil, endReached_effect, isEnd]
    exact Bool.or_true _
  have data := lineData_foldl records HexFile.ParseState.init
  unfold HexFile.parse
  rw [read]
  generalize records.foldl Record.effect HexFile.ParseState.init = state at ended data ⊢
  obtain ⟨fileType, start, endReached, extAddr, lineData⟩ := state
  cases ended
  cases data
  rfl

end Lines

/-! ## Joining the lines -/

namespace HexFile

/-- The block that a line of data becomes. -/
def LineData.block (line : LineData) : HexBlock := ⟨line.address, line.data, .bytearray⟩

/-- Blocks in order, those that touch merged. -/
def joined : List HexBlock → List HexBlock
  | [] => []
  | first :: rest => mergeTouching first rest

variable {lines : List LineData} {last : HexBlock} {passed : List HexBlock}

/-- Lines behind a block are merged into it as long as they touch. -/
theorem joinLines_ordered (ordered : Ordered (last :: lines.map LineData.block)) :
    joinLines last.stop (passed ++ [last]) lines =
      .ok (passed ++ mergeTouching last (lines.map LineData.block)) := by
  induction lines generalizing last passed with
  | nil => rfl
  | cons line rest ih =>
      obtain ⟨first, later⟩ := List.pairwise_cons.mp ordered
      obtain ⟨next, -⟩ := List.pairwise_cons.mp later
      have behind : last.stop ≤ line.address := first line.block List.mem_cons_self
      have start : line.block.start = line.address := rfl
      rw [joinLines, if_neg (Int.not_lt.mpr behind), List.map_cons, mergeTouching, start]
      by_cases touches : line.address = last.stop
      · rw [if_pos touches, if_pos touches.symm, List.getLast?_concat, List.dropLast_concat]
        have stop : { last with data := last.data ++ line.data }.stop =
            last.stop + line.data.length := by
          unfold HexBlock.stop
          dsimp only
          rw [List.length_append]
          omega
        have rest := @ih { last with data := last.data ++ line.data } passed (by
          refine List.pairwise_cons.mpr ⟨fun other member => ?_, (List.pairwise_cons.mp later).2⟩
          have after := next other member
          have own : line.block.stop = line.address + line.data.length := rfl
          omega)
        rw [stop] at rest
        exact rest
      · rw [if_neg touches, if_neg (Ne.symm touches)]
        have split : passed ++ last :: mergeTouching line.block (rest.map LineData.block) =
            passed ++ [last] ++ mergeTouching line.block (rest.map LineData.block) := by
          rw [List.append_assoc]
          rfl
        rw [split]
        exact ih later

/-- Lines of which one begins in front of the end of another are not merged. -/
theorem joinLines_overlap (overlap : ¬ Ordered (last :: lines.map LineData.block)) :
    joinLines last.stop (passed ++ [last]) lines = .error "Duplicate address" := by
  induction lines generalizing last passed with
  | nil => exact (overlap (List.pairwise_singleton _ _)).elim
  | cons line rest ih =>
      rw [joinLines]
      by_cases before : line.address < last.stop
      · rw [if_pos before]
        rfl
      · have start : line.block.start = line.address := rfl
        have size : line.block.stop = line.address + line.data.length := rfl
        -- Blocks in order behind this one are in order behind the one in front of it.
        have further : ¬ Ordered (line.block :: rest.map LineData.block) := by
          intro ordered
          obtain ⟨next, later⟩ := List.pairwise_cons.mp ordered
          refine overlap (List.pairwise_cons.mpr ⟨fun other member => ?_, ordered⟩)
          rcases List.mem_cons.mp member with rfl | inRest
          · omega
          · have after := next other inRest
            omega
        rw [if_neg before]
        by_cases touches : line.address = last.stop
        · rw [if_pos touches, List.getLast?_concat, List.dropLast_concat]
          have stop : { last with data := last.data ++ line.data }.stop =
              last.stop + line.data.length := by
            unfold HexBlock.stop
            dsimp only
            rw [List.length_append]
            omega
          have rest := @ih { last with data := last.data ++ line.data } passed (by
            intro ordered
            obtain ⟨next, later⟩ := List.pairwise_cons.mp ordered
            refine further (List.pairwise_cons.mpr ⟨fun other member => ?_, later⟩)
            have after := next other member
            omega)
          rw [stop] at rest
          exact rest
        · rw [if_neg touches]
          exact ih further

theorem joinLines_joined (positive : ∀ line ∈ lines, 0 ≤ line.address)
    (ordered : Ordered (lines.map LineData.block)) :
    joinLines (-1) [] lines = .ok (joined (lines.map LineData.block)) := by
  cases lines with
  | nil => rfl
  | cons line rest =>
      have own := positive line List.mem_cons_self
      rw [joinLines, if_neg (by omega), if_neg (by omega)]
      exact @joinLines_ordered rest line.block [] ordered

theorem joinLines_raises (positive : ∀ line ∈ lines, 0 ≤ line.address)
    (overlap : ¬ Ordered (lines.map LineData.block)) :
    joinLines (-1) [] lines = .error "Duplicate address" := by
  cases lines with
  | nil => exact (overlap List.Pairwise.nil).elim
  | cons line rest =>
      have own := positive line List.mem_cons_self
      rw [joinLines, if_neg (by omega), if_neg (by omega)]
      exact @joinLines_overlap rest line.block [] overlap

theorem sortLines_perm (lines : List LineData) : (sortLines lines).Perm lines :=
  List.mergeSort_perm lines _

theorem map_sortLines (lines : List LineData) :
    (sortLines lines).map LineData.block = sortBlocks (lines.map LineData.block) := by
  unfold sortLines sortBlocks
  exact List.map_mergeSort fun _ _ _ _ => rfl

/-- Lines that are not empty are in order when they are sorted, if they are apart. -/
theorem ordered_sortLines (filled : ∀ line ∈ lines, line.data ≠ []) :
    Ordered ((sortLines lines).map LineData.block) ↔
      (lines.map LineData.block).Pairwise Apart := by
  rw [map_sortLines]
  refine ⟨fun ordered => ?_, fun apart => ordered_sortBlocks apart ?_⟩
  · exact (sortBlocks_perm _).pairwise (ordered.imp Or.inl) Apart.symm
  · intro block member
    obtain ⟨line, inside, rfl⟩ := List.mem_map.mp member
    exact filled line inside

theorem canonical_joined {blocks : List HexBlock} (ordered : Ordered blocks)
    (filled : ∀ block ∈ blocks, block.data ≠ []) : Canonical 1 (joined blocks) := by
  cases blocks with
  | nil => exact canonical_nil
  | cons first rest => exact (canonical_mergeTouching ordered filled).1

theorem byteIn_joined {blocks : List HexBlock} (ordered : Ordered blocks)
    (filled : ∀ block ∈ blocks, block.data ≠ []) (address : Int) :
    byteIn (joined blocks) address = byteIn blocks address := by
  cases blocks with
  | nil => rfl
  | cons first rest => exact (canonical_mergeTouching ordered filled).2.2 address

end HexFile

/-! ## The bytes of the lines -/

section Places

open HexFile (LineData byteIn Apart)

variable {lines : List LineData} {address place : Int} {data : List UInt8} {byte : UInt8}

theorem mem_placeBytes : (place, byte) ∈ placeBytes address data ↔
    (⟨address, data, .bytearray⟩ : HexBlock).byte place = some byte := by
  induction data generalizing address with
  | nil =>
      have nothing : (⟨address, [], .bytearray⟩ : HexBlock).byte place = none := by
        apply HexBlock.byte_outside
        show place < address ∨ address + 0 ≤ place
        omega
      rw [nothing, placeBytes]
      simp
  | cons first rest ih =>
      rw [placeBytes, List.mem_cons, ih]
      have below : ∀ address data, place < address →
          (⟨address, data, .bytearray⟩ : HexBlock).byte place = none :=
        fun _ _ before => HexBlock.byte_outside (Or.inl before)
      rcases Int.lt_trichotomy place address with before | rfl | behind
      · rw [below address _ before, below (address + 1) _ (by omega)]
        simp only [Prod.mk.injEq, reduceCtorEq, or_false, iff_false, not_and]
        omega
      · rw [below _ _ (Int.lt_succ place),
          HexBlock.byte_inside (show place ≤ place from Int.le_refl _)]
        simp [HexBlock.start, eq_comm]
      · rw [HexBlock.byte_inside (show address + 1 ≤ place by omega),
          HexBlock.byte_inside (show address ≤ place by omega)]
        have next : (place - address).toNat = (place - (address + 1)).toNat + 1 := by omega
        show _ ∨ rest[(place - (address + 1)).toNat]? = some byte ↔
          (first :: rest)[(place - address).toNat]? = some byte
        rw [next, List.getElem?_cons_succ]
        simp only [Prod.mk.injEq, or_iff_right_iff_imp, and_imp]
        omega

theorem mem_addresses : place ∈ (placeBytes address data).map Prod.fst ↔
    address ≤ place ∧ place < address + data.length := by
  rw [List.mem_map]
  refine ⟨?_, fun ⟨low, high⟩ => ?_⟩
  · rintro ⟨⟨_, byte⟩, member, rfl⟩
    exact HexBlock.inside_of_byte (mem_placeBytes.mp member)
  · obtain ⟨byte, here⟩ := Option.isSome_iff_exists.mp
      (@HexBlock.isSome_byte ⟨address, data, .bytearray⟩ place low high)
    exact ⟨(place, byte), mem_placeBytes.mpr here, rfl⟩

theorem nodup_addresses (address : Int) (data : List UInt8) :
    ((placeBytes address data).map Prod.fst).Nodup := by
  induction data generalizing address with
  | nil => exact List.nodup_nil
  | cons byte rest ih =>
      rw [placeBytes, List.map_cons, List.nodup_cons, mem_addresses]
      exact ⟨by omega, ih _⟩

/-- No two bytes of the lines have one address exactly when the lines are apart. -/
theorem distinct_iff (filled : ∀ line ∈ lines, line.data ≠ []) :
    Distinct (lines.flatMap fun line => placeBytes line.address line.data) ↔
      (lines.map LineData.block).Pairwise Apart := by
  unfold Distinct
  rw [List.map_flatMap, List.nodup_flatMap, List.pairwise_map]
  have own : ∀ line ∈ lines, ((placeBytes line.address line.data).map Prod.fst).Nodup :=
    fun line _ => nodup_addresses _ _
  rw [and_iff_right own]
  apply List.Pairwise.iff_of_mem
  intro line other inside member
  have positive := List.length_pos_iff.mpr (filled line inside)
  have otherPositive := List.length_pos_iff.mpr (filled other member)
  have start : ∀ line : LineData, line.block.start = line.address := fun _ => rfl
  have stop : ∀ line : LineData, line.block.stop = line.address + line.data.length := fun _ => rfl
  unfold Function.onFun List.Disjoint Apart
  simp only [mem_addresses, start, stop]
  refine ⟨fun disjoint => ?_, fun apart place low high => ?_⟩
  · by_contra meets
    exact @disjoint (max line.address other.address) (by omega) (by omega)
  · omega

/-- The bytes of lines that are apart. -/
theorem byteIn_lines (apart : (lines.map LineData.block).Pairwise Apart) :
    byteIn (lines.map LineData.block) place = some byte ↔
      (place, byte) ∈ lines.flatMap fun line => placeBytes line.address line.data := by
  rw [HexFile.byteIn_eq_some apart, List.mem_flatMap]
  constructor
  · rintro ⟨block, member, here⟩
    obtain ⟨line, inside, rfl⟩ := List.mem_map.mp member
    exact ⟨line, inside, mem_placeBytes.mpr here⟩
  · rintro ⟨line, inside, here⟩
    exact ⟨line.block, List.mem_map_of_mem inside, mem_placeBytes.mp here⟩

/-- Bytes at higher addresses have a higher sum of addresses. -/
theorem sum_placeBytes_le {other : Int} (le : address ≤ other) (data : List UInt8) :
    ((placeBytes address data).map Prod.fst).sum ≤ ((placeBytes other data).map Prod.fst).sum := by
  induction data generalizing address other with
  | nil => exact Int.le_refl _
  | cons byte rest ih =>
      have later := @ih (address + 1) (other + 1) (by omega)
      simp only [placeBytes, List.map_cons, List.sum_cons]
      omega

theorem sum_placeBytes_lt {other : Int} (lt : address < other) (filled : data ≠ []) :
    ((placeBytes address data).map Prod.fst).sum < ((placeBytes other data).map Prod.fst).sum := by
  cases data with
  | nil => exact absurd rfl filled
  | cons byte rest =>
      have later := sum_placeBytes_le (show address + 1 ≤ other + 1 by omega) rest
      simp only [placeBytes, List.map_cons, List.sum_cons]
      omega

end Places

/-! ## The parser against the format -/

/-- A data record is in the scope of an extended segment address that is not 0. -/
def Segmented (scope : Bool) : List Record → Prop
  | [] => False
  | record :: rest =>
      match record.type with
      | .data => scope = true ∨ Segmented scope rest
      | .extendedSegmentAddress => Segmented (record.value ≠ 0) rest
      | .extendedLinearAddress => Segmented false rest
      | _ => Segmented scope rest

/-- Two neighbouring records, of data or of a start address, change their places. -/
inductive Swapped : List Record → List Record → Prop
  | swap (front : List Record) (first second : Record) (back : List Record)
      (firstScope : first.type = .data ∨ first.isStart)
      (secondScope : second.type = .data ∨ second.isStart) :
      Swapped (front ++ first :: second :: back) (front ++ second :: first :: back)

/-- The records of data are in another order between two extended addresses. -/
def Reordered : List Record → List Record → Prop := Relation.ReflTransGen Swapped

/-- The map of the object that a file gives. -/
def content : Except String HexFile → Option (Int → Option UInt8)
  | .ok file => some file.byteAt
  | .error _ => none

/-- The parser accepts the records whose bytes have different addresses, puts them there, and does
not depend on their order. -/
structure Parsed (lines : List Text) (records : List Record) : Prop where
  accepts : (∃ file, HexFile.parse lines = .ok file) ↔ Distinct (intelBytes records)
  places : ∀ file, HexFile.parse lines = .ok file → ∀ address byte,
    file.byteAt address = some byte ↔ (address, byte) ∈ intelBytes records
  reordered : ∀ others otherLines, Reordered records others →
    List.Forall₂ Record.Spelled (HexFile.lineList otherLines) others →
      content (HexFile.parse otherLines) = content (HexFile.parse lines)

section Records

variable {lines : List Text} {records others : List Record} {paragraph base : Int}

theorem recordLines_filled (formed : ∀ record ∈ records, record.WellFormed) :
    ∀ line ∈ recordLines paragraph base records, line.data ≠ [] := by
  induction records generalizing base with
  | nil => exact fun _ => nofun
  | cons record rest ih =>
      obtain ⟨own, later⟩ := List.forall_mem_cons.mp formed
      obtain ⟨type, address, data⟩ := record
      cases type with
      | data => exact List.forall_mem_cons.mpr ⟨List.length_pos_iff.mp own.1, ih later⟩
      | _ => exact ih later

theorem recordLines_positive (unit : 0 ≤ paragraph) (positive : 0 ≤ base) (records : List Record) :
    ∀ line ∈ recordLines paragraph base records, 0 ≤ line.address := by
  induction records generalizing base with
  | nil => exact fun _ => nofun
  | cons record rest ih =>
      obtain ⟨type, address, data⟩ := record
      cases type with
      | data => exact List.forall_mem_cons.mpr ⟨by show 0 ≤ base + _; omega, ih positive⟩
      | extendedSegmentAddress => exact ih (Int.mul_nonneg unit (Int.natCast_nonneg _))
      | extendedLinearAddress => exact ih (Int.mul_nonneg (by decide) (Int.natCast_nonneg _))
      | _ => exact ih positive

open HexFile (LineData Canonical joined byteIn) in
/-- The parser accepts lines of data that are apart, and each byte gets the address of its line. -/
theorem parse_distinct (file : HexRecords records)
    (spelled : List.Forall₂ Record.Spelled (HexFile.lineList lines) records)
    (distinct : Distinct (parsedBytes records)) :
    ∃ hex, HexFile.parse lines = .ok hex ∧ Canonical 1 hex.blocks ∧
      ∀ address byte, hex.byteAt address = some byte ↔ (address, byte) ∈ parsedBytes records := by
  have filled := @recordLines_filled records 0x10000 0 file.formed
  have positive : ∀ line ∈ recordLines 0x10000 0 records, 0 ≤ line.address :=
    recordLines_positive (by decide) (Int.le_refl 0) records
  have apart := (distinct_iff filled).mp distinct
  have ordered := (HexFile.ordered_sortLines filled).mpr apart
  have sorted : ∀ line ∈ HexFile.sortLines (recordLines 0x10000 0 records), 0 ≤ line.address :=
    fun line member => positive line ((HexFile.sortLines_perm _).mem_iff.mp member)
  have some : ∀ block ∈ (HexFile.sortLines (recordLines 0x10000 0 records)).map LineData.block,
      block.data ≠ [] := by
    intro block member
    obtain ⟨line, inside, rfl⟩ := List.mem_map.mp member
    exact filled line ((HexFile.sortLines_perm _).mem_iff.mp inside)
  rw [parse_spelled file spelled, HexFile.joinLines_joined sorted ordered]
  refine ⟨_, rfl, HexFile.canonical_joined ordered some, fun address byte =>
    (Eq.congr_left ?_).trans (byteIn_lines apart)⟩
  show byteIn (joined _) address = _
  rw [HexFile.byteIn_joined ordered some, HexFile.map_sortLines, HexFile.byteIn_sortBlocks apart]

/-- The parser refuses lines of data that are not apart. -/
theorem parse_clash (file : HexRecords records)
    (spelled : List.Forall₂ Record.Spelled (HexFile.lineList lines) records)
    (clash : ¬ Distinct (parsedBytes records)) :
    HexFile.parse lines = .error "Duplicate address" := by
  have filled := @recordLines_filled records 0x10000 0 file.formed
  have positive : ∀ line ∈ recordLines 0x10000 0 records, 0 ≤ line.address :=
    recordLines_positive (by decide) (Int.le_refl 0) records
  have overlap : ¬ HexFile.Ordered
      ((HexFile.sortLines (recordLines 0x10000 0 records)).map HexFile.LineData.block) :=
    fun ordered => clash ((distinct_iff filled).mpr ((HexFile.ordered_sortLines filled).mp ordered))
  have sorted : ∀ line ∈ HexFile.sortLines (recordLines 0x10000 0 records), 0 ≤ line.address :=
    fun line member => positive line ((HexFile.sortLines_perm _).mem_iff.mp member)
  rw [parse_spelled file spelled, HexFile.joinLines_raises sorted overlap]
  rfl

/-- The start address of the object is that of the records. -/
theorem parse_start {hex : HexFile} (file : HexRecords records)
    (spelled : List.Forall₂ Record.Spelled (HexFile.lineList lines) records)
    (read : HexFile.parse lines = .ok hex) :
    hex.start = (records.foldl Record.effect HexFile.ParseState.init).start := by
  rw [parse_spelled file spelled] at read
  cases blocks : HexFile.joinLines (-1) [] (HexFile.sortLines (recordLines 0x10000 0 records)) with
  | error error =>
      rw [blocks] at read
      cases read
  | ok joined =>
      rw [blocks] at read
      cases read
      rfl

/-! ### Records in another order -/

theorem Swapped.perm (swapped : Swapped records others) : records.Perm others := by
  obtain ⟨front, first, second, back, -, -⟩ := swapped
  exact (List.Perm.swap second first back).append_left front

theorem Swapped.hexRecords (swapped : Swapped records others) (file : HexRecords records) :
    HexRecords others := by
  have same := swapped.perm
  obtain ⟨front, first, second, back, firstScope, secondScope⟩ := swapped
  obtain ⟨last, final, isEnd⟩ := file.ended
  cases back with
  | nil =>
      have own : second = last := by
        rw [List.getLast?_append] at final
        simpa using final
      subst own
      rw [Record.isStart, isEnd] at secondScope
      rcases secondScope with none | none <;> cases none
  | cons next back =>
      refine ⟨fun record member => file.formed record (same.mem_iff.mpr member),
        same.countP_eq _ ▸ file.starts, ⟨last, ?_, isEnd⟩, fun record member => ?_⟩
      · rw [List.getLast?_append] at final ⊢
        exact final
      · apply file.going record
        rw [List.dropLast_append_of_ne_nil (List.cons_ne_nil _ _)] at member ⊢
        exact ((List.Perm.swap first second (next :: back).dropLast).append_left front).mem_iff.mp
          member

/-- A record of data or of a start address leaves the scope. -/
theorem recordLines_scoped {record : Record} (scope : record.type = .data ∨ record.isStart) :
    recordLines paragraph base (record :: records) =
      recordLines paragraph base [record] ++ recordLines paragraph base records := by
  obtain ⟨type, address, data⟩ := record
  cases type with
  | data | startSegmentAddress | startLinearAddress => rfl
  | endOfFile | extendedSegmentAddress | extendedLinearAddress =>
      rcases scope with none | none <;> cases none

theorem Swapped.recordLines (swapped : Swapped records others) :
    (recordLines paragraph base records).Perm (recordLines paragraph base others) := by
  obtain ⟨front, first, second, back, firstScope, secondScope⟩ := swapped
  induction front generalizing base with
  | nil =>
      rw [List.nil_append, List.nil_append,
        @recordLines_scoped (second :: back) _ _ first firstScope,
        @recordLines_scoped back _ _ second secondScope,
        @recordLines_scoped (first :: back) _ _ second secondScope,
        @recordLines_scoped back _ _ first firstScope]
      exact List.perm_append_comm_assoc _ _ _
  | cons record front ih =>
      obtain ⟨type, address, data⟩ := record
      cases type with
      | data => exact List.Perm.cons _ ih
      | _ => exact ih

theorem Reordered.spec (reordered : Reordered records others) (file : HexRecords records) :
    HexRecords others ∧
      ∀ paragraph, (dataBytes paragraph records).Perm (dataBytes paragraph others) := by
  induction reordered with
  | refl => exact ⟨file, fun _ => List.Perm.refl _⟩
  | tail _ swapped ih =>
      exact ⟨swapped.hexRecords ih.1, fun paragraph =>
        (ih.2 paragraph).trans (swapped.recordLines.flatMap_right _)⟩

/-- The content that the parser finds is the same for records in another order. -/
theorem content_reordered {otherLines : List Text} (file : HexRecords records)
    (spelled : List.Forall₂ Record.Spelled (HexFile.lineList lines) records)
    (reordered : Reordered records others)
    (otherSpelled : List.Forall₂ Record.Spelled (HexFile.lineList otherLines) others) :
    content (HexFile.parse otherLines) = content (HexFile.parse lines) := by
  obtain ⟨otherFile, same⟩ := reordered.spec file
  have addresses := (same 0x10000).map Prod.fst
  by_cases distinct : Distinct (parsedBytes records)
  · obtain ⟨hex, parsed, -, bytes⟩ := parse_distinct file spelled distinct
    obtain ⟨other, otherParsed, -, otherBytes⟩ :=
      parse_distinct otherFile otherSpelled (addresses.nodup_iff.mp distinct)
    rw [parsed, otherParsed]
    refine congrArg some (funext fun address => Option.ext fun byte => ?_)
    rw [bytes, otherBytes]
    exact (same 0x10000).mem_iff.symm
  · rw [parse_clash file spelled distinct,
      parse_clash otherFile otherSpelled fun other => distinct (addresses.nodup_iff.mpr other)]

/-! ### Extended segment addresses -/

/-- Outside of a segment the parser and the format agree. -/
theorem recordLines_unsegmented {other : Int} {scope : Bool} (none : ¬ Segmented scope records)
    (same : scope = false → base = other) :
    recordLines 16 base records = recordLines 0x10000 other records := by
  induction records generalizing base other scope with
  | nil => rfl
  | cons record rest ih =>
      obtain ⟨type, address, data⟩ := record
      cases type with
      | data =>
          obtain ⟨outside, later⟩ := not_or.mp none
          have lines := ih later same
          obtain rfl := same (Bool.eq_false_iff.mpr outside)
          exact congrArg (List.cons _) lines
      | extendedSegmentAddress =>
          refine ih none fun zero => ?_
          have value : Record.value ⟨.extendedSegmentAddress, address, data⟩ = 0 := by
            simpa using zero
          rw [value]
          rfl
      | extendedLinearAddress => exact ih none fun _ => rfl
      | endOfFile | startSegmentAddress | startLinearAddress => exact ih none same

/-- In a segment the parser gives the bytes higher addresses. -/
theorem sum_segmented {other : Int} {scope : Bool} (formed : ∀ record ∈ records, record.WellFormed)
    (le : base ≤ other) (lt : scope = true → base < other) :
    (((recordLines 16 base records).flatMap fun line =>
        placeBytes line.address line.data).map Prod.fst).sum ≤
      (((recordLines 0x10000 other records).flatMap fun line =>
        placeBytes line.address line.data).map Prod.fst).sum ∧
    (Segmented scope records →
      (((recordLines 16 base records).flatMap fun line =>
          placeBytes line.address line.data).map Prod.fst).sum <
        (((recordLines 0x10000 other records).flatMap fun line =>
          placeBytes line.address line.data).map Prod.fst).sum) := by
  induction records generalizing base other scope with
  | nil => exact ⟨Int.le_refl _, nofun⟩
  | cons record rest ih =>
      obtain ⟨own, later⟩ := List.forall_mem_cons.mp formed
      obtain ⟨type, address, data⟩ := record
      cases type with
      | data =>
          obtain ⟨restLe, restLt⟩ := ih later le lt
          have first := sum_placeBytes_le (Int.add_le_add_right le address.toNat) data
          simp only [recordLines, List.flatMap_cons, List.map_append, List.sum_append]
          refine ⟨by omega, fun segmented => ?_⟩
          rcases segmented with inside | further
          · have more := sum_placeBytes_lt (Int.add_lt_add_right (lt inside) address.toNat)
              (show data ≠ [] from List.length_pos_iff.mp own.1)
            omega
          · have more := restLt further
            omega
      | extendedSegmentAddress =>
          refine ih later (by omega) fun some => ?_
          have value : Record.value ⟨.extendedSegmentAddress, address, data⟩ ≠ 0 := by
            simpa using some
          omega
      | extendedLinearAddress => exact ih later (Int.le_refl _) nofun
      | endOfFile | startSegmentAddress | startLinearAddress => exact ih later le lt

/-- Bytes in a segment are not where the format puts them. -/
theorem segmented_differs (formed : ∀ record ∈ records, record.WellFormed)
    (segmented : Segmented false records) (distinct : Distinct (intelBytes records))
    (parsedDistinct : Distinct (parsedBytes records)) :
    ¬ ∀ address byte, (address, byte) ∈ parsedBytes records ↔
      (address, byte) ∈ intelBytes records := by
  intro same
  have perm : (parsedBytes records).Perm (intelBytes records) :=
    (List.perm_ext_iff_of_nodup parsedDistinct.of_map distinct.of_map).mpr fun place =>
      same place.1 place.2
  have equal := (perm.map Prod.fst).sum_eq
  have less := (@sum_segmented records 0 0 false formed (Int.le_refl 0) nofun).2 segmented
  unfold parsedBytes intelBytes dataBytes at equal
  omega

end Records

/-- The parser reads records as the format defines them exactly when no data is in a segment other
than 0, or data clashes both where the format and where the parser puts it. -/
theorem parsed_iff (lines : List Text) (records : List Record) (file : HexRecords records)
    (spelled : List.Forall₂ Record.Spelled (HexFile.lineList lines) records) :
    Parsed lines records ↔ ¬ Segmented false records ∨
      ¬ Distinct (intelBytes records) ∧ ¬ Distinct (parsedBytes records) := by
  have reordered : ∀ others otherLines, Reordered records others →
      List.Forall₂ Record.Spelled (HexFile.lineList otherLines) others →
        content (HexFile.parse otherLines) = content (HexFile.parse lines) :=
    fun _ _ reordered otherSpelled => content_reordered file spelled reordered otherSpelled
  constructor
  · intro parsed
    by_contra neither
    simp only [not_or, not_and, not_not] at neither
    obtain ⟨segmented, clash⟩ := neither
    by_cases distinct : Distinct (parsedBytes records)
    · obtain ⟨hex, accepted, -, bytes⟩ := parse_distinct file spelled distinct
      have intel := parsed.accepts.mp ⟨hex, accepted⟩
      refine segmented_differs file.formed segmented intel distinct fun address byte => ?_
      rw [← bytes, parsed.places hex accepted]
    · obtain ⟨hex, accepted⟩ := parsed.accepts.mpr (by
        by_contra own
        exact distinct (clash own))
      rw [parse_clash file spelled distinct] at accepted
      cases accepted
  · rintro (unsegmented | ⟨intel, clash⟩)
    · have same : intelBytes records = parsedBytes records := by
        unfold intelBytes parsedBytes dataBytes
        rw [recordLines_unsegmented unsegmented fun _ => rfl]
      by_cases distinct : Distinct (parsedBytes records)
      · obtain ⟨hex, accepted, -, bytes⟩ := parse_distinct file spelled distinct
        refine ⟨iff_of_true ⟨hex, accepted⟩ (same ▸ distinct), fun other read => ?_, reordered⟩
        rw [accepted] at read
        cases read
        rw [same]
        exact bytes
      · have refused := parse_clash file spelled distinct
        refine ⟨iff_of_false ?_ (same ▸ distinct), fun other read => ?_, reordered⟩
        · rintro ⟨other, read⟩
          rw [refused] at read
          cases read
        · rw [refused] at read
          cases read
    · have refused := parse_clash file spelled clash
      refine ⟨iff_of_false ?_ intel, fun other read => ?_, reordered⟩
      · rintro ⟨other, read⟩
        rw [refused] at read
        cases read
      · rw [refused] at read
        cases read

/-- A file with one record of data. -/
theorem parsed_data :
    Parsed ([⟨.data, 0x30, [0x02, 0x33, 0x7A]⟩, ⟨.endOfFile, 0, []⟩].map Record.line)
      [⟨.data, 0x30, [0x02, 0x33, 0x7A]⟩, ⟨.endOfFile, 0, []⟩] := by
  refine (parsed_iff _ _ ⟨by decide, by decide, ⟨_, rfl, rfl⟩, by decide⟩
    (Record.spelled_lines _)).mpr (Or.inl ?_)
  rintro (segment | none)
  · cases segment
  · exact none

/-- The data of a segment is not put where the format puts it. -/
theorem segment_misplaced :
    ¬ ∀ (lines : List Text) (records : List Record), HexRecords records →
      List.Forall₂ Record.Spelled (HexFile.lineList lines) records → Parsed lines records := by
  intro all
  have file : HexRecords [⟨.extendedSegmentAddress, 0, [0x10, 0x00]⟩,
      ⟨.data, 0x30, [0x02, 0x33, 0x7A]⟩, ⟨.endOfFile, 0, []⟩] :=
    ⟨by decide, by decide, ⟨_, rfl, rfl⟩, by decide⟩
  have spelled := Record.spelled_lines [⟨.extendedSegmentAddress, 0, [0x10, 0x00]⟩,
    ⟨.data, 0x30, [0x02, 0x33, 0x7A]⟩, ⟨.endOfFile, 0, []⟩]
  have distinct : (List.map Prod.fst (parsedBytes [⟨.extendedSegmentAddress, 0, [0x10, 0x00]⟩,
    ⟨.data, 0x30, [0x02, 0x33, 0x7A]⟩, ⟨.endOfFile, 0, []⟩])).Nodup := by decide
  obtain ⟨hex, accepted, -, bytes⟩ := parse_distinct file spelled distinct
  have here := (bytes 0x10000030 0x02).mpr (by decide)
  have intel := ((all _ _ file spelled).places hex accepted _ _).mp here
  revert intel
  decide

end QHal.Hex
