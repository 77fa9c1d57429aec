/-
Module: QHal.Proofs.StartBlocks
Purpose: The start blocks that the generator of the firmware descriptors gives to the entries:
  when the layout that it computes is the one that is meant.
Trusted boundary: none
Main exports: layout, placeTables_layout, computeStartBlock_layout, Laid, computeStartBlock_iff
-/
import QHal.Qfdt.GenFwdTable
import Mathlib.Algebra.Order.Field.Rat
import Mathlib.Data.Int.ConditionallyCompleteOrder
import Mathlib.Order.CompletePartialOrder
import Mathlib.Order.Interval.Set.Disjoint
import Mathlib.Tactic.ByContra
import Mathlib.Tactic.NormNum

namespace QHal.Qfdt.Gen

open FirmwareDescriptorEntry

/-! ## The layout that is meant -/

namespace FirmwareDescriptorEntry

/-- The entry at a start block. -/
def placedAt (entry : FirmwareDescriptorEntry) (start : Int) : FirmwareDescriptorEntry :=
  { entry with startBlock := some start }

/-- The blocks of an entry that begins there. -/
def blocksFrom (entry : FirmwareDescriptorEntry) (start : Int) : Set Int :=
  Set.Ico start (start + entry.getSizeInBlock)

/-- The blocks of an entry; there are none before it is placed. -/
def blocks (entry : FirmwareDescriptorEntry) : Set Int :=
  (entry.startBlock.map entry.blocksFrom).getD ∅

/-- Two entries that have the same blocks, or no common one. -/
def Apart (entry other : FirmwareDescriptorEntry) : Prop :=
  entry.blocks = other.blocks ∨ Disjoint entry.blocks other.blocks

end FirmwareDescriptorEntry

/-- The start block of an entry behind others that reach up to `high`. -/
def startBehind (high : Int) (entry : FirmwareDescriptorEntry) : Int :=
  entry.startBlock.getD high

/-- How far the entries reach, with one more of them. -/
def reach (high : Int) (entry : FirmwareDescriptorEntry) : Int :=
  max high (startBehind high entry + entry.getSizeInBlock)

/-- The highest end of some entries, each without a start block put behind those in front. -/
def highestEnd (entries : List FirmwareDescriptorEntry) : Int := entries.foldl reach 0

/-- The entries placed, each without a start block behind those in front. -/
def layout (high : Int) : List FirmwareDescriptorEntry → List FirmwareDescriptorEntry
  | [] => []
  | entry :: entries =>
      entry.placedAt (startBehind high entry) :: layout (reach high entry) entries

section Layout

variable {entries : List FirmwareDescriptorEntry} {entry : FirmwareDescriptorEntry} {high : Int}

theorem getSizeInBlock_pos (size : 0 < entry.sizeInKb) (block : 0 < entry.blockSize) :
    0 < entry.getSizeInBlock := by
  have quotient : (0 : Rat) < entry.sizeInKb * 1024 / entry.blockSize :=
    div_pos (mul_pos size (by norm_num)) (Nat.cast_pos.mpr block)
  exact Rat.lt_ceil_iff.mpr quotient

theorem le_reach (high : Int) (entry : FirmwareDescriptorEntry) : high ≤ reach high entry :=
  Int.le_max_left high _

theorem le_foldl_reach (high : Int) (entries : List FirmwareDescriptorEntry) :
    high ≤ entries.foldl reach high := by
  induction entries generalizing high with
  | nil => exact Int.le_refl high
  | cons entry entries ih => exact Int.le_trans (le_reach high entry) (ih (reach high entry))

/-- More entries reach at least as far. -/
theorem highestEnd_mono {i j : Nat} (earlier : i ≤ j) :
    highestEnd (entries.take i) ≤ highestEnd (entries.take j) := by
  obtain ⟨more, rfl⟩ := Nat.exists_eq_add_of_le earlier
  unfold highestEnd
  rw [List.take_add, List.foldl_append]
  exact le_foldl_reach _ _

theorem layout_getElem? (i : Nat) :
    (layout high entries)[i]? =
      entries[i]?.map fun entry =>
        entry.placedAt (startBehind ((entries.take i).foldl reach high) entry) := by
  induction entries generalizing high i with
  | nil => rfl
  | cons entry entries ih =>
      cases i with
      | zero => rfl
      | succ i => exact ih i

theorem started_of_mem_layout (member : entry ∈ layout high entries) :
    entry.startBlock ≠ none := by
  obtain ⟨i, found⟩ := List.mem_iff_getElem?.mp member
  rw [layout_getElem?] at found
  obtain ⟨source, -, rfl⟩ := Option.map_eq_some_iff.mp found
  exact Option.some_ne_none _

end Layout

/-! ## The loops -/

section Loops

variable {entries : List FirmwareDescriptorEntry} {entry : FirmwareDescriptorEntry} {high : Int}

theorem firstLast_placedAt (start : Int) :
    (entry.placedAt start).firstLast = .ok (start, start + entry.getSizeInBlock - 1) := rfl

/-- The start block that an entry has is kept. -/
theorem place_started {startBlock : Number} {start : Int}
    (started : entry.startBlock = some start) :
    entry.place startBlock = .ok (entry.placedAt start) := by
  obtain ⟨imageId, startBlock, sizeInKb, reserved, blockSize⟩ := entry
  cases started
  rfl

/-- A turn of the loop that has a start block for its entry. -/
theorem placeEntries_cons {startBlock : Number} {start : Int}
    (placed : entry.place startBlock = .ok (entry.placedAt start)) :
    placeEntries startBlock high (entry :: entries) =
      (placeEntries (.int (max high (start + entry.getSizeInBlock)))
        (max high (start + entry.getSizeInBlock)) entries).map
          fun (entries, startBlock, highestEnd) =>
            (entry.placedAt start :: entries, startBlock, highestEnd) := by
  have highest : (if start + entry.getSizeInBlock > high then start + entry.getSizeInBlock
      else high) = max high (start + entry.getSizeInBlock) := by
    split <;> omega
  rw [placeEntries, placed]
  dsimp only [bind, Except.bind]
  rw [firstLast_placedAt]
  dsimp only
  rw [show (entry.placedAt start).getSizeInBlock = entry.getSizeInBlock from rfl, highest]
  cases placeEntries (.int (max high (start + entry.getSizeInBlock)))
      (max high (start + entry.getSizeInBlock)) entries <;> rfl

/-- The loop behind an entry that is placed computes the layout. -/
theorem placeEntries_layout (high : Int) (entries : List FirmwareDescriptorEntry) :
    placeEntries (.int high) high entries =
      .ok (layout high entries, .int (entries.foldl reach high), entries.foldl reach high) := by
  induction entries generalizing high with
  | nil => rfl
  | cons entry entries ih =>
      have placed : entry.place (.int high) = .ok (entry.placedAt (startBehind high entry)) := by
        cases started : entry.startBlock with
        | none =>
            unfold place startBehind
            rw [started]
            rfl
        | some start =>
            rw [place_started started, startBehind, started, Option.getD_some]
      rw [placeEntries_cons placed, show max high (startBehind high entry + entry.getSizeInBlock) =
        reach high entry from rfl, ih]
      rfl

/-- The loop begins with a float, which only an entry that has its start block gets past. -/
theorem placeEntries_first {quotient : Rat} {start : Int}
    (started : entry.startBlock = some start) :
    placeEntries (.float quotient) 0 (entry :: entries) =
      .ok (layout 0 (entry :: entries), .int (highestEnd (entry :: entries)),
        highestEnd (entry :: entries)) := by
  have behind : startBehind 0 entry = start := by
    unfold startBehind
    rw [started]
    rfl
  rw [placeEntries_cons (place_started started), placeEntries_layout, layout, highestEnd,
    List.foldl_cons, reach, behind]
  rfl

theorem placeEntries_unplaced {quotient : Rat} (unplaced : entry.startBlock = none) :
    placeEntries (.float quotient) high (entry :: entries) =
      .error "The input start block isn't an integer" := by
  unfold placeEntries place
  rw [unplaced]
  rfl

theorem placeEntries_append (startBlock : Number) (high : Int)
    (front back : List FirmwareDescriptorEntry) :
    placeEntries startBlock high (front ++ back) = do
      let (front, startBlock, high) ← placeEntries startBlock high front
      let (back, startBlock, high) ← placeEntries startBlock high back
      return (front ++ back, startBlock, high) := by
  induction front generalizing startBlock high with
  | nil =>
      rw [List.nil_append, placeEntries]
      dsimp only [bind, Except.bind, pure, Except.pure]
      cases placeEntries startBlock high back <;> rfl
  | cons entry front ih =>
      rw [List.cons_append, placeEntries, placeEntries]
      dsimp only [bind, Except.bind]
      cases entry.place startBlock with
      | error error => rfl
      | ok entry =>
          dsimp only
          cases entry.firstLast with
          | error error => rfl
          | ok ends =>
              dsimp only
              rw [ih]
              dsimp only [bind, Except.bind]
              cases placeEntries (.int (if ends.1 + entry.getSizeInBlock > high then
                  ends.1 + entry.getSizeInBlock else high))
                (if ends.1 + entry.getSizeInBlock > high then ends.1 + entry.getSizeInBlock
                  else high) front with
              | error error => rfl
              | ok placed =>
                  dsimp only [pure, Except.pure]
                  cases placeEntries placed.2.1 placed.2.2 back <;> rfl

/-- The loop over the tables runs through the entries of all of them. -/
theorem placeTables_entries (startBlock : Number) (high : Int)
    (tables : List FirmwareDescriptorTable) :
    (placeTables startBlock high tables).map (fun (tables, startBlock, high) =>
        (tables.flatMap FirmwareDescriptorTable.entries, startBlock, high)) =
      placeEntries startBlock high (tables.flatMap FirmwareDescriptorTable.entries) := by
  induction tables generalizing startBlock high with
  | nil => rfl
  | cons table tables ih =>
      rw [List.flatMap_cons, placeEntries_append, placeTables]
      dsimp only [bind, Except.bind]
      cases placeEntries startBlock high table.entries with
      | error error => rfl
      | ok placed =>
          dsimp only
          rw [← ih]
          cases placeTables placed.2.1 placed.2.2 tables <;> rfl

end Loops

/-! ## The check -/

section Check

variable {entries others : List FirmwareDescriptorEntry} {entry other : FirmwareDescriptorEntry}
  {start begin : Int}

/-- An entry begins or ends in the blocks of another range, and does not have just these. -/
def hits (pstart pend : Int) (entry : FirmwareDescriptorEntry) : Bool :=
  match entry.startBlock with
  | some cstart =>
      let cend := cstart + entry.getSizeInBlock - 1
      !(cstart = pstart ∧ cend = pend) &&
        ((pstart ≤ cstart ∧ cstart ≤ pend) ∨ (pstart ≤ cend ∧ cend ≤ pend))
  | none => false

/-- All entries have a start block. -/
def Started (entries : List FirmwareDescriptorEntry) : Prop :=
  ∀ entry ∈ entries, entry.startBlock ≠ none

theorem checkOverlap_eq (pstart pend : Int) (started : Started entries) :
    checkOverlap pstart pend entries = .ok (entries.any (hits pstart pend)) := by
  induction entries with
  | nil => rfl
  | cons entry entries ih =>
      obtain ⟨cstart, has⟩ := Option.ne_none_iff_exists'.mp (started entry List.mem_cons_self)
      have rest := ih fun entry member => started entry (List.mem_cons_of_mem _ member)
      have ends : entry.firstLast = .ok (cstart, cstart + entry.getSizeInBlock - 1) := by
        unfold firstLast
        rw [has]
        rfl
      rw [checkOverlap, ends]
      dsimp only [bind, Except.bind]
      rw [rest, List.any_cons, hits, has]
      dsimp only
      split
      · rename_i same
        rw [decide_eq_true same, Bool.not_true, Bool.false_and, Bool.false_or]
      · rename_i differ
        split
        · rename_i inside
          simp only [differ, inside, decide_false, decide_true, Bool.not_false, Bool.true_and,
            Bool.true_or]
          rfl
        · rename_i outside
          simp only [outside, decide_false, Bool.and_false, Bool.false_or]

theorem checkOverlapAll_iff (started : Started entries) (othersStarted : Started others) :
    checkOverlapAll others entries = .ok () ↔
      ∀ entry ∈ entries, ∀ start, entry.startBlock = some start →
        ∀ other ∈ others, hits start (start + entry.getSizeInBlock - 1) other = false := by
  induction entries with
  | nil =>
      refine ⟨fun _ entry member => ?_, fun _ => rfl⟩
      cases member
  | cons entry entries ih =>
      obtain ⟨start, has⟩ := Option.ne_none_iff_exists'.mp (started entry List.mem_cons_self)
      have rest := ih fun entry member => started entry (List.mem_cons_of_mem _ member)
      have ends : entry.firstLast = .ok (start, start + entry.getSizeInBlock - 1) := by
        unfold firstLast
        rw [has]
        rfl
      rw [checkOverlapAll, ends]
      dsimp only [bind, Except.bind]
      rw [checkOverlap_eq _ _ othersStarted, List.forall_mem_cons]
      dsimp only
      cases found : others.any (hits start (start + entry.getSizeInBlock - 1)) with
      | true =>
          obtain ⟨other, member, hit⟩ := List.any_eq_true.mp found
          refine ⟨fun failed => ?_, fun clear => ?_⟩
          · cases failed
          · have missed := clear.1 start has other member
            rw [hit] at missed
            cases missed
      | false =>
          rw [if_neg Bool.false_ne_true, rest]
          refine ⟨fun clear => ⟨?_, clear⟩, fun clear => clear.2⟩
          intro begin same other member
          rw [has] at same
          cases same
          exact Bool.eq_false_iff.mpr (List.any_eq_false.mp found other member)

/-- Neither of two entries begins or ends in the other just when they are apart. -/
theorem apart_iff (size : 0 < entry.getSizeInBlock) (otherSize : 0 < other.getSizeInBlock)
    (started : entry.startBlock = some start) (otherStarted : other.startBlock = some begin) :
    (hits start (start + entry.getSizeInBlock - 1) other = false ∧
      hits begin (begin + other.getSizeInBlock - 1) entry = false) ↔ entry.Apart other := by
  have mine : entry.blocks = Set.Ico start (start + entry.getSizeInBlock) := by
    unfold blocks
    rw [started]
    rfl
  have its : other.blocks = Set.Ico begin (begin + other.getSizeInBlock) := by
    unfold blocks
    rw [otherStarted]
    rfl
  have same : entry.blocks = other.blocks ↔
      start = begin ∧ entry.getSizeInBlock = other.getSizeInBlock := by
    rw [mine, its]
    refine ⟨fun equal => ?_, fun equal => by rw [equal.1, equal.2]⟩
    have below := (Set.Ico_subset_Ico_iff (by omega)).mp equal.subset
    have above := (Set.Ico_subset_Ico_iff (by omega)).mp equal.symm.subset
    omega
  have disjoint : Disjoint entry.blocks other.blocks ↔
      start + entry.getSizeInBlock ≤ begin ∨ begin + other.getSizeInBlock ≤ start := by
    rw [mine, its, Set.Ico_disjoint_Ico]
    omega
  unfold Apart
  rw [same, disjoint]
  unfold hits
  rw [started, otherStarted]
  simp only [Bool.and_eq_false_iff, Bool.not_eq_false', decide_eq_true_eq, decide_eq_false_iff_not]
  omega

/-- The check passes entries that are apart, and no others. -/
theorem checkOverlapAll_apart (sizes : ∀ entry ∈ entries, 0 < entry.getSizeInBlock)
    (started : Started entries) :
    checkOverlapAll entries entries = .ok () ↔
      ∀ entry ∈ entries, ∀ other ∈ entries, entry.Apart other := by
  rw [checkOverlapAll_iff started started]
  refine ⟨fun clear => ?_, fun apart => ?_⟩
  · intro entry member other otherMember
    obtain ⟨start, has⟩ := Option.ne_none_iff_exists'.mp (started entry member)
    obtain ⟨begin, otherHas⟩ := Option.ne_none_iff_exists'.mp (started other otherMember)
    apply (apart_iff (sizes entry member) (sizes other otherMember) has otherHas).mp
    exact ⟨clear entry member start has other otherMember,
      clear other otherMember begin otherHas entry member⟩
  · intro entry member start has other otherMember
    obtain ⟨begin, otherHas⟩ := Option.ne_none_iff_exists'.mp (started other otherMember)
    exact ((apart_iff (sizes entry member) (sizes other otherMember) has otherHas).mpr
      (apart entry member other otherMember)).1

end Check

/-! ## The computed start blocks -/

section Compute

variable {descriptor after : FirmwareDescriptor}

/-- Every entry has a positive size, in bytes and of its blocks. -/
def PositiveSizes (entries : List FirmwareDescriptorEntry) : Prop :=
  ∀ entry ∈ entries, 0 < entry.sizeInKb ∧ 0 < entry.blockSize

/-- The first entry, if there is one, has its start block. -/
def FirstStarted (entries : List FirmwareDescriptorEntry) : Prop :=
  ∀ entry : FirmwareDescriptorEntry, entries[0]? = some entry → entry.startBlock ≠ none

/-- Entries put behind those in front of them, where they have no start block, that have blocks
in common and not all. -/
def Overlapping (entries : List FirmwareDescriptorEntry) : Prop :=
  ∃ (i j : Nat) (entry other : FirmwareDescriptorEntry), entries[i]? = some entry ∧
    entries[j]? = some other ∧
      ¬ (entry.placedAt (startBehind (highestEnd (entries.take i)) entry)).Apart
      (other.placedAt (startBehind (highestEnd (entries.take j)) other))

theorem mem_layout {entries : List FirmwareDescriptorEntry} {placed : FirmwareDescriptorEntry} :
    placed ∈ layout 0 entries ↔ ∃ (i : Nat) (entry : FirmwareDescriptorEntry),
      entries[i]? = some entry ∧
        placed = entry.placedAt (startBehind (highestEnd (entries.take i)) entry) := by
  refine ⟨fun member => ?_, ?_⟩
  · obtain ⟨i, found⟩ := List.mem_iff_getElem?.mp member
    rw [layout_getElem?] at found
    obtain ⟨entry, here, same⟩ := Option.map_eq_some_iff.mp found
    exact ⟨i, entry, here, same.symm⟩
  · rintro ⟨i, entry, here, rfl⟩
    apply List.mem_iff_getElem?.mpr
    refine ⟨i, ?_⟩
    rw [layout_getElem?, here]
    rfl

theorem layout_apart {entries : List FirmwareDescriptorEntry} :
    (∀ entry ∈ layout 0 entries, ∀ other ∈ layout 0 entries, entry.Apart other) ↔
      ¬ Overlapping entries := by
  refine ⟨fun apart => ?_, fun clear => ?_⟩
  · rintro ⟨i, j, entry, other, here, there, overlap⟩
    exact overlap (apart _ (mem_layout.mpr ⟨i, entry, here, rfl⟩) _
      (mem_layout.mpr ⟨j, other, there, rfl⟩))
  · intro placed member placedOther otherMember
    obtain ⟨i, entry, here, rfl⟩ := mem_layout.mp member
    obtain ⟨j, other, there, rfl⟩ := mem_layout.mp otherMember
    by_contra overlap
    exact clear ⟨i, j, entry, other, here, there, overlap⟩

theorem sizes_layout {entries : List FirmwareDescriptorEntry} (sizes : PositiveSizes entries) :
    ∀ placed ∈ layout 0 entries, 0 < placed.getSizeInBlock := by
  intro placed member
  obtain ⟨i, entry, here, rfl⟩ := mem_layout.mp member
  have size := sizes entry (List.mem_of_getElem? here)
  exact getSizeInBlock_pos size.1 size.2

/-- What `compute_start_block` returns are the tables of the loops, when the check passes. -/
theorem computeStartBlock_ok :
    descriptor.computeStartBlock = .ok after ↔
      0 < descriptor.blockSize ∧ ∃ startBlock high,
        placeTables
            (.float (descriptor.tables.length * descriptor.tableAlignSize / descriptor.blockSize)) 0
            descriptor.tables = .ok (after.tables, startBlock, high) ∧
        after = { descriptor with tables := after.tables } ∧
        checkOverlapAll after.entries after.entries = .ok () := by
  unfold FirmwareDescriptor.computeStartBlock
  by_cases zero : descriptor.blockSize = 0
  · rw [if_pos zero]
    refine ⟨fun computed => ?_, fun ⟨nonzero, _⟩ => absurd zero (by omega)⟩
    cases computed
  rw [if_neg zero]
  dsimp only [bind, Except.bind]
  cases placeTables
      (.float (descriptor.tables.length * descriptor.tableAlignSize / descriptor.blockSize)) 0
      descriptor.tables with
  | error error =>
      refine ⟨fun computed => ?_, fun ⟨_, _, _, placed, _⟩ => ?_⟩
      · cases computed
      · cases placed
  | ok placed =>
      obtain ⟨tables, startBlock, high⟩ := placed
      dsimp only
      refine ⟨fun computed => ?_, fun ⟨_, _, _, placed, same, passed⟩ => ?_⟩
      · cases passed : checkOverlapAll
            { descriptor with tables := tables }.entries
            { descriptor with tables := tables }.entries with
        | error error =>
            rw [passed] at computed
            cases computed
        | ok _ =>
            rw [passed] at computed
            cases computed
            exact ⟨by omega, startBlock, high, rfl, rfl, passed⟩
      · cases placed
        rw [same] at passed ⊢
        rw [passed]
        rfl

/-- The loops over the tables fail at a first entry without a start block. -/
theorem firstStarted_of_placeTables {quotient : Rat} {tables placed : List FirmwareDescriptorTable}
    {startBlock : Number} {high : Int}
    (done : placeTables (.float quotient) 0 tables = .ok (placed, startBlock, high)) :
    FirstStarted (tables.flatMap FirmwareDescriptorTable.entries) := by
  have loops := placeTables_entries (.float quotient) 0 tables
  rw [done] at loops
  intro entry found unplaced
  cases split : tables.flatMap FirmwareDescriptorTable.entries with
  | nil =>
      rw [split] at found
      cases found
  | cons first rest =>
      rw [split] at found
      cases found
      rw [split, placeEntries_unplaced unplaced] at loops
      cases loops

/-- The loops over the tables: the layout, once the first entry has its start block. -/
theorem placeTables_layout (quotient : Rat) {tables : List FirmwareDescriptorTable}
    (first : FirstStarted (tables.flatMap FirmwareDescriptorTable.entries)) :
    ∃ placed startBlock high,
      placeTables (.float quotient) 0 tables = .ok (placed, startBlock, high) ∧
        placed.flatMap FirmwareDescriptorTable.entries =
          layout 0 (tables.flatMap FirmwareDescriptorTable.entries) := by
  have loops := placeTables_entries (.float quotient) 0 tables
  have entries : ∃ startBlock high,
      placeEntries (.float quotient) 0 (tables.flatMap FirmwareDescriptorTable.entries) =
        .ok (layout 0 (tables.flatMap FirmwareDescriptorTable.entries), startBlock, high) := by
    cases split : tables.flatMap FirmwareDescriptorTable.entries with
    | nil => exact ⟨_, _, rfl⟩
    | cons entry entries =>
        rw [split] at first
        obtain ⟨start, has⟩ := Option.ne_none_iff_exists'.mp (first entry rfl)
        exact ⟨_, _, placeEntries_first has⟩
  obtain ⟨startBlock, high, placed⟩ := entries
  rw [placed] at loops
  cases done : placeTables (.float quotient) 0 tables with
  | error error =>
      rw [done] at loops
      cases loops
  | ok result =>
      rw [done] at loops
      obtain ⟨tables, startBlock, high⟩ := result
      injection loops with same
      injection same with same rest
      exact ⟨tables, startBlock, high, rfl, same⟩

/-- What `compute_start_block` returns is the layout, and no entries overlap in it. -/
theorem computeStartBlock_layout (sizes : PositiveSizes descriptor.entries)
    (computed : descriptor.computeStartBlock = .ok after) :
    0 < descriptor.blockSize ∧ FirstStarted descriptor.entries ∧
      after.entries = layout 0 descriptor.entries ∧ ¬ Overlapping descriptor.entries := by
  obtain ⟨positive, startBlock, high, placed, -, passed⟩ := computeStartBlock_ok.mp computed
  have first := firstStarted_of_placeTables placed
  obtain ⟨tables, _, _, again, entries⟩ := placeTables_layout
    (descriptor.tables.length * descriptor.tableAlignSize / descriptor.blockSize) first
  rw [again] at placed
  cases placed
  have same : after.entries = layout 0 descriptor.entries := entries
  refine ⟨positive, first, same, layout_apart.mp ?_⟩
  rw [same] at passed
  exact (checkOverlapAll_apart (sizes_layout sizes) fun _ => started_of_mem_layout).mp passed

/-- It returns when the first entry has its start block and no entries overlap. -/
theorem computeStartBlock_returns (sizes : PositiveSizes descriptor.entries)
    (positive : 0 < descriptor.blockSize) (first : FirstStarted descriptor.entries)
    (clear : ¬ Overlapping descriptor.entries) :
    ∃ after, descriptor.computeStartBlock = .ok after := by
  obtain ⟨tables, startBlock, high, placed, entries⟩ := placeTables_layout
    (descriptor.tables.length * descriptor.tableAlignSize / descriptor.blockSize) first
  refine ⟨{ descriptor with tables := tables }, computeStartBlock_ok.mpr
    ⟨positive, startBlock, high, placed, rfl, ?_⟩⟩
  have same : { descriptor with tables := tables }.entries = layout 0 descriptor.entries := entries
  rw [same]
  exact (checkOverlapAll_apart (sizes_layout sizes) fun _ => started_of_mem_layout).mpr
    (layout_apart.mpr clear)

end Compute

/-! ## The layout that the descriptor asks for -/

section Laid

variable {descriptor after : FirmwareDescriptor}

/-- The blocks of the tables at the beginning of the flash. -/
def tableBlocks (descriptor : FirmwareDescriptor) : Set Int :=
  { block | 0 ≤ block ∧
    block * descriptor.blockSize < descriptor.tables.length * descriptor.tableAlignSize }

/-- Entries that lie one behind the other. -/
def PackedFrom (start : Int) : List FirmwareDescriptorEntry → Prop
  | [] => True
  | entry :: entries =>
      entry.startBlock = some start ∧ PackedFrom (start + entry.getSizeInBlock) entries

/-- Entries with their start blocks: apart from each other, and those that had none before behind
the tables. -/
structure Laid (descriptor after : FirmwareDescriptor) : Prop where
  started : Started after.entries
  apart : ∀ entry ∈ after.entries, ∀ other ∈ after.entries, entry.Apart other
  behindTables : ∀ (i : Nat) (entry placed : FirmwareDescriptorEntry),
    descriptor.entries[i]? = some entry → entry.startBlock = none →
    after.entries[i]? = some placed → Disjoint placed.blocks (tableBlocks descriptor)

/-- Start blocks computed as they are meant to be: every result is laid out, and entries without
any start block are packed behind the tables. -/
def ComputesLayout (descriptor : FirmwareDescriptor) : Prop :=
  (∀ after, descriptor.computeStartBlock = .ok after → Laid descriptor after) ∧
  ((∀ entry ∈ descriptor.entries, entry.startBlock = none) →
    descriptor.blockSize ∣ descriptor.tableAlignSize →
    ∃ after, descriptor.computeStartBlock = .ok after ∧
      PackedFrom (descriptor.tables.length * descriptor.tableAlignSize / descriptor.blockSize : Nat)
        after.entries)

/-- The first entry without a start block. -/
def FirstUnplaced (entries : List FirmwareDescriptorEntry) (i : Nat) : Prop :=
  (∃ entry, entries[i]? = some entry ∧ entry.startBlock = none) ∧
    Started (entries.take i)

/-- The descriptors that come out right.  There is something to place only behind an entry that
has its start block, and the entries in front of the first one without reach up to the end of the
tables, unless entries overlap, which is refused. -/
structure Placeable (descriptor : FirmwareDescriptor) : Prop where
  nothing : (∀ entry ∈ descriptor.entries, entry.startBlock = none) →
    descriptor.blockSize ∣ descriptor.tableAlignSize →
    descriptor.entries = [] ∧ 0 < descriptor.blockSize
  reached : 0 < descriptor.blockSize → ¬ Overlapping descriptor.entries →
    ∀ i, 0 < i → FirstUnplaced descriptor.entries i →
      (descriptor.tables.length * descriptor.tableAlignSize : Int) ≤
        highestEnd (descriptor.entries.take i) * descriptor.blockSize

theorem exists_firstUnplaced {entries : List FirmwareDescriptorEntry} {i : Nat}
    {entry : FirmwareDescriptorEntry} (found : entries[i]? = some entry)
    (unplaced : entry.startBlock = none) : ∃ j ≤ i, FirstUnplaced entries j := by
  induction i using Nat.strongRecOn generalizing entry with
  | ind i ih =>
      by_cases started : Started (entries.take i)
      · exact ⟨i, Nat.le_refl i, ⟨entry, found, unplaced⟩, started⟩
      · unfold Started at started
        simp only [not_forall, not_not] at started
        obtain ⟨other, member, without⟩ := started
        obtain ⟨j, here⟩ := List.mem_iff_getElem?.mp member
        rw [List.getElem?_take] at here
        split at here
        · rename_i before
          obtain ⟨k, least, first⟩ := ih j before here without
          exact ⟨k, by omega, first⟩
        · cases here

/-- An entry that is put behind others lies behind the tables just when these do. -/
theorem disjoint_tableBlocks {entry : FirmwareDescriptorEntry} {high : Int}
    (size : 0 < entry.getSizeInBlock) (within : 0 ≤ high) :
    Disjoint (entry.blocksFrom high) (tableBlocks descriptor) ↔
      (descriptor.tables.length * descriptor.tableAlignSize : Int) ≤
        high * descriptor.blockSize := by
  refine ⟨fun disjoint => ?_, fun behind => ?_⟩
  · by_contra inside
    have mine : high ∈ entry.blocksFrom high := ⟨Int.le_refl high, by omega⟩
    exact Set.disjoint_left.mp disjoint mine ⟨within, Int.not_le.mp inside⟩
  · apply Set.disjoint_left.mpr
    rintro block ⟨from_high, -⟩ ⟨-, inside⟩
    have more : high * descriptor.blockSize ≤ block * descriptor.blockSize :=
      Int.mul_le_mul_of_nonneg_right from_high (Int.natCast_nonneg _)
    omega

theorem highestEnd_nonneg (entries : List FirmwareDescriptorEntry) : 0 ≤ highestEnd entries :=
  le_foldl_reach 0 entries

theorem placed_of_layout (same : after.entries = layout 0 descriptor.entries) {i : Nat}
    {entry : FirmwareDescriptorEntry} (found : descriptor.entries[i]? = some entry)
    (unplaced : entry.startBlock = none) :
    after.entries[i]? =
      some (entry.placedAt (highestEnd (descriptor.entries.take i))) := by
  rw [same, layout_getElem?, found, Option.map_some]
  unfold startBehind
  rw [unplaced]
  rfl

/-- A placeable descriptor comes out laid. -/
theorem Placeable.laid (placeable : Placeable descriptor) (sizes : PositiveSizes descriptor.entries)
    (computed : descriptor.computeStartBlock = .ok after) : Laid descriptor after := by
  obtain ⟨positive, first, same, clear⟩ := computeStartBlock_layout sizes computed
  refine ⟨?_, ?_, ?_⟩
  · intro entry member
    rw [same] at member
    exact started_of_mem_layout member
  · rw [same]
    exact layout_apart.mpr clear
  · intro i entry placed found unplaced there
    rw [placed_of_layout same found unplaced] at there
    cases there
    have size := sizes entry (List.mem_of_getElem? found)
    apply (disjoint_tableBlocks (getSizeInBlock_pos size.1 size.2)
      (highestEnd_nonneg _)).mpr
    obtain ⟨j, earlier, unplacedFirst⟩ := exists_firstUnplaced found unplaced
    have later : 0 < j := by
      obtain ⟨⟨other, at_j, without⟩, -⟩ := unplacedFirst
      apply Nat.pos_of_ne_zero
      rintro rfl
      exact first other at_j without
    have reached := placeable.reached positive clear j later unplacedFirst
    have mono := Int.mul_le_mul_of_nonneg_right
      (highestEnd_mono earlier : highestEnd (descriptor.entries.take j) ≤ _)
      (Int.natCast_nonneg descriptor.blockSize)
    omega

/-- The start blocks are computed as they are meant to be exactly for the placeable
descriptors. -/
theorem computeStartBlock_iff (sizes : PositiveSizes descriptor.entries) :
    ComputesLayout descriptor ↔ Placeable descriptor := by
  refine ⟨fun ⟨laid, packed⟩ => ⟨?_, ?_⟩, fun placeable => ⟨?_, ?_⟩⟩
  · intro without aligned
    obtain ⟨after, computed, -⟩ := packed without aligned
    obtain ⟨positive, first, -, -⟩ := computeStartBlock_layout sizes computed
    refine ⟨?_, positive⟩
    apply List.eq_nil_iff_forall_not_mem.mpr
    intro entry member
    have here := List.getElem?_eq_getElem (List.length_pos_of_mem member)
    exact first _ here (without _ (List.getElem_mem _))
  · intro positive clear i later unplacedFirst
    obtain ⟨⟨entry, found, unplaced⟩, started⟩ := unplacedFirst
    have first : FirstStarted descriptor.entries := by
      intro other here
      apply started other
      apply List.mem_iff_getElem?.mpr
      refine ⟨0, ?_⟩
      rw [List.getElem?_take_of_lt later, here]
    obtain ⟨after, computed⟩ := computeStartBlock_returns sizes positive first clear
    obtain ⟨-, -, same, -⟩ := computeStartBlock_layout sizes computed
    have disjoint := (laid after computed).behindTables i entry _ found unplaced
      (placed_of_layout same found unplaced)
    have size := sizes entry (List.mem_of_getElem? found)
    exact (disjoint_tableBlocks (getSizeInBlock_pos size.1 size.2)
      (highestEnd_nonneg _)).mp disjoint
  · intro after computed
    exact placeable.laid sizes computed
  · intro without aligned
    obtain ⟨empty, positive⟩ := placeable.nothing without aligned
    have first : FirstStarted descriptor.entries := by
      intro entry found
      rw [empty] at found
      cases found
    have clear : ¬ Overlapping descriptor.entries := by
      rintro ⟨i, j, entry, other, here, -⟩
      rw [empty] at here
      cases here
    obtain ⟨after, computed⟩ := computeStartBlock_returns sizes positive first clear
    obtain ⟨-, -, same, -⟩ := computeStartBlock_layout sizes computed
    refine ⟨after, computed, ?_⟩
    rw [same, empty]
    exact trivial

/-- One table with entries of a block each, with these start blocks. -/
def oneTable (startBlocks : List (Option Int)) : FirmwareDescriptor where
  tableAlignSize := 4096
  blockSize := 4096
  tables := [
    { signature := fwdTableSignature
      version := 1
      rank := 1
      status := 1
      numImages := startBlocks.length
      reserved := .replicate 18 0
      entries := startBlocks.map fun startBlock =>
        { imageId := 1
          startBlock := startBlock
          sizeInKb := 4
          reserved := 0
          blockSize := 4096 } }]

theorem positiveSizes_oneTable (startBlocks : List (Option Int)) :
    PositiveSizes (oneTable startBlocks).entries := by
  intro entry member
  have same : (oneTable startBlocks).entries = startBlocks.map fun startBlock =>
      { imageId := 1, startBlock := startBlock, sizeInKb := 4, reserved := 0, blockSize := 4096 } :=
    List.append_nil _
  rw [same] at member
  obtain ⟨startBlock, -, rfl⟩ := List.mem_map.mp member
  exact ⟨by norm_num, by norm_num⟩

/-- An entry behind one that starts at the end of the table is placed behind that one. -/
theorem computeStartBlock_oneTable :
    ComputesLayout (oneTable [some 1, none]) ∧
      ((oneTable [some 1, none]).computeStartBlock.map fun after =>
        after.entries.map FirmwareDescriptorEntry.startBlock) = .ok [some 1, some 2] := by
  refine ⟨(computeStartBlock_iff (positiveSizes_oneTable _)).mpr ⟨?_, ?_⟩, by decide +kernel⟩
  · intro without
    cases without _ (List.mem_cons_self ..)
  · intro positive clear i later unplacedFirst
    obtain ⟨⟨entry, found, unplaced⟩, -⟩ := unplacedFirst
    obtain ⟨small, -⟩ := List.getElem?_eq_some_iff.mp found
    have two : (oneTable [some 1, none]).entries.length = 2 := rfl
    have second : i = 1 := by omega
    rw [second]
    decide +kernel

/-- An entry without a start block is not packed behind the table: the computation raises. -/
theorem computeStartBlock_raises : ¬ ComputesLayout (oneTable [none]) := by
  rintro ⟨-, packed⟩
  have without : ∀ entry ∈ (oneTable [none]).entries, entry.startBlock = none := by
    decide
  obtain ⟨after, computed, -⟩ := packed without (Nat.dvd_refl 4096)
  have raised : (oneTable [none]).computeStartBlock =
      .error "The input start block isn't an integer" := by
    unfold FirmwareDescriptor.computeStartBlock
    rfl
  rw [raised] at computed
  cases computed

end Laid

end QHal.Qfdt.Gen
