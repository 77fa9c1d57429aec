/-
Module: QHal.Proofs.HexMap
Purpose: The blocks of a hex file as a map: blocks that have no address in common, in any order,
  and what sorting and merging them leaves of it.
Trusted boundary: none
Main exports: HexBlock.byte, HexFile.Apart, HexFile.Canonical, HexFile.byteIn_perm,
  HexFile.canonical_sortBlocks, HexFile.canonical_mergeTouching
-/
import QHal.Proofs.HexBlocks
import Mathlib.Data.List.Sort
import Mathlib.Tactic.ByContra

namespace QHal.Hex

/-! ## The bytes of a block -/

namespace HexBlock

variable {block : HexBlock} {address : Int} {data : List UInt8}

/-- The byte of a block at an address. -/
def byte (block : HexBlock) (address : Int) : Option UInt8 :=
  if block.start ≤ address then block.data[(address - block.start).toNat]? else none

theorem stop_eq (block : HexBlock) : block.stop = block.start + block.data.length := rfl

theorem byte_outside (outside : address < block.start ∨ block.stop ≤ address) :
    block.byte address = none := by
  have stop := block.stop_eq
  unfold byte
  split
  · exact List.getElem?_eq_none (by omega)
  · rfl

theorem inside_of_byte {byte : UInt8} (found : block.byte address = some byte) :
    block.start ≤ address ∧ address < block.stop := by
  by_cases outside : address < block.start ∨ block.stop ≤ address
  · rw [byte_outside outside] at found
    cases found
  · omega

theorem byte_inside (inside : block.start ≤ address) :
    block.byte address = block.data[(address - block.start).toNat]? :=
  if_pos inside

theorem isSome_byte (start : block.start ≤ address) (stop : address < block.stop) :
    (block.byte address).isSome := by
  have size := block.stop_eq
  rw [byte_inside start, List.getElem?_eq_getElem (by omega)]
  rfl

theorem start_lt_stop (filled : block.data ≠ []) : block.start < block.stop := by
  have size := block.stop_eq
  have positive := List.length_pos_iff.mpr filled
  omega

/-- A block whose data is continued is the block and one that begins where it ends. -/
theorem byte_append (block : HexBlock) (data : List UInt8) (kind : Buffer) (address : Int) :
    { block with data := block.data ++ data }.byte address =
      (block.byte address).or ((⟨block.stop, data, kind⟩ : HexBlock).byte address) := by
  have size := block.stop_eq
  have start : { block with data := block.data ++ data }.start = block.start := rfl
  have next : (⟨block.stop, data, kind⟩ : HexBlock).start = block.stop := rfl
  unfold byte
  rw [start, next]
  by_cases inside : block.start ≤ address
  · rw [if_pos inside, if_pos inside]
    dsimp only
    by_cases front : address < block.stop
    · rw [List.getElem?_append_left (by omega), if_neg (by omega), Option.or_none]
    · rw [List.getElem?_append_right (by omega),
        List.getElem?_eq_none (show block.data.length ≤ (address - block.start).toNat by omega),
        if_pos (by omega), Option.none_or]
      congr 1
      omega
  · rw [if_neg inside, if_neg inside, if_neg (by omega)]
    rfl

/-- The end of a block, as a block of its own. -/
theorem byte_drop {place : Int} (start : block.start ≤ place) (kind : Buffer)
    (inside : place ≤ address) :
    (⟨place, block.data.drop (place - block.start).toNat, kind⟩ : HexBlock).byte address =
      block.byte address := by
  have begins : (⟨place, block.data.drop (place - block.start).toNat, kind⟩ : HexBlock).start =
    place := rfl
  rw [byte_inside (by rw [begins]; exact inside), byte_inside (by omega), begins]
  dsimp only
  rw [List.getElem?_drop]
  congr 1
  omega

/-- The beginning of a block. -/
theorem byte_take {place : Int} (inside : address < place) :
    { block with data := block.data.take (place - block.start).toNat }.byte address =
      block.byte address := by
  have start : { block with data := block.data.take (place - block.start).toNat }.start =
    block.start := rfl
  unfold byte
  rw [start]
  split
  · rw [List.getElem?_take_of_lt (by omega)]
  · rfl

end HexBlock

namespace HexFile

variable {blocks front back rest : List HexBlock} {block next : HexBlock} {address : Int}
  {gap : Nat}

theorem byteIn_nil (address : Int) : byteIn [] address = none := rfl

theorem byteIn_append (front back : List HexBlock) (address : Int) :
    byteIn (front ++ back) address = (byteIn front address).or (byteIn back address) :=
  List.findSome?_append

theorem byteIn_cons (block : HexBlock) (rest : List HexBlock) (address : Int) :
    byteIn (block :: rest) address = (block.byte address).or (byteIn rest address) := by
  rw [← List.singleton_append, byteIn_append]
  congr 1
  unfold byteIn HexBlock.byte
  rw [List.findSome?_cons, List.findSome?_nil]
  split <;> simp_all

/-! ## Blocks that have no address in common -/

/-- Two blocks without a common address. -/
def Apart (block next : HexBlock) : Prop := block.stop ≤ next.start ∨ next.stop ≤ block.start

/-- Two blocks with a gap between them. -/
def Far (gap : Nat) (block next : HexBlock) : Prop :=
  block.stop + gap ≤ next.start ∨ next.stop + gap ≤ block.start

theorem Apart.symm (apart : Apart block next) : Apart next block := Or.symm apart

theorem Far.symm (far : Far gap block next) : Far gap next block := Or.symm far

theorem Far.apart (far : Far gap block next) : Apart block next := by
  unfold Far at far
  unfold Apart
  omega

/-- The blocks of a file as its operations keep them: in order, any two of them apart, and none
empty. Blocks that touch are one when the gap is 1. -/
structure Canonical (gap : Nat) (blocks : List HexBlock) : Prop where
  separate : blocks.Pairwise fun block next => block.stop + (gap : Int) ≤ next.start
  filled : ∀ block ∈ blocks, block.data ≠ []

theorem Canonical.ordered (canonical : Canonical gap blocks) : Ordered blocks :=
  canonical.separate.imp fun separate => by omega

theorem Canonical.far (canonical : Canonical gap blocks) : blocks.Pairwise (Far gap) :=
  canonical.separate.imp Or.inl

theorem Canonical.apart (canonical : Canonical gap blocks) : blocks.Pairwise Apart :=
  canonical.far.imp Far.apart

theorem Canonical.mono {less : Nat} (canonical : Canonical gap blocks) (le : less ≤ gap) :
    Canonical less blocks :=
  ⟨canonical.separate.imp fun separate => by omega, canonical.filled⟩

theorem canonical_nil : Canonical gap [] := ⟨List.Pairwise.nil, nofun⟩

theorem canonical_cons : Canonical gap (block :: rest) ↔
    (∀ next ∈ rest, block.stop + (gap : Int) ≤ next.start) ∧ block.data ≠ [] ∧
      Canonical gap rest := by
  refine ⟨fun canonical => ?_, fun ⟨behind, own, canonical⟩ => ?_⟩
  · obtain ⟨behind, separate⟩ := List.pairwise_cons.mp canonical.separate
    obtain ⟨own, filled⟩ := List.forall_mem_cons.mp canonical.filled
    exact ⟨behind, own, separate, filled⟩
  · exact ⟨List.pairwise_cons.mpr ⟨behind, canonical.separate⟩,
      List.forall_mem_cons.mpr ⟨own, canonical.filled⟩⟩

/-- A byte of blocks that are apart is the byte of one of them. -/
theorem byteIn_eq_some (apart : blocks.Pairwise Apart) {byte : UInt8} :
    byteIn blocks address = some byte ↔ ∃ block ∈ blocks, block.byte address = some byte := by
  induction blocks with
  | nil => simp [byteIn_nil]
  | cons block rest ih =>
      obtain ⟨first, later⟩ := List.pairwise_cons.mp apart
      rw [byteIn_cons]
      cases here : block.byte address with
      | none =>
          rw [Option.none_or, ih later]
          simp [here]
      | some found =>
          rw [Option.some_or]
          refine ⟨fun same => ⟨block, List.mem_cons_self, here.trans same⟩, ?_⟩
          rintro ⟨other, member, there⟩
          rcases List.mem_cons.mp member with rfl | inRest
          · rw [here] at there
            exact there
          · have mine := HexBlock.inside_of_byte here
            have its := HexBlock.inside_of_byte there
            rcases first other inRest with below | above <;> omega

/-- The order of blocks that are apart does not matter. -/
theorem byteIn_perm (apart : front.Pairwise Apart) (same : front.Perm back) (address : Int) :
    byteIn front address = byteIn back address := by
  have backApart : back.Pairwise Apart := same.pairwise apart Apart.symm
  apply Option.ext
  intro byte
  rw [byteIn_eq_some apart, byteIn_eq_some backApart]
  simp only [same.mem_iff]

/-! ## Sorting -/

theorem sortBlocks_perm (blocks : List HexBlock) : (sortBlocks blocks).Perm blocks :=
  List.mergeSort_perm blocks _

theorem sortBlocks_sorted (blocks : List HexBlock) :
    (sortBlocks blocks).Pairwise fun block next => block.start ≤ next.start := by
  have sorted : (sortBlocks blocks).Pairwise fun block next =>
      decide (block.address ≤ next.address) = true := by
    apply List.pairwise_mergeSort
    · intro first second third before behind
      simp only [decide_eq_true_eq] at before behind ⊢
      exact Int.le_trans before behind
    · intro first second
      simp only [Bool.or_eq_true, decide_eq_true_eq]
      exact Int.le_total _ _
  exact sorted.imp of_decide_eq_true

/-- Blocks that are apart are in order when they are sorted. -/
theorem ordered_sortBlocks (apart : blocks.Pairwise Apart)
    (filled : ∀ block ∈ blocks, block.data ≠ []) : Ordered (sortBlocks blocks) := by
  have same := sortBlocks_perm blocks
  have kept := same.symm.pairwise apart Apart.symm
  refine ((sortBlocks_sorted blocks).and kept).imp_of_mem ?_
  rintro block next - member ⟨order, below | above⟩
  · exact below
  · have long := HexBlock.start_lt_stop (filled next (same.mem_iff.mp member))
    omega

/-- Blocks with gaps between them are canonical when they are sorted. -/
theorem canonical_sortBlocks (far : blocks.Pairwise (Far gap))
    (filled : ∀ block ∈ blocks, block.data ≠ []) : Canonical gap (sortBlocks blocks) := by
  have same := sortBlocks_perm blocks
  have kept := same.symm.pairwise far Far.symm
  refine ⟨((sortBlocks_sorted blocks).and kept).imp_of_mem ?_,
    fun block member => filled block (same.mem_iff.mp member)⟩
  rintro block next - member ⟨order, below | above⟩
  · exact below
  · have long := HexBlock.start_lt_stop (filled next (same.mem_iff.mp member))
    omega

theorem byteIn_sortBlocks (apart : blocks.Pairwise Apart) (address : Int) :
    byteIn (sortBlocks blocks) address = byteIn blocks address :=
  (byteIn_perm apart (sortBlocks_perm blocks).symm address).symm

/-! ## Merging -/

/-- Merging blocks that touch leaves none that do. -/
theorem canonical_mergeTouching (ordered : Ordered (block :: rest))
    (filled : ∀ other ∈ block :: rest, other.data ≠ []) :
    Canonical 1 (mergeTouching block rest) ∧
      (∀ other ∈ mergeTouching block rest, block.start ≤ other.start) ∧
      ∀ address, byteIn (mergeTouching block rest) address = byteIn (block :: rest) address := by
  induction rest generalizing block with
  | nil =>
      rw [mergeTouching]
      refine ⟨canonical_cons.mpr ⟨nofun, filled block List.mem_cons_self, canonical_nil⟩, ?_,
        fun _ => rfl⟩
      intro other member
      rw [List.mem_singleton.mp member]
  | cons next rest ih =>
      obtain ⟨first, later⟩ := List.pairwise_cons.mp ordered
      obtain ⟨own, others⟩ := List.forall_mem_cons.mp filled
      have order := first next List.mem_cons_self
      have mine := start_le_stop block
      rw [mergeTouching]
      split
      · rename_i touches
        have stop : { block with data := block.data ++ next.data }.stop = next.stop := by
          have size := block.stop_eq
          have nextSize := next.stop_eq
          unfold HexBlock.stop HexBlock.start at *
          dsimp only
          rw [List.length_append]
          omega
        have joined : Ordered ({ block with data := block.data ++ next.data } :: rest) := by
          apply List.pairwise_cons.mpr
          refine ⟨fun other member => ?_, (List.pairwise_cons.mp later).2⟩
          rw [stop]
          exact (List.pairwise_cons.mp later).1 other member
        obtain ⟨canonical, starts, same⟩ := ih joined (List.forall_mem_cons.mpr
          ⟨fun none => own (List.append_eq_nil_iff.mp none).1, (List.forall_mem_cons.mp others).2⟩)
        refine ⟨canonical, starts, fun address => ?_⟩
        rw [same, byteIn_cons, byteIn_cons, byteIn_cons, block.byte_append next.data next.kind,
          touches, Option.or_assoc]
        rfl
      · rename_i gap
        obtain ⟨canonical, starts, same⟩ := ih later others
        refine ⟨canonical_cons.mpr ⟨fun other member => ?_, own, canonical⟩, ?_, fun address => ?_⟩
        · have behind := starts other member
          omega
        · intro other member
          rcases List.mem_cons.mp member with rfl | inRest
          · exact Int.le_refl _
          · have behind := starts other inRest
            omega
        · rw [byteIn_cons, same, byteIn_cons block]

/-! ## Blocks from their bytes -/

/-- The addresses and the data of blocks. -/
def contents (blocks : List HexBlock) : List (Int × List UInt8) :=
  blocks.map fun block => (block.address, block.data)

/-- Blocks with gaps between them begin where their bytes begin. -/
theorem start_le_of_bytes {others : List HexBlock} (canonical : Canonical gap (block :: rest))
    (other : Canonical gap (next :: others))
    (same : ∀ address, byteIn (block :: rest) address = byteIn (next :: others) address) :
    next.start ≤ block.start := by
  obtain ⟨-, filled, -⟩ := canonical_cons.mp canonical
  have long := HexBlock.start_lt_stop filled
  obtain ⟨byte, here⟩ := Option.isSome_iff_exists.mp
    (HexBlock.isSome_byte (Int.le_refl block.start) long)
  have found : byteIn (next :: others) block.start = some byte := by
    rw [← same, byteIn_cons, here, Option.some_or]
  obtain ⟨owner, member, mine⟩ := (byteIn_eq_some other.apart).mp found
  have inside := HexBlock.inside_of_byte mine
  rcases List.mem_cons.mp member with rfl | inOthers
  · exact inside.1
  · have after := (canonical_cons.mp other).1 owner inOthers
    have size := start_le_stop next
    omega

/-- Blocks with gaps between them end where their bytes end. -/
theorem stop_le_of_bytes {others : List HexBlock} (other : Canonical 1 (next :: others))
    (begins : block.start = next.start)
    (same : ∀ address, byteIn (block :: rest) address = byteIn (next :: others) address) :
    block.stop ≤ next.stop := by
  by_contra longer
  obtain ⟨behind, -, -⟩ := canonical_cons.mp other
  have size := start_le_stop next
  have outside : byteIn (next :: others) next.stop = none := by
    rw [byteIn_cons, HexBlock.byte_outside (Or.inr (Int.le_refl _)), Option.none_or]
    refine byteIn_before fun owner member => ?_
    have after := behind owner member
    omega
  obtain ⟨byte, here⟩ := Option.isSome_iff_exists.mp
    (@HexBlock.isSome_byte block next.stop (by omega) (by omega))
  rw [← same, byteIn_cons, here, Option.some_or] at outside
  cases outside

/-- Blocks with gaps between them are given by their bytes. -/
theorem contents_unique {others : List HexBlock} (canonical : Canonical 1 blocks)
    (other : Canonical 1 others) (same : ∀ address, byteIn blocks address = byteIn others address) :
    contents blocks = contents others := by
  induction blocks generalizing others with
  | nil =>
      cases others with
      | nil => rfl
      | cons next others =>
          have long := HexBlock.start_lt_stop (other.filled next List.mem_cons_self)
          obtain ⟨byte, here⟩ := Option.isSome_iff_exists.mp
            (HexBlock.isSome_byte (Int.le_refl next.start) long)
          have none := same next.start
          rw [byteIn_nil, byteIn_cons, here, Option.some_or] at none
          cases none
  | cons block rest ih =>
      cases others with
      | nil =>
          have long := HexBlock.start_lt_stop (canonical.filled block List.mem_cons_self)
          obtain ⟨byte, here⟩ := Option.isSome_iff_exists.mp
            (HexBlock.isSome_byte (Int.le_refl block.start) long)
          have none := same block.start
          rw [byteIn_nil, byteIn_cons, here, Option.some_or] at none
          cases none
      | cons next others =>
          have back : ∀ address, byteIn (next :: others) address = byteIn (block :: rest) address :=
            fun address => (same address).symm
          have begins : block.start = next.start :=
            Int.le_antisymm (start_le_of_bytes other canonical back)
              (start_le_of_bytes canonical other same)
          have ends : block.stop = next.stop :=
            Int.le_antisymm (stop_le_of_bytes other begins same)
              (stop_le_of_bytes canonical begins.symm back)
          obtain ⟨behind, -, later⟩ := canonical_cons.mp canonical
          obtain ⟨otherBehind, -, otherLater⟩ := canonical_cons.mp other
          have front : ∀ address, address < block.stop →
              byteIn rest address = none ∧ byteIn others address = none := by
            intro address before
            refine ⟨byteIn_before fun owner member => ?_, byteIn_before fun owner member => ?_⟩
            · have after := behind owner member
              omega
            · have after := otherBehind owner member
              omega
          have own : ∀ address, address < block.stop → block.byte address = next.byte address := by
            intro address before
            have here := same address
            rwa [byteIn_cons, byteIn_cons, (front address before).1, (front address before).2,
              Option.or_none, Option.or_none] at here
          have data : block.data = next.data := by
            have size := block.stop_eq
            have nextSize := next.stop_eq
            apply List.ext_getElem?
            intro index
            by_cases inside : index < block.data.length
            · have here := own (block.start + index) (by omega)
              rw [HexBlock.byte_inside (by omega), HexBlock.byte_inside (by omega),
                ← begins] at here
              have offset : (block.start + index - block.start).toNat = index := by omega
              rwa [offset] at here
            · rw [List.getElem?_eq_none (by omega), List.getElem?_eq_none (by omega)]
          have others : contents rest = contents others := by
            refine ih later otherLater fun address => ?_
            by_cases before : address < block.stop
            · rw [(front address before).1, (front address before).2]
            · have here := same address
              rwa [byteIn_cons, byteIn_cons, HexBlock.byte_outside (Or.inr (by omega)),
                HexBlock.byte_outside (Or.inr (by omega)), Option.none_or, Option.none_or] at here
          unfold contents at others ⊢
          rw [List.map_cons, List.map_cons, others, data]
          exact congrArg (fun start => (start, next.data) :: _) begins

end HexFile

end QHal.Hex
