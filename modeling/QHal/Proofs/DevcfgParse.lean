/-
Module: QHal.Proofs.DevcfgParse
Purpose: The parser on a generated table: when it fills the configuration structure with
  the values of the devices, and touches nothing else.
Trusted boundary: none
Main exports: Fills, Clean, pass_clean, clean_of_inBounds, parse_fills_iff
-/
import Mathlib.Algebra.Group.Nat.Defs
import QHal.Proofs.DevcfgTable

namespace QHal.Devcfg

variable {devices : List Device} {table : List UInt32} {names : Nat} {beside : Int → UInt32}

/-! ## Words of the table -/

/-- A word of the table is found wherever the table has one. -/
theorem tableWord_of_get {index : Nat} {word : UInt32} (found : table[index]? = some word)
    (beside : Int → UInt32) : tableWord table beside index = word := by
  obtain ⟨inside, rfl⟩ := List.getElem?_eq_some_iff.mp found
  unfold tableWord
  rw [if_pos ⟨by omega, by omega⟩, Int.toNat_natCast, List.getD_eq_getElem?_getD, found]
  rfl

/-- A small number is read back from its word. -/
theorem asInt_ofNat {number : Nat} (small : number < 2 ^ 31) :
    asInt (UInt32.ofNat number) = number := by
  unfold asInt
  rw [BitVec.toInt_eq_toNat_of_lt]
  · have value : (UInt32.ofNat number).toBitVec.toNat = number := by
      show (UInt32.ofNat number).toNat = number
      exact UInt32.toNat_ofNat_of_lt' (show number < 2 ^ 32 by omega)
    rw [value]
  · show 2 * (UInt32.ofNat number).toNat < 2 ^ 32
    rw [UInt32.toNat_ofNat_of_lt' (show number < 2 ^ 32 by omega)]
    omega

/-- A large number is read back as a negative one. -/
theorem asInt_ofNat_neg {number : Nat} (large : 2 ^ 31 ≤ number) (fits : number < 2 ^ 32) :
    asInt (UInt32.ofNat number) < 0 := by
  have value : (UInt32.ofNat number).toBitVec.toNat = number := by
    show (UInt32.ofNat number).toNat = number
    exact UInt32.toNat_ofNat_of_lt' fits
  unfold asInt
  rw [BitVec.toInt_eq_toNat_cond, value, if_neg (by omega)]
  omega

/-- The size in the table. -/
theorem totalHexVal_eq (layout : Layout devices table names) (beside : Int → UInt32)
    (small : 4 * table.length < 2 ^ 31) : totalHexVal table beside = table.length := by
  unfold totalHexVal
  have size := tableWord_of_get layout.size beside
  rw [show ((0 : Nat) : Int) = 0 from rfl] at size
  rw [size, asInt_ofNat small, Int.tdiv_eq_ediv_of_nonneg (by omega)]
  omega

/-! ## Copies -/

/-- A copy that has nothing to do. -/
theorem copyLoop_none {endAdd count2 : Int} {rounds : Nat} (parse : Parse)
    (none : rounds = 0 ∨ endAdd ≤ count2) :
    copyLoop table beside endAdd rounds count2 parse = parse := by
  cases rounds with
  | zero => rfl
  | succ rounds =>
      rw [copyLoop, if_neg]
      omega

/-- What every copy does: the pointer goes on with the fields that are written, and at
least one is when there is something to do. -/
theorem copyLoop_writes (table : List UInt32) (beside : Int → UInt32) (endAdd : Int) (rounds : Nat)
    (count2 : Int) (parse : Parse) :
    parse.countPtr ≤ (copyLoop table beside endAdd rounds count2 parse).countPtr ∧
      (rounds ≠ 0 → count2 < endAdd →
        parse.countPtr < (copyLoop table beside endAdd rounds count2 parse).countPtr) ∧
      (∀ access ∈ parse.accesses,
        access ∈ (copyLoop table beside endAdd rounds count2 parse).accesses) ∧
      ∀ field, parse.countPtr ≤ field →
        field < (copyLoop table beside endAdd rounds count2 parse).countPtr →
        Access.field field ∈ (copyLoop table beside endAdd rounds count2 parse).accesses := by
  induction rounds generalizing count2 parse with
  | zero =>
      exact ⟨Nat.le_refl _, fun none => absurd rfl none, fun _ member => member,
        fun field low high => absurd high (by simp only [copyLoop]; omega)⟩
  | succ rounds ih =>
      by_cases more : count2 < endAdd
      · rw [copyLoop, if_pos more]
        obtain ⟨grows, -, keeps, writes⟩ := ih (count2 + 2)
          { countPtr := parse.countPtr + 1
            memory := Function.update parse.memory parse.countPtr
              (tableWord table beside (count2 + 1))
            accesses := parse.accesses ++ [.word (count2 + 1), .field parse.countPtr] }
        dsimp only at grows keeps writes
        refine ⟨by omega, fun _ _ => by omega, fun access member => ?_, fun field low high => ?_⟩
        · exact keeps access (List.mem_append_left _ member)
        · by_cases first : field = parse.countPtr
          · rw [first]
            exact keeps _ (by simp)
          · exact writes field (by omega) high
      · rw [copyLoop, if_neg more]
        exact ⟨Nat.le_refl _, fun _ some => absurd some more, fun _ member => member,
          fun field low high => absurd high (by omega)⟩

/-- The copy of the fields that are left from a place that has that many pairs. -/
theorem copyLoop_own (table : List UInt32) (beside : Int → UInt32) (rounds start fields : Nat)
    (endAdd : Int) (parse : Parse)
    (enough : (start : Int) + 2 * rounds ≤ endAdd) (inside : start + 2 * rounds ≤ table.length)
    (room : parse.countPtr + rounds ≤ fields) :
    (copyLoop table beside endAdd rounds start parse).countPtr = parse.countPtr + rounds ∧
      (∀ field, (copyLoop table beside endAdd rounds start parse).memory field =
        if parse.countPtr ≤ field ∧ field < parse.countPtr + rounds then
          table.getD (start + 2 * (field - parse.countPtr) + 1) 0
        else parse.memory field) ∧
      ∀ access ∈ (copyLoop table beside endAdd rounds start parse).accesses,
        access ∈ parse.accesses ∨ access.InBounds table.length fields := by
  induction rounds generalizing start parse with
  | zero =>
      refine ⟨rfl, fun field => ?_, fun _ member => Or.inl member⟩
      rw [if_neg (by omega)]
      rfl
  | succ rounds ih =>
      have next : ((start : Int) + 2) = ((start + 2 : Nat) : Int) := rfl
      have here : tableWord table beside ((start : Int) + 1) = table.getD (start + 1) 0 := by
        unfold tableWord
        rw [if_pos ⟨by omega, by omega⟩]
        rfl
      rw [copyLoop, if_pos (by omega), next]
      obtain ⟨pointer, memory, accesses⟩ := ih (start + 2)
        { countPtr := parse.countPtr + 1
          memory := Function.update parse.memory parse.countPtr
            (tableWord table beside ((start : Int) + 1))
          accesses := parse.accesses ++ [.word ((start : Int) + 1), .field parse.countPtr] }
        (by omega) (by omega) (by dsimp only; omega)
      dsimp only at pointer memory accesses
      refine ⟨by omega, fun field => ?_, fun access member => ?_⟩
      · rw [memory]
        by_cases first : field = parse.countPtr
        · rw [first, if_neg (by omega), Function.update_self, if_pos (by omega), here,
            Nat.sub_self]
        · rw [Function.update_of_ne first]
          by_cases within : parse.countPtr + 1 ≤ field ∧ field < parse.countPtr + 1 + rounds
          · rw [if_pos within, if_pos (by omega)]
            congr 1
            omega
          · rw [if_neg within, if_neg (by omega)]
      · rcases accesses access member with before | bounds
        · rcases List.mem_append.mp before with old | new
          · exact Or.inl old
          · right
            simp only [List.mem_cons, List.not_mem_nil, or_false] at new
            rcases new with rfl | rfl
            · exact ⟨by omega, by omega⟩
            · show parse.countPtr < fields
              omega
        · exact Or.inr bounds

/-! ## Visits -/

/-- Nothing is copied at a word: it is not the identifier, or no field is left, or the word
behind it leads behind the end of the table. -/
def Idle (table : List UInt32) (deviceId : UInt32) (paramsRemain position : Nat) : Prop :=
  table[position]? = some deviceId → paramsRemain = 0 ∨
    (table.length : Int) ≤ (asInt (table.getD (position + 1) 0)).tdiv 4

/-- A match can look at the word behind it. -/
theorem next_inside (layout : Layout devices table names) (nonempty : devices ≠ []) {id : Nat}
    (known : id ∈ parserIds) {position : Nat}
    (found : table[position]? = some (UInt32.ofNat id)) : position + 1 < table.length := by
  obtain ⟨inside, -⟩ := List.getElem?_eq_some_iff.mp found
  have last := layout.last nonempty
  have different : ∀ id ∈ parserIds, UInt32.ofNat id ≠ 0xFF00FF00 := by decide
  by_cases final : position = table.length - 1
  · rw [final, last] at found
    exact absurd (Option.some.inj found).symm (different id known)
  · omega

/-- A visit where nothing is copied. -/
theorem visit_idle (layout : Layout devices table names) (nonempty : devices ≠ []) {id : Nat}
    (known : id ∈ parserIds) (beside : Int → UInt32) (fields : Nat) {paramsRemain position : Nat}
    (parse : Parse)
    (below : position < table.length)
    (idle : Idle table (UInt32.ofNat id) paramsRemain position) :
    (visit table beside table.length (UInt32.ofNat id) paramsRemain parse position).countPtr =
        parse.countPtr ∧
      (visit table beside table.length (UInt32.ofNat id) paramsRemain parse position).memory =
        parse.memory ∧
      ∀ access ∈ (visit table beside table.length (UInt32.ofNat id) paramsRemain parse
          position).accesses,
        access ∈ parse.accesses ∨ access.InBounds table.length fields := by
  have here := tableWord_of_get (List.getElem?_eq_getElem below) beside
  have old : ∀ {index : Nat}, index < table.length → ∀ access ∈ [Access.word index],
      access.InBounds table.length fields := by
    intro index inside access member
    rw [List.mem_singleton.mp member]
    exact ⟨by omega, by omega⟩
  unfold visit
  dsimp only
  split
  case isTrue matched =>
    have found : table[position]? = some (UInt32.ofNat id) := by
      rw [List.getElem?_eq_getElem below, ← here, matched]
    have inside := next_inside layout nonempty known found
    have next : tableWord table beside ((position : Int) + 1) = table.getD (position + 1) 0 := by
      rw [List.getD_eq_getElem?_getD, List.getElem?_eq_getElem inside]
      exact tableWord_of_get (List.getElem?_eq_getElem inside) beside
    rw [next, copyLoop_none]
    · refine ⟨rfl, rfl, fun access member => ?_⟩
      rcases List.mem_append.mp member with front | back
      · rcases List.mem_append.mp front with before | first
        · exact Or.inl before
        · exact Or.inr (old below access first)
      · exact Or.inr (old inside access back)
    · rcases idle found with none | behind
      · exact Or.inl none
      · exact Or.inr (Int.le_trans (Int.min_le_right ..) behind)
  case isFalse =>
    refine ⟨rfl, rfl, fun access member => ?_⟩
    rcases List.mem_append.mp member with before | first
    · exact Or.inl before
    · exact Or.inr (old below access first)

/-- Visits where nothing is copied. -/
theorem visits_idle (layout : Layout devices table names) (nonempty : devices ≠ []) {id : Nat}
    (known : id ∈ parserIds) (beside : Int → UInt32) (fields : Nat) {paramsRemain : Nat}
    (positions : List Nat) (parse : Parse)
    (idle : ∀ position ∈ positions, position < table.length ∧
      Idle table (UInt32.ofNat id) paramsRemain position) :
    (positions.foldl (visit table beside table.length (UInt32.ofNat id) paramsRemain)
        parse).countPtr = parse.countPtr ∧
      (positions.foldl (visit table beside table.length (UInt32.ofNat id) paramsRemain)
        parse).memory = parse.memory ∧
      ∀ access ∈ (positions.foldl (visit table beside table.length (UInt32.ofNat id) paramsRemain)
          parse).accesses,
        access ∈ parse.accesses ∨ access.InBounds table.length fields := by
  induction positions generalizing parse with
  | nil => exact ⟨rfl, rfl, fun _ member => Or.inl member⟩
  | cons position positions ih =>
      obtain ⟨below, first⟩ := idle position List.mem_cons_self
      obtain ⟨pointer, memory, accesses⟩ :=
        visit_idle layout nonempty known beside fields parse below first
      obtain ⟨restPointer, restMemory, restAccesses⟩ := ih _ fun later member =>
        idle later (List.mem_cons_of_mem position member)
      refine ⟨restPointer.trans pointer, restMemory.trans memory, fun access member => ?_⟩
      rcases restAccesses access member with before | bounds
      · exact accesses access before
      · exact Or.inr bounds

/-- What every visit does to the pointer and the indices. -/
theorem visit_writes (table : List UInt32) (beside : Int → UInt32) (deviceId : UInt32)
    (paramsRemain : Nat) (parse : Parse) (position : Nat) :
    parse.countPtr ≤
        (visit table beside table.length deviceId paramsRemain parse position).countPtr ∧
      (∀ access ∈ parse.accesses,
        access ∈ (visit table beside table.length deviceId paramsRemain parse position).accesses) ∧
      ∀ field, parse.countPtr ≤ field →
        field < (visit table beside table.length deviceId paramsRemain parse position).countPtr →
        Access.field field ∈
          (visit table beside table.length deviceId paramsRemain parse position).accesses := by
  unfold visit
  dsimp only
  split
  · obtain ⟨grows, -, keeps, writes⟩ := copyLoop_writes table beside _ _ _ _
    exact ⟨grows, fun access member => keeps access (by simp [member]), writes⟩
  · exact ⟨Nat.le_refl _, fun access member => List.mem_append_left _ member,
      fun field low high => absurd high (by dsimp only; omega)⟩

theorem visits_writes (table : List UInt32) (beside : Int → UInt32) (deviceId : UInt32)
    (paramsRemain : Nat) (positions : List Nat) (parse : Parse) :
    parse.countPtr ≤ (positions.foldl (visit table beside table.length deviceId paramsRemain)
        parse).countPtr ∧
      (∀ access ∈ parse.accesses, access ∈
        (positions.foldl (visit table beside table.length deviceId paramsRemain) parse).accesses) ∧
      ∀ field, parse.countPtr ≤ field →
        field < (positions.foldl (visit table beside table.length deviceId paramsRemain)
          parse).countPtr →
        Access.field field ∈
          (positions.foldl (visit table beside table.length deviceId paramsRemain)
            parse).accesses := by
  induction positions generalizing parse with
  | nil =>
      exact ⟨Nat.le_refl _, fun _ member => member, fun field low high => absurd high (by
        rw [List.foldl_nil]
        omega)⟩
  | cons position positions ih =>
      obtain ⟨grows, keeps, writes⟩ :=
        visit_writes table beside deviceId paramsRemain parse position
      obtain ⟨restGrows, restKeeps, restWrites⟩ :=
        ih (visit table beside table.length deviceId paramsRemain parse position)
      rw [List.foldl_cons]
      refine ⟨Nat.le_trans grows restGrows,
        fun access member => restKeeps access (keeps access member), fun field low high => ?_⟩
      by_cases first : field <
          (visit table beside table.length deviceId paramsRemain parse position).countPtr
      · exact restKeeps _ (writes field low first)
      · exact restWrites field (by omega) high

/-- The entry of the device copies all fields that are left. -/
theorem visit_own (layout : Layout devices table names) (small : 4 * table.length < 2 ^ 31)
    {front back : List Device} {device : Device} (split : devices = front ++ device :: back)
    (beside : Int → UInt32) (fields : Nat) (parse : Parse)
    (room : parse.countPtr + (numFields devices - numFields front) ≤ fields) :
    (visit table beside table.length (UInt32.ofNat device.id)
        (numFields devices - numFields front) parse (6 + 2 * front.length)).countPtr =
        parse.countPtr + (numFields devices - numFields front) ∧
      (∀ field, (visit table beside table.length (UInt32.ofNat device.id)
          (numFields devices - numFields front) parse (6 + 2 * front.length)).memory field =
        if parse.countPtr ≤ field ∧
            field < parse.countPtr + (numFields devices - numFields front) then
          table.getD (sectionStart devices front names + 2 * (field - parse.countPtr) + 1) 0
        else parse.memory field) ∧
      ∀ access ∈ (visit table beside table.length (UInt32.ofNat device.id)
          (numFields devices - numFields front) parse (6 + 2 * front.length)).accesses,
        access ∈ parse.accesses ∨ access.InBounds table.length fields := by
  have idWord := layout.id front device back split
  have offsetWord := layout.offset front device back split
  have here := tableWord_of_get idWord beside
  have next := tableWord_of_get offsetWord beside
  have inside := (List.getElem?_eq_some_iff.mp offsetWord).1
  have count : front.length < devices.length := by simp [split]
  have fewer : numFields front ≤ numFields devices := by simp [split, numFields]
  have length := layout.length
  unfold sectionStart at length
  have start : (asInt (UInt32.ofNat (4 * sectionStart devices front names))).tdiv 4 =
      sectionStart devices front names := by
    rw [asInt_ofNat (by unfold sectionStart; omega), Int.tdiv_eq_ediv_of_nonneg (by omega)]
    omega
  have nextWord : tableWord table beside (((6 + 2 * front.length : Nat) : Int) + 1) =
      UInt32.ofNat (4 * sectionStart devices front names) := next
  unfold visit
  dsimp only
  rw [if_pos here, nextWord, start]
  obtain ⟨pointer, memory, accesses⟩ := copyLoop_own table beside
    (numFields devices - numFields front) (sectionStart devices front names) fields
    (min ((sectionStart devices front names : Int) +
      ((numFields devices - numFields front : Nat) : Int) * 2) (table.length : Int))
    { parse with
      accesses := parse.accesses ++ [.word ((6 + 2 * front.length : Nat) : Int)] ++
        [.word (((6 + 2 * front.length : Nat) : Int) + 1)] }
    (by unfold sectionStart; omega) (by unfold sectionStart; omega) room
  refine ⟨pointer, memory, fun access member => ?_⟩
  rcases accesses access member with before | bounds
  · rcases List.mem_append.mp before with old | second
    · rcases List.mem_append.mp old with older | first
      · exact Or.inl older
      · rw [List.mem_singleton.mp first]
        exact Or.inr ⟨by omega, by omega⟩
    · rw [List.mem_singleton.mp second]
      exact Or.inr ⟨by omega, by omega⟩
  · exact Or.inr bounds

/-- Two visits that move the pointer both count. -/
theorem foldl_gain {f : Parse → Nat → Parse} {own other gain : Nat} (different : other ≠ own)
    (grows : ∀ parse position, parse.countPtr ≤ (f parse position).countPtr)
    (ownGain : ∀ parse, parse.countPtr + gain ≤ (f parse own).countPtr)
    (otherGain : ∀ parse, parse.countPtr + 1 ≤ (f parse other).countPtr) (positions : List Nat)
    (parse : Parse) :
    parse.countPtr ≤ (positions.foldl f parse).countPtr ∧
      (own ∈ positions → parse.countPtr + gain ≤ (positions.foldl f parse).countPtr) ∧
      (other ∈ positions → parse.countPtr + 1 ≤ (positions.foldl f parse).countPtr) ∧
      (own ∈ positions → other ∈ positions →
        parse.countPtr + gain + 1 ≤ (positions.foldl f parse).countPtr) := by
  induction positions generalizing parse with
  | nil => exact ⟨Nat.le_refl _, nofun, nofun, nofun⟩
  | cons position positions ih =>
      obtain ⟨always, ownLater, otherLater, both⟩ := ih (f parse position)
      have step := grows parse position
      rw [List.foldl_cons]
      simp only [List.mem_cons]
      by_cases isOwn : position = own
      · subst isOwn
        have gained := ownGain parse
        refine ⟨by omega, fun _ => by omega, fun member => ?_, fun _ member => ?_⟩
        · have later := otherLater (member.resolve_left different)
          omega
        · have later := otherLater (member.resolve_left different)
          omega
      · by_cases isOther : position = other
        · subst isOther
          have gained := otherGain parse
          refine ⟨by omega, fun member => ?_, fun _ => by omega, fun member _ => ?_⟩
          · have later := ownLater (member.resolve_left (Ne.symm isOwn))
            omega
          · have later := ownLater (member.resolve_left (Ne.symm isOwn))
            omega
        · refine ⟨by omega, fun member => ?_, fun member => ?_, fun ownMember member => ?_⟩
          · have later := ownLater (member.resolve_left (Ne.symm isOwn))
            omega
          · have later := otherLater (member.resolve_left (Ne.symm isOther))
            omega
          · have later := both (ownMember.resolve_left (Ne.symm isOwn))
              (member.resolve_left (Ne.symm isOther))
            omega

/-- A visit that copies something moves the pointer. -/
theorem visit_copies (layout : Layout devices table names) (nonempty : devices ≠ []) {id : Nat}
    (known : id ∈ parserIds) (beside : Int → UInt32) {paramsRemain position : Nat} (parse : Parse)
    (found : table[position]? = some (UInt32.ofNat id)) (some : paramsRemain ≠ 0)
    (before : (asInt (table.getD (position + 1) 0)).tdiv 4 < table.length) :
    parse.countPtr + 1 ≤
      (visit table beside table.length (UInt32.ofNat id) paramsRemain parse position).countPtr := by
  have inside := next_inside layout nonempty known found
  have here := tableWord_of_get found beside
  have next : tableWord table beside ((position : Int) + 1) = table.getD (position + 1) 0 := by
    rw [List.getD_eq_getElem?_getD, List.getElem?_eq_getElem inside]
    exact tableWord_of_get (List.getElem?_eq_getElem inside) beside
  have moves := (copyLoop_writes table beside
    (min ((asInt (table.getD (position + 1) 0)).tdiv 4 + (paramsRemain : Int) * 2) table.length)
    paramsRemain ((asInt (table.getD (position + 1) 0)).tdiv 4)
    { parse with
      accesses := parse.accesses ++ [.word position] ++ [.word ((position : Int) + 1)] }).2.1 some
    (by omega)
  unfold visit
  dsimp only
  rw [if_pos here, next]
  exact moves

/-! ## The pass of one device -/

/-- Nothing is copied for a device but at its own entry. -/
def Clean (devices : List Device) (table : List UInt32) : Prop :=
  ∀ device ∈ devices, ∀ position < table.length,
    position ≠ 6 + 2 * (devicesBefore devices device.id).length →
    Idle table (UInt32.ofNat device.id) (numLeft devices device.id) position

/-- The devices in front of a device with an identifier of its own. -/
theorem devicesBefore_eq {front back : List Device} {device : Device}
    (split : devices = front ++ device :: back) (unique : (devices.map Device.id).Nodup) :
    devicesBefore devices device.id = front := by
  have different : ∀ other ∈ front, other.id ≠ device.id := by
    intro other member same
    rw [split, List.map_append, List.nodup_append] at unique
    exact unique.2.2 other.id (List.mem_map_of_mem member) device.id (by simp) same
  unfold devicesBefore
  rw [split, List.takeWhile_append_of_pos (by simpa using different)]
  simp

section

variable (layout : Layout devices table names) (small : 4 * table.length < 2 ^ 31)
  (ids : devices.map Device.id = parserIds) {front back : List Device} {device : Device}
  (split : devices = front ++ device :: back) (beside : Int → UInt32) (parse : Parse)

include layout small ids split

/-- The pass of a device as the visits of the words. -/
theorem devcfgPass_eq :
    devcfgPass table beside devices parse device.id =
        (List.range table.length).foldl (visit table beside table.length (UInt32.ofNat device.id)
          (numFields devices - numFields front)) { parse with countPtr := numFields front } ∧
      devicesBefore devices device.id = front ∧ 6 + 2 * front.length < table.length := by
  have unique : (devices.map Device.id).Nodup := by
    rw [ids]
    decide
  have before := devicesBefore_eq split unique
  refine ⟨?_, before, (List.getElem?_eq_some_iff.mp (layout.id front device back split)).1⟩
  unfold devcfgPass numLeft firstField
  rw [before, totalHexVal_eq layout beside small]
  rfl

/-- The pass of a device with a clean table: the fields from its first one on. -/
theorem pass_clean (clean : Clean devices table) :
    (∀ field, (devcfgPass table beside devices parse device.id).memory field =
        if numFields front ≤ field ∧ field < numFields devices then
          table.getD (sectionStart devices front names + 2 * (field - numFields front) + 1) 0
        else parse.memory field) ∧
      ∀ access ∈ (devcfgPass table beside devices parse device.id).accesses,
        access ∈ parse.accesses ∨ access.InBounds table.length (numFields devices) := by
  obtain ⟨pass, before, inside⟩ := devcfgPass_eq layout small ids split beside parse
  have member : device ∈ devices := by simp [split]
  have nonempty : devices ≠ [] := List.ne_nil_of_mem member
  have known : device.id ∈ parserIds := by
    rw [← ids]
    exact List.mem_map_of_mem member
  have fewer : numFields front ≤ numFields devices := by simp [split, numFields]
  have idle : ∀ position < table.length, position ≠ 6 + 2 * front.length →
      Idle table (UInt32.ofNat device.id) (numFields devices - numFields front) position := by
    intro position below other
    have found := clean device member position below
    rw [before] at found
    have idle := found other
    unfold numLeft firstField at idle
    rwa [before] at idle
  -- The words in front of the entry, the entry, and the words behind it.
  obtain ⟨first, rest, words⟩ := List.append_of_mem (List.mem_range.mpr inside)
  have distinct : (first ++ (6 + 2 * front.length) :: rest).Nodup := words ▸ List.nodup_range
  have place : ∀ position ∈ first ++ (6 + 2 * front.length) :: rest, position < table.length := by
    rw [← words]
    exact fun position => List.mem_range.mp
  have others : ∀ position, position ∈ first ∨ position ∈ rest →
      position < table.length ∧
        Idle table (UInt32.ofNat device.id) (numFields devices - numFields front) position := by
    intro position either
    obtain ⟨-, tail, apart⟩ := List.nodup_append.mp distinct
    rcases either with left | right
    · have below := place position (List.mem_append_left _ left)
      exact ⟨below, idle position below (apart position left _ List.mem_cons_self)⟩
    · have below := place position (List.mem_append_right _ (List.mem_cons_of_mem _ right))
      refine ⟨below, idle position below ?_⟩
      rintro rfl
      exact (List.nodup_cons.mp tail).1 right
  rw [pass, words, List.foldl_append, List.foldl_cons]
  obtain ⟨pointer, memory, accesses⟩ := visits_idle layout nonempty known beside
    (numFields devices) first { parse with countPtr := numFields front }
    fun position left => others position (Or.inl left)
  obtain ⟨ownPointer, ownMemory, ownAccesses⟩ := visit_own layout small split beside
    (numFields devices) _ (by rw [pointer]; dsimp only; omega)
  obtain ⟨-, lastMemory, lastAccesses⟩ := visits_idle layout nonempty known beside
    (numFields devices) rest _ fun position right => others position (Or.inr right)
  refine ⟨fun field => ?_, fun access inAll => ?_⟩
  · rw [lastMemory, ownMemory, pointer, memory]
    dsimp only
    rw [Nat.add_sub_cancel' fewer]
  · rcases lastAccesses access inAll with inOwn | bounds
    · rcases ownAccesses access inOwn with inFirst | bounds
      · exact accesses access inFirst
      · exact Or.inr bounds
    · exact Or.inr bounds

/-- A pass that stays in the structure copies at the entry of the device only. -/
theorem clean_of_inBounds
    (inBounds : ∀ access ∈ (devcfgPass table beside devices parse device.id).accesses,
      access.InBounds table.length (numFields devices))
    {position : Nat} (below : position < table.length)
    (other : position ≠ 6 + 2 * front.length) :
    Idle table (UInt32.ofNat device.id) (numFields devices - numFields front) position := by
  obtain ⟨pass, -, inside⟩ := devcfgPass_eq layout small ids split beside parse
  have member : device ∈ devices := by simp [split]
  have nonempty : devices ≠ [] := List.ne_nil_of_mem member
  have known : device.id ∈ parserIds := by
    rw [← ids]
    exact List.mem_map_of_mem member
  have fewer : numFields front ≤ numFields devices := by simp [split, numFields]
  intro found
  by_cases none : numFields devices - numFields front = 0
  · exact Or.inl none
  refine Or.inr (Int.not_lt.mp fun copies => ?_)
  -- With a second copy the pointer goes behind the last field.
  have gain := (foldl_gain other
    (fun parse position => (visit_writes table beside (UInt32.ofNat device.id)
      (numFields devices - numFields front) parse position).1)
    (fun parse => Nat.le_of_eq (visit_own layout small split beside _ parse
      (Nat.le_refl _)).1.symm)
    (fun parse => visit_copies layout nonempty known beside parse found none copies)
    (List.range table.length) { parse with countPtr := numFields front }).2.2.2
    (List.mem_range.mpr inside) (List.mem_range.mpr below)
  obtain ⟨-, -, writes⟩ := visits_writes table beside (UInt32.ofNat device.id)
    (numFields devices - numFields front) (List.range table.length)
    { parse with countPtr := numFields front }
  rw [← pass] at gain writes
  dsimp only at gain writes
  have last := inBounds _ (writes (numFields devices) fewer (by omega))
  exact absurd last (Nat.lt_irrefl (numFields devices))

end

/-! ## The parser -/

/-- The structure has the values of every device in their order, and every index was in
the table or in the structure. -/
structure Fills (devices : List Device) (table : List UInt32) (parse : Parse) : Prop where
  inBounds : ∀ access ∈ parse.accesses, access.InBounds table.length (numFields devices)
  values : ∀ device ∈ devices, ∀ k prop, device.props[k]? = some prop →
    parse.memory (firstField devices device.id + k) = packWord prop.value

/-- The passes of the devices behind `front`, on a clean table. -/
theorem passes_fill (layout : Layout devices table names) (small : 4 * table.length < 2 ^ 31)
    (ids : devices.map Device.id = parserIds) (clean : Clean devices table)
    (beside : Int → UInt32) (front back : List Device) (split : devices = front ++ back)
    (parse : Parse)
    (inBounds : ∀ access ∈ parse.accesses, access.InBounds table.length (numFields devices))
    (values : ∀ device ∈ front, ∀ k prop, device.props[k]? = some prop →
      parse.memory (firstField devices device.id + k) = packWord prop.value) :
    Fills devices table
      ((back.map Device.id).foldl (devcfgPass table beside devices) parse) := by
  have unique : (devices.map Device.id).Nodup := by
    rw [ids]
    decide
  induction back generalizing front parse with
  | nil =>
      rw [List.append_nil] at split
      subst split
      exact ⟨inBounds, values⟩
  | cons device back ih =>
      obtain ⟨memory, accesses⟩ := pass_clean layout small ids split beside parse clean
      refine ih (front ++ [device]) (by rw [split]; simp) _ (fun access member => ?_)
        (fun other member k prop found => ?_)
      · rcases accesses access member with before | bounds
        · exact inBounds access before
        · exact bounds
      · have inside := (List.getElem?_eq_some_iff.mp found).1
        rcases List.mem_append.mp member with earlier | own
        · -- The fields of the devices before lie in front of the first one that is written.
          obtain ⟨first, second, parts⟩ := List.append_of_mem earlier
          have around : devices = first ++ other :: (second ++ device :: back) := by
            rw [split, parts]
            simp
          have place : firstField devices other.id = numFields first := by
            unfold firstField
            rw [devicesBefore_eq around unique]
          have below : numFields first + other.props.length ≤ numFields front := by
            simp [parts, numFields]
          rw [memory, if_neg (by omega)]
          exact values other earlier k prop found
        · rw [List.mem_singleton.mp own] at found inside ⊢
          have place : firstField devices device.id = numFields front := by
            unfold firstField
            rw [devicesBefore_eq split unique]
          have total : numFields front + device.props.length ≤ numFields devices := by
            simp [split, numFields]
          have value := layout.value front device back split k prop found
          rw [memory, place, if_pos (by omega), Nat.add_sub_cancel_left,
            List.getD_eq_getElem?_getD, value]
          rfl

/-- A pass only adds indices. -/
theorem passes_keep (beside : Int → UInt32) (small : totalHexVal table beside = table.length)
    (ids : List Nat) (parse : Parse) :
    ∀ access ∈ parse.accesses,
      access ∈ (ids.foldl (devcfgPass table beside devices) parse).accesses := by
  induction ids generalizing parse with
  | nil => exact fun _ member => member
  | cons id ids ih =>
      intro access member
      refine ih _ access ?_
      unfold devcfgPass
      rw [small]
      exact (visits_writes table beside _ _ _ _).2.1 access member

/-- A structure with fields has a device with a property. -/
theorem exists_prop (fields : numFields devices ≠ 0) :
    ∃ device ∈ devices, ∃ prop, device.props[0]? = some prop := by
  induction devices with
  | nil => exact absurd rfl fields
  | cons device devices ih =>
      cases first : device.props with
      | nil =>
          have rest : numFields devices ≠ 0 := by simpa [numFields, first] using fields
          obtain ⟨other, member, found⟩ := ih rest
          exact ⟨other, List.mem_cons_of_mem device member, found⟩
      | cons prop props => exact ⟨device, List.mem_cons_self, prop, by rw [first]; rfl⟩

/-- A size of 2 ^ 31 bytes or more is taken for a negative one, and nothing is parsed. -/
theorem parse_large (layout : Layout devices table names) (large : 2 ^ 31 ≤ 4 * table.length)
    (beside : Int → UInt32) (memory : Nat → UInt32) :
    (ntDevcfgParse table beside devices memory).memory = memory := by
  have size := tableWord_of_get layout.size beside
  rw [show ((0 : Nat) : Int) = 0 from rfl] at size
  have none : (totalHexVal table beside).toNat = 0 := by
    unfold totalHexVal
    rw [size]
    have negative := asInt_ofNat_neg large layout.fits
    have quotient := Int.tdiv_nonneg (Int.neg_nonneg_of_nonpos (Int.le_of_lt negative))
      (show (0 : Int) ≤ 4 by decide)
    rw [Int.neg_tdiv] at quotient
    omega
  have pass : ∀ parse id, (devcfgPass table beside devices parse id).memory = parse.memory := by
    intro parse id
    unfold devcfgPass
    rw [none]
    rfl
  have passes : ∀ ids parse,
      (List.foldl (devcfgPass table beside devices) parse ids).memory = parse.memory := by
    intro ids
    induction ids with
    | nil => exact fun _ => rfl
    | cons id ids ih => exact fun parse => (ih _).trans (pass parse id)
  exact passes _ _

/-- With the devices of the parser in its order, the parser fills the structure from the
table of the generator exactly when the table has less than 2 ^ 31 bytes and is clean. -/
theorem parse_fills_iff (generated : propgen devices = some table)
    (ids : devices.map Device.id = parserIds) :
    (∀ beside memory, Fills devices table (ntDevcfgParse table beside devices memory)) ↔
      4 * table.length < 2 ^ 31 ∧ Clean devices table := by
  obtain ⟨names, layout⟩ := propgen_layout generated
  constructor
  · intro fills
    have small : 4 * table.length < 2 ^ 31 := by
      by_cases small : 4 * table.length < 2 ^ 31
      · exact small
      have count : devices.length = 11 := by rw [← List.length_map, ids]; rfl
      have length := layout.length
      unfold sectionStart at length
      have fields : numFields devices ≠ 0 := by
        intro none
        have noNames := layout.noNames none
        omega
      obtain ⟨device, member, prop, found⟩ := exists_prop fields
      -- Nothing is parsed, so that the field keeps what was there.
      have filled := (fills (fun _ => 0) fun _ => packWord prop.value + 1).values device member 0
        prop found
      rw [parse_large layout (by omega)] at filled
      exact absurd filled (by simp)
    refine ⟨small, fun device member position below other => ?_⟩
    have unique : (devices.map Device.id).Nodup := by
      rw [ids]
      decide
    obtain ⟨front, back, split⟩ := List.append_of_mem member
    have before := devicesBefore_eq split unique
    rw [before] at other
    unfold numLeft firstField
    rw [before]
    have inBounds := (fills (fun _ => 0) fun _ => 0).inBounds
    unfold ntDevcfgParse at inBounds
    rw [← ids, split, List.map_append, List.map_cons, List.foldl_append, List.foldl_cons, ← split]
      at inBounds
    refine clean_of_inBounds layout small ids split (fun _ => 0)
      ((front.map Device.id).foldl (devcfgPass table (fun _ => 0) devices)
        { countPtr := 0, memory := fun _ => 0, accesses := [.word 0] })
      (fun access inPass => ?_) below other
    exact inBounds access
      (passes_keep (fun _ => 0) (totalHexVal_eq layout _ small) _ _ access inPass)
  · rintro ⟨small, clean⟩ beside memory
    unfold ntDevcfgParse
    rw [← ids]
    refine passes_fill layout small ids clean beside [] devices rfl _
      (fun access member => ?_) nofun
    rw [List.mem_singleton.mp member]
    have length := layout.length
    unfold sectionStart at length
    exact ⟨by omega, by omega⟩

/-! ## Devices with one property each -/

/-- A device with one property. -/
def oneProperty (id : Nat) (value : Int) : Device where
  id := id
  props := [{ label := .id 1, min := none, max := none, value := value }]

/-- The devices of the parser with the values 1 to 10 and one for the last. -/
def inOrder (last : Int) : List Device :=
  List.zipWith oneProperty parserIds [1, 2, 3, 4, 5, 6, 7, 8, 9, 10, last]

/-- The roaming parameters are declared in front of the log parameters. -/
def exchanged : List Device :=
  oneProperty 0x03000003 2 :: oneProperty 0x03000002 1 :: (inOrder 11).drop 2

theorem parse_fills_inOrder :
    ∃ table, propgen (inOrder 11) = some table ∧
      ∀ beside memory,
        Fills (inOrder 11) table (ntDevcfgParse table beside (inOrder 11) memory) := by
  have accepted : (propgen (inOrder 11)).isSome = true := by decide +kernel
  have generated := (Option.some_get accepted).symm
  refine ⟨_, generated, (parse_fills_iff generated rfl).mpr ⟨by decide +kernel +revert, ?_⟩⟩
  unfold Clean Idle
  decide +kernel +revert

/-- The pass of the roaming parameters overwrites the log parameters behind them with a word
that names a type; and a value that is a device identifier is taken for an entry, so that
words in front of the table are written behind the structure. -/
theorem parse_fills_wrong :
    (∃ table, propgen exchanged = some table ∧
      (ntDevcfgParse table (fun _ => 0) exchanged fun _ => 0).memory
        (firstField exchanged 0x03000002) = 0x02000001 ∧
      ¬ Fills exchanged table (ntDevcfgParse table (fun _ => 0) exchanged fun _ => 0)) ∧
    ∃ table, propgen (inOrder 0x03000002) = some table ∧
      Access.word (-4177983) ∈ (ntDevcfgParse table (fun _ => 0) (inOrder 0x03000002)
        fun _ => 0).accesses ∧
      ¬ Fills (inOrder 0x03000002) table
        (ntDevcfgParse table (fun _ => 0) (inOrder 0x03000002) fun _ => 0) := by
  constructor
  · have accepted : (propgen exchanged).isSome = true := by decide +kernel
    have field : (ntDevcfgParse ((propgen exchanged).get accepted) (fun _ => 0) exchanged
        fun _ => 0).memory (firstField exchanged 0x03000002) = 0x02000001 := by
      decide +kernel +revert
    refine ⟨_, (Option.some_get accepted).symm, field, fun fills => ?_⟩
    have value := fills.values (oneProperty 0x03000002 1) (by simp [exchanged]) 0
      { label := .id 1, min := none, max := none, value := 1 } rfl
    have same := field.symm.trans value
    exact absurd same (by decide)
  · have accepted : (propgen (inOrder 0x03000002)).isSome = true := by decide +kernel
    have access : Access.word (-4177983) ∈ (ntDevcfgParse
        ((propgen (inOrder 0x03000002)).get accepted) (fun _ => 0) (inOrder 0x03000002)
        fun _ => 0).accesses := by
      have small : totalHexVal ((propgen (inOrder 0x03000002)).get accepted) (fun _ => 0) =
          ((propgen (inOrder 0x03000002)).get accepted).length := by decide +kernel +revert
      have ids : parserIds = 0x03000002 :: parserIds.tail := rfl
      -- The first of the passes reads the word already.
      unfold ntDevcfgParse
      rw [ids, List.foldl_cons]
      apply passes_keep (fun _ => 0) small
      decide +kernel +revert
    refine ⟨_, (Option.some_get accepted).symm, access, fun fills => ?_⟩
    exact absurd (fills.inBounds _ access).1 (by decide)

end QHal.Devcfg
