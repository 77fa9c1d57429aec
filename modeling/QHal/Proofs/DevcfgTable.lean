/-
Module: QHal.Proofs.DevcfgTable
Purpose: What the generator lays out: where the table has the identifier, the offset and
  the values of each device.
Trusted boundary: none
Main exports: Pairs, Sections, Layout, propgen_layout
-/
import QHal.Devcfg.Parser

namespace QHal.Devcfg

open PropGen

/-! ## The device section -/

/-- Each property has a word for its type and one with its value. -/
def Pairs : List Props → List Int → Prop
  | [], words => words = []
  | prop :: props, words => ∃ type rest, words = type :: prop.value :: rest ∧ Pairs props rest

/-- Each device has its properties and an end marker. -/
def Sections : List Device → List Int → Prop
  | [], words => words = []
  | device :: devices, words =>
      ∃ pairs rest, words = pairs ++ endMarker :: rest ∧ Pairs device.props pairs ∧
        Sections devices rest

theorem pairs_length {props : List Props} {words : List Int} (pairs : Pairs props words) :
    words.length = 2 * props.length := by
  induction props generalizing words with
  | nil =>
      rw [show words = [] from pairs]
      rfl
  | cons prop props ih =>
      obtain ⟨type, rest, rfl, later⟩ := pairs
      rw [List.length_cons, List.length_cons, ih later, List.length_cons]
      omega

/-- The words with the values. -/
theorem pairs_value {props : List Props} {words : List Int} (pairs : Pairs props words) {k : Nat}
    {prop : Props} (member : props[k]? = some prop) : words[2 * k + 1]? = some prop.value := by
  induction props generalizing words k with
  | nil => exact absurd member nofun
  | cons first props ih =>
      obtain ⟨type, rest, rfl, later⟩ := pairs
      cases k with
      | zero =>
          cases member
          rfl
      | succ k => exact ih later member

theorem sections_length {devices : List Device} {words : List Int}
    (sections : Sections devices words) :
    words.length = 2 * numFields devices + devices.length := by
  induction devices generalizing words with
  | nil =>
      rw [show words = [] from sections]
      rfl
  | cons device devices ih =>
      obtain ⟨pairs, rest, rfl, own, later⟩ := sections
      have fields : numFields (device :: devices) = device.props.length + numFields devices := by
        simp [numFields]
      rw [List.length_append, List.length_cons, pairs_length own, ih later, fields,
        List.length_cons]
      omega

/-- The device section ends with an end marker. -/
theorem sections_last {devices : List Device} {words : List Int} (nonempty : devices ≠ [])
    (sections : Sections devices words) : words[words.length - 1]? = some endMarker := by
  induction devices generalizing words with
  | nil => exact absurd rfl nonempty
  | cons device devices ih =>
      obtain ⟨pairs, rest, rfl, -, later⟩ := sections
      rw [List.length_append, List.length_cons, List.getElem?_append_right (by omega)]
      cases devices with
      | nil =>
          rw [show rest = [] from later]
          simp
      | cons next devices =>
          have positive : 0 < rest.length := by
            rw [sections_length later, List.length_cons]
            omega
          have place : pairs.length + (rest.length + 1) - 1 - pairs.length =
              rest.length - 1 + 1 := by
            omega
          rw [place, List.getElem?_cons_succ]
          exact ih nofun later

/-- The section of one device among the others. -/
theorem sections_append {front back : List Device} {words : List Int}
    (sections : Sections (front ++ back) words) :
    ∃ before behind, words = before ++ behind ∧ Sections front before ∧
      Sections back behind := by
  induction front generalizing words with
  | nil => exact ⟨[], words, rfl, rfl, sections⟩
  | cons device front ih =>
      obtain ⟨pairs, rest, rfl, own, later⟩ := sections
      obtain ⟨before, behind, rfl, first, second⟩ := ih later
      exact ⟨pairs ++ endMarker :: before, behind, by simp,
        ⟨pairs, before, rfl, own, first⟩, second⟩

/-! ## The run of the generator -/

/-- The offsets of the devices in the device section. -/
def deviceOffsets (offset : Int) : List Device → List (Nat × Int)
  | [] => []
  | device :: devices =>
      (device.id, offset) :: deviceOffsets (offset + (8 * device.props.length + 4)) devices

/-- The loop over the properties adds their pairs, and names only for properties. -/
theorem generateProps_spec {props : List Props} {gen last : PropGen}
    (run : gen.generateProps props = some last) :
    (∃ pairs, last.devSection = gen.devSection ++ pairs ∧ Pairs props pairs) ∧
      last.deviceId = gen.deviceId ∧ last.deviceOffset = gen.deviceOffset ∧
      (props = [] → last.nameSection = gen.nameSection) := by
  induction props generalizing gen with
  | nil =>
      cases run
      exact ⟨⟨[], (List.append_nil _).symm, rfl⟩, rfl, rfl, fun _ => rfl⟩
  | cons prop props ih =>
      have kept : (gen.nameOffset prop.label).1.devSection = gen.devSection ∧
          (gen.nameOffset prop.label).1.deviceId = gen.deviceId ∧
          (gen.nameOffset prop.label).1.deviceOffset = gen.deviceOffset := by
        unfold nameOffset
        split
        · exact ⟨rfl, rfl, rfl⟩
        · split
          · exact ⟨rfl, rfl, rfl⟩
          · exact ⟨rfl, rfl, rfl⟩
      unfold generateProps at run
      dsimp only at run
      split at run
      · obtain ⟨⟨pairs, words, own⟩, ids, offset, -⟩ := ih run
        dsimp only at words ids offset
        rw [kept.1] at words
        refine ⟨⟨typeNameoffset (gen.nameOffset prop.label).2 :: prop.value :: pairs, ?_, _, pairs,
          rfl, own⟩, ids.trans kept.2.1, offset.trans kept.2.2, nofun⟩
        rw [words, List.append_assoc]
        rfl
      · exact absurd run nofun

theorem popLength_append (gen : PropGen) (length : Int) :
    ({ gen with devSection := gen.devSection ++ [length] } : PropGen).popLength =
      { gen with deviceOffset := gen.deviceOffset + length } := by
  unfold popLength
  simp

/-- One device adds its section, and its place to the identifiers. -/
theorem generateArray_spec {gen last : PropGen} {device : Device}
    (run : gen.generateArray device = some last) :
    (∃ pairs, last.popLength.devSection = gen.popLength.devSection ++ (pairs ++ [endMarker]) ∧
        Pairs device.props pairs) ∧
      last.popLength.deviceId = gen.popLength.deviceId ++
        [(device.id, gen.popLength.deviceOffset)] ∧
      last.popLength.deviceOffset =
        gen.popLength.deviceOffset + (8 * device.props.length + 4) ∧
      (device.props = [] → last.popLength.nameSection = gen.popLength.nameSection) := by
  unfold generateArray at run
  dsimp only at run
  split at run
  · exact absurd run nofun
  · obtain ⟨filled, props, rfl⟩ := Option.map_eq_some_iff.mp run
    obtain ⟨⟨pairs, words, own⟩, ids, offset, names⟩ := generateProps_spec props
    have popped := popLength_append { filled with devSection := filled.devSection ++ [endMarker] }
      (8 * device.props.length + 4)
    dsimp only at popped
    rw [List.append_assoc] at popped
    change PropGen.popLength { filled with
      devSection := filled.devSection ++ [endMarker, 8 * device.props.length + 4] } = _ at popped
    rw [popped]
    dsimp only
    refine ⟨⟨pairs, ?_, own⟩, ids, ?_, names⟩
    · rw [words, List.append_assoc]
    · rw [offset]

/-- The devices one after the other. -/
theorem generateDevices_spec {devices : List Device} {gen last : PropGen}
    (run : gen.generateDevices devices = some last) :
    (∃ words, last.popLength.devSection = gen.popLength.devSection ++ words ∧
        Sections devices words) ∧
      last.popLength.deviceId =
        gen.popLength.deviceId ++ deviceOffsets gen.popLength.deviceOffset devices ∧
      (numFields devices = 0 → last.popLength.nameSection = gen.popLength.nameSection) := by
  induction devices generalizing gen with
  | nil =>
      cases run
      exact ⟨⟨[], (List.append_nil _).symm, rfl⟩, (List.append_nil _).symm, fun _ => rfl⟩
  | cons device devices ih =>
      unfold generateDevices at run
      obtain ⟨middle, first, rest⟩ := Option.bind_eq_some_iff.mp run
      obtain ⟨⟨pairs, words, own⟩, ids, offset, names⟩ := generateArray_spec first
      obtain ⟨⟨others, later, sections⟩, restIds, restNames⟩ := ih rest
      refine ⟨⟨pairs ++ endMarker :: others, ?_, pairs, others, rfl, own, sections⟩, ?_, ?_⟩
      · rw [later, words]
        simp
      · rw [restIds, ids, offset]
        simp [deviceOffsets]
      · intro empty
        have fields : numFields (device :: devices) =
            device.props.length + numFields devices := by simp [numFields]
        rw [restNames (by omega), names (List.eq_nil_of_length_eq_zero (by omega))]

/-! ## The table -/

/-- The first word of the section of the device behind `front`. -/
def sectionStart (devices front : List Device) (names : Nat) : Nat :=
  6 + 2 * devices.length + names + (2 * numFields front + front.length)

/-- Where the table has what the parser reads; `names` is the number of words with names. -/
structure Layout (devices : List Device) (table : List UInt32) (names : Nat) : Prop where
  length : table.length = sectionStart devices devices names
  fits : 4 * table.length < 2 ^ 32
  size : table[0]? = some (UInt32.ofNat (4 * table.length))
  id : ∀ (front : List Device) (device : Device) (back : List Device),
    devices = front ++ device :: back →
    table[6 + 2 * front.length]? = some (UInt32.ofNat device.id)
  offset : ∀ front device back, devices = front ++ device :: back →
    table[6 + 2 * front.length + 1]? =
      some (UInt32.ofNat (4 * sectionStart devices front names))
  value : ∀ (front : List Device) (device : Device) (back : List Device),
    devices = front ++ device :: back → ∀ k prop, device.props[k]? = some prop →
      table[sectionStart devices front names + 2 * k + 1]? = some (packWord prop.value)
  last : devices ≠ [] → table[table.length - 1]? = some 0xFF00FF00
  noNames : numFields devices = 0 → names = 0

theorem deviceOffsets_length (offset : Int) (devices : List Device) :
    (deviceOffsets offset devices).length = devices.length := by
  induction devices generalizing offset with
  | nil => rfl
  | cons device devices ih => simp [deviceOffsets, ih]

/-- The identifier and the offset of one device. -/
theorem deviceOffsets_get (offset : Int) (front back : List Device) (device : Device) :
    (deviceOffsets offset (front ++ device :: back))[front.length]? =
      some (device.id, offset + 4 * (2 * numFields front + front.length)) := by
  induction front generalizing offset with
  | nil => simp [deviceOffsets, numFields]
  | cons first front ih =>
      have fields : numFields (first :: front) = first.props.length + numFields front := by
        simp [numFields]
      rw [List.cons_append, deviceOffsets, List.length_cons, List.getElem?_cons_succ, ih, fields]
      congr 2
      omega

/-- The two words of an entry of a list of pairs. -/
theorem flatMap_pair {α β : Type} (first second : α → β) (entries : List α) {index : Nat}
    {entry : α} (member : entries[index]? = some entry) :
    (entries.flatMap fun entry => [first entry, second entry])[2 * index]? = some (first entry) ∧
      (entries.flatMap fun entry => [first entry, second entry])[2 * index + 1]? =
        some (second entry) := by
  induction entries generalizing index with
  | nil => exact absurd member nofun
  | cons head entries ih =>
      cases index with
      | zero =>
          cases member
          exact ⟨rfl, rfl⟩
      | succ index => exact ih member

theorem flatMap_pair_length {α β : Type} (first second : α → β) (entries : List α) :
    (entries.flatMap fun entry => [first entry, second entry]).length = 2 * entries.length := by
  induction entries with
  | nil => rfl
  | cons head entries ih =>
      rw [List.flatMap_cons, List.length_append, ih, List.length_cons]
      simp only [List.length_cons, List.length_nil]
      omega

theorem printWords_length (bytes : List UInt8) (aligned : bytes.length % 4 = 0) :
    4 * (printWords bytes).length = bytes.length := by
  induction bytes using printWords.induct with
  | case1 first second third fourth bytes ih =>
      rw [printWords]
      simp only [List.length_cons] at aligned ⊢
      have rest := ih (by omega)
      omega
  | case2 bytes short =>
      rw [printWords]
      · match bytes, short with
        | [], _ => rfl
        | [_], _ => exact absurd aligned nofun
        | [_, _], _ => exact absurd aligned nofun
        | [_, _, _], _ => exact absurd aligned nofun
        | first :: second :: third :: fourth :: rest, short =>
            exact absurd rfl (short first second third fourth rest)
      · exact short

theorem packData_spec {words : List Int} {packed : List UInt32}
    (pack : packData words = some packed) :
    packed = words.map packWord ∧ ∀ word ∈ words, 0 ≤ word ∧ word < 2 ^ 32 := by
  unfold packData at pack
  split at pack
  case isTrue fits =>
    cases pack
    exact ⟨rfl, fits⟩
  case isFalse => exact absurd pack nofun

/-- The name section is filled up to whole words. -/
theorem alignSectionAddr_length (gen : PropGen) :
    gen.alignSectionAddr.nameSection.length % 4 = 0 ∧
      (gen.nameSection = [] → gen.alignSectionAddr.nameSection = []) := by
  unfold alignSectionAddr
  dsimp only
  split
  case isTrue unaligned =>
    refine ⟨?_, ?_⟩
    · rw [List.length_append, List.length_replicate]
      omega
    · intro empty
      rw [empty] at unaligned
      exact absurd rfl unaligned
  case isFalse =>
    rw [List.append_nil]
    exact ⟨by omega, id⟩

/-- The words of the table, from the globals at the end. -/
theorem printConfig_layout {devices : List Device} {table : List UInt32} {gen : PropGen}
    (aligned : gen.nameSection.length % 4 = 0)
    (noNames : numFields devices = 0 → gen.nameSection = [])
    (ids : gen.deviceId = deviceOffsets 0 devices) (sections : Sections devices gen.devSection)
    (printed : printConfig gen = some table) :
    Layout devices table (gen.nameSection.length / 4) := by
  obtain ⟨devWords, devPack, rest⟩ := Option.bind_eq_some_iff.mp printed
  obtain ⟨segWords, segPack, whole⟩ := Option.map_eq_some_iff.mp rest
  obtain ⟨rfl, -⟩ := packData_spec devPack
  obtain ⟨rfl, segFits⟩ := packData_spec segPack
  subst whole
  have count : gen.deviceId.length = devices.length := by rw [ids, deviceOffsets_length]
  have names := printWords_length gen.nameSection aligned
  have sectionLength := sections_length sections
  have entries : (gen.deviceId.flatMap fun entry => [(entry.1 : Int), entry.2 +
      (24 + 4 * (2 * gen.deviceId.length) + gen.nameSection.length)]).length =
        2 * devices.length := by
    rw [flatMap_pair_length, count]
  have segLength : gen.segmentOffset.length = 6 + 2 * devices.length := by
    rw [segmentOffset, List.length_append, entries]
    rfl
  have length : (gen.segmentOffset.map packWord ++ printWords gen.nameSection ++
      gen.devSection.map packWord).length =
        sectionStart devices devices (gen.nameSection.length / 4) := by
    rw [List.length_append, List.length_append, List.length_map, List.length_map, segLength,
      sectionLength, sectionStart]
    omega
  have total : gen.segmentOffset[0]? =
      some ((4 * sectionStart devices devices (gen.nameSection.length / 4) : Nat) : Int) := by
    have sum : (24 + 4 * (2 * gen.deviceId.length) + gen.nameSection.length +
        4 * gen.devSection.length : Int) =
        (4 * sectionStart devices devices (gen.nameSection.length / 4) : Nat) := by
      rw [count, sectionLength, sectionStart]
      omega
    rw [← sum]
    rfl
  have inHeader : ∀ {index : Nat}, index < 6 + 2 * devices.length →
      (gen.segmentOffset.map packWord ++ printWords gen.nameSection ++
        gen.devSection.map packWord)[index]? = gen.segmentOffset[index]?.map packWord := by
    intro index below
    rw [List.append_assoc,
      List.getElem?_append_left (by rw [List.length_map, segLength]; exact below),
      List.getElem?_map]
  have inSection : ∀ index, (gen.segmentOffset.map packWord ++ printWords gen.nameSection ++
      gen.devSection.map packWord)[6 + 2 * devices.length + gen.nameSection.length / 4 + index]? =
        gen.devSection[index]?.map packWord := by
    intro index
    have header : (gen.segmentOffset.map packWord ++ printWords gen.nameSection).length =
        6 + 2 * devices.length + gen.nameSection.length / 4 := by
      rw [List.length_append, List.length_map, segLength]
      omega
    rw [List.getElem?_append_right (by omega), header, Nat.add_sub_cancel_left, List.getElem?_map]
  have entry : ∀ front device back, devices = front ++ device :: back →
      gen.segmentOffset[6 + 2 * front.length]? = some (device.id : Int) ∧
      gen.segmentOffset[6 + 2 * front.length + 1]? =
        some ((4 * sectionStart devices front (gen.nameSection.length / 4) : Nat) : Int) := by
    intro front device back split
    have place : gen.deviceId[front.length]? =
        some (device.id, (0 : Int) + 4 * (2 * numFields front + front.length)) := by
      rw [ids, split, deviceOffsets_get]
    obtain ⟨first, second⟩ := flatMap_pair (fun entry : Nat × Int => (entry.1 : Int))
      (fun entry => entry.2 + (24 + 4 * (2 * gen.deviceId.length) + gen.nameSection.length))
      gen.deviceId place
    have behind : ∀ index, gen.segmentOffset[6 + index]? =
        (gen.deviceId.flatMap fun entry => [(entry.1 : Int), entry.2 +
          (24 + 4 * (2 * gen.deviceId.length) + gen.nameSection.length)])[index]? := by
      intro index
      rw [segmentOffset, List.getElem?_append_right (by simp)]
      simp
    refine ⟨(behind _).trans first, (behind _).trans (second.trans ?_)⟩
    have sum : (0 + 4 * (2 * numFields front + front.length) +
        (24 + 4 * (2 * gen.deviceId.length) + gen.nameSection.length) : Int) =
        (4 * sectionStart devices front (gen.nameSection.length / 4) : Nat) := by
      rw [count, sectionStart]
      omega
    rw [← sum]
  refine ⟨length, ?_, ?_, ?_, ?_, ?_, ?_, ?_⟩
  · rw [length]
    have fits := (segFits _ (List.mem_of_getElem? total)).2
    omega
  · rw [length, inHeader (by omega), total]
    rfl
  · intro front device back split
    have before : front.length < devices.length := by simp [split]
    rw [inHeader (by omega), (entry front device back split).1]
    rfl
  · intro front device back split
    have before : front.length < devices.length := by simp [split]
    rw [inHeader (by omega), (entry front device back split).2]
    rfl
  · intro front device back split k prop member
    rw [split] at sections
    obtain ⟨before, behind, words, own, pairs, rest, tail, ownPairs, -⟩ := sections_append sections
    have place : sectionStart devices front (gen.nameSection.length / 4) + 2 * k + 1 =
        6 + 2 * devices.length + gen.nameSection.length / 4 + (before.length + (2 * k + 1)) := by
      rw [sections_length own, sectionStart]
      omega
    have value := pairs_value ownPairs member
    have inside := (List.getElem?_eq_some_iff.mp value).1
    rw [place, inSection, words, List.getElem?_append_right (by omega), Nat.add_sub_cancel_left,
      tail, List.getElem?_append_left inside, value]
    rfl
  · intro nonempty
    have place : sectionStart devices devices (gen.nameSection.length / 4) - 1 =
        6 + 2 * devices.length + gen.nameSection.length / 4 + (gen.devSection.length - 1) := by
      have some := List.length_pos_iff.mpr nonempty
      rw [sectionLength, sectionStart]
      omega
    rw [length, place, inSection, sections_last nonempty sections]
    rfl
  · intro none
    rw [noNames none]
    rfl

/-- The table of accepted devices. -/
theorem propgen_layout {devices : List Device} {table : List UInt32}
    (generated : propgen devices = some table) :
    ∃ names, Layout devices table names := by
  unfold propgen at generated
  obtain ⟨gen, run, rest⟩ := Option.bind_eq_some_iff.mp generated
  obtain ⟨⟨words, own, sections⟩, ids, noNames⟩ := generateDevices_spec run
  obtain ⟨aligned, empty⟩ := alignSectionAddr_length gen.popLength
  dsimp only at rest
  split at rest
  · refine ⟨_, printConfig_layout aligned (fun none => empty (noNames none)) ids ?_ rest⟩
    rw [show gen.popLength.alignSectionAddr.devSection = words from own]
    exact sections
  · exact absurd rest nofun

end QHal.Devcfg
