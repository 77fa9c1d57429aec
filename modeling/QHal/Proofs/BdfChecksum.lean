/-
Module: QHal.Proofs.BdfChecksum
Purpose: The checksum of a board data file after any earlier conversions of
  the same process.
Trusted boundary: none
Main exports: xorWords, Checksummed, Checked, afterRuns
-/
import QHal.Proofs.BdfFields

namespace QHal.Bdf

open Numerals

section Words

/-- The exclusive or of the words of a binary. -/
def xorWords : List UInt8 → Nat
  | [] => 0
  | [byte] => byte.toNat
  | low :: high :: rest => (low.toNat + 256 * high.toNat) ^^^ xorWords rest

theorem word_eq (low high : UInt8) :
    low.toNat ||| high.toNat * 256 = low.toNat + 256 * high.toNat := by
  have joined := Nat.two_pow_add_eq_or_of_lt low.toNat_lt high.toNat
  rw [Nat.or_comm, Nat.mul_comm, Nat.add_comm]
  exact joined.symm

theorem xorWords_append {first : List UInt8} (even : first.length % 2 = 0) (second : List UInt8) :
    xorWords (first ++ second) = xorWords first ^^^ xorWords second := by
  induction first using xorWords.induct with
  | case1 => exact (Nat.zero_xor _).symm
  | case2 byte => cases even
  | case3 low high rest ih =>
      have rest_even : rest.length % 2 = 0 := by
        rw [List.length_cons, List.length_cons] at even
        omega
      rw [List.cons_append, List.cons_append, xorWords, xorWords, ih rest_even, Nat.xor_assoc]

theorem xorWords_zeros (count : Nat) : xorWords (List.replicate count 0) = 0 := by
  induction count using Nat.twoStepInduction with
  | zero => rfl
  | one => rfl
  | more count ih _ =>
      rw [List.replicate_succ, List.replicate_succ, xorWords, ih]
      rfl

/-- Between two words the checksum takes the words of the next bytes. -/
theorem feed_even {globals : Globals} (aligned : globals.byteCount % 2 = 0) {bytes : List UInt8}
    (even : bytes.length % 2 = 0) :
    (feed globals bytes).byteCount % 2 = 0 ∧
      (feed globals bytes).checkSum = globals.checkSum ^^^ xorWords bytes := by
  induction bytes using xorWords.induct generalizing globals with
  | case1 => exact ⟨aligned, (Nat.xor_zero _).symm⟩
  | case2 byte => cases even
  | case3 low high rest ih =>
      have rest_even : rest.length % 2 = 0 := by
        rw [List.length_cons, List.length_cons] at even
        omega
      have first : feedByte globals low.toNat =
          { globals with byteCount := globals.byteCount + 1, wordVal := low.toNat } := by
        rw [feedByte]
        exact if_pos (by omega)
      have second : feedByte (feedByte globals low.toNat) high.toNat =
          { byteCount := globals.byteCount + 1 + 1
            wordVal := low.toNat + 256 * high.toNat
            checkSum := globals.checkSum ^^^ (low.toNat + 256 * high.toNat) } := by
        rw [first, ← word_eq, feedByte]
        exact if_neg (by dsimp only; omega)
      have realigned : (feedByte (feedByte globals low.toNat) high.toNat).byteCount % 2 = 0 := by
        rw [second]
        dsimp only
        omega
      have later := ih realigned rest_even
      have fed : feed globals (low :: high :: rest) =
          feed (feedByte (feedByte globals low.toNat) high.toNat) rest := rfl
      rw [fed, xorWords, ← Nat.xor_assoc]
      refine ⟨later.1, later.2.trans ?_⟩
      rw [second]

end Words

section Runs

/-- The globals after some conversions in a process. -/
def afterRuns (earlier : List (List Text)) : Globals :=
  earlier.foldl (fun globals txtLines => (txt2bin txtLines globals).1) freshGlobals

theorem convertField_sound {line : Text} {rest left : List Text} {state next : State}
    (sound : state.globals.Sound) (converted : convertField line rest state = some (next, left)) :
    next.globals.Sound := by
  rw [convertField] at converted
  simp only [Option.bind_eq_bind, Option.bind_eq_some_iff, Option.pure_def] at converted
  obtain ⟨num, -, type, -, name, -, size, -, converted⟩ := converted
  split_ifs at converted
  · obtain ⟨packed, -, converted⟩ := Option.bind_eq_some_iff.mp converted
    obtain ⟨bytes, -, result⟩ := Option.bind_eq_some_iff.mp converted
    obtain ⟨rfl, -⟩ := Prod.mk.inj (Option.some.inj result)
    dsimp only
    exact checksumCal_sound sound _ _ _ _
  · obtain ⟨bytes, -, result⟩ := Option.bind_eq_some_iff.mp converted
    obtain ⟨rfl, -⟩ := Prod.mk.inj (Option.some.inj result)
    dsimp only
    exact checksumCal_sound sound _ _ _ _

theorem convertLoop_sound {fuel : Nat} {lines : List Text} {state : State}
    (sound : state.globals.Sound) : (convertLoop fuel lines state).1.globals.Sound := by
  induction fuel generalizing lines state with
  | zero => cases lines <;> exact sound
  | succ fuel ih =>
      cases lines with
      | nil => exact sound
      | cons line rest =>
          rw [convertLoop]
          cases round : convertField line rest state with
          | none => exact sound
          | some result => exact ih (convertField_sound sound round)

/-- Any text leaves the globals sound, also one that ends in an exception. -/
theorem txt2bin_sound {globals : Globals} (sound : globals.Sound) (txtLines : List Text) :
    (txt2bin txtLines globals).1.Sound := by
  have start : ({ globals with checkSum := 0 } : Globals).Sound :=
    ⟨sound.half, (by decide : 0 < 65536)⟩
  have looped : (convertLoop (fieldLines txtLines).length (fieldLines txtLines)
      { file := [], seekVal := 0, globals := { globals with checkSum := 0 } }).1.globals.Sound :=
    convertLoop_sound start
  rw [txt2bin]
  split_ifs
  · exact sound
  · dsimp only
    split_ifs
    · have complement : 65535 ^^^ (convertLoop (fieldLines txtLines).length (fieldLines txtLines)
          { file := [], seekVal := 0, globals := { globals with checkSum := 0 } }
            ).1.globals.checkSum < 2 ^ 16 :=
        Nat.xor_lt_two_pow (by decide) looped.checkSum
      cases secondWalk (fieldLines txtLines) 0 with
      | none => exact ⟨looped.half, complement⟩
      | some found =>
          cases found with
          | none => exact ⟨looped.half, complement⟩
          | some position => exact ⟨looped.half, complement⟩
    · exact looped

theorem afterRuns_sound (earlier : List (List Text)) : (afterRuns earlier).Sound := by
  have runs : ∀ {globals : Globals}, globals.Sound →
      (earlier.foldl (fun globals txtLines => (txt2bin txtLines globals).1) globals).Sound := by
    induction earlier with
    | nil => exact id
    | cons txtLines earlier ih => exact fun sound => ih (txt2bin_sound sound txtLines)
  exact runs fresh_sound

end Runs

section Checked

/-- A template with one checksum field, on a word, and whole words in all. -/
structure Checksummed where
  txtLines : List Text
  before : List Entry
  field : Field
  isInt : field.kind = .int false .two
  after : List Entry
  lines : fieldLines txtLines =
    (before ++ .whole field false .two isInt :: after).flatMap Entry.lines
  named : field.named = true
  plain : ∀ other ∈ fieldsOf (before ++ after), other.named = false
  aligned : totalSize before % 2 = 0
  even : totalSize after % 2 = 0

/-- The same lines up to the values in them. -/
structure Checksummed.SameShape (template other : Checksummed) : Prop where
  before : template.before.map Entry.shape = other.before.map Entry.shape
  after : template.after.map Entry.shape = other.after.map Entry.shape
  name : template.field.name = other.field.name

/-- The binary has the bytes of its lines around the checksum, and its words
make up all ones. -/
def Checked (template : Checksummed) (globals : Globals) : Prop :=
  ∃ low high, (txt2bin template.txtLines globals).2 =
      some (template.before.flatMap Entry.bytes ++ [low, high] ++
        template.after.flatMap Entry.bytes) ∧
    xorWords (template.before.flatMap Entry.bytes ++ [low, high] ++
      template.after.flatMap Entry.bytes) = 0xFFFF

/-- The field of the checksum as an entry. -/
def Checksummed.checksum (template : Checksummed) : Entry :=
  .whole template.field false .two template.isInt

/-- The globals before the checksum is complemented. -/
def Checksummed.fed (template : Checksummed) (globals : Globals) : Globals :=
  (template.before ++ template.checksum :: template.after).foldl Entry.step
    { globals with checkSum := 0 }

/-- The place that the second walk counts. -/
def counted (entries : List Entry) : Nat :=
  ((fieldsOf entries).map fun field => field.kind.size).sum

theorem checksumAt_counted {fields : List Field} (plain : ∀ other ∈ fields, other.named = false)
    {field : Field} (named : field.named = true) (rest : List Field) (position : Nat) :
    checksumAt (fields ++ field :: rest) position =
      some (position + (fields.map fun field => field.kind.size).sum) := by
  induction fields generalizing position with
  | nil =>
      rw [List.nil_append, checksumAt, named]
      rfl
  | cons other fields ih =>
      have skipped := plain other List.mem_cons_self
      rw [List.cons_append, checksumAt, skipped, if_neg (by decide),
        ih fun other listed => plain other (List.mem_cons_of_mem _ listed), List.map_cons,
        List.sum_cons, Nat.add_assoc]

theorem fieldsOf_append (first second : List Entry) :
    fieldsOf (first ++ second) = fieldsOf first ++ fieldsOf second :=
  List.flatMap_append

theorem Checksummed.plain_before (template : Checksummed) :
    ∀ other ∈ fieldsOf template.before, other.named = false := fun other listed =>
  template.plain other (by
    rw [fieldsOf_append]
    exact List.mem_append_left _ listed)

theorem Checksummed.plain_after (template : Checksummed) :
    ∀ other ∈ fieldsOf template.after, other.named = false := fun other listed =>
  template.plain other (by
    rw [fieldsOf_append]
    exact List.mem_append_right _ listed)

/-- The bytes around the checksum, which is written where the second walk finds
it. -/
theorem txt2bin_checksummed (template : Checksummed) {globals : Globals}
    (sound : globals.Sound) :
    (txt2bin template.txtLines globals).2 = some (writeAt
      (template.before.flatMap Entry.bytes ++ template.checksum.bytes ++
        template.after.flatMap Entry.bytes) (counted template.before)
      (Bytes.ofNat 2 (65535 ^^^ (template.fed globals).checkSum))) := by
  have notEmpty : template.txtLines ≠ [] := by
    intro empty
    have lines := template.lines
    rw [empty, List.flatMap_append, List.flatMap_cons] at lines
    have size := congrArg List.length lines
    rw [List.length_append, List.length_append] at size
    have one : (Entry.whole template.field false .two template.isInt).lines.length = 1 := rfl
    have none : (fieldLines []).length = 0 := rfl
    omega
  have start : ({ globals with checkSum := 0 } : Globals).Sound :=
    ⟨sound.half, (by decide : 0 < 65536)⟩
  have place : checksumAt
      (fieldsOf (template.before ++ template.checksum :: template.after)) 0 =
        some (counted template.before) := by
    have found := checksumAt_counted template.plain_before template.named
      (fieldsOf template.after) 0
    rw [Nat.zero_add] at found
    rw [fieldsOf_append, counted, ← found]
    rfl
  have converted := txt2bin_entries notEmpty template.lines globals
  have packed := pack_checkSum
    (foldl_step_sound start (template.before ++ template.checksum :: template.after))
  rw [← Checksummed.checksum] at converted
  rw [converted, place]
  dsimp only
  rw [packed, List.flatMap_append, List.flatMap_cons, ← List.append_assoc]
  rfl

theorem writeAt_middle (first old second : List UInt8) {bytes : List UInt8}
    (same : old.length = bytes.length) :
    writeAt (first ++ old ++ second) first.length bytes = first ++ bytes ++ second := by
  have noGap : first.length - (first ++ old ++ second).length = 0 := by
    rw [List.length_append, List.length_append]
    omega
  have behind : first.length + bytes.length = (first ++ old).length := by
    rw [List.length_append, same]
  rw [writeAt, noGap, List.replicate_zero, List.append_nil, behind, List.drop_left,
    List.append_assoc first old second, List.take_left]

theorem foldl_step_plain {entries : List Entry}
    (plain : ∀ other ∈ fieldsOf entries, other.named = false) (globals : Globals) :
    entries.foldl Entry.step globals = feed globals (entries.flatMap Entry.bytes) := by
  induction entries generalizing globals with
  | nil => rfl
  | cons entry entries ih =>
      have step : entry.step globals = feed globals entry.bytes := by
        cases entry with
        | whole field signed size isInt =>
            have skipped : field.named = false := plain field (List.mem_append_left _
              (List.mem_singleton_self field))
            rw [Entry.step, skipped]
            exact if_neg (by decide)
        | bits fields group => rfl
      rw [List.foldl_cons, step, List.flatMap_cons, feed_append]
      exact ih (fun other listed => plain other (List.mem_append_right _ listed)) _

/-- The checksum field is left out, whatever it holds. -/
theorem Checksummed.fed_eq (template : Checksummed) (globals : Globals) :
    template.fed globals =
      feed (skip (feed { globals with checkSum := 0 } (template.before.flatMap Entry.bytes)))
        (template.after.flatMap Entry.bytes) := by
  have step : ∀ globals, template.checksum.step globals = skip globals := by
    intro globals
    exact if_pos template.named
  rw [Checksummed.fed, List.foldl_append, List.foldl_cons, step,
    foldl_step_plain template.plain_before, foldl_step_plain template.plain_after]

/-- The words of the data. -/
def Checksummed.dataWords (template : Checksummed) : Nat :=
  xorWords (template.before.flatMap Entry.bytes) ^^^ xorWords (template.after.flatMap Entry.bytes)

theorem Checksummed.fed_sound (template : Checksummed) {globals : Globals}
    (sound : globals.Sound) : (template.fed globals).Sound := by
  have start : ({ globals with checkSum := 0 } : Globals).Sound :=
    ⟨sound.half, (by decide : 0 < 65536)⟩
  exact foldl_step_sound start _

/-- Counting on an even byte gathers the words of the data. -/
theorem fed_aligned (template : Checksummed) {globals : Globals} (sound : globals.Sound)
    (aligned : globals.byteCount % 2 = 0) :
    (template.fed globals).checkSum = template.dataWords := by
  have start : ({ globals with checkSum := 0 } : Globals).Sound :=
    ⟨sound.half, (by decide : 0 < 65536)⟩
  have begins : ({ globals with checkSum := 0 } : Globals).byteCount % 2 = 0 := aligned
  have first := feed_even begins
    ((congrArg (· % 2) (length_flatMap_bytes template.before)).trans template.aligned)
  have skipped := skip_checkSum (feed_sound start (template.before.flatMap Entry.bytes))
  have realigned : (skip (feed { globals with checkSum := 0 }
      (template.before.flatMap Entry.bytes))).byteCount % 2 = 0 := by
    rw [skip, Nat.add_mod_right]
    exact first.1
  have second := feed_even realigned
    ((congrArg (· % 2) (length_flatMap_bytes template.after)).trans template.even)
  rw [template.fed_eq, second.2, skipped, first.2, Nat.zero_xor]
  rfl

theorem xor_complement (first second sum : Nat) :
    first ^^^ ((65535 ^^^ sum) ^^^ second) = 65535 ↔ sum = first ^^^ second := by
  have swap : first ^^^ ((65535 ^^^ sum) ^^^ second) = 65535 ^^^ (sum ^^^ (first ^^^ second)) := by
    apply Nat.eq_of_testBit_eq
    intro i
    simp only [Nat.testBit_xor]
    cases first.testBit i <;> cases (65535 : Nat).testBit i <;> cases sum.testBit i <;>
      cases second.testBit i <;> rfl
  rw [swap]
  constructor
  · intro ones
    have cancelled := congrArg (65535 ^^^ ·) ones
    simp only [Nat.xor_self, ← Nat.xor_assoc, Nat.zero_xor] at cancelled
    have inverse := congrArg (· ^^^ (first ^^^ second)) cancelled
    simpa only [Nat.xor_assoc, Nat.xor_self, Nat.xor_zero, Nat.zero_xor] using inverse
  · intro same
    rw [same, Nat.xor_self, Nat.xor_zero]

/-- Where the second walk counts right, the binary is right exactly if the
words of the data were gathered. -/
theorem checked_iff_gathered (template : Checksummed) {globals : Globals}
    (sound : globals.Sound) (right : counted template.before = totalSize template.before) :
    Checked template globals ↔ (template.fed globals).checkSum = template.dataWords := by
  obtain ⟨sum, isSum⟩ : ∃ sum, sum = (template.fed globals).checkSum := ⟨_, rfl⟩
  have small : 65535 ^^^ sum < 256 ^ 2 := by
    have below := (template.fed_sound sound).checkSum
    rw [← isSum] at below
    exact Nat.xor_lt_two_pow (n := 16) (by decide) below
  have converted := txt2bin_checksummed template sound
  have size : template.checksum.bytes.length = (Bytes.ofNat 2 (65535 ^^^ sum)).length := by
    rw [Bytes.length_ofNat]
    exact Bytes.length_ofNat _ _
  rw [right, ← length_flatMap_bytes, ← isSum, writeAt_middle _ _ _ size] at converted
  have word : ∀ low high : UInt8, [low, high] = Bytes.ofNat 2 (65535 ^^^ sum) →
      low.toNat + 256 * high.toNat = 65535 ^^^ sum := by
    intro low high same
    have value := Bytes.toNat_ofNat_of_lt small
    rw [← same, Bytes.toNat, Bytes.toNat, Bytes.toNat] at value
    omega
  have words : ∀ low high : UInt8, [low, high] = Bytes.ofNat 2 (65535 ^^^ sum) →
      xorWords (template.before.flatMap Entry.bytes ++ [low, high] ++
        template.after.flatMap Entry.bytes) =
          xorWords (template.before.flatMap Entry.bytes) ^^^
            ((65535 ^^^ sum) ^^^ xorWords (template.after.flatMap Entry.bytes)) := by
    intro low high same
    have even : (template.before.flatMap Entry.bytes).length % 2 = 0 := by
      rw [length_flatMap_bytes, template.aligned]
    rw [List.append_assoc, xorWords_append even, List.cons_append, List.cons_append,
      List.nil_append, xorWords, word low high same]
  rw [← isSum, Checksummed.dataWords, ← xor_complement]
  constructor
  · rintro ⟨low, high, binary, ones⟩
    rw [converted] at binary
    have same := List.append_inj (List.append_cancel_right (Option.some.inj binary)) rfl
    rw [← words low high same.2.symm]
    exact ones
  · intro ones
    exact ⟨_, _, converted, (words _ _ rfl).trans ones⟩

end Checked

section Refilled

theorem length_of_shape {entry other : Entry} (same : entry.shape = other.shape) :
    entry.fields.length = other.fields.length := by
  have lengths := congrArg List.length same
  rwa [Entry.shape, Entry.shape, List.length_map, List.length_map] at lengths

theorem totalSize_of_shape {entries others : List Entry}
    (same : entries.map Entry.shape = others.map Entry.shape) :
    totalSize entries = totalSize others := by
  induction entries generalizing others with
  | nil => rw [List.map_eq_nil_iff.mp same.symm]
  | cons entry entries ih =>
      cases others with
      | nil => cases same
      | cons other others =>
          rw [List.map_cons, List.map_cons, List.cons.injEq] at same
          rw [totalSize, totalSize, List.map_cons, List.map_cons, List.sum_cons, List.sum_cons,
            size_of_shape same.1, ← totalSize, ← totalSize, ih same.2]

theorem plain_of_shape {entries others : List Entry}
    (same : entries.map Entry.shape = others.map Entry.shape)
    (plain : ∀ field ∈ fieldsOf entries, field.named = false) :
    ∀ field ∈ fieldsOf others, field.named = false := by
  intro field listed
  obtain ⟨other, inside, ofOther⟩ := List.mem_flatMap.mp listed
  have shape : other.shape ∈ entries.map Entry.shape := same ▸ List.mem_map_of_mem inside
  obtain ⟨entry, inEntries, equal⟩ := List.mem_map.mp shape
  have form : (field.kind, field.name) ∈ entry.shape := equal ▸ List.mem_map_of_mem ofOther
  obtain ⟨twin, ofEntry, forms⟩ := List.mem_map.mp form
  have notNamed := plain twin (List.mem_flatMap.mpr ⟨entry, inEntries, ofEntry⟩)
  rwa [Field.named, (Prod.mk.inj forms).2] at notNamed

/-- A template with other values around the checksum. -/
def Checksummed.refill (template : Checksummed) (before after : List Entry)
    (sameBefore : template.before.map Entry.shape = before.map Entry.shape)
    (sameAfter : template.after.map Entry.shape = after.map Entry.shape) : Checksummed where
  txtLines :=
    (Template.ofEntries
      (before ++ .whole template.field false .two template.isInt :: after)).txtLines
  before := before
  field := template.field
  isInt := template.isInt
  after := after
  lines :=
    (Template.ofEntries (before ++ .whole template.field false .two template.isInt :: after)).lines
  named := template.named
  plain := by
    have same : (template.before ++ template.after).map Entry.shape =
        (before ++ after).map Entry.shape := by
      rw [List.map_append, List.map_append, sameBefore, sameAfter]
    exact plain_of_shape same template.plain
  aligned := totalSize_of_shape sameBefore ▸ template.aligned
  even := totalSize_of_shape sameAfter ▸ template.even

theorem counted_cons (entry : Entry) (entries : List Entry) :
    counted (entry :: entries) = entry.fields.length * entry.size + counted entries := by
  have sizes : entry.fields.map (fun field => field.kind.size) =
      List.replicate entry.fields.length entry.size := by
    rw [List.eq_replicate_iff]
    refine ⟨List.length_map _, fun size listed => ?_⟩
    obtain ⟨field, inside, rfl⟩ := List.mem_map.mp listed
    exact Entry.size_of_mem inside
  rw [counted, fieldsOf, List.flatMap_cons, List.map_append, List.sum_append, sizes,
    List.sum_replicate_nat]
  rfl

theorem totalSize_cons (entry : Entry) (entries : List Entry) :
    totalSize (entry :: entries) = entry.size + totalSize entries := rfl

theorem Entry.fields_pos (entry : Entry) : 0 < entry.fields.length := by
  cases entry with
  | whole field signed size isInt => exact Nat.one_pos
  | bits fields group => exact List.length_pos_of_ne_nil group.ne_nil

theorem totalSize_le_counted (entries : List Entry) : totalSize entries ≤ counted entries := by
  induction entries with
  | nil => exact Nat.le_refl _
  | cons entry entries ih =>
      have more := Nat.le_mul_of_pos_left entry.size entry.fields_pos
      rw [totalSize_cons, counted_cons]
      omega

/-- The second walk counts right exactly if every byte has one line. -/
theorem counted_eq_iff (entries : List Entry) :
    counted entries = totalSize entries ↔ ∀ entry ∈ entries, entry.fields.length = 1 := by
  induction entries with
  | nil => exact ⟨fun _ _ listed => absurd listed List.not_mem_nil, fun _ => rfl⟩
  | cons entry entries ih =>
      have more := Nat.le_mul_of_pos_left entry.size entry.fields_pos
      have rest := totalSize_le_counted entries
      rw [totalSize_cons, counted_cons, List.forall_mem_cons, ← ih]
      constructor
      · intro same
        have exact_ : entry.fields.length * entry.size = 1 * entry.size := by omega
        exact ⟨Nat.eq_of_mul_eq_mul_right entry.size_pos exact_, by omega⟩
      · rintro ⟨single, same⟩
        rw [single, Nat.one_mul, same]

theorem single_of_shape {entries others : List Entry}
    (same : entries.map Entry.shape = others.map Entry.shape)
    (single : ∀ entry ∈ entries, entry.fields.length = 1) :
    ∀ entry ∈ others, entry.fields.length = 1 := by
  intro other listed
  have shape : other.shape ∈ entries.map Entry.shape := same ▸ List.mem_map_of_mem listed
  obtain ⟨entry, inside, equal⟩ := List.mem_map.mp shape
  rw [← length_of_shape equal, single entry inside]

theorem shape_zeros (entries : List Entry) :
    entries.map Entry.shape = (entries.map Entry.zero).map Entry.shape := by
  rw [List.map_map]
  exact List.map_congr_left fun entry _ => entry.shape_zero.symm

theorem flatMap_zeros (entries : List Entry) :
    (entries.map Entry.zero).flatMap Entry.bytes = List.replicate (totalSize entries) 0 := by
  induction entries with
  | nil => rfl
  | cons entry entries ih =>
      rw [List.map_cons, List.flatMap_cons, bytes_zero, ih, totalSize_cons, List.replicate_add]

/-- All data zero. -/
def Checksummed.zeros (template : Checksummed) : Checksummed :=
  template.refill (template.before.map Entry.zero) (template.after.map Entry.zero)
    (shape_zeros template.before) (shape_zeros template.after)

/-- Globals that zeros bring no high byte into. -/
structure Globals.Low (globals : Globals) : Prop where
  half : globals.byteCount % 2 = 1 → globals.wordVal < 256
  checkSum : globals.checkSum < 256

theorem skip_low {globals : Globals} (low : globals.Low) : (skip globals).Low := by
  refine ⟨fun odd => low.half ?_, Nat.lt_of_le_of_lt Nat.and_le_left low.checkSum⟩
  rwa [skip, Nat.add_mod_right] at odd

theorem feed_low {globals : Globals} (low : globals.Low) (count : Nat) :
    (feed globals (List.replicate count 0)).Low := by
  induction count generalizing globals with
  | zero => exact low
  | succ count ih =>
      have next : (feedByte globals 0).Low := by
        rw [feedByte]
        dsimp only
        split_ifs with odd
        · exact ⟨fun _ => (by decide : 0 < 256), low.checkSum⟩
        · have word : globals.wordVal < 2 ^ 8 := low.half (by omega)
          rw [Nat.zero_mul, Nat.or_zero]
          exact ⟨fun _ => word, Nat.xor_lt_two_pow low.checkSum word⟩
      exact ih next

theorem fed_zeros_low (template : Checksummed) {globals : Globals} (sound : globals.Sound) :
    (template.zeros.fed globals).Low := by
  have start : ({ globals with checkSum := 0 } : Globals).Low :=
    ⟨sound.half, (by decide : 0 < 256)⟩
  have before : template.zeros.before.flatMap Entry.bytes =
      List.replicate (totalSize template.before) 0 := flatMap_zeros template.before
  have after : template.zeros.after.flatMap Entry.bytes =
      List.replicate (totalSize template.after) 0 := flatMap_zeros template.after
  rw [template.zeros.fed_eq, before, after]
  exact feed_low (skip_low (feed_low start _)) _

/-- A checksum behind its place leaves a byte of ones among zeros. -/
theorem not_checked_zeros (template : Checksummed) {globals : Globals} (sound : globals.Sound)
    (wrong : totalSize template.before < counted template.before) :
    ¬ Checked template.zeros globals := by
  rintro ⟨low, high, binary, -⟩
  obtain ⟨sum, isSum⟩ : ∃ sum, sum = (template.zeros.fed globals).checkSum := ⟨_, rfl⟩
  have small : sum < 256 := isSum ▸ (fed_zeros_low template sound).checkSum
  have converted := txt2bin_checksummed template.zeros sound
  have before : template.zeros.before.flatMap Entry.bytes =
      List.replicate (totalSize template.before) 0 := flatMap_zeros template.before
  have after : template.zeros.after.flatMap Entry.bytes =
      List.replicate (totalSize template.after) 0 := flatMap_zeros template.after
  have place : counted template.zeros.before = counted template.before := by
    have sizes : ∀ entries : List Entry, counted (entries.map Entry.zero) = counted entries := by
      intro entries
      rw [counted, fieldsOf_zero, List.map_map]
      rfl
    exact sizes template.before
  have ones : UInt8.ofNat ((65535 ^^^ sum) / 256) = 255 := by
    have all : ∀ sum < 256, UInt8.ofNat ((65535 ^^^ sum) / 256) = 255 := by decide +kernel
    exact all sum small
  rw [binary, place, ← isSum, before, after] at converted
  have at_ := congrArg (fun binary : List UInt8 => binary[counted template.before + 1]?)
    (Option.some.inj converted)
  have two : (Bytes.ofNat 2 (65535 ^^^ sum)).length = 2 := Bytes.length_ofNat _ _
  have index : counted template.before + 1 - counted template.before = 1 := by omega
  rw [getElem?_writeAt, if_neg (by omega), two, if_pos (by omega), index] at at_
  have last : (Bytes.ofNat 2 (65535 ^^^ sum))[1]? = some 255 := congrArg some ones
  have behind : (List.replicate (totalSize template.before) (0 : UInt8) ++ [low, high]).length ≤
      counted template.before + 1 := by
    rw [List.length_append, List.length_replicate, List.length_cons, List.length_cons,
      List.length_nil]
    omega
  rw [last, List.getElem?_append_right behind, List.getElem?_replicate] at at_
  split_ifs at at_
  cases at_

/-- A field with the value one, where it can hold it. -/
def Field.one (field : Field) : Field :=
  if inRange : field.kind.InRange 1 then field.refill 1 inRange else field.zero

theorem Field.form_one (field : Field) :
    field.one.kind = field.kind ∧ field.one.name = field.name := by
  rw [Field.one]
  split_ifs <;> exact ⟨rfl, rfl⟩

/-- One in the first field. -/
def sparkFields : List Field → List Field
  | [] => []
  | field :: fields => field.one :: fields.map Field.zero

theorem forms_spark (fields : List Field) :
    (sparkFields fields).map (fun field => (field.kind, field.name)) =
      fields.map fun field => (field.kind, field.name) := by
  cases fields with
  | nil => rfl
  | cons field fields =>
      obtain ⟨kind, name⟩ := field.form_one
      rw [sparkFields, List.map_cons, List.map_cons, kind, name, List.map_map]
      rfl

theorem kinds_spark (fields : List Field) :
    (sparkFields fields).map Field.kind = fields.map Field.kind := by
  have kinds := congrArg (List.map Prod.fst) (forms_spark fields)
  rwa [List.map_map, List.map_map] at kinds

def Entry.spark : Entry → Entry
  | .whole field signed size isInt => .whole field.one signed size (field.form_one.1.trans isInt)
  | .bits fields group => .bits (sparkFields fields) (group.refill (kinds_spark fields))

theorem Entry.shape_spark (entry : Entry) : entry.spark.shape = entry.shape := by
  cases entry with
  | whole field signed size isInt => exact forms_spark [field]
  | bits fields group => exact forms_spark fields

theorem Field.one_value {field : Field} (inRange : field.kind.InRange 1) : field.one.value = 1 := by
  rw [Field.one, dif_pos inRange]
  rfl

theorem bytes_spark (entry : Entry) :
    ∃ first : UInt8, 0 < first.toNat ∧
      entry.spark.bytes = first :: List.replicate (entry.size - 1) 0 := by
  cases entry with
  | whole field signed size isInt =>
      have inRange : field.kind.InRange 1 := by
        rw [isInt]
        cases signed <;> cases size <;> decide
      have stored : (Entry.whole field signed size isInt).spark.bytes =
          Bytes.ofNat size.bytes (field.one.value % 256 ^ size.bytes).toNat := rfl
      refine ⟨1, by decide, ?_⟩
      rw [stored, Field.one_value inRange]
      cases size <;> rfl
  | bits fields group =>
      obtain ⟨field, fields, rfl⟩ := List.exists_cons_of_ne_nil group.ne_nil
      obtain ⟨offset, width, kind, positive, small⟩ := group.bits field List.mem_cons_self
      have inRange : field.kind.InRange 1 := by
        rw [kind]
        exact ⟨by decide, by
          have room := Nat.one_lt_two_pow (Nat.ne_of_gt positive)
          exact_mod_cast room⟩
      have placed : field.one.placedBits = 2 ^ offset := by
        rw [Field.placedBits, field.form_one.1, kind, Field.one_value inRange]
        exact Nat.one_mul _
      have byte : packed 0 (sparkFields (field :: fields)) = 2 ^ offset := by
        have first : packed 0 (sparkFields (field :: fields)) =
            packed (0 ||| field.one.placedBits) (fields.map Field.zero) := rfl
        rw [first, packed_zero, placed, Nat.zero_or]
      have stored : (Entry.bits (field :: fields) group).spark.bytes =
          [UInt8.ofNat (packed 0 (sparkFields (field :: fields)))] := rfl
      refine ⟨UInt8.ofNat (2 ^ offset), ?_, by rw [stored, byte]; rfl⟩
      have all : ∀ offset < 8, 0 < (UInt8.ofNat (2 ^ offset)).toNat := by decide
      exact all offset (by omega)

/-- One in the first field of the first entry, all others zero. -/
def spark : List Entry → List Entry
  | [] => []
  | entry :: entries => entry.spark :: entries.map Entry.zero

theorem shape_spark (entries : List Entry) :
    entries.map Entry.shape = (spark entries).map Entry.shape := by
  cases entries with
  | nil => rfl
  | cons entry entries =>
      rw [spark, List.map_cons, List.map_cons, entry.shape_spark, ← shape_zeros]

theorem flatMap_spark {entries : List Entry} (some_ : entries ≠ []) :
    ∃ (first : UInt8) (count : Nat), 0 < first.toNat ∧
      (spark entries).flatMap Entry.bytes = first :: List.replicate count 0 := by
  obtain ⟨entry, entries, rfl⟩ := List.exists_cons_of_ne_nil some_
  obtain ⟨first, positive, bytes⟩ := bytes_spark entry
  refine ⟨first, entry.size - 1 + totalSize entries, positive, ?_⟩
  rw [spark, List.flatMap_cons, bytes, flatMap_zeros, List.cons_append, List.replicate_add]

theorem xorWords_spark (first : UInt8) (count : Nat) :
    xorWords (first :: List.replicate count 0) = first.toNat := by
  cases count with
  | zero => rfl
  | succ count =>
      rw [List.replicate_succ, xorWords, xorWords_zeros, Nat.xor_zero]
      rfl

/-- On an odd byte the first one is taken as the high byte of the word begun
before. -/
theorem feed_spark {globals : Globals} (odd : globals.byteCount % 2 = 1)
    (fresh : globals.checkSum = 0) (first : UInt8) (count : Nat) :
    (feed globals (first :: List.replicate count 0)).Quiet ∧
      (feed globals (first :: List.replicate count 0)).checkSum =
        globals.wordVal ||| first.toNat * 256 := by
  have step : feedByte globals first.toNat =
      { byteCount := globals.byteCount + 1
        wordVal := globals.wordVal ||| first.toNat * 256
        checkSum := globals.checkSum ^^^ (globals.wordVal ||| first.toNat * 256) } := by
    rw [feedByte]
    exact if_neg (by omega)
  have quiet : (feedByte globals first.toNat).Quiet := by
    rw [step]
    exact .inl (by dsimp only; omega)
  obtain ⟨still, sum⟩ := feed_zeros quiet count
  refine ⟨still, sum.trans ?_⟩
  rw [step, fresh, Nat.zero_xor]

end Refilled

section Exact

/-- An odd start mixes the words up. -/
theorem exists_not_checked (template : Checksummed) {globals : Globals} (sound : globals.Sound)
    (odd : globals.byteCount % 2 = 1) (data : ¬ (template.before = [] ∧ template.after = []))
    (single : ∀ entry ∈ template.before, entry.fields.length = 1) :
    ∃ other, template.SameShape other ∧ ¬ Checked other globals := by
  have start : ({ globals with checkSum := 0 } : Globals).Sound :=
    ⟨sound.half, (by decide : 0 < 65536)⟩
  have begins : ({ globals with checkSum := 0 } : Globals).byteCount % 2 = 1 := odd
  -- The word that the first byte completes is never that byte alone.
  have mixed : ∀ first : UInt8, 0 < first.toNat →
      globals.wordVal ||| first.toNat * 256 ≠ first.toNat := by
    intro first positive same
    have high : first.toNat * 256 ≤ globals.wordVal ||| first.toNat * 256 := Nat.right_le_or
    omega
  by_cases empty : template.before = []
  · have some_ : template.after ≠ [] := fun none => data ⟨empty, none⟩
    obtain ⟨first, count, positive, bytes⟩ := flatMap_spark some_
    let other := template.refill template.before (spark template.after) rfl
      (shape_spark template.after)
    refine ⟨other, ⟨rfl, shape_spark template.after, rfl⟩, ?_⟩
    have right : counted other.before = totalSize other.before :=
      (counted_eq_iff template.before).mpr single
    have before : other.before.flatMap Entry.bytes = [] := by
      have same : other.before = template.before := rfl
      rw [same, empty]
      rfl
    have after : other.after.flatMap Entry.bytes = first :: List.replicate count 0 := bytes
    have kept : (skip { globals with checkSum := 0 }).byteCount % 2 = 1 := by
      rw [skip, Nat.add_mod_right]
      exact odd
    have fed := (feed_spark kept (skip_checkSum start) first count).2
    rw [checked_iff_gathered other sound right, other.fed_eq, Checksummed.dataWords, before, after,
      xorWords_spark, xorWords, Nat.zero_xor]
    exact fun same => mixed first positive (fed.symm.trans same)
  · obtain ⟨first, count, positive, bytes⟩ := flatMap_spark empty
    let other := template.refill (spark template.before) (template.after.map Entry.zero)
      (shape_spark template.before) (shape_zeros template.after)
    refine ⟨other, ⟨shape_spark template.before, shape_zeros template.after, rfl⟩, ?_⟩
    have right : counted other.before = totalSize other.before :=
      (counted_eq_iff _).mpr (single_of_shape (shape_spark template.before) single)
    have before : other.before.flatMap Entry.bytes = first :: List.replicate count 0 := bytes
    have after : other.after.flatMap Entry.bytes =
        List.replicate (totalSize template.after) 0 := flatMap_zeros template.after
    obtain ⟨quiet, sum⟩ := feed_spark begins rfl first count
    have skipped := skip_checkSum (feed_sound start (first :: List.replicate count 0))
    obtain ⟨-, fed⟩ := feed_zeros (skip_quiet quiet) (totalSize template.after)
    rw [checked_iff_gathered other sound right, other.fed_eq, Checksummed.dataWords, before, after,
      xorWords_spark, xorWords_zeros, Nat.xor_zero]
    exact fun same => mixed first positive
      (sum.symm.trans (skipped.symm.trans (fed.symm.trans same)))

/-- All assignments get a right checksum after some conversions exactly if these
left an even count of bytes, or there is no data, and every byte before the
checksum has a line of its own. -/
theorem txt2bin_checksum_iff (earlier : List (List Text)) (template : Checksummed) :
    (∀ other, template.SameShape other → Checked other (afterRuns earlier)) ↔
      ((afterRuns earlier).byteCount % 2 = 0 ∨ template.before = [] ∧ template.after = []) ∧
        ∀ entry ∈ template.before, entry.fields.length = 1 := by
  have sound := afterRuns_sound earlier
  constructor
  · intro all
    have single : ∀ entry ∈ template.before, entry.fields.length = 1 := by
      rw [← counted_eq_iff]
      by_contra wrong
      have more := totalSize_le_counted template.before
      exact not_checked_zeros template sound (by omega)
        (all _ ⟨shape_zeros template.before, shape_zeros template.after, rfl⟩)
    refine ⟨?_, single⟩
    by_contra neither
    rw [not_or] at neither
    obtain ⟨other, same, failed⟩ :=
      exists_not_checked template sound (by omega) neither.2 single
    exact failed (all other same)
  · rintro ⟨start, single⟩ other same
    have right := (counted_eq_iff _).mpr (single_of_shape same.before single)
    rw [checked_iff_gathered other sound right]
    rcases start with even | ⟨before, after⟩
    · exact fed_aligned other sound even
    · have noBefore : other.before = [] := by
        have shapes := same.before
        rw [before] at shapes
        exact List.map_eq_nil_iff.mp shapes.symm
      have noAfter : other.after = [] := by
        have shapes := same.after
        rw [after] at shapes
        exact List.map_eq_nil_iff.mp shapes.symm
      rw [other.fed_eq, Checksummed.dataWords, noBefore, noAfter]
      exact Nat.zero_and _

/-- Two bytes and a checksum. -/
def pairTemplate : Checksummed where
  txtLines := ["uint8\tfirst\t 1".toList, "uint8\tsecond\t 0".toList, "uint16\tchecksum\t 0".toList]
  before := [
    .whole {
      kind := .int false .one
      name := "first".toList
      value := 1
      line := "uint8\tfirst\t 1".toList
      isLine := ⟨" 1".toList, by decide, by decide⟩
      inRange := by decide } false .one rfl,
    .whole {
      kind := .int false .one
      name := "second".toList
      value := 0
      line := "uint8\tsecond\t 0".toList
      isLine := ⟨" 0".toList, by decide, by decide⟩
      inRange := by decide } false .one rfl]
  field := {
    kind := .int false .two
    name := "checksum".toList
    value := 0
    line := "uint16\tchecksum\t 0".toList
    isLine := ⟨" 0".toList, by decide, by decide⟩
    inRange := by decide }
  isInt := rfl
  after := []
  lines := by decide
  named := by decide
  plain := by
    intro other listed
    simp only [fieldsOf, List.append_nil, List.flatMap_cons, List.flatMap_nil, Entry.fields,
      List.cons_append, List.nil_append, List.mem_cons, List.not_mem_nil, or_false] at listed
    rcases listed with rfl | rfl <;> decide
  aligned := rfl
  even := rfl

/-- The conversion of a single byte before spoils the checksum. -/
theorem txt2bin_checksum_mixes :
    (txt2bin pairTemplate.txtLines (afterRuns [])).2 = some [1, 0, 0xFE, 0xFF] ∧
      (txt2bin pairTemplate.txtLines (afterRuns [["uint8\tflag\t 1".toList]])).2 =
        some [1, 0, 0xFE, 0xFE] ∧
      ¬ ∀ earlier template, Checked template (afterRuns earlier) := by
  have mixed : (txt2bin pairTemplate.txtLines (afterRuns [["uint8\tflag\t 1".toList]])).2 =
      some [1, 0, 0xFE, 0xFE] := by decide +kernel
  refine ⟨by decide +kernel, mixed, fun all => ?_⟩
  obtain ⟨low, high, binary, ones⟩ := all [["uint8\tflag\t 1".toList]] pairTemplate
  rw [mixed] at binary
  rw [← Option.some.inj binary] at ones
  revert ones
  decide

end Exact

end QHal.Bdf
