/-
Module: QHal.Proofs.FrnFwdTable
Purpose: What the way of a firmware descriptor table through XML keeps: every
  field but the reserved bytes.
Trusted boundary: none
Main exports: FdtS.cleared, xmlToBin_binToXml, xmlToBin_binToXml_iff
-/
import QHal.Qfdt.FrnFwdTable

namespace QHal.Qfdt.Frn

open Numerals Boot

section Binary

/-- The object of an entry in memory. -/
def entryOf (fde : FdtEntry) : FirmwareDescriptorEntry where
  filename := []
  id := fde.id.toNat
  rank := fde.rank.toNat
  format := fde.format.toNat
  address := fde.addr.toNat
  state := fde.state.toNat
  version := fde.version.toNat
  reserved := fde.reserve

/-- The object of a table in memory. -/
def tableOf (fdt : FdtS) : FirmwareDescriptorTable where
  signature := fdt.signature.toNat
  numFde := fdt.fde.length
  reserved := fdt.reserve
  entries := fdt.fde.map entryOf

@[simp]
theorem length_fdeBytes (fde : FdtEntry) : (fdeBytes fde).length = 32 := by
  simp [fdeBytes]

/-- A word among the fields of the data. -/
theorem word_of_placed {data : List UInt8} {offset value : Nat} (fits : value < 2 ^ 32)
    (placed : Bytes.Placed (fun i => data.getD i 0) offset (Bytes.ofNat 4 value))
    (inside : offset + 4 ≤ data.length) : word data offset = value := by
  have slice := Bytes.slice_of_placed placed (by rwa [Bytes.length_ofNat])
  rw [Bytes.length_ofNat] at slice
  rw [word, slice, Bytes.toNat_ofNat_of_lt (by simpa using fits)]

theorem byteString_of_placed {data : List UInt8} {offset count : Nat} {bytes : Vector UInt8 count}
    (placed : Bytes.Placed (fun i => data.getD i 0) offset bytes.toList) :
    byteString count data offset = bytes := by
  apply Vector.ext
  intro i inside
  have listed : i < bytes.toList.length := by rwa [Vector.length_toList]
  have here : data.getD (offset + i) 0 = bytes.toList[i] := placed i listed
  rw [byteString, Vector.getElem_ofFn, here, Vector.getElem_toList]

/-- A packed entry is read back. -/
theorem fromBinary_fdeBytes (fde : FdtEntry) :
    FirmwareDescriptorEntry.fromBinary (fdeBytes fde) = some (entryOf fde) := by
  obtain ⟨data, same⟩ : ∃ data, data = fdeBytes fde := ⟨_, rfl⟩
  have length : data.length = 32 := by rw [same, length_fdeBytes]
  have placed := Bytes.placed_self data 0
  nth_rewrite 2 [same] at placed
  simp only [fdeBytes, Bytes.placed_append, List.length_append, Bytes.length_ofNat,
    Nat.zero_add, Nat.reduceAdd] at placed
  obtain ⟨⟨⟨⟨⟨⟨atId, atRank⟩, atFormat⟩, atAddr⟩, atState⟩, atVersion⟩, atReserve⟩ := placed
  rw [← same, FirmwareDescriptorEntry.fromBinary, if_pos length, entryOf,
    word_of_placed fde.id.toNat_lt atId (by omega),
    word_of_placed fde.rank.toNat_lt atRank (by omega),
    word_of_placed fde.format.toNat_lt atFormat (by omega),
    word_of_placed fde.addr.toNat_lt atAddr (by omega),
    word_of_placed fde.state.toNat_lt atState (by omega),
    word_of_placed fde.version.toNat_lt atVersion (by omega), byteString_of_placed atReserve]

theorem readEntries_flatMap (data : List UInt8) (fde : List FdtEntry) (offset : Nat)
    {behind : List UInt8} (layout : data.drop offset = fde.flatMap fdeBytes ++ behind) :
    readEntries data fde.length offset = some (fde.map entryOf) := by
  induction fde generalizing offset with
  | nil => rfl
  | cons entry fde ih =>
      rw [List.flatMap_cons, List.append_assoc] at layout
      have head : (data.drop offset).take 32 = fdeBytes entry := by
        rw [layout, List.take_left' (length_fdeBytes entry)]
      have tail : data.drop (offset + 32) = fde.flatMap fdeBytes ++ behind := by
        rw [← List.drop_drop, layout, List.drop_left' (length_fdeBytes entry)]
      rw [List.length_cons, readEntries, head, fromBinary_fdeBytes, ih _ tail]
      rfl

theorem length_flatMap_fdeBytes (fde : List FdtEntry) :
    (fde.flatMap fdeBytes).length = 32 * fde.length := by
  induction fde with
  | nil => rfl
  | cons entry fde ih =>
      rw [List.flatMap_cons, List.length_append, length_fdeBytes, ih, List.length_cons]
      omega

theorem length_bytes (fdt : FdtS) : fdt.bytes.length = 32 + 32 * fdt.fde.length := by
  simp only [FdtS.bytes, List.length_append, Bytes.length_ofNat, Vector.length_toList,
    length_flatMap_fdeBytes]

/-- The binary of a table is read as its object. -/
theorem fromBinary_binary (fdt : FdtS) (few : fdt.fde.length ≤ 31) :
    FirmwareDescriptorTable.fromBinary fdt.binary = some (tableOf fdt) := by
  obtain ⟨header, headerIs⟩ : ∃ header, header = Bytes.ofNat 4 fdt.signature.toNat ++
    Bytes.ofNat 4 fdt.fde.length ++ fdt.reserve.toList := ⟨_, rfl⟩
  have length : header.length = 32 := by
    simp only [headerIs, List.length_append, Bytes.length_ofNat, Vector.length_toList]
  have layout : fdt.binary = header ++ (fdt.fde.flatMap fdeBytes ++
      List.replicate (1024 - fdt.bytes.length) 0xFF) := by
    rw [FdtS.binary, headerIs]
    nth_rewrite 1 [FdtS.bytes]
    rw [List.append_assoc]
  have entries := readEntries_flatMap fdt.binary fdt.fde 32
    (by rw [layout, List.drop_left' length])
  have placed := Bytes.placed_self header 0
  nth_rewrite 2 [headerIs] at placed
  simp only [Bytes.placed_append, List.length_append, Bytes.length_ofNat, Nat.zero_add,
    Nat.reduceAdd] at placed
  obtain ⟨⟨atSignature, atNumber⟩, atReserve⟩ := placed
  have number : word header 4 = fdt.fde.length :=
    word_of_placed (by omega) atNumber (by omega)
  have read : fdt.binary.take 32 = header := by rw [layout, List.take_left' length]
  simp only [FirmwareDescriptorTable.fromBinary, read, length, if_true, number, Int.toNat_natCast,
    entries, tableOf, word_of_placed fdt.signature.toNat_lt atSignature (by omega),
    byteString_of_placed atReserve]
  rfl

end Binary

section Packing

theorem pack_natCast {value : Nat} (fits : value < 2 ^ 32) :
    Bytes.pack 4 (value : Int) = some (Bytes.ofNat 4 value) := by
  rw [Bytes.pack, if_pos, Int.toNat_natCast]
  exact ⟨Int.natCast_nonneg value, by omega⟩

theorem toBinary_entryOf (fde : FdtEntry) : (entryOf fde).toBinary = some (fdeBytes fde) := by
  simp only [FirmwareDescriptorEntry.toBinary, entryOf, pack_natCast fde.id.toNat_lt,
    pack_natCast fde.rank.toNat_lt, pack_natCast fde.format.toNat_lt,
    pack_natCast fde.addr.toNat_lt, pack_natCast fde.state.toNat_lt,
    pack_natCast fde.version.toNat_lt, fdeBytes]
  rfl

theorem entriesToBinary_map (fde : List FdtEntry) :
    entriesToBinary (fde.map entryOf) = some (fde.flatMap fdeBytes) := by
  induction fde with
  | nil => rfl
  | cons entry fde ih =>
      rw [List.map_cons, entriesToBinary, toBinary_entryOf, ih]
      rfl

/-- The object of a table packs into the bytes of the table. -/
theorem toBinary_tableOf (fdt : FdtS) (few : fdt.fde.length ≤ 31) :
    (tableOf fdt).toBinary = some fdt.bytes := by
  simp only [FirmwareDescriptorTable.toBinary, tableOf, pack_natCast fdt.signature.toNat_lt,
    pack_natCast (by omega : fdt.fde.length < 2 ^ 32), entriesToBinary_map, FdtS.bytes]
  rfl

end Packing

section Xml

/-- A table without its reserved bytes. -/
def FdtS.cleared (fdt : FdtS) : FdtS where
  signature := fdt.signature
  reserve := Vector.replicate 24 0
  fde := fdt.fde.map fun fde => { fde with reserve := Vector.replicate 8 0 }

/-- The element of an entry. -/
def elementOf (fde : FdtEntry) : Element where
  tag := "fde"
  attrib := [
    ("id", decimal fde.id.toNat),
    ("filename", []),
    ("rank", decimal fde.rank.toNat),
    ("format", decimal fde.format.toNat),
    ("address", '0' :: 'x' :: hexUpper fde.addr.toNat),
    ("state", decimal fde.state.toNat),
    ("version", decimal fde.version.toNat)]

theorem entriesToXml_map (fde : List FdtEntry) :
    entriesToXml (fde.map entryOf) = some (fde.map elementOf) := by
  induction fde with
  | nil => rfl
  | cons entry fde ih =>
      rw [List.map_cons, entriesToXml, ih]
      rfl

/-- The reserved bytes of an entry are not read. -/
theorem fromXml_elementOf (fde : FdtEntry) :
    FirmwareDescriptorEntry.fromXml (elementOf fde) =
      some (entryOf { fde with reserve := Vector.replicate 8 0 }) := by
  have decimals (value : Nat) : readInt 0 (decimal value) = some (value : Int) :=
    readInt_decimal (.inl rfl) value
  have address := readInt_hexUpper (.inl rfl) fde.addr.toNat
  simp [FirmwareDescriptorEntry.fromXml, elementOf, List.lookup_cons, decimals, address, entryOf,
    FirmwareDescriptorEntry.init]

/-- The number of entries of the table read so far goes up with each element. -/
theorem readChildren_map (fde : List FdtEntry) (table : FirmwareDescriptorTable) :
    table.readChildren (fde.map elementOf) =
      some {
        table with
        numFde := table.numFde + fde.length
        entries := table.entries ++
          fde.map fun fde => entryOf { fde with reserve := Vector.replicate 8 0 } } := by
  induction fde generalizing table with
  | nil => simp [FirmwareDescriptorTable.readChildren]
  | cons entry fde ih =>
      have child : table.readChild (elementOf entry) =
          some (table.addEntry (entryOf { entry with reserve := Vector.replicate 8 0 })) := by
        rw [FirmwareDescriptorTable.readChild, if_neg (by simp [elementOf]),
          if_pos (by simp [elementOf]), fromXml_elementOf, Option.map_some]
      rw [List.map_cons, FirmwareDescriptorTable.readChildren, child, Option.bind_some, ih]
      simp only [FirmwareDescriptorTable.addEntry, List.length_cons, List.map_cons,
        List.append_assoc, List.singleton_append, Option.some.injEq,
        FirmwareDescriptorTable.mk.injEq, true_and, and_true]
      push_cast
      omega

/-- The document of a table holds all of it but the reserved bytes. -/
theorem fromXml_toXml (fdt : FdtS) :
    ((tableOf fdt).toXml).bind FirmwareDescriptorTable.fromXml = some (tableOf fdt.cleared) := by
  have header : FirmwareDescriptorTable.init.readChild
      { tag := "hdr", attrib := [("signature", hexLower fdt.signature.toNat)] } =
        some { FirmwareDescriptorTable.init with signature := fdt.signature.toNat } := by
    have signature := readInt_hexLower (.inl rfl) fdt.signature.toNat
    simp [FirmwareDescriptorTable.readChild, List.lookup_cons, signature]
  have document : (tableOf fdt).toXml = some {
      tag := "fdt"
      children := { tag := "hdr", attrib := [("signature", hexLower fdt.signature.toNat)] } ::
        fdt.fde.map elementOf } := by
    rw [FirmwareDescriptorTable.toXml, bytesEqList, if_neg (by decide), tableOf, entriesToXml_map]
    rfl
  rw [document, Option.bind_some, FirmwareDescriptorTable.fromXml, if_pos rfl,
    FirmwareDescriptorTable.readChildren, header, Option.bind_some, readChildren_map]
  simp [tableOf, FdtS.cleared, FirmwareDescriptorTable.init]

end Xml

section RoundTrip

theorem xmlToBin_of_table {document : Document} {table : FirmwareDescriptorTable}
    {data : List UInt8} (isTable : FirmwareDescriptorTable.fromXml document = some table)
    (packed : table.toBinary = some data) (size : Nat) :
    xmlToBin document size = some (data ++ List.replicate (size - data.length) 0xFF) := by
  rw [xmlToBin, isTable, Option.bind_eq_bind, Option.bind_some, packed, Option.bind_eq_bind,
    Option.bind_some, List.drop_replicate]
  rfl

/-- A table comes back from its XML with zeros for the reserved bytes. -/
theorem xmlToBin_binToXml_cleared (fdt : FdtS) (few : fdt.fde.length ≤ 31) :
    (binToXml fdt.binary).bind (fun document => xmlToBin document 1024) =
      some fdt.cleared.binary := by
  have packed := toBinary_tableOf fdt.cleared (by rwa [FdtS.cleared, List.length_map])
  obtain ⟨document, isDocument, isTable⟩ := Option.bind_eq_some_iff.mp (fromXml_toXml fdt)
  have written : binToXml fdt.binary = some document := by
    rw [binToXml, fromBinary_binary fdt few, Option.bind_some, isDocument]
  rw [written, Option.bind_some, xmlToBin_of_table isTable packed, FdtS.binary]

theorem cleared_eq_self {fdt : FdtS} (header : fdt.reserve = Vector.replicate 24 0)
    (entries : ∀ fde ∈ fdt.fde, fde.reserve = Vector.replicate 8 0) : fdt.cleared = fdt := by
  have same : fdt.fde.map (fun fde => { fde with reserve := Vector.replicate 8 0 }) = fdt.fde := by
    rw [List.map_congr_left (g := id), List.map_id]
    intro fde listed
    rw [← entries fde listed]
    rfl
  rw [FdtS.cleared, same, ← header]

/-- The way through XML reproduces exactly the tables whose reserved bytes are
all zero. -/
theorem xmlToBin_binToXml_iff (fdt : FdtS) (few : fdt.fde.length ≤ 31) :
    (binToXml fdt.binary).bind (fun document => xmlToBin document 1024) = some fdt.binary ↔
      fdt.reserve = Vector.replicate 24 0 ∧
        ∀ fde ∈ fdt.fde, fde.reserve = Vector.replicate 8 0 := by
  rw [xmlToBin_binToXml_cleared fdt few, Option.some.injEq]
  constructor
  · intro same
    have fewCleared : fdt.cleared.fde.length ≤ 31 := by rwa [FdtS.cleared, List.length_map]
    have read := fromBinary_binary fdt.cleared fewCleared
    rw [same, fromBinary_binary fdt few, Option.some.injEq] at read
    have entries := congrArg FirmwareDescriptorTable.entries read
    simp only [tableOf, FdtS.cleared, List.map_map, List.map_inj_left] at entries
    constructor
    · exact congrArg FirmwareDescriptorTable.reserved read
    · intro fde listed
      exact congrArg FirmwareDescriptorEntry.reserved (entries fde listed)
  · rintro ⟨header, entries⟩
    rw [cleared_eq_self header entries]

theorem zero_lt_reserve : 0 < 8 := by decide

/-- A table of one application entry. -/
def appFdt (mask : UInt8) : FdtS where
  signature := 0x54445746
  reserve := Vector.replicate 24 0
  fde := [
    { id := 2
      rank := 2
      format := 0
      addr := 1
      state := 1
      version := 1
      reserve := (Vector.replicate 8 0).set 0 mask zero_lt_reserve }]

theorem xmlToBin_binToXml_appFdt :
    (binToXml (appFdt 0).binary).bind (fun document => xmlToBin document 1024) =
      some (appFdt 0).binary :=
  (xmlToBin_binToXml_iff (appFdt 0) (by decide)).mpr (by decide)

/-- The valid-FWD mask of the boot loader is lost. -/
theorem xmlToBin_loses_mask :
    ¬ ∀ fdt : FdtS, fdt.fde.length ≤ 31 →
      (binToXml fdt.binary).bind (fun document => xmlToBin document 1024) = some fdt.binary := by
  intro kept
  have same := kept (appFdt 2) (by decide)
  rw [xmlToBin_binToXml_cleared (appFdt 2) (by decide), Option.some.injEq] at same
  revert same
  decide +kernel

end RoundTrip

end QHal.Qfdt.Frn
