/-
Module: QHal.Proofs.DfuScript
Purpose: What the loader of resources should do with the files of a host: the resources of a bitmap
  in their order, the packets of a segment, which tile it, the events of a whole run and the memory
  behind them.
Trusted boundary: none
Main exports: Api.named, Wanted, Left, ImageFile.packetLen, Tiles, Host.history, Host.script,
  Host.copied
-/
import QHal.Boot.DfuHost
import QHal.Proofs.SysPackets

namespace QHal.SysLoader

variable {api : Api}

/-! ## The resources of a bitmap -/

/-- The resources that a host may name. -/
def Api.resources (api : Api) : List UInt8 := [api.wlanImgId, api.bdfId, api.regdbId, api.wlanIni]

/-- The resources that a bitmap names, in the order of their transfer. -/
def Api.named (api : Api) (bitmap : UInt8) : List UInt8 :=
  api.resources.filter fun softId => bitmap &&& softId ≠ 0

/-- A byte with one bit. -/
def SingleBit (softId : UInt8) : Prop := softId ∈ ([1, 2, 4, 8, 16, 32, 64, 128] : List UInt8)

instance (softId : UInt8) : Decidable (SingleBit softId) :=
  inferInstanceAs (Decidable (softId ∈ ([1, 2, 4, 8, 16, 32, 64, 128] : List UInt8)))

/-- The ids are single bits, different ones, and the image of the WLAN has the smallest. -/
structure DistinctBits (api : Api) : Prop where
  single : ∀ softId ∈ api.sblId :: api.resources, SingleBit softId
  nodup : (api.sblId :: api.resources).Nodup
  smallest : ∀ softId ∈ api.resources, api.wlanImgId ≤ softId

/-- A bitmap that names some of the resources. -/
structure Wanted (api : Api) (bitmap : UInt8) : Prop where
  some : bitmap ≠ 0
  within : bitmap &&& (api.wlanImgId ||| api.bdfId ||| api.regdbId ||| api.wlanIni) = bitmap

theorem SingleBit.and_eq_zero {one other : UInt8} (first : SingleBit one) (second : SingleBit other)
    (differ : one ≠ other) : one &&& other = 0 := by
  have all : ∀ one ∈ ([1, 2, 4, 8, 16, 32, 64, 128] : List UInt8),
      ∀ other ∈ ([1, 2, 4, 8, 16, 32, 64, 128] : List UInt8), one ≠ other → one &&& other = 0 := by
    decide +kernel
  exact all one first other second differ

/-- A bit is in a byte or not. -/
theorem SingleBit.and_cases {softId : UInt8} (single : SingleBit softId) (bitmap : UInt8) :
    bitmap &&& softId = 0 ∨ bitmap &&& softId = softId := by
  have all : ∀ softId ∈ ([1, 2, 4, 8, 16, 32, 64, 128] : List UInt8),
      ∃ i < 8, softId.toBitVec = BitVec.twoPow 8 i := by
    decide +kernel
  obtain ⟨i, -, same⟩ := all softId single
  have masked := BitVec.and_twoPow bitmap.toBitVec i
  rw [← same, ← UInt8.toBitVec_and] at masked
  split at masked
  · exact .inr (UInt8.toBitVec_inj.mp masked)
  · exact .inl (UInt8.toBitVec_inj.mp masked)

/-- A property of bytes that holds bit by bit. -/
theorem eq_of_bits {one other : UInt8}
    (bits : ∀ i, one.toBitVec.getLsbD i = other.toBitVec.getLsbD i) : one = other :=
  UInt8.toBitVec_inj.mp (BitVec.eq_of_getLsbD_eq fun i _ => bits i)

theorem bit_and (one other : UInt8) (i : Nat) :
    (one &&& other).toBitVec.getLsbD i = (one.toBitVec.getLsbD i && other.toBitVec.getLsbD i) := by
  rw [UInt8.toBitVec_and, BitVec.getLsbD_and]

theorem bit_or (one other : UInt8) (i : Nat) :
    (one ||| other).toBitVec.getLsbD i = (one.toBitVec.getLsbD i || other.toBitVec.getLsbD i) := by
  rw [UInt8.toBitVec_or, BitVec.getLsbD_or]

theorem bit_xor (one other : UInt8) (i : Nat) :
    (one ^^^ other).toBitVec.getLsbD i =
      (one.toBitVec.getLsbD i ^^ other.toBitVec.getLsbD i) := by
  rw [UInt8.toBitVec_xor, BitVec.getLsbD_xor]

/-- The bits of one byte are all in another one. -/
def Within (one all : UInt8) : Prop := one &&& all = one

theorem within_iff {one all : UInt8} :
    Within one all ↔ ∀ i, one.toBitVec.getLsbD i = true → all.toBitVec.getLsbD i = true := by
  constructor
  · intro within i bit
    have same := congrArg (fun byte : UInt8 => byte.toBitVec.getLsbD i) within
    simp only [bit_and, bit, Bool.true_and] at same
    exact same
  · intro all
    apply eq_of_bits
    intro i
    rw [bit_and]
    cases bit : one.toBitVec.getLsbD i with
    | false => rfl
    | true => rw [all i bit, Bool.and_self]

theorem and_eq_zero_iff {one other : UInt8} :
    one &&& other = 0 ↔
      ∀ i, one.toBitVec.getLsbD i = true → other.toBitVec.getLsbD i = false := by
  have zero : ∀ i, (0 : UInt8).toBitVec.getLsbD i = false := fun i => BitVec.getLsbD_zero
  constructor
  · intro apart i bit
    have same := congrArg (fun byte : UInt8 => byte.toBitVec.getLsbD i) apart
    simp only [bit_and, bit, Bool.true_and, zero] at same
    exact same
  · intro all
    apply eq_of_bits
    intro i
    rw [bit_and, zero]
    cases bit : one.toBitVec.getLsbD i with
    | false => rfl
    | true => rw [all i bit, Bool.and_false]

/-- Marking one resource as done changes nothing for another. -/
theorem marked_other {bitmap done one other : UInt8} (apart : one &&& other = 0) :
    (bitmap ^^^ (done ||| one)) &&& other = (bitmap ^^^ done) &&& other := by
  apply eq_of_bits
  intro i
  have bit := and_eq_zero_iff.mp apart i
  simp only [bit_and, bit_xor, bit_or]
  cases here : one.toBitVec.getLsbD i with
  | false => rw [Bool.or_false]
  | true => rw [bit here, Bool.and_false, Bool.and_false]

theorem marked_own {bitmap done one : UInt8} (named : bitmap &&& one = one) :
    (bitmap ^^^ (done ||| one)) &&& one = 0 := by
  apply and_eq_zero_iff.mpr
  intro i bit
  cases here : one.toBitVec.getLsbD i with
  | false => rfl
  | true =>
      have inside := within_iff.mp ((UInt8.and_comm one bitmap).trans named) i here
      simp [here, inside] at bit

/-- The bits of all resources. -/
def Api.allBits (api : Api) : UInt8 := api.wlanImgId ||| api.bdfId ||| api.regdbId ||| api.wlanIni

theorem allBits_bit (api : Api) (i : Nat) :
    api.allBits.toBitVec.getLsbD i = true ↔
      ∃ softId ∈ api.resources, softId.toBitVec.getLsbD i = true := by
  simp only [Api.allBits, Api.resources, bit_or, Bool.or_eq_true, List.mem_cons, List.not_mem_nil,
    or_false, exists_eq_or_imp, exists_eq_left, or_assoc]

theorem within_allBits {softId : UInt8} (listed : softId ∈ api.resources) :
    Within softId api.allBits :=
  within_iff.mpr fun i bit => (allBits_bit api i).mpr ⟨softId, listed, bit⟩

theorem Within.xor {one other all : UInt8} (first : Within one all) (second : Within other all) :
    Within (one ^^^ other) all := by
  apply within_iff.mpr
  intro i bit
  rw [bit_xor] at bit
  cases here : one.toBitVec.getLsbD i with
  | true => exact within_iff.mp first i here
  | false =>
      rw [here, Bool.false_xor] at bit
      exact within_iff.mp second i bit

theorem Within.or {one other all : UInt8} (first : Within one all) (second : Within other all) :
    Within (one ||| other) all := by
  apply within_iff.mpr
  intro i bit
  rw [bit_or, Bool.or_eq_true] at bit
  exact bit.elim (within_iff.mp first i) (within_iff.mp second i)

/-- What is left to do of a bitmap. -/
structure Left (api : Api) (bitmap done : UInt8) (rest : List UInt8) : Prop where
  named : api.named (bitmap ^^^ done) = rest
  wanted : Within bitmap api.allBits
  within : Within done api.allBits

namespace Left

variable {bitmap done softId : UInt8} {rest : List UInt8}

theorem start (wanted : Wanted api bitmap) : Left api bitmap 0 (api.named bitmap) where
  named := by rw [UInt8.xor_zero]
  wanted := wanted.within
  within := UInt8.zero_and

/-- No bit of the SBL is left. -/
theorem noSbl (bits : DistinctBits api) (left : Left api bitmap done rest) :
    (bitmap ^^^ done) &&& api.sblId = 0 := by
  apply and_eq_zero_iff.mpr
  intro i bit
  obtain ⟨softId, listed, own⟩ :=
    (allBits_bit api i).mp (within_iff.mp (left.wanted.xor left.within) i bit)
  have differ : softId ≠ api.sblId := fun same =>
    (List.nodup_cons.mp bits.nodup).1 (same ▸ listed)
  have apart := (bits.single softId (List.mem_cons_of_mem _ listed)).and_eq_zero
    (bits.single api.sblId List.mem_cons_self) differ
  exact and_eq_zero_iff.mp apart i own

/-- The resource that is asked for next. -/
theorem nextSoftId (bits : DistinctBits api) (left : Left api bitmap done (softId :: rest)) :
    api.nextSoftId (bitmap ^^^ done) = some softId := by
  have named := left.named
  unfold Api.nextSoftId
  rw [if_neg (not_not_intro (left.noSbl bits))]
  unfold Api.named Api.resources at named
  simp only [List.filter_cons, decide_eq_true_eq] at named
  split_ifs at named ⊢ <;> simp_all

/-- With nothing left every bit is marked. -/
theorem nothing (left : Left api bitmap done []) : bitmap ^^^ done = 0 := by
  have inside : Within (bitmap ^^^ done) api.allBits := left.wanted.xor left.within
  rw [← inside]
  apply and_eq_zero_iff.mpr
  intro i bit
  apply Bool.eq_false_iff.mpr
  intro own
  obtain ⟨softId, listed, has⟩ := (allBits_bit api i).mp own
  have none := List.filter_eq_nil_iff.mp left.named softId listed
  have zero : (bitmap ^^^ done) &&& softId = 0 := by simpa using none
  rw [and_eq_zero_iff.mp zero i bit] at has
  cases has

theorem finish (bits : DistinctBits api) (left : Left api bitmap done (softId :: rest))
    (listed : softId ∈ api.named bitmap) : Left api bitmap (done ||| softId) rest := by
  obtain ⟨resource, some⟩ := List.mem_filter.mp listed
  have single := bits.single softId (List.mem_cons_of_mem _ resource)
  have own : bitmap &&& softId = softId :=
    (single.and_cases bitmap).resolve_left (of_decide_eq_true some)
  have nodup : (softId :: rest).Nodup := by
    rw [← left.named]
    exact (List.nodup_cons.mp bits.nodup).2.filter _
  refine ⟨?_, left.wanted, left.within.or (within_allBits resource)⟩
  have tail : (softId :: rest).filter (fun other => other ≠ softId) = rest := by
    rw [List.filter_cons_of_neg (by simp), List.filter_eq_self]
    intro other member
    have differ : other ≠ softId := fun same => (List.nodup_cons.mp nodup).1 (same ▸ member)
    exact decide_eq_true differ
  rw [← tail, ← left.named, Api.named, Api.named, List.filter_filter]
  apply List.filter_congr
  intro other member
  by_cases same : other = softId
  · subst same
    simp [marked_own own]
  · have apart := single.and_eq_zero (bits.single other (List.mem_cons_of_mem _ member))
      (Ne.symm same)
    simp [marked_other apart, same]

end Left

/-! ## The packets of a segment -/

namespace ImageFile

variable (file : ImageFile api)

theorem packeted : Packeted api file.header.filesz where
  positive := file.positive
  counted := Nat.le_of_lt file.counted

def packets : Nat := (api.packetsOf file.header.filesz).toNat

/-- Where the packet with a number begins, in the segment. -/
def packetStart (k : Nat) : Nat := min file.header.filesz.toNat (k * api.dfuBuffSize.toNat)

def packetLen (k : Nat) : UInt32 := UInt32.ofNat (file.packetStart (k + 1) - file.packetStart k)

/-- Where it begins, in the file. -/
def packetOffset (k : Nat) : UInt32 := UInt32.ofNat (file.header.offset.toNat + file.packetStart k)

/-- Where it goes. -/
def packetDst (k : Nat) : UInt32 := file.header.paddr + UInt32.ofNat (file.packetStart k)

theorem offset_bound : file.header.offset.toNat + file.header.filesz.toNat ≤ 2 ^ 32 :=
  Nat.le_trans file.inside file.offsets

theorem packetStart_le (k : Nat) : file.packetStart k ≤ file.header.filesz.toNat :=
  Nat.min_le_left ..

theorem packetStart_inside {k : Nat} (inside : k < file.packets) :
    file.packetStart k = k * api.dfuBuffSize.toNat ∧
      file.packetStart k < file.header.filesz.toNat := by
  obtain ⟨-, before, -⟩ := packets_bounds file.packeted
  have below : k * api.dfuBuffSize.toNat < file.header.filesz.toNat :=
    Nat.lt_of_le_of_lt (Nat.mul_le_mul_right _ (Nat.le_sub_one_of_lt inside)) before
  have start : file.packetStart k = k * api.dfuBuffSize.toNat :=
    Nat.min_eq_right (Nat.le_of_lt below)
  exact ⟨start, start ▸ below⟩

theorem packetStart_packets : file.packetStart file.packets = file.header.filesz.toNat := by
  obtain ⟨-, -, behind⟩ := packets_bounds file.packeted
  exact Nat.min_eq_left behind

theorem packetStart_succ {k : Nat} (inside : k < file.packets) :
    file.packetStart k < file.packetStart (k + 1) ∧
      file.packetStart (k + 1) ≤ file.packetStart k + api.dfuBuffSize.toNat := by
  obtain ⟨start, below⟩ := file.packetStart_inside inside
  have positive := dfuBuffSize_pos api
  have next : file.packetStart (k + 1) =
      min file.header.filesz.toNat (file.packetStart k + api.dfuBuffSize.toNat) := by
    rw [start, ← Nat.succ_mul]
    rfl
  omega

theorem packetLen_toNat (k : Nat) :
    (file.packetLen k).toNat = file.packetStart (k + 1) - file.packetStart k := by
  have le := file.packetStart_le (k + 1)
  have bound := file.header.filesz.toNat_lt
  rw [packetLen, UInt32.toNat_ofNat']
  exact Nat.mod_eq_of_lt (by omega)

theorem packetOffset_toNat {k : Nat} (inside : k < file.packets) :
    (file.packetOffset k).toNat = file.header.offset.toNat + file.packetStart k := by
  obtain ⟨-, below⟩ := file.packetStart_inside inside
  have bound := file.offset_bound
  rw [packetOffset, UInt32.toNat_ofNat']
  exact Nat.mod_eq_of_lt (by omega)

end ImageFile

/-- Pieces, each an offset and a length, that follow each other from one place to another, none of
them empty or longer than some size. -/
def Tiles (size : Nat) : Nat → Nat → List (UInt32 × UInt32) → Prop
  | start, stop, [] => start = stop
  | start, stop, (offset, length) :: pieces =>
      offset.toNat = start ∧ 0 < length.toNat ∧ length.toNat ≤ size ∧
        Tiles size (start + length.toNat) stop pieces

/-- The data that is asked for. -/
def ImageFile.pieces (file : ImageFile api) : List (UInt32 × UInt32) :=
  (List.range file.packets).map fun k => (file.packetOffset k, file.packetLen k)

theorem ImageFile.tiles_from (file : ImageFile api) {k count : Nat}
    (all : k + count = file.packets) :
    Tiles api.dfuBuffSize.toNat (file.header.offset.toNat + file.packetStart k)
      (file.header.offset.toNat + file.header.filesz.toNat)
      ((List.range' k count).map fun k => (file.packetOffset k, file.packetLen k)) := by
  induction count generalizing k with
  | zero =>
      rw [Nat.add_zero] at all
      rw [all, file.packetStart_packets]
      rfl
  | succ count ih =>
      have inside : k < file.packets := by omega
      obtain ⟨longer, size⟩ := file.packetStart_succ inside
      rw [List.range'_succ, List.map_cons]
      refine ⟨file.packetOffset_toNat inside, ?_, ?_, ?_⟩
      · rw [file.packetLen_toNat]
        omega
      · rw [file.packetLen_toNat]
        omega
      · rw [file.packetLen_toNat, Nat.add_assoc, Nat.add_sub_cancel' (Nat.le_of_lt longer)]
        exact ih (by omega)

/-- The packets tile the segment. -/
theorem ImageFile.tiles (file : ImageFile api) :
    Tiles api.dfuBuffSize.toNat file.header.offset.toNat
      (file.header.offset.toNat + file.header.filesz.toNat) file.pieces := by
  have from' := file.tiles_from (Nat.zero_add file.packets)
  rwa [ImageFile.packetStart, Nat.zero_mul, Nat.min_zero, Nat.add_zero,
    ← List.range_eq_range'] at from'

/-! ## The events of a run -/

namespace Host

variable (host : Host api)

def elfReq (softId : UInt8) : F2aMessage := .dataTransferReq sizeofEhdr 0 softId

def headerReq (softId : UInt8) : F2aMessage :=
  .dataTransferReq sizeofPhdr (host.file softId).phoff softId

def dataReq (softId : UInt8) (k : Nat) : F2aMessage :=
  .dataTransferReq ((host.file softId).packetLen k) ((host.file softId).packetOffset k) softId

/-- The confirmation of a packet. -/
def dataCfm (softId : UInt8) (k : Nat) : TransferCfm :=
  host.confirm ((host.file softId).packetLen k) ((host.file softId).packetOffset k) softId

/-- The headers of a resource are read, the last event first as in every trace. -/
def headerLog (softId : UInt8) (past : List Event) : List Event :=
  .accepted softId (host.file softId).header :: .sent (host.headerReq softId) ::
    .sent (elfReq softId) :: past

/-- So many packets are asked for and written. -/
def dataLog (softId : UInt8) : Nat → List Event → List Event
  | 0, past => past
  | k + 1, past =>
      .wrote ((host.file softId).packetDst k) ((host.file softId).packetLen k)
          (.dataTransferCfm (host.dataCfm softId k)) 0 ::
        .sent (host.dataReq softId k) :: dataLog softId k past

/-- A whole resource is transferred. -/
def resourceLog (softId : UInt8) (past : List Event) : List Event :=
  let past := .sent (.dataTransferDoneInd softId) ::
    host.dataLog softId (host.file softId).packets (host.headerLog softId past)
  match api.resourceOf softId with
  | none => past
  | some resource => .finished resource :: past

/-- Some resources are transferred, the last one first. -/
def history : List UInt8 → List Event
  | [] => [.sent .dfuCfm]
  | softId :: older => host.resourceLog softId (history older)

/-- The whole run: each resource of the bitmap in turn, and a request to reboot. -/
def script : List Event := .sent .rebootReq :: host.history (api.named host.bitmap).reverse

/-- The memory behind some resources, the last one first. -/
def copied (memory : Mem UInt8) : List UInt8 → Mem UInt8
  | [] => memory
  | softId :: older =>
      (copied memory older).write (host.file softId).header.paddr
        (host.file softId).header.filesz.toNat (host.file softId).segment

end Host

end QHal.SysLoader
