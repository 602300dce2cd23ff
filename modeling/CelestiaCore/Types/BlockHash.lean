import CelestiaCore.Types.BlockCodec

set_option autoImplicit false

/- `Block.Hash` (types/block.go): `fillHeader`, then `Header.Hash`, memoised in the block's
unexported `verifiedHash`, and `HashesTo`. `Header.Hash` merkleizes the encodings of the
header's fields, which are not under src/ (`Consensus.Marshal`, `gogotypes.StdTimeMarshal`,
the `BlockID` marshaller and `cdcEncode`): they are parameters. The memo is passed beside the
block, `[]` while nil. A second `Hash` agrees with the first and changes nothing; the hash is
nil exactly for a block without a last commit, without a validators hash, or whose version,
time or last block ID fails to encode, and `ValidateBasic` excludes none of these. A block that
`BlockFromProto` takes back from its own encoding hashes as it did, and a block that passes
`ValidateBasic` hashes as its header does. -/

namespace CelestiaCore.Types

/-- The encodings `Header.Hash` merkleizes. -/
structure HeaderEncoding where
  /-- `cmtversion.Consensus.Marshal`. -/
  marshalVersion : Consensus → Except String Bytes
  /-- `gogotypes.StdTimeMarshal`, which fails for a time out of the protobuf range. -/
  stdTimeMarshal : Time → Except String Bytes
  /-- `cmtproto.BlockID.Marshal`. -/
  marshalBlockID : Proto.BlockID → Except String Bytes
  /-- `cdcEncode` of a string, an `int64` and a byte slice; a nil hash is encoded as an empty
  one, which `gogotypes.BytesValue` writes alike. -/
  cdcEncodeString : String → Bytes
  cdcEncodeInt64 : BitVec 64 → Bytes
  cdcEncodeBytes : Bytes → Bytes

namespace Header

/-- The leaves `Header.Hash` merkleizes, in its order; an error if one of the three
marshallers fails. -/
def hashLeaves (C : HeaderEncoding) (h : Header) : Except String (List Bytes) := do
  let hbz ← C.marshalVersion h.version
  let pbt ← C.stdTimeMarshal h.time
  let bzbi ← C.marshalBlockID h.lastBlockID.toProto
  return [hbz, C.cdcEncodeString h.chainID, C.cdcEncodeInt64 h.height, pbt, bzbi,
    C.cdcEncodeBytes (h.lastCommitHash.getD []), C.cdcEncodeBytes (h.dataHash.getD []),
    C.cdcEncodeBytes h.validatorsHash, C.cdcEncodeBytes h.nextValidatorsHash,
    C.cdcEncodeBytes h.consensusHash, C.cdcEncodeBytes h.appHash,
    C.cdcEncodeBytes h.lastResultsHash, C.cdcEncodeBytes (h.evidenceHash.getD []),
    C.cdcEncodeBytes h.proposerAddress]

/-- `Hash`: nil without a validators hash or when an encoding fails, else the merkle root of
the leaves. -/
def hash (H : Hashing) (C : HeaderEncoding) (h : Header) : Bytes :=
  if h.validatorsHash.length = 0 then []
  else
    match h.hashLeaves C with
    | .ok leaves => H.hashFromByteSlices leaves
    | .error _ => []

theorem hash_eq_nil_iff (H : Hashing) (C : HeaderEncoding) (h : Header) :
    h.hash H C = [] ↔ h.validatorsHash = [] ∨ ∃ err, h.hashLeaves C = .error err := by
  unfold hash
  split_ifs with noValidators
  · simp_all
  · cases leaves : h.hashLeaves C <;>
      simp [leaves, ← List.length_eq_zero, H.hashFromByteSlices_length, tmhashSize, *]

end Header

namespace Block

variable {E : EvidenceCodec}

/-- `Hash`, on the block and its `verifiedHash` (`[]` while nil): nil without a last commit,
the memoised hash once there is one, else the hash of the header `fillHeader` completes, which
it memoises. Returns the hash, the block and the memo as the call leaves them. -/
def hash (H : Hashing) (C : HeaderEncoding) (b : Block E) (verifiedHash : Bytes) :
    Bytes × Block E × Bytes :=
  if b.lastCommit = none then ([], b, verifiedHash)
  else if verifiedHash ≠ [] then (verifiedHash, b, verifiedHash)
  else
    let b := b.fillHeader H
    let hash := b.header.hash H C
    (hash, b, hash)

/-- `HashesTo`: false for an empty hash, else whether `Hash` gives it. -/
def hashesTo (H : Hashing) (C : HeaderEncoding) (b : Block E) (verifiedHash hash : Bytes) :
    Bool × Block E × Bytes :=
  if hash.length = 0 then (false, b, verifiedHash)
  else
    let (got, b, verifiedHash) := b.hash H C verifiedHash
    (got == hash, b, verifiedHash)

theorem fillHeader_eq (H : Hashing) (b : Block E) : b.fillHeader H =
    ⟨{ b.header with
        lastCommitHash := if b.header.lastCommitHash = none then
          b.lastCommit.map (Commit.hash H) else b.header.lastCommitHash
        dataHash := if b.header.dataHash = none then some (b.data.hash H).1 else b.header.dataHash
        evidenceHash := if b.header.evidenceHash = none then some (evidenceHash H E b.evidence)
          else b.header.evidenceHash },
      if b.header.dataHash = none then (b.data.hash H).2 else b.data, b.evidence, b.lastCommit⟩ := by
  simp only [fillHeader]; split_ifs <;> simp_all

@[simp] theorem fillHeader_lastCommit (H : Hashing) (b : Block E) :
    (b.fillHeader H).lastCommit = b.lastCommit := by
  rw [fillHeader_eq]

theorem fillHeader_header (H : Hashing) (b : Block E) : ∃ lastCommitHash dataHash evidenceHash,
    (b.fillHeader H).header = { b.header with lastCommitHash, dataHash, evidenceHash } := by
  rw [fillHeader_eq]
  exact ⟨_, _, _, rfl⟩

@[simp] theorem fillHeader_validatorsHash (H : Hashing) (b : Block E) :
    (b.fillHeader H).header.validatorsHash = b.header.validatorsHash := by
  obtain ⟨_, _, _, filled⟩ := fillHeader_header H b
  rw [filled]

/-- The encodings that can fail are of fields `fillHeader` leaves alone. -/
@[simp] theorem fillHeader_hashLeaves_error (H : Hashing) (C : HeaderEncoding) (b : Block E)
    (err : String) :
    (b.fillHeader H).header.hashLeaves C = .error err ↔ b.header.hashLeaves C = .error err := by
  obtain ⟨_, _, _, filled⟩ := fillHeader_header H b
  rw [filled]
  simp only [Header.hashLeaves]
  cases C.marshalVersion b.header.version <;> cases C.stdTimeMarshal b.header.time <;>
    cases C.marshalBlockID b.header.lastBlockID.toProto <;> first | rfl | exact ⟨nofun, nofun⟩

theorem fillHeader_fillHeader (H : Hashing) (b : Block E) :
    (b.fillHeader H).fillHeader H = b.fillHeader H := by
  rw [fillHeader_eq H (b.fillHeader H), fillHeader_eq H b]
  by_cases noCommitHash : b.header.lastCommitHash = none <;>
    by_cases noDataHash : b.header.dataHash = none <;>
    by_cases noEvidenceHash : b.header.evidenceHash = none <;>
    simp [noCommitHash, noDataHash, noEvidenceHash, apply_ite]

/-- Caching the data hash, as `ValidateBasic` does, changes no block hash. -/
theorem hash_cacheDataHash (H : Hashing) (C : HeaderEncoding) (b : Block E) (verifiedHash : Bytes) :
    ({ b with data := (b.data.hash H).2 }.hash H C verifiedHash).1 = (b.hash H C verifiedHash).1 := by
  have filled : ({ b with data := (b.data.hash H).2 }.fillHeader H).header =
      (b.fillHeader H).header := by
    simp [fillHeader_eq]
  unfold Block.hash
  split_ifs <;> simp only [filled]

/-- On a block that passes `ValidateBasic`, `fillHeader` fills in only what the header already
says, up to nil and empty, which `Header.Hash` encodes alike. -/
theorem fillHeader_header_hash_of_valid (H : Hashing) (C : HeaderEncoding) (b : Block E)
    (valid : (b.validateBasic H).1 = .ok ()) : (b.fillHeader H).header.hash H C = b.header.hash H C := by
  obtain ⟨-, c, lc, -, commitHash, dataHash, -, evHash⟩ := (validateBasic_fst_eq_ok H b).mp valid
  have keeps {o : Option Bytes} {v : Bytes} (same : o.getD [] = v) :
      (if o = none then some v else o).getD [] = o.getD [] := by
    cases o <;> simp_all
  rw [fillHeader_eq]
  simp only [Header.hash, Header.hashLeaves, lc, Option.map_some', keeps commitHash,
    keeps dataHash, keeps evHash]

end Block

/-- `BlockFromProto(b.ToProto())` succeeds exactly when `b` passes `ValidateBasic`, its last
commit's block ID and signatures pass their own checks (which `Commit.ValidateBasic` skips
below height 1) and each piece of evidence converts to protobuf and back; it then returns `b`
on header, transactions, square size, evidence and last commit, with the data hash cached as
`b.Data.Hash()` gives it, so under every header encoding it hashes as `b` does. -/
theorem blockFromProto_toProto_iff :
    ∀ (H : Hashing) (E : EvidenceCodec) (b b' : Block E),
      (b.toProto >>= blockFromProto H) = .ok b' ↔
        (b.validateBasic H).1 = .ok () ∧
        (∀ c, b.lastCommit = some c → c.blockID.validateBasic = .ok () ∧
          ∀ s ∈ c.signatures, s.validateBasic = .ok ()) ∧
        (∀ ev ∈ b.evidence, ∃ p ev', E.toProto ev = .ok p ∧ E.fromProto p = .ok ev') ∧
        b' = { b with data := (b.data.hash H).2 } ∧
        ∀ C, (b'.hash H C []).1 = (b.hash H C []).1 := by
  intro H E b b'
  rw [Block.roundTrip_eq_ok]
  constructor
  · rintro ⟨valid, commitOK, evidenceOK, rfl⟩
    exact ⟨valid, commitOK, evidenceOK, rfl, fun C => Block.hash_cacheDataHash H C b []⟩
  · rintro ⟨valid, commitOK, evidenceOK, decoded, -⟩
    exact ⟨valid, commitOK, evidenceOK, decoded⟩

/-- `Block.Hash` is memoised soundly. Whatever the memo holds, a second call returns what the
first returned and leaves the block and the memo as the first left them; and a block hashed
afresh returns the hash of the header it is left with, so the memo always matches the block's
filled header until the block is changed. -/
theorem block_hash_memoizes :
    ∀ (H : Hashing) (C : HeaderEncoding) (E : EvidenceCodec) (b : Block E) (verifiedHash : Bytes),
      (b.hash H C verifiedHash).2.1.hash H C (b.hash H C verifiedHash).2.2 =
        b.hash H C verifiedHash ∧
      (verifiedHash = [] → b.lastCommit ≠ none →
        (b.hash H C verifiedHash).1 = (b.hash H C verifiedHash).2.1.header.hash H C) := by
  intro H C E b verifiedHash
  by_cases noCommit : b.lastCommit = none
  · simp [Block.hash, noCommit]
  by_cases cached : verifiedHash = []
  · subst cached
    by_cases nilHash : ((b.fillHeader H).header.hash H C) = []
    · simp [Block.hash, noCommit, nilHash, Block.fillHeader_fillHeader]
    · simp [Block.hash, noCommit, nilHash]
  · simp [Block.hash, noCommit, cached]

/-- When `Block.Hash` is nil, and that `ValidateBasic` does not exclude it. A block hashed
afresh gets a nil hash exactly when it has no last commit, no validators hash, or a version,
time or last block ID that fails to encode. `ValidateBasic` accepts an empty `ValidatorsHash`,
so under every hashing and encoding some block passes `ValidateBasic`, hashes to nil, and
`HashesTo` nothing. -/
theorem block_hash_nil_iff :
    ∀ (H : Hashing) (C : HeaderEncoding) (E : EvidenceCodec),
      (∀ b : Block E, (b.hash H C []).1 = [] ↔
        b.lastCommit = none ∨ b.header.validatorsHash = [] ∨
          ∃ err, b.header.hashLeaves C = .error err) ∧
      ∃ b : Block E, (b.validateBasic H).1 = .ok () ∧ (b.hash H C []).1 = [] ∧
        ∀ h, (b.hashesTo H C [] h).1 = false := by
  intro H C E
  have nilIff (b : Block E) : (b.hash H C []).1 = [] ↔ b.lastCommit = none ∨
      b.header.validatorsHash = [] ∨ ∃ err, b.header.hashLeaves C = .error err := by
    by_cases noCommit : b.lastCommit = none
    · simp [Block.hash, noCommit]
    · simp [Block.hash, noCommit, Header.hash_eq_nil_iff]
  have nilHash := (nilIff (unflaggedBlock H E)).mpr (.inr (.inl rfl))
  refine ⟨nilIff, unflaggedBlock H E, unflaggedBlock_validateBasic H E, nilHash, fun h => ?_⟩
  unfold Block.hashesTo
  split_ifs with empty
  · rfl
  · simp only [nilHash, beq_eq_false_iff_ne]
    exact fun same => empty (by simp [← same])

/-- A block keeps its hash over the wire. Whenever `BlockFromProto(b.ToProto())` accepts a block,
the block it returns hashes as `b` does, so `HashesTo` holds of it for exactly the hashes it
holds of for `b`. -/
theorem blockFromProto_preserves_hash :
    ∀ (H : Hashing) (C : HeaderEncoding) (E : EvidenceCodec) (b b' : Block E),
      (b.toProto >>= blockFromProto H) = .ok b' →
        (b'.hash H C []).1 = (b.hash H C []).1 ∧
        ∀ h, (b'.hashesTo H C [] h).1 = (b.hashesTo H C [] h).1 := by
  intro H C E b b' decoded
  obtain ⟨-, -, -, rfl⟩ := (Block.roundTrip_eq_ok H b b').mp decoded
  have same := Block.hash_cacheDataHash H C b []
  refine ⟨same, fun h => ?_⟩
  unfold Block.hashesTo
  split_ifs <;> simp [same]

/-- Header encodings that all succeed, with nothing to hash. -/
def emptyEncoding : HeaderEncoding :=
  ⟨fun _ => .ok [], fun _ => .ok [], fun _ => .ok [], fun _ => [], fun _ => [], fun _ => []⟩

theorem filledBlock_keeps_hash :
    ∃ b', ((unfilledBlock.fillHeader zeroHashing).toProto >>= blockFromProto zeroHashing) = .ok b' ∧
      (b'.hash zeroHashing emptyEncoding []).1 =
        ((unfilledBlock.fillHeader zeroHashing).hash zeroHashing emptyEncoding []).1 :=
  ⟨_, rfl, (blockFromProto_preserves_hash zeroHashing emptyEncoding unitEvidence
    (unfilledBlock.fillHeader zeroHashing) _ rfl).1⟩

/-- A validated block is named by its header. On a block that passes `ValidateBasic`, `Hash` is
`Header.Hash` of the header the block carries: `ValidateBasic` has checked each of the three
content hashes against what `fillHeader` would fill in, so `fillHeader` changes nothing. The
same holds for the block as `ValidateBasic` leaves it, with its data hash cached. -/
theorem validated_block_hashes_its_header :
    ∀ (H : Hashing) (C : HeaderEncoding) (E : EvidenceCodec) (b : Block E),
      (b.validateBasic H).1 = .ok () →
        (b.hash H C []).1 = b.header.hash H C ∧
        ((b.validateBasic H).2.hash H C []).1 = b.header.hash H C := by
  intro H C E b valid
  have own : (b.hash H C []).1 = b.header.hash H C := by
    obtain ⟨-, c, lc, -⟩ := (Block.validateBasic_fst_eq_ok H b).mp valid
    simp [Block.hash, lc, Block.fillHeader_header_hash_of_valid H C b valid]
  rw [Block.validateBasic_snd H b valid, Block.hash_cacheDataHash]
  exact ⟨own, own⟩

theorem filledBlock_hashes_its_header :
    ((unfilledBlock.fillHeader zeroHashing).validateBasic zeroHashing).1 = .ok () ∧
      ((unfilledBlock.fillHeader zeroHashing).hash zeroHashing emptyEncoding []).1 =
        (unfilledBlock.fillHeader zeroHashing).header.hash zeroHashing emptyEncoding :=
  ⟨rfl, (validated_block_hashes_its_header zeroHashing emptyEncoding unitEvidence
    (unfilledBlock.fillHeader zeroHashing) rfl).1⟩

end CelestiaCore.Types
