import CelestiaCore.Types.Commit

set_option autoImplicit false

/- `Block` (types/block.go): its header, data, evidence and last commit, `ValidateBasic` and
the conversions to and from protobuf. The hash functions and the evidence types are not under
src/ (crypto/merkle, crypto/tmhash, types/evidence.go): they are parameters, each with the one
law the results need. `Data` keeps its unexported hash, which `ToProto` sends and `Hash` fills
in. `verifiedHash` travels beside the block in `Block.hash` (Types/BlockHash); the other
memoised hashes only ever hold what they memoise and are left out. -/

namespace CelestiaCore.Types

/-- `MaxChainIDLen` (types/genesis.go, not under src/). -/
def maxChainIDLen : Nat := 50

/-- `version.BlockProtocol` (version/version.go, not under src/). -/
def blockProtocol : UInt64 := 11

/-- The hash functions `Block.ValidateBasic` reaches. -/
structure Hashing where
  /-- `merkle.HashFromByteSlices`. -/
  hashFromByteSlices : List Bytes → Bytes
  /-- `tmhash.Sum`. -/
  sum : Bytes → Bytes
  /-- The generated `cmtproto.CommitSig.Marshal`. -/
  marshalCommitSig : Proto.CommitSig → Bytes
  /-- A merkle root is a `tmhash` digest. -/
  hashFromByteSlices_length : ∀ items, (hashFromByteSlices items).length = tmhashSize

/-- The evidence of types/evidence.go: the `Evidence` interface, its protobuf form and the
functions a block calls on them. -/
structure EvidenceCodec where
  Evidence : Type
  Proto : Type
  /-- `EvidenceToProto`. -/
  toProto : Evidence → Except String Proto
  /-- `EvidenceFromProto`. -/
  fromProto : Proto → Except String Evidence
  validateBasic : Evidence → Except String Unit
  bytes : Evidence → Bytes
  /-- What `EvidenceFromProto` decodes from an encoding of `ev` is `ev`. -/
  fromProto_toProto : ∀ ev p ev', toProto ev = .ok p → fromProto p = .ok ev' → ev' = ev

/-- `cmtversion.Consensus`. -/
structure Consensus where
  block : UInt64
  app : UInt64
  deriving DecidableEq, Repr

namespace Proto

/-- `cmtproto.Header`; the three content hashes are `none` when nil. -/
structure Header where
  version : Consensus
  chainID : String
  height : BitVec 64
  time : Time
  lastBlockId : BlockID
  lastCommitHash : Option Bytes
  dataHash : Option Bytes
  validatorsHash : Bytes
  nextValidatorsHash : Bytes
  consensusHash : Bytes
  appHash : Bytes
  lastResultsHash : Bytes
  evidenceHash : Option Bytes
  proposerAddress : Bytes
  deriving DecidableEq, Repr

/-- `cmtproto.Data`; `hash` is `none` when nil. -/
structure Data where
  txs : List Bytes
  squareSize : UInt64
  hash : Option Bytes
  deriving DecidableEq, Repr

/-- `cmtproto.Block`; `lastCommit` is `none` when nil. -/
structure Block (E : EvidenceCodec) where
  header : Header
  data : Data
  evidence : List E.Proto
  lastCommit : Option (CommitOf CommitSig)

end Proto

/-- `Header`. The three content hashes that `fillHeader` fills in when nil are `none` when
nil: a hash decoded from a present empty field is `some []`, which `fillHeader` leaves alone. -/
structure Header where
  version : Consensus
  chainID : String
  height : BitVec 64
  time : Time
  lastBlockID : BlockID
  lastCommitHash : Option Bytes
  dataHash : Option Bytes
  validatorsHash : Bytes
  nextValidatorsHash : Bytes
  consensusHash : Bytes
  appHash : Bytes
  lastResultsHash : Bytes
  evidenceHash : Option Bytes
  proposerAddress : Bytes
  deriving DecidableEq, Repr

namespace Header

/-- `ValidateBasic`; `len(h.ChainID)` counts bytes. -/
def validateBasic (h : Header) : Except String Unit := do
  ensure (h.version.block = blockProtocol) ("block protocol is incorrect: got: " ++
    toString h.version.block ++ ", want: " ++ toString blockProtocol ++ " ")
  ensure (h.chainID.utf8ByteSize ≤ maxChainIDLen) ("chainID is too long; got: " ++
    toString h.chainID.utf8ByteSize ++ ", max: " ++ toString maxChainIDLen)
  ensure (0 ≤ h.height.toInt) "negative Height"
  ensure (h.height.toInt ≠ 0) "zero Height"
  wrapErr "wrong LastBlockID: " h.lastBlockID.validateBasic
  wrapErr "wrong LastCommitHash: " (validateHash (h.lastCommitHash.getD []))
  wrapErr "wrong DataHash: " (validateHash (h.dataHash.getD []))
  wrapErr "wrong EvidenceHash: " (validateHash (h.evidenceHash.getD []))
  ensure (h.proposerAddress.length = addressSize) ("invalid ProposerAddress length; got: " ++
    toString h.proposerAddress.length ++ ", expected: " ++ toString addressSize)
  wrapErr "wrong ValidatorsHash: " (validateHash h.validatorsHash)
  wrapErr "wrong NextValidatorsHash: " (validateHash h.nextValidatorsHash)
  wrapErr "wrong ConsensusHash: " (validateHash h.consensusHash)
  wrapErr "wrong LastResultsHash: " (validateHash h.lastResultsHash)

def toProto (h : Header) : Proto.Header :=
  ⟨h.version, h.chainID, h.height, h.time, h.lastBlockID.toProto, h.lastCommitHash, h.dataHash,
    h.validatorsHash, h.nextValidatorsHash, h.consensusHash, h.appHash, h.lastResultsHash,
    h.evidenceHash, h.proposerAddress⟩

end Header

/-- `HeaderFromProto`: the last block ID is decoded first, then the whole header checked. -/
def headerFromProto (ph : Proto.Header) : Except String Header := do
  let bi ← blockIDFromProto ph.lastBlockId
  let h : Header := ⟨ph.version, ph.chainID, ph.height, ph.time, bi, ph.lastCommitHash,
    ph.dataHash, ph.validatorsHash, ph.nextValidatorsHash, ph.consensusHash, ph.appHash,
    ph.lastResultsHash, ph.evidenceHash, ph.proposerAddress⟩
  h.validateBasic
  return h

/-- `Txs.Hash`: the merkle root of the transactions' hashes. -/
def txsHash (H : Hashing) (txs : List Bytes) : Bytes := H.hashFromByteSlices (txs.map H.sum)

/-- `Data`. `cachedHash` is its unexported field `hash`, `none` when nil. -/
structure Data where
  txs : List Bytes
  squareSize : UInt64
  cachedHash : Option Bytes
  deriving DecidableEq, Repr

namespace Data

/-- `Hash`: the cached hash if there is one, else the transactions' hash, which it caches. -/
def hash (H : Hashing) (data : Data) : Bytes × Data :=
  match data.cachedHash with
  | some h => (h, data)
  | none => (txsHash H data.txs, { data with cachedHash := some (txsHash H data.txs) })

def toProto (data : Data) : Proto.Data := ⟨data.txs, data.squareSize, data.cachedHash⟩

@[simp] theorem hash_hash (H : Hashing) (data : Data) : (data.hash H).2.hash H = data.hash H := by
  cases h : data.cachedHash <;> simp [hash, h]

end Data

/-- `DataFromProto`; its only error is for a nil argument, which `BlockFromProto` never
passes. -/
def dataFromProto (dp : Proto.Data) : Data := ⟨dp.txs, dp.squareSize, dp.hash⟩

/-- `Commit.Hash`: the merkle root of the marshalled signatures. -/
def Commit.hash (H : Hashing) (commit : Commit) : Bytes :=
  H.hashFromByteSlices (commit.signatures.map fun s => H.marshalCommitSig s.toProto)

/-- `EvidenceList.Hash`: the merkle root of the evidence bytes. -/
def evidenceHash (H : Hashing) (E : EvidenceCodec) (evidence : List E.Evidence) : Bytes :=
  H.hashFromByteSlices (evidence.map E.bytes)

/-- `Block`, with `Evidence.Evidence` as `evidence`; `lastCommit` is `none` when nil. -/
structure Block (E : EvidenceCodec) where
  header : Header
  data : Data
  evidence : List E.Evidence
  lastCommit : Option Commit

namespace Block

variable {E : EvidenceCodec}

/-- `ValidateBasic`, and the block it leaves behind: once it reaches the data hash check,
`Data.Hash` has filled in the data's cached hash. -/
def validateBasic (H : Hashing) (b : Block E) : Except String Unit × Block E :=
  match wrapErr "invalid header: " b.header.validateBasic with
  | .error err => (.error err, b)
  | .ok () =>
  match b.lastCommit with
  | none => (.error "nil LastCommit", b)
  | some lastCommit =>
  match lastCommit.validateBasic with
  | .error err => (.error ("wrong LastCommit: " ++ err), b)
  | .ok () =>
  if b.header.lastCommitHash.getD [] ≠ lastCommit.hash H then
    (.error ("wrong Header.LastCommitHash. Expected " ++ hexString (lastCommit.hash H) ++
      ", got " ++ hexString (b.header.lastCommitHash.getD [])), b)
  else
  let (dataHash, data) := b.data.hash H
  let b := { b with data := data }
  if b.header.dataHash.getD [] ≠ dataHash then
    (.error ("wrong Header.DataHash. Expected " ++ hexString dataHash ++ ", got " ++
      hexString (b.header.dataHash.getD [])), b)
  else
  match validateEach (fun i err => "invalid evidence (#" ++ toString i ++ "): " ++ err)
      E.validateBasic 0 b.evidence with
  | .error err => (.error err, b)
  | .ok () =>
  if b.header.evidenceHash.getD [] ≠ evidenceHash H E b.evidence then
    (.error ("wrong Header.EvidenceHash. Expected " ++ hexString (b.header.evidenceHash.getD []) ++
      ", got " ++ hexString (evidenceHash H E b.evidence)), b)
  else (.ok (), b)

/-- `fillHeader`: each header hash that is nil is filled in from the block's contents, the last
commit's (nil for a nil commit), the data's, which `Data.Hash` caches, and the evidence's. -/
def fillHeader (H : Hashing) (b : Block E) : Block E :=
  let b := if b.header.lastCommitHash = none then
      { b with header.lastCommitHash := b.lastCommit.map (Commit.hash H) }
    else b
  let b := if b.header.dataHash = none then
      { b with header.dataHash := some (b.data.hash H).1, data := (b.data.hash H).2 }
    else b
  if b.header.evidenceHash = none then
    { b with header.evidenceHash := some (evidenceHash H E b.evidence) }
  else b

/-- `ToProto`: only the evidence conversion can fail. -/
def toProto (b : Block E) : Except String (Proto.Block E) := do
  let evidence ← b.evidence.mapM E.toProto
  return ⟨b.header.toProto, b.data.toProto, evidence, b.lastCommit.map Commit.toProto⟩

end Block

/-- `BlockFromProto`: header, data, evidence and the last commit if there is one, then
`ValidateBasic` on the block built, which returns the block as `ValidateBasic` leaves it. -/
def blockFromProto (H : Hashing) {E : EvidenceCodec} (bp : Proto.Block E) :
    Except String (Block E) := do
  let h ← headerFromProto bp.header
  let data := dataFromProto bp.data
  let evidence ← bp.evidence.mapM E.fromProto
  let lastCommit ← bp.lastCommit.mapM commitFromProto
  let checked := (⟨h, data, evidence, lastCommit⟩ : Block E).validateBasic H
  checked.1.map fun _ => checked.2

end CelestiaCore.Types
