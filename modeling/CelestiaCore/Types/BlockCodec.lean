import CelestiaCore.Types.Block
import CelestiaCore.Types.CommitCodec

set_option autoImplicit false

/- What `BlockFromProto(b.ToProto())` returns, for every block and every hashing and evidence
implementation. `BlockFromProto` decodes the last commit with `CommitFromProto`, which checks
the commit's block ID and every signature at any height, while `Commit.ValidateBasic` checks
the signatures only from height 1 on and the block ID only for being non-zero: a block can
pass `ValidateBasic` and still not survive the round trip. `BlockFromProto` also takes the data
hash from the wire and never hashes the transactions against it. Last, that on a block whose
nil header hashes `fillHeader` filled in `ValidateBasic` fails on none of the hash checks. -/

namespace CelestiaCore.Types

namespace Header

theorem validateBasic_eq_ok (h : Header) : h.validateBasic = .ok () ↔
    h.version.block = blockProtocol ∧ h.chainID.utf8ByteSize ≤ maxChainIDLen ∧
    0 ≤ h.height.toInt ∧ h.height.toInt ≠ 0 ∧ h.lastBlockID.validateBasic = .ok () ∧
    validateHash (h.lastCommitHash.getD []) = .ok () ∧ validateHash (h.dataHash.getD []) = .ok () ∧
    validateHash (h.evidenceHash.getD []) = .ok () ∧ h.proposerAddress.length = addressSize ∧
    validateHash h.validatorsHash = .ok () ∧ validateHash h.nextValidatorsHash = .ok () ∧
    validateHash h.consensusHash = .ok () ∧ validateHash h.lastResultsHash = .ok () := by
  simp only [validateBasic, bind_unit_eq_ok, ensure_eq_ok, wrapErr_eq_ok]

@[simp] theorem toProto_inj {h h' : Header} : h.toProto = h'.toProto ↔ h = h' := by
  cases h
  cases h'
  simp [toProto]

end Header

theorem headerFromProto_eq_ok (ph : Proto.Header) (h : Header) :
    headerFromProto ph = .ok h ↔ h.validateBasic = .ok () ∧ ph = h.toProto := by
  simp only [headerFromProto, bind_eq_ok, exists_unit, pure_eq_ok, blockIDFromProto_eq_ok]
  constructor
  · rintro ⟨_, ⟨-, blockID_eq⟩, valid, rfl⟩
    refine ⟨valid, ?_⟩
    cases ph
    simp_all [Header.toProto]
  · rintro ⟨valid, rfl⟩
    exact ⟨h.lastBlockID, ⟨((Header.validateBasic_eq_ok h).mp valid).2.2.2.2.1, rfl⟩, valid, rfl⟩

@[simp] theorem dataFromProto_toProto (data : Data) : dataFromProto data.toProto = data := rfl

namespace Block

variable {E : EvidenceCodec}

/-- `ValidateBasic`'s verdict as the chain of checks it runs, each stopping at its error. -/
theorem validateBasic_fst (H : Hashing) (b : Block E) : (b.validateBasic H).1 = (do
    wrapErr "invalid header: " b.header.validateBasic
    match b.lastCommit with
    | none => .error "nil LastCommit"
    | some c => do
      wrapErr "wrong LastCommit: " c.validateBasic
      ensure (b.header.lastCommitHash.getD [] = c.hash H) ("wrong Header.LastCommitHash. " ++
        "Expected " ++ hexString (c.hash H) ++ ", got " ++ hexString (b.header.lastCommitHash.getD []))
      ensure (b.header.dataHash.getD [] = (b.data.hash H).1) ("wrong Header.DataHash. Expected " ++
        hexString (b.data.hash H).1 ++ ", got " ++ hexString (b.header.dataHash.getD []))
      validateEach (fun i err => "invalid evidence (#" ++ toString i ++ "): " ++ err)
        E.validateBasic 0 b.evidence
      ensure (b.header.evidenceHash.getD [] = evidenceHash H E b.evidence)
        ("wrong Header.EvidenceHash. Expected " ++ hexString (b.header.evidenceHash.getD []) ++
          ", got " ++ hexString (evidenceHash H E b.evidence)) : Except String Unit) := by
  rcases b with ⟨header, data, evidence, lastCommit⟩
  simp only [validateBasic, ensure, ne_eq, ite_not]
  cases header.validateBasic <;> try rfl
  cases lastCommit with
  | none => rfl
  | some c =>
    dsimp only
    cases c.validateBasic <;> try rfl
    split_ifs <;> try rfl
    all_goals
      cases validateEach (fun i err => "invalid evidence (#" ++ toString i ++ "): " ++ err)
        E.validateBasic 0 evidence <;> rfl

/-- What `Block.ValidateBasic` accepts: a well-formed header, a last commit that passes its
check and hashes to `LastCommitHash`, data that hashes to `DataHash` (its cached hash when it
has one), and well-formed evidence that hashes to `EvidenceHash`. -/
theorem validateBasic_fst_eq_ok (H : Hashing) (b : Block E) :
    (b.validateBasic H).1 = .ok () ↔ b.header.validateBasic = .ok () ∧ ∃ c,
      b.lastCommit = some c ∧ c.validateBasic = .ok () ∧ b.header.lastCommitHash.getD [] = c.hash H ∧
      b.header.dataHash.getD [] = (b.data.hash H).1 ∧
      (∀ ev ∈ b.evidence, E.validateBasic ev = .ok ()) ∧
      b.header.evidenceHash.getD [] = evidenceHash H E b.evidence := by
  rw [validateBasic_fst]
  cases b.lastCommit <;> simp [validateEach_eq_ok]

theorem validateBasic_snd (H : Hashing) (b : Block E) (valid : (b.validateBasic H).1 = .ok ()) :
    (b.validateBasic H).2 = { b with data := (b.data.hash H).2 } := by
  obtain ⟨header, c, lc, commitValid, commitHash, dataHash, evValid, evHash⟩ :=
    (validateBasic_fst_eq_ok H b).mp valid
  have each := (validateEach_eq_ok (fun i err => "invalid evidence (#" ++ toString i ++ "): " ++
    err) E.validateBasic 0 b.evidence).mpr evValid
  rcases b with ⟨h, data, evidence, lastCommit⟩
  subst lc
  simp_all [validateBasic, wrapErr]

@[simp] theorem validateBasic_snd_of_cached (H : Hashing) (header : Header) (txs : List Bytes)
    (squareSize : UInt64) (h : Bytes) (evs : List E.Evidence) (lc : Option Commit) :
    (validateBasic H ⟨header, ⟨txs, squareSize, some h⟩, evs, lc⟩).2 =
      ⟨header, ⟨txs, squareSize, some h⟩, evs, lc⟩ := by
  simp only [validateBasic, Data.hash]
  repeat' split
  all_goals rfl

theorem validateBasic_fst_of_cached (H : Hashing) (header : Header) (txs txs' : List Bytes)
    (squareSize : UInt64) (h : Bytes) (evs : List E.Evidence) (lc : Option Commit) :
    (validateBasic H ⟨header, ⟨txs', squareSize, some h⟩, evs, lc⟩).1 =
      (validateBasic H ⟨header, ⟨txs, squareSize, some h⟩, evs, lc⟩).1 := by
  simp only [validateBasic_fst, Data.hash]

end Block

theorem evidence_roundTrip (E : EvidenceCodec) (evs evs' : List E.Evidence) :
    (∃ ps, evs.mapM E.toProto = .ok ps ∧ ps.mapM E.fromProto = .ok evs') ↔
      (∀ ev ∈ evs, ∃ p ev', E.toProto ev = .ok p ∧ E.fromProto p = .ok ev') ∧ evs' = evs := by
  simp only [mapM_eq_ok]
  induction evs generalizing evs' with
  | nil => simp [List.forall₂_nil_left_iff, eq_comm]
  | cons ev rest ih =>
    simp only [List.forall₂_cons_left_iff, List.forall_mem_cons]
    constructor
    · rintro ⟨_, ⟨p, ps, enc, encs, rfl⟩, decoded⟩
      obtain ⟨ev', evs'', dec, decs, rfl⟩ := List.forall₂_cons_left_iff.mp decoded
      obtain ⟨rest_ok, rfl⟩ := (ih _).mp ⟨ps, encs, decs⟩
      exact ⟨⟨⟨p, ev', enc, dec⟩, rest_ok⟩, by rw [E.fromProto_toProto ev p ev' enc dec]⟩
    · rintro ⟨⟨⟨p, ev', enc, dec⟩, rest_ok⟩, rfl⟩
      obtain ⟨ps, encs, decs⟩ := (ih rest).mpr ⟨rest_ok, rfl⟩
      exact ⟨_, ⟨p, ps, enc, encs, rfl⟩, .cons (E.fromProto_toProto ev p ev' enc dec ▸ dec) decs⟩

theorem lastCommit_roundTrip (lc lc' : Option Commit) :
    (lc.map Commit.toProto).mapM commitFromProto = .ok lc' ↔
      (∀ c, lc = some c → c.blockID.validateBasic = .ok () ∧
        (∀ s ∈ c.signatures, s.validateBasic = .ok ()) ∧ c.validateBasic = .ok ()) ∧ lc' = lc := by
  cases lc with
  | none => simp [Option.mapM, pure, Except.pure, eq_comm]
  | some c =>
    have decode := CommitOf.fromProtoWith_toProtoWith _ _ _ CommitSig.fromProto_toProto
      Commit.validateBasic c
    simp only [Option.map_some', Option.mapM, bind_eq_ok, pure_eq_ok, commitFromProto,
      Commit.toProto, decode, Option.some.injEq, forall_eq']
    constructor
    · rintro ⟨_, ⟨rfl, valid⟩, rfl⟩
      exact ⟨valid, rfl⟩
    · rintro ⟨valid, rfl⟩
      exact ⟨c, ⟨rfl, valid⟩, rfl⟩

namespace Block

variable {E : EvidenceCodec}

theorem toProto_eq_ok (b : Block E) (bp : Proto.Block E) :
    b.toProto = .ok bp ↔ ∃ ps, b.evidence.mapM E.toProto = .ok ps ∧
      bp = ⟨b.header.toProto, b.data.toProto, ps, b.lastCommit.map Commit.toProto⟩ := by
  simp only [toProto, bind_eq_ok, pure_eq_ok]
  exact exists_congr fun _ => and_congr_right fun _ => eq_comm

end Block

/-- What `BlockFromProto` accepts and returns: each part decodes, and the block they make
passes `ValidateBasic`, which returns it with its data hash cached. -/
theorem blockFromProto_eq_ok (H : Hashing) {E : EvidenceCodec} (bp : Proto.Block E)
    (b' : Block E) :
    blockFromProto H bp = .ok b' ↔ ∃ h, headerFromProto bp.header = .ok h ∧
      ∃ evs, bp.evidence.mapM E.fromProto = .ok evs ∧
      ∃ lc, bp.lastCommit.mapM commitFromProto = .ok lc ∧
      ((⟨h, dataFromProto bp.data, evs, lc⟩ : Block E).validateBasic H).1 = .ok () ∧
      ((⟨h, dataFromProto bp.data, evs, lc⟩ : Block E).validateBasic H).2 = b' := by
  simp only [blockFromProto, bind_eq_ok, map_eq_ok, exists_unit]

namespace Block

variable {E : EvidenceCodec}

/-- Decoding an encoded block succeeds exactly when the block passes `ValidateBasic`, its last
commit's block ID and signatures pass their own checks, and its evidence converts both ways;
it returns the block with its data hash cached. -/
theorem roundTrip_eq_ok (H : Hashing) (b b' : Block E) :
    (b.toProto >>= blockFromProto H) = .ok b' ↔
      (b.validateBasic H).1 = .ok () ∧
      (∀ c, b.lastCommit = some c → c.blockID.validateBasic = .ok () ∧
        ∀ s ∈ c.signatures, s.validateBasic = .ok ()) ∧
      (∀ ev ∈ b.evidence, ∃ p ev', E.toProto ev = .ok p ∧ E.fromProto p = .ok ev') ∧
      b' = { b with data := (b.data.hash H).2 } := by
  rcases b with ⟨header, data, evs, lc⟩
  simp only [bind_eq_ok, toProto_eq_ok, blockFromProto_eq_ok]
  constructor
  · rintro ⟨_, ⟨ps, enc, rfl⟩, h, headerDec, evs', decs, lc', lcDec, valid, rfl⟩
    obtain ⟨-, same⟩ := (headerFromProto_eq_ok _ _).mp headerDec
    cases Header.toProto_inj.mp same
    obtain ⟨evOK, rfl⟩ := (evidence_roundTrip E _ _).mp ⟨ps, enc, decs⟩
    obtain ⟨commitOK, rfl⟩ := (lastCommit_roundTrip _ _).mp lcDec
    rw [dataFromProto_toProto] at valid ⊢
    exact ⟨valid, fun c hc => ⟨(commitOK c hc).1, (commitOK c hc).2.1⟩, evOK,
      validateBasic_snd H _ valid⟩
  · rintro ⟨valid, commitOK, evOK, rfl⟩
    obtain ⟨headerValid, c, rfl, commitValid, -⟩ := (validateBasic_fst_eq_ok H _).mp valid
    obtain ⟨ps, enc, decs⟩ := (evidence_roundTrip E _ _).mpr ⟨evOK, rfl⟩
    refine ⟨_, ⟨ps, enc, rfl⟩, header, (headerFromProto_eq_ok _ _).mpr ⟨headerValid, rfl⟩, evs,
      decs, some c, (lastCommit_roundTrip (some c) (some c)).mpr ⟨fun c' hc' => ?_, rfl⟩, ?_⟩
    · cases hc'
      exact ⟨(commitOK c rfl).1, (commitOK c rfl).2, commitValid⟩
    · rw [dataFromProto_toProto]
      exact ⟨valid, validateBasic_snd H _ valid⟩

end Block

/-- The block ID and header decoders are canonical: each accepts exactly the encodings of the
values that pass their `ValidateBasic`, and returns the value encoded. -/
theorem blockID_header_fromProto_canonical :
    (∀ (p : Proto.BlockID) (b : BlockID),
      blockIDFromProto p = .ok b ↔ b.validateBasic = .ok () ∧ p = b.toProto) ∧
    ∀ (ph : Proto.Header) (h : Header),
      headerFromProto ph = .ok h ↔ h.validateBasic = .ok () ∧ ph = h.toProto :=
  ⟨blockIDFromProto_eq_ok, headerFromProto_eq_ok⟩

/-- A last commit at height 0 with one signature whose flag is 0, which is no flag:
`Commit.ValidateBasic` does not look at signatures below height 1. -/
def unflaggedLastCommit : Commit := ⟨0, 0, ⟨[], ⟨0, []⟩⟩, [⟨0, [], ⟨0, 0⟩, []⟩]⟩

/-- A block at height 1 that passes `ValidateBasic` whatever the hashing: that last commit, no
transactions with an empty cached data hash, and no evidence. -/
def unflaggedBlock (H : Hashing) (E : EvidenceCodec) : Block E where
  header := {
    version := ⟨blockProtocol, 0⟩
    chainID := ""
    height := 1
    time := ⟨0, 0⟩
    lastBlockID := ⟨[], ⟨0, []⟩⟩
    lastCommitHash := some (unflaggedLastCommit.hash H)
    dataHash := some []
    validatorsHash := []
    nextValidatorsHash := []
    consensusHash := []
    appHash := []
    lastResultsHash := []
    evidenceHash := some (evidenceHash H E [])
    proposerAddress := List.replicate addressSize 0 }
  data := ⟨[], 0, some []⟩
  evidence := []
  lastCommit := some unflaggedLastCommit

theorem unflaggedBlock_validateBasic (H : Hashing) (E : EvidenceCodec) :
    ((unflaggedBlock H E).validateBasic H).1 = .ok () := by
  simp [Block.validateBasic_fst_eq_ok, Header.validateBasic_eq_ok, BlockID.validateBasic_eq_ok,
    unflaggedBlock, Commit.validateBasic, CommitOf.validateWith_eq_ok, unflaggedLastCommit,
    Data.hash, H.hashFromByteSlices_length, Commit.hash, evidenceHash]
  decide

/-- Under every hashing and evidence implementation, some block passes `ValidateBasic` yet
does not come back from `BlockFromProto(b.ToProto())`: `unflaggedBlock`. -/
theorem blockFromProto_rejects_valid_block :
    ¬ ∃ (H : Hashing) (E : EvidenceCodec), ∀ b : Block E,
      (∃ b', (b.toProto >>= blockFromProto H) = .ok b') ↔ (b.validateBasic H).1 = .ok () := by
  rintro ⟨H, E, law⟩
  obtain ⟨_, roundTrip⟩ := (law _).mpr (unflaggedBlock_validateBasic H E)
  obtain ⟨-, commitOK, -⟩ := (Block.roundTrip_eq_ok H _ _).mp roundTrip
  have flag := CommitSig.flag_of_validateBasic
    ((commitOK unflaggedLastCommit rfl).2 _ (List.mem_singleton_self _))
  simp [unflaggedLastCommit, blockIDFlagAbsent, blockIDFlagCommit, blockIDFlagNil] at flag

/-- `BlockFromProto` trusts the data hash the wire block carries: once it is set, the
transactions are never hashed, so any transactions decode exactly as none would, with the same
error or the same block, and a block whose transactions do not hash to its `DataHash` is
accepted. -/
theorem blockFromProto_trusts_data_hash :
    ∀ (H : Hashing) (E : EvidenceCodec) (bp : Proto.Block E) (txs : List Bytes) (h : Bytes),
      blockFromProto H { bp with data := ⟨txs, bp.data.squareSize, some h⟩ } =
        (blockFromProto H { bp with data := ⟨[], bp.data.squareSize, some h⟩ }).map
          fun b => { b with data := { b.data with txs := txs } } := by
  intro H E bp txs h
  simp only [blockFromProto, dataFromProto]
  cases headerFromProto bp.header <;> cases bp.evidence.mapM E.fromProto <;>
    cases bp.lastCommit.mapM commitFromProto <;> try rfl
  simp only [bind, Except.bind, Block.validateBasic_fst_of_cached H _ [] txs,
    Block.validateBasic_snd_of_cached]
  cases (Block.validateBasic H _).1 <;> rfl

/-- The data's cache holds the hash of its transactions, or nothing yet. -/
def Data.Coherent (H : Hashing) (data : Data) : Prop :=
  data.cachedHash = none ∨ data.cachedHash = some (txsHash H data.txs)

instance (H : Hashing) : DecidablePred (Data.Coherent H) :=
  fun _ => inferInstanceAs (Decidable (_ ∨ _))

theorem Data.hash_length {H : Hashing} {data : Data} (coherent : data.Coherent H) :
    (data.hash H).1.length = tmhashSize := by
  rcases data with ⟨txs, squareSize, _ | h⟩ <;> rcases coherent with none | some <;>
    simp_all [Data.hash, txsHash, H.hashFromByteSlices_length]

/-- `fillHeader` makes a header commit to its block: once the nil last commit, data and evidence
hashes of a block with coherent data are filled in, `ValidateBasic` fails on none of the three
hash checks, and checks only the header, the last commit and the evidence themselves. A data
hash that is present but empty is not nil: `fillHeader` keeps it, and the block fails. -/
theorem fillHeader_validateBasic :
    ∀ (H : Hashing) (E : EvidenceCodec) (b : Block E), b.data.Coherent H →
      (b.header.lastCommitHash = none → b.header.dataHash = none → b.header.evidenceHash = none →
        (((b.fillHeader H).validateBasic H).1 = .ok () ↔
          b.header.validateBasic = .ok () ∧
            (∃ c, b.lastCommit = some c ∧ c.validateBasic = .ok ()) ∧
            ∀ ev ∈ b.evidence, E.validateBasic ev = .ok ())) ∧
      (b.header.dataHash = some [] → ((b.fillHeader H).validateBasic H).1 ≠ .ok ()) := by
  rintro H E ⟨h, data, evs, lc⟩ coherent
  simp only at coherent ⊢
  constructor
  · intro noCommitHash noDataHash noEvidenceHash
    have hashes : validateHash (data.hash H).1 = .ok () ∧
        validateHash (evidenceHash H E evs) = .ok () := by
      simp [validateHash_eq_ok, Data.hash_length coherent, evidenceHash,
        H.hashFromByteSlices_length]
    cases lc <;> simp [Block.fillHeader, noCommitHash, noDataHash, noEvidenceHash,
      Block.validateBasic_fst_eq_ok, Header.validateBasic_eq_ok, hashes, validateHash_eq_ok,
      Commit.hash, H.hashFromByteSlices_length]
  · intro emptyDataHash valid
    have kept : (Block.fillHeader H ⟨h, data, evs, lc⟩).header.dataHash = some [] ∧
        (Block.fillHeader H ⟨h, data, evs, lc⟩).data = data := by
      simp only [Block.fillHeader]
      split_ifs <;> simp_all
    obtain ⟨-, -, -, -, -, dataHashOK, -⟩ := (Block.validateBasic_fst_eq_ok H _).mp valid
    have empty := congrArg List.length dataHashOK
    simp only [kept, Option.getD_some, List.length_nil, Data.hash_length coherent] at empty
    exact absurd empty (by decide)

/-- A hashing whose every digest is `tmhash.Size` zero bytes. -/
def zeroHashing : Hashing :=
  ⟨fun _ => List.replicate tmhashSize 0, id, fun _ => [], fun _ => List.length_replicate _ _⟩

/-- Evidence of one kind that carries nothing and always converts. -/
def unitEvidence : EvidenceCodec :=
  ⟨Unit, Unit, fun _ => .ok (), fun _ => .ok (), fun _ => .ok (), fun _ => [], fun _ _ _ _ _ => rfl⟩

/-- A block at height 1 with its three content hashes nil, no transactions, one piece of
evidence and a last commit of one absent signature. -/
def unfilledBlock : Block unitEvidence where
  header := {
    version := ⟨blockProtocol, 0⟩
    chainID := ""
    height := 1
    time := ⟨0, 0⟩
    lastBlockID := ⟨[], ⟨0, []⟩⟩
    lastCommitHash := none
    dataHash := none
    validatorsHash := []
    nextValidatorsHash := []
    consensusHash := []
    appHash := []
    lastResultsHash := []
    evidenceHash := none
    proposerAddress := List.replicate addressSize 0 }
  data := ⟨[], 0, none⟩
  evidence := [()]
  lastCommit := some ⟨0, 0, ⟨[], ⟨0, []⟩⟩, [newCommitSigAbsent]⟩

theorem unfilledBlock_fillHeader_valid :
    unfilledBlock.data.Coherent zeroHashing ∧ unfilledBlock.header.lastCommitHash = none ∧
      unfilledBlock.header.dataHash = none ∧ unfilledBlock.header.evidenceHash = none ∧
      ((unfilledBlock.fillHeader zeroHashing).validateBasic zeroHashing).1 = .ok () ∧
      ({ unfilledBlock with header.dataHash := some [] }).data.Coherent zeroHashing ∧
      ({ unfilledBlock with header.dataHash := some [] }).header.dataHash = some [] ∧
      (({ unfilledBlock with header.dataHash := some [] }.fillHeader zeroHashing).validateBasic
        zeroHashing).1 ≠ .ok () :=
  ⟨.inl rfl, rfl, rfl, rfl,
    ((fillHeader_validateBasic zeroHashing unitEvidence unfilledBlock (.inl rfl)).1 rfl rfl
      rfl).mpr ⟨rfl, ⟨_, rfl, rfl⟩, fun _ _ => rfl⟩,
    .inl rfl, rfl,
    (fillHeader_validateBasic zeroHashing unitEvidence
      { unfilledBlock with header.dataHash := some [] } (.inl rfl)).2 rfl⟩

end CelestiaCore.Types
