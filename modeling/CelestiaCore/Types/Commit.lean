import CelestiaCore.Types.CommitSig

set_option autoImplicit false

/- `Commit` and `ExtendedCommit` (types/block.go). The two have one layout, a height, a round,
a block ID and a list of signatures, and differ only in the signature they carry; each of
their near-identical methods is one definition over that layout, applied to the signature's
own check, conversion and messages. Then what the checks fail with, what `EnsureExtensions`
accepts, and what `GetVote` returns on a well-formed commit. -/

namespace CelestiaCore.Types

/-- `s[i]` with an `int32` index: a runtime panic outside `[0, len(s))`. -/
def index {α : Type} (s : List α) (i : BitVec 32) : Except String α :=
  match (if i.toInt < 0 then none else s[i.toNat]?) with
  | some x => .ok x
  | none => .error ("index out of range [" ++ toString i.toInt ++ "] with length " ++
      toString s.length)

theorem index_map {α β : Type} (f : α → β) (s : List α) (i : BitVec 32) :
    index (s.map f) i = (index s i).map f := by
  unfold index
  split_ifs <;> simp only [List.getElem?_map, List.length_map] <;>
    cases s[i.toNat]? <;> rfl

theorem index_eq_ok {α : Type} (s : List α) (i : BitVec 32) (x : α) :
    index s i = .ok x ↔ 0 ≤ i.toInt ∧ s[i.toNat]? = some x := by
  by_cases neg : i.toInt < 0
  · simp [index, neg, Int.not_le.mpr neg]
  · cases get : s[i.toNat]? <;> simp [index, neg, get, Int.not_lt.mp neg]

/-- `cmtproto.SignedMsgType`: a protobuf enum, an `int32`. -/
abbrev SignedMsgType := BitVec 32

def precommitType : SignedMsgType := 2

/-- `Vote` (types/vote.go, not under src/): the fields `GetVote` and `GetExtendedVote` set. -/
structure Vote where
  type : SignedMsgType
  height : BitVec 64
  round : BitVec 32
  blockID : BlockID
  timestamp : Time
  validatorAddress : Bytes
  validatorIndex : BitVec 32
  signature : Bytes
  extension : Bytes
  extensionSignature : Bytes
  deriving DecidableEq, Repr

namespace Proto

/-- `cmtproto.Commit` (with `CommitSig`s) and `cmtproto.ExtendedCommit` (with
`ExtendedCommitSig`s). -/
structure CommitOf (σ : Type) where
  height : BitVec 64
  round : BitVec 32
  blockID : BlockID
  signatures : List σ
  deriving DecidableEq, Repr

end Proto

/-- The layout `Commit` and `ExtendedCommit` share; `signatures` is `Signatures` in the one and
`ExtendedSignatures` in the other. -/
structure CommitOf (σ : Type) where
  height : BitVec 64
  round : BitVec 32
  blockID : BlockID
  signatures : List σ
  deriving DecidableEq, Repr

abbrev Commit := CommitOf CommitSig

abbrev ExtendedCommit := CommitOf ExtendedCommitSig

namespace CommitOf

variable {σ π : Type}

/-- `ValidateBasic` of either commit, given the message for a nil block, the label of a
signature's error and the signature's own check. -/
def validateWith (nilBlock label : String) (validateSig : σ → Except String Unit)
    (c : CommitOf σ) : Except String Unit :=
  if c.height.toInt < 0 then .error "negative Height"
  else if c.round.toInt < 0 then .error "negative Round"
  else if c.height.toInt ≥ 1 then
    if c.blockID.isZero then .error nilBlock
    else if c.signatures.length = 0 then .error "no signatures in commit"
    else validateEach (fun i err => label ++ toString i ++ ": " ++ err) validateSig 0 c.signatures
  else .ok ()

/-- What either `ValidateBasic` accepts: a height and round that are not negative, and from
height 1 on a non-zero block ID and at least one signature, each passing its own check. -/
theorem validateWith_eq_ok (nilBlock label : String) (validateSig : σ → Except String Unit)
    (c : CommitOf σ) :
    c.validateWith nilBlock label validateSig = .ok () ↔
      0 ≤ c.height.toInt ∧ 0 ≤ c.round.toInt ∧
      (1 ≤ c.height.toInt → c.blockID.isZero = false ∧ c.signatures ≠ [] ∧
        ∀ s ∈ c.signatures, validateSig s = .ok ()) := by
  unfold validateWith
  by_cases negHeight : c.height.toInt < 0
  · simp [negHeight, show ¬ 0 ≤ c.height.toInt by omega]
  by_cases negRound : c.round.toInt < 0
  · simp [negHeight, negRound, show ¬ 0 ≤ c.round.toInt by omega]
  simp only [negHeight, negRound, ↓reduceIte, Int.not_lt.mp negHeight, Int.not_lt.mp negRound,
    true_and, ge_iff_le]
  by_cases started : 1 ≤ c.height.toInt
  · cases zero : c.blockID.isZero <;> cases sigs : c.signatures <;>
      simp [started, zero, sigs, validateEach_eq_ok]
  · simp [started]

/-- What either `ValidateBasic` fails with: the message of the first check that fails, and
for a signature the label with the index of the first one that fails its own check. -/
theorem validateWith_eq_error (nilBlock label : String) (validateSig : σ → Except String Unit)
    (c : CommitOf σ) (e : String) :
    c.validateWith nilBlock label validateSig = .error e ↔
      (c.height.toInt < 0 ∧ e = "negative Height") ∨
      (0 ≤ c.height.toInt ∧ c.round.toInt < 0 ∧ e = "negative Round") ∨
      (0 ≤ c.height.toInt ∧ 0 ≤ c.round.toInt ∧ 1 ≤ c.height.toInt ∧
        ((c.blockID.isZero = true ∧ e = nilBlock) ∨
          (c.blockID.isZero = false ∧ c.signatures = [] ∧ e = "no signatures in commit") ∨
          (c.blockID.isZero = false ∧ ∃ pre s post err, c.signatures = pre ++ s :: post ∧
            (∀ s' ∈ pre, validateSig s' = .ok ()) ∧ validateSig s = .error err ∧
            e = label ++ toString pre.length ++ ": " ++ err))) := by
  unfold validateWith
  by_cases negHeight : c.height.toInt < 0
  · simp [negHeight, @eq_comm _ e, Int.not_le.mpr negHeight]
  by_cases negRound : c.round.toInt < 0
  · simp [negHeight, negRound, @eq_comm _ e, Int.not_lt.mp negHeight, Int.not_le.mpr negRound]
  simp only [negHeight, negRound, ↓reduceIte, Int.not_lt.mp negHeight, Int.not_lt.mp negRound,
    false_and, false_or, true_and, ge_iff_le]
  by_cases started : 1 ≤ c.height.toInt
  · cases zero : c.blockID.isZero <;> cases sigs : c.signatures <;>
      simp [started, zero, sigs, validateEach_eq_error, @eq_comm _ e]
  · simp [started]

def toProtoWith (sigToProto : σ → π) (c : CommitOf σ) : Proto.CommitOf π :=
  ⟨c.height, c.round, c.blockID.toProto, c.signatures.map sigToProto⟩

/-- `CommitFromProto` and `ExtendedCommitFromProto`: the block ID, then each signature in
order, then the whole commit is checked. -/
def fromProtoWith (sigFromProto : π → Except String σ) (validate : CommitOf σ → Except String Unit)
    (cp : Proto.CommitOf π) : Except String (CommitOf σ) := do
  let bi ← blockIDFromProto cp.blockID
  let sigs ← cp.signatures.mapM sigFromProto
  let commit : CommitOf σ := ⟨cp.height, cp.round, bi, sigs⟩
  validate commit
  return commit

/-- `GetVote` and `GetExtendedVote`: the vote signature `valIdx` stands for, given how a
signature gives its `CommitSig` and its extension. -/
def voteWith (commitSig : σ → CommitSig) (extension extensionSignature : σ → Bytes)
    (c : CommitOf σ) (valIdx : BitVec 32) : Except String Vote := do
  let s ← index c.signatures valIdx
  let blockID ← (commitSig s).blockID c.blockID
  return {
    type := precommitType
    height := c.height
    round := c.round
    blockID := blockID
    timestamp := (commitSig s).timestamp
    validatorAddress := (commitSig s).validatorAddress
    validatorIndex := valIdx
    signature := (commitSig s).signature
    extension := extension s
    extensionSignature := extensionSignature s }

def size (c : CommitOf σ) : Nat := c.signatures.length

end CommitOf

namespace Commit

def validateBasic (commit : Commit) : Except String Unit :=
  commit.validateWith "commit cannot be for nil block" "wrong CommitSig #" CommitSig.validateBasic

def toProto (commit : Commit) : Proto.CommitOf Proto.CommitSig :=
  commit.toProtoWith CommitSig.toProto

/-- `GetVote`: a commit carries no extensions, so the vote's are nil. -/
def getVote (commit : Commit) (valIdx : BitVec 32) : Except String Vote :=
  commit.voteWith id (fun _ => []) (fun _ => []) valIdx

/-- `WrappedExtendedCommit`: each signature wrapped with nil extension fields. -/
def wrappedExtendedCommit (commit : Commit) : ExtendedCommit :=
  ⟨commit.height, commit.round, commit.blockID, commit.signatures.map fun s => ⟨s, [], []⟩⟩

end Commit

/-- `CommitFromProto`. -/
def commitFromProto (cp : Proto.CommitOf Proto.CommitSig) : Except String Commit :=
  CommitOf.fromProtoWith CommitSig.fromProto Commit.validateBasic cp

namespace ExtendedCommit

def validateBasic (ec : ExtendedCommit) : Except String Unit :=
  ec.validateWith "extended commit cannot be for nil block" "wrong ExtendedCommitSig #"
    ExtendedCommitSig.validateBasic

def toProto (ec : ExtendedCommit) : Proto.CommitOf Proto.ExtendedCommitSig :=
  ec.toProtoWith ExtendedCommitSig.toProto

def getExtendedVote (ec : ExtendedCommit) (valIndex : BitVec 32) : Except String Vote :=
  ec.voteWith ExtendedCommitSig.commitSig ExtendedCommitSig.extension
    ExtendedCommitSig.extensionSignature valIndex

/-- `EnsureExtensions`: the first signature that fails `EnsureExtension`. -/
def ensureExtensions (timeString : Time → String) (ec : ExtendedCommit) (extEnabled : Bool) :
    Except String Unit :=
  ec.signatures.forM fun ecs => ecs.ensureExtension timeString extEnabled

/-- `ToCommit`: each signature stripped of its extension. -/
def toCommit (ec : ExtendedCommit) : Commit :=
  ⟨ec.height, ec.round, ec.blockID, ec.signatures.map ExtendedCommitSig.commitSig⟩

theorem ensureExtensions_eq_ok (timeString : Time → String) (ec : ExtendedCommit)
    (extEnabled : Bool) : ec.ensureExtensions timeString extEnabled = .ok () ↔ ∀ s ∈ ec.signatures,
      if extEnabled then
        (s.commitSig.blockIDFlag = blockIDFlagCommit → s.extensionSignature ≠ []) ∧
        (s.commitSig.blockIDFlag ≠ blockIDFlagCommit →
          s.extension = [] ∧ s.extensionSignature = [])
      else s.extension = [] ∧ s.extensionSignature = [] :=
  forM_eq_ok.trans (forall₂_congr fun s _ =>
    ExtendedCommitSig.ensureExtension_eq_ok timeString s extEnabled)

/-- `EnsureExtensions` fails with the error of the first signature that fails, which ends with
that validator's address and timestamp. -/
theorem ensureExtensions_eq_error {timeString : Time → String} {ec : ExtendedCommit}
    {extEnabled : Bool} {e : String} (failed : ec.ensureExtensions timeString extEnabled = .error e) :
    ∃ pre s post, ec.signatures = pre ++ s :: post ∧
      (∀ s' ∈ pre, s'.ensureExtension timeString extEnabled = .ok ()) ∧
      s.ensureExtension timeString extEnabled = .error e ∧
      ∃ reason, e = reason ++ ("; validator addr " ++ hexString s.commitSig.validatorAddress ++
        ", timestamp " ++ timeString s.commitSig.timestamp) := by
  obtain ⟨pre, s, post, split, ok, bad⟩ := forM_eq_error.mp failed
  exact ⟨pre, s, post, split, ok, bad, ExtendedCommitSig.ensureExtension_eq_error bad⟩

end ExtendedCommit

/-- `ExtendedCommitFromProto`. -/
def extendedCommitFromProto (ecp : Proto.CommitOf Proto.ExtendedCommitSig) :
    Except String ExtendedCommit :=
  CommitOf.fromProtoWith ExtendedCommitSig.fromProto ExtendedCommit.validateBasic ecp

/-- `GetVote` on a commit that passes `ValidateBasic` from height 1 on: it panics only for an
index outside the signatures, and otherwise gives the precommit of the signature there, for
the commit's block on a commit vote and for the zero block ID on an absent or nil one. -/
theorem getVote_of_valid (c : Commit) (valIdx : BitVec 32) (v : Vote)
    (valid : c.validateBasic = .ok ()) (started : 1 ≤ c.height.toInt) :
    c.getVote valIdx = .ok v ↔ 0 ≤ valIdx.toInt ∧ ∃ s, c.signatures[valIdx.toNat]? = some s ∧
      v = { type := precommitType, height := c.height, round := c.round,
            blockID := if s.blockIDFlag = blockIDFlagCommit then c.blockID else ⟨[], ⟨0, []⟩⟩,
            timestamp := s.timestamp, validatorAddress := s.validatorAddress,
            validatorIndex := valIdx, signature := s.signature, extension := [],
            extensionSignature := [] } := by
  obtain ⟨-, -, sigs⟩ := (CommitOf.validateWith_eq_ok _ _ _ c).mp valid
  have blockID {s : CommitSig} (get : c.signatures[valIdx.toNat]? = some s) :=
    CommitSig.blockID_of_validateBasic ((sigs started).2.2 s (List.getElem?_mem get)) c.blockID
  simp only [Commit.getVote, CommitOf.voteWith, bind_eq_ok, index_eq_ok, pure_eq_ok, id]
  constructor
  · rintro ⟨s, ⟨nonneg, get⟩, _, decoded, rfl⟩
    cases (blockID get).symm.trans decoded
    exact ⟨nonneg, s, get, rfl⟩
  · rintro ⟨nonneg, s, get, rfl⟩
    exact ⟨s, ⟨nonneg, get⟩, _, blockID get, rfl⟩

/-- A commit at height 1 for a non-zero block with one absent signature. -/
def oneAbsentCommit : Commit := ⟨1, 0, ⟨[1], ⟨0, []⟩⟩, [⟨blockIDFlagAbsent, [], ⟨0, 0⟩, []⟩]⟩

theorem getVote_oneAbsentCommit :
    oneAbsentCommit.validateBasic = .ok () ∧ 1 ≤ oneAbsentCommit.height.toInt ∧
      oneAbsentCommit.getVote 0 =
        .ok ⟨precommitType, 1, 0, ⟨[], ⟨0, []⟩⟩, ⟨0, 0⟩, [], 0, [], [], []⟩ :=
  ⟨rfl, by decide, (getVote_of_valid oneAbsentCommit 0 _ rfl (by decide)).mpr
    ⟨by decide, _, rfl, rfl⟩⟩

end CelestiaCore.Types
