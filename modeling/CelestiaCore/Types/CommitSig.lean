import CelestiaCore.Types.BlockID

set_option autoImplicit false

/- A validator's signature in a commit (types/block.go): `CommitSig`, the `ExtendedCommitSig`
that adds a vote extension, their checks and their protobuf forms. The flag is a byte in Go
and an `int32` enum on the wire; `FromProto` narrows it before it checks it. The absent
signatures the constructors make pass every check. -/

namespace CelestiaCore.Types

/-- `crypto.AddressSize` (crypto/crypto.go, not under src/). -/
def addressSize : Nat := 20

/-- `MaxSignatureSize` (types/signable.go, not under src/). -/
def maxSignatureSize : Nat := 64

/-- `MaxVoteExtensionSize` (types/vote.go, not under src/). -/
def maxVoteExtensionSize : Nat := 1024 * 1024

/-- `time.Time` as the code reads it: seconds since January 1 of year 1, and nanoseconds. -/
structure Time where
  sec : Int
  nsec : Fin 1000000000
  deriving DecidableEq, Repr

def Time.isZero (t : Time) : Bool := t.sec == 0 && t.nsec == 0

/-- `BlockIDFlag`: a byte. -/
abbrev BlockIDFlag := UInt8

def blockIDFlagAbsent : BlockIDFlag := 1

def blockIDFlagCommit : BlockIDFlag := 2

def blockIDFlagNil : BlockIDFlag := 3

namespace Proto

/-- `cmtproto.BlockIDFlag`: a protobuf enum, an `int32`. -/
abbrev BlockIDFlag := BitVec 32

/-- `cmtproto.CommitSig`. -/
structure CommitSig where
  blockIdFlag : BlockIDFlag
  validatorAddress : Bytes
  timestamp : Time
  signature : Bytes
  deriving DecidableEq, Repr

/-- `cmtproto.ExtendedCommitSig`: the four fields of a `CommitSig`, then the extension's two. -/
structure ExtendedCommitSig where
  commitSig : CommitSig
  extension : Bytes
  extensionSignature : Bytes
  deriving DecidableEq, Repr

end Proto

/-- `cmtproto.BlockIDFlag(f)`: the byte widened to an `int32`. -/
def BlockIDFlag.toProto (f : BlockIDFlag) : Proto.BlockIDFlag := BitVec.ofNat 32 f.toNat

/-- `BlockIDFlag(f)`: the `int32` narrowed to its low byte. -/
def BlockIDFlag.ofProto (f : Proto.BlockIDFlag) : BlockIDFlag := f.toNat.toUInt8

@[simp] theorem BlockIDFlag.ofProto_toProto (f : BlockIDFlag) :
    BlockIDFlag.ofProto (BlockIDFlag.toProto f) = f := by
  apply UInt8.toNat.inj
  have byte : f.toNat < 256 := f.toNat_lt_size
  simp only [ofProto, toProto, BitVec.toNat_ofNat, Nat.toUInt8]
  rw [Nat.mod_eq_of_lt (by omega), UInt8.toNat_ofNat_of_lt byte]

theorem BlockIDFlag.toNat_ofProto (f : Proto.BlockIDFlag) :
    (BlockIDFlag.ofProto f).toNat = f.toNat % 256 := by
  simp [ofProto, Nat.toUInt8, UInt8.toNat, UInt8.ofNat, Fin.ofNat]

/-- Narrowing and widening back gives the wire flag exactly when it is below 256. -/
theorem BlockIDFlag.toProto_ofProto (f : Proto.BlockIDFlag) :
    BlockIDFlag.toProto (BlockIDFlag.ofProto f) = f ↔ f.toNat < 256 := by
  have wide : f.toNat % 256 < 2 ^ 32 := by omega
  rw [BitVec.toNat_eq, toProto, BitVec.toNat_ofNat, toNat_ofProto, Nat.mod_eq_of_lt wide]
  exact ⟨fun h => h ▸ Nat.mod_lt _ (by decide), Nat.mod_eq_of_lt⟩

/-- `CommitSig`. -/
structure CommitSig where
  blockIDFlag : BlockIDFlag
  validatorAddress : Bytes
  timestamp : Time
  signature : Bytes
  deriving DecidableEq, Repr

namespace CommitSig

/-- `BlockID`: the commit's block ID for a commit vote, the zero one for an absent or nil
vote; a panic on any other flag. -/
def blockID (cs : CommitSig) (commitBlockID : BlockID) : Except String BlockID :=
  if cs.blockIDFlag = blockIDFlagAbsent then .ok ⟨[], ⟨0, []⟩⟩
  else if cs.blockIDFlag = blockIDFlagCommit then .ok commitBlockID
  else if cs.blockIDFlag = blockIDFlagNil then .ok ⟨[], ⟨0, []⟩⟩
  else .error ("Unknown BlockIDFlag: " ++ toString cs.blockIDFlag)

def validateBasic (cs : CommitSig) : Except String Unit :=
  if cs.blockIDFlag ≠ blockIDFlagAbsent ∧ cs.blockIDFlag ≠ blockIDFlagCommit ∧
      cs.blockIDFlag ≠ blockIDFlagNil then
    .error ("unknown BlockIDFlag: " ++ toString cs.blockIDFlag)
  else if cs.blockIDFlag = blockIDFlagAbsent then
    if cs.validatorAddress.length ≠ 0 then .error "validator address is present"
    else if !cs.timestamp.isZero then .error "time is present"
    else if cs.signature.length ≠ 0 then .error "signature is present"
    else .ok ()
  else if cs.validatorAddress.length ≠ addressSize then
    .error ("expected ValidatorAddress size to be " ++ toString addressSize ++ " bytes, got " ++
      toString cs.validatorAddress.length ++ " bytes")
  else if cs.signature.length = 0 then .error "signature is missing"
  else if cs.signature.length > maxSignatureSize then
    .error ("signature is too big (max: " ++ toString maxSignatureSize ++ ")")
  else .ok ()

def toProto (cs : CommitSig) : Proto.CommitSig :=
  ⟨BlockIDFlag.toProto cs.blockIDFlag, cs.validatorAddress, cs.timestamp, cs.signature⟩

/-- `FromProto`: the fields are copied, the flag narrowed, and the result checked. -/
def fromProto (csp : Proto.CommitSig) : Except String CommitSig :=
  let cs : CommitSig :=
    ⟨BlockIDFlag.ofProto csp.blockIdFlag, csp.validatorAddress, csp.timestamp, csp.signature⟩
  cs.validateBasic.map fun _ => cs

theorem flag_of_validateBasic {cs : CommitSig} (valid : cs.validateBasic = .ok ()) :
    cs.blockIDFlag = blockIDFlagAbsent ∨ cs.blockIDFlag = blockIDFlagCommit ∨
      cs.blockIDFlag = blockIDFlagNil := by
  by_contra unknown
  simp only [not_or] at unknown
  simp [validateBasic, unknown] at valid

theorem wireFlag_lt_iff {cs : CommitSig} {f : Proto.BlockIDFlag} (valid : cs.validateBasic = .ok ())
    (narrowed : cs.blockIDFlag = BlockIDFlag.ofProto f) : f.toNat < 256 ↔ f.toNat ∈ [1, 2, 3] := by
  have known : (BlockIDFlag.ofProto f).toNat ∈ [1, 2, 3] := by
    rcases flag_of_validateBasic valid with flag | flag | flag <;> rw [← narrowed, flag] <;> decide
  simp only [BlockIDFlag.toNat_ofProto, List.mem_cons, List.mem_singleton, List.not_mem_nil,
    or_false] at known ⊢
  omega

/-- A signature that passes `ValidateBasic` gives its block ID without a panic. -/
theorem blockID_of_validateBasic {cs : CommitSig} (valid : cs.validateBasic = .ok ())
    (commitBlockID : BlockID) : cs.blockID commitBlockID =
      .ok (if cs.blockIDFlag = blockIDFlagCommit then commitBlockID else ⟨[], ⟨0, []⟩⟩) := by
  rcases flag_of_validateBasic valid with flag | flag | flag <;>
    simp [blockID, flag, blockIDFlagAbsent, blockIDFlagCommit, blockIDFlagNil]

theorem fromProto_eq_ok (csp : Proto.CommitSig) (cs : CommitSig) :
    fromProto csp = .ok cs ↔ cs.validateBasic = .ok () ∧
      cs = ⟨BlockIDFlag.ofProto csp.blockIdFlag, csp.validatorAddress, csp.timestamp,
        csp.signature⟩ := by
  simp only [fromProto, map_eq_ok, exists_unit]
  exact ⟨fun ⟨valid, same⟩ => same ▸ ⟨valid, rfl⟩, fun ⟨valid, same⟩ => same ▸ ⟨valid, rfl⟩⟩

@[simp] theorem fromProto_toProto (cs : CommitSig) :
    fromProto cs.toProto = cs.validateBasic.map fun _ => cs := by
  cases cs
  simp [fromProto, toProto]

theorem toProto_eq_iff_of_fromProto {csp : Proto.CommitSig} {cs : CommitSig}
    (decoded : fromProto csp = .ok cs) : cs.toProto = csp ↔ csp.blockIdFlag.toNat < 256 := by
  obtain ⟨-, rfl⟩ := (fromProto_eq_ok csp cs).mp decoded
  rw [← BlockIDFlag.toProto_ofProto]
  cases csp
  simp [toProto]

theorem wireFlag_lt_iff_of_fromProto {csp : Proto.CommitSig} {cs : CommitSig}
    (decoded : fromProto csp = .ok cs) :
    csp.blockIdFlag.toNat < 256 ↔ csp.blockIdFlag.toNat ∈ [1, 2, 3] := by
  obtain ⟨valid, rfl⟩ := (fromProto_eq_ok csp cs).mp decoded
  exact wireFlag_lt_iff valid rfl

end CommitSig

/-- `ExtendedCommitSig`, which embeds a `CommitSig`. -/
structure ExtendedCommitSig where
  commitSig : CommitSig
  extension : Bytes
  extensionSignature : Bytes
  deriving DecidableEq, Repr

namespace ExtendedCommitSig

def validateBasic (ecs : ExtendedCommitSig) : Except String Unit := do
  ecs.commitSig.validateBasic
  if ecs.commitSig.blockIDFlag = blockIDFlagCommit then
    if ecs.extension.length > maxVoteExtensionSize then
      .error ("vote extension is too big (max: " ++ toString maxVoteExtensionSize ++ ")")
    else if ecs.extensionSignature.length > maxSignatureSize then
      .error ("vote extension signature is too big (max: " ++ toString maxSignatureSize ++ ")")
    else .ok ()
  else if ecs.extensionSignature.length = 0 ∧ ecs.extension.length ≠ 0 then
    .error "vote extension signature absent on vote with extension"
  else .ok ()

/-- `EnsureExtension`. Its messages end with the validator address and the timestamp; the
timestamp is printed by `time.Time.String`, taken as `timeString`. -/
def ensureExtension (timeString : Time → String) (ecs : ExtendedCommitSig) (extEnabled : Bool) :
    Except String Unit :=
  let cs := ecs.commitSig
  let whose := "; validator addr " ++ hexString cs.validatorAddress ++ ", timestamp " ++
    timeString cs.timestamp
  if extEnabled then
    if cs.blockIDFlag = blockIDFlagCommit ∧ ecs.extensionSignature.length = 0 then
      .error ("vote extension signature is missing" ++ whose)
    else if cs.blockIDFlag ≠ blockIDFlagCommit ∧ ecs.extension.length ≠ 0 then
      .error ("non-commit vote extension present" ++ whose)
    else if cs.blockIDFlag ≠ blockIDFlagCommit ∧ ecs.extensionSignature.length ≠ 0 then
      .error ("non-commit vote extension signature present" ++ whose)
    else .ok ()
  else if ecs.extension.length ≠ 0 then
    .error ("vote extension present but extensions disabled" ++ whose)
  else if ecs.extensionSignature.length ≠ 0 then
    .error ("vote extension signature present but extensions disabled" ++ whose)
  else .ok ()

def toProto (ecs : ExtendedCommitSig) : Proto.ExtendedCommitSig :=
  ⟨ecs.commitSig.toProto, ecs.extension, ecs.extensionSignature⟩

def fromProto (ecsp : Proto.ExtendedCommitSig) : Except String ExtendedCommitSig :=
  let csp := ecsp.commitSig
  let ecs : ExtendedCommitSig :=
    ⟨⟨BlockIDFlag.ofProto csp.blockIdFlag, csp.validatorAddress, csp.timestamp, csp.signature⟩,
      ecsp.extension, ecsp.extensionSignature⟩
  ecs.validateBasic.map fun _ => ecs

theorem commitSig_validateBasic {ecs : ExtendedCommitSig} (valid : ecs.validateBasic = .ok ()) :
    ecs.commitSig.validateBasic = .ok () :=
  (bind_unit_eq_ok.mp valid).1

@[simp] theorem validateBasic_unextended (cs : CommitSig) :
    (⟨cs, [], []⟩ : ExtendedCommitSig).validateBasic = cs.validateBasic := by
  cases valid : cs.validateBasic <;> simp [validateBasic, valid, bind, Except.bind]

@[simp] theorem ensureExtension_unextended (timeString : Time → String) (cs : CommitSig) :
    (⟨cs, [], []⟩ : ExtendedCommitSig).ensureExtension timeString false = .ok () := by
  simp [ensureExtension]

/-- What `EnsureExtension` accepts: with extensions enabled, a commit vote carries an extension
signature and any other vote no extension data; with them disabled, no vote carries any. -/
theorem ensureExtension_eq_ok (timeString : Time → String) (ecs : ExtendedCommitSig)
    (extEnabled : Bool) : ecs.ensureExtension timeString extEnabled = .ok () ↔
      if extEnabled then
        (ecs.commitSig.blockIDFlag = blockIDFlagCommit → ecs.extensionSignature ≠ []) ∧
        (ecs.commitSig.blockIDFlag ≠ blockIDFlagCommit →
          ecs.extension = [] ∧ ecs.extensionSignature = [])
      else ecs.extension = [] ∧ ecs.extensionSignature = [] := by
  unfold ensureExtension
  cases extEnabled <;> simp only [Bool.false_eq_true, ↓reduceIte] <;> split_ifs <;>
    simp_all [List.length_eq_zero]

theorem ensureExtension_eq_error {timeString : Time → String} {ecs : ExtendedCommitSig}
    {extEnabled : Bool} {e : String} (failed : ecs.ensureExtension timeString extEnabled = .error e) :
    ∃ reason, e = reason ++ ("; validator addr " ++ hexString ecs.commitSig.validatorAddress ++
      ", timestamp " ++ timeString ecs.commitSig.timestamp) := by
  unfold ensureExtension at failed
  cases extEnabled <;> simp only [Bool.false_eq_true, ↓reduceIte] at failed <;>
    split_ifs at failed <;> cases failed <;> exact ⟨_, rfl⟩

theorem fromProto_eq_ok (ecsp : Proto.ExtendedCommitSig) (ecs : ExtendedCommitSig) :
    fromProto ecsp = .ok ecs ↔ ecs.validateBasic = .ok () ∧
      ecs = ⟨⟨BlockIDFlag.ofProto ecsp.commitSig.blockIdFlag, ecsp.commitSig.validatorAddress,
        ecsp.commitSig.timestamp, ecsp.commitSig.signature⟩, ecsp.extension,
        ecsp.extensionSignature⟩ := by
  simp only [fromProto, map_eq_ok, exists_unit]
  exact ⟨fun ⟨valid, same⟩ => same ▸ ⟨valid, rfl⟩, fun ⟨valid, same⟩ => same ▸ ⟨valid, rfl⟩⟩

@[simp] theorem fromProto_toProto (ecs : ExtendedCommitSig) :
    fromProto ecs.toProto = ecs.validateBasic.map fun _ => ecs := by
  rcases ecs with ⟨⟨⟩, _, _⟩
  simp [fromProto, toProto, CommitSig.toProto]

theorem toProto_eq_iff_of_fromProto {ecsp : Proto.ExtendedCommitSig} {ecs : ExtendedCommitSig}
    (decoded : fromProto ecsp = .ok ecs) :
    ecs.toProto = ecsp ↔ ecsp.commitSig.blockIdFlag.toNat < 256 := by
  obtain ⟨-, rfl⟩ := (fromProto_eq_ok ecsp ecs).mp decoded
  rw [← BlockIDFlag.toProto_ofProto]
  rcases ecsp with ⟨⟨⟩, _, _⟩
  simp [toProto, CommitSig.toProto]

theorem wireFlag_lt_iff_of_fromProto {ecsp : Proto.ExtendedCommitSig} {ecs : ExtendedCommitSig}
    (decoded : fromProto ecsp = .ok ecs) :
    ecsp.commitSig.blockIdFlag.toNat < 256 ↔ ecsp.commitSig.blockIdFlag.toNat ∈ [1, 2, 3] := by
  obtain ⟨valid, rfl⟩ := (fromProto_eq_ok ecsp ecs).mp decoded
  exact CommitSig.wireFlag_lt_iff (commitSig_validateBasic valid) rfl

end ExtendedCommitSig

/-- `NewCommitSigAbsent`: an absent vote, every other field empty. -/
def newCommitSigAbsent : CommitSig := ⟨blockIDFlagAbsent, [], ⟨0, 0⟩, []⟩

/-- `NewExtendedCommitSigAbsent`. -/
def newExtendedCommitSigAbsent : ExtendedCommitSig := ⟨newCommitSigAbsent, [], []⟩

theorem newCommitSigAbsent_valid (timeString : Time → String) (extEnabled : Bool) :
    newCommitSigAbsent.validateBasic = .ok () ∧ newExtendedCommitSigAbsent.validateBasic = .ok () ∧
      newExtendedCommitSigAbsent.ensureExtension timeString extEnabled = .ok () := by
  cases extEnabled <;> exact ⟨rfl, rfl, rfl⟩

/-- What `CommitSig.ValidateBasic` accepts. An absent vote has no address, no time and no
signature; a commit or nil vote has an address of `AddressSize` bytes and a signature of 1 to
`MaxSignatureSize` bytes; every other flag fails. -/
theorem CommitSig.validateBasic_eq_ok (cs : CommitSig) : cs.validateBasic = .ok () ↔
    (cs.blockIDFlag = blockIDFlagAbsent ∧ cs.validatorAddress = [] ∧
        cs.timestamp.isZero = true ∧ cs.signature = []) ∨
      ((cs.blockIDFlag = blockIDFlagCommit ∨ cs.blockIDFlag = blockIDFlagNil) ∧
        cs.validatorAddress.length = addressSize ∧ 0 < cs.signature.length ∧
        cs.signature.length ≤ maxSignatureSize) := by
  unfold CommitSig.validateBasic
  by_cases absent : cs.blockIDFlag = blockIDFlagAbsent
  · split_ifs <;> simp_all [blockIDFlagAbsent, blockIDFlagCommit, blockIDFlagNil]
  · have known : cs.blockIDFlag ≠ blockIDFlagCommit ∧ cs.blockIDFlag ≠ blockIDFlagNil ↔
        ¬ (cs.blockIDFlag = blockIDFlagCommit ∨ cs.blockIDFlag = blockIDFlagNil) := not_or.symm
    simp only [absent, ne_eq, not_false_eq_true, true_and, known, ite_not, if_false]
    split_ifs <;> simp_all [List.length_pos]

/-- An extended signature passes when its `CommitSig` does, a commit vote's extension and its
signature are within their bounds, and any other vote with an extension also has an extension
signature. -/
theorem ExtendedCommitSig.validateBasic_eq_ok (ecs : ExtendedCommitSig) :
    ecs.validateBasic = .ok () ↔ ecs.commitSig.validateBasic = .ok () ∧
      (ecs.commitSig.blockIDFlag = blockIDFlagCommit →
        ecs.extension.length ≤ maxVoteExtensionSize ∧
          ecs.extensionSignature.length ≤ maxSignatureSize) ∧
      (ecs.commitSig.blockIDFlag ≠ blockIDFlagCommit → ecs.extensionSignature = [] →
        ecs.extension = []) := by
  simp only [ExtendedCommitSig.validateBasic, bind_unit_eq_ok]
  refine and_congr_right fun _ => ?_
  split_ifs <;> simp_all [List.length_pos]

end CelestiaCore.Types
