import CelestiaCore.Types.Commit

set_option autoImplicit false

/- How the commit decoders relate to the encoders. Decoding an encoded commit gives it back
exactly when it and its parts are well formed. The other way round holds only up to the flag:
`FromProto` keeps the low byte of each wire flag, so a decoded commit encodes back to its
wire form exactly when every wire flag is below 256. -/

namespace CelestiaCore.Types

namespace CommitOf

variable {σ π : Type}

theorem fromProtoWith_eq_ok (sigFromProto : π → Except String σ)
    (validate : CommitOf σ → Except String Unit) (cp : Proto.CommitOf π) (c : CommitOf σ) :
    fromProtoWith sigFromProto validate cp = .ok c ↔
      c.blockID.validateBasic = .ok () ∧ cp.blockID = c.blockID.toProto ∧
      List.Forall₂ (fun p s => sigFromProto p = .ok s) cp.signatures c.signatures ∧
      cp.height = c.height ∧ cp.round = c.round ∧ validate c = .ok () := by
  rcases c with ⟨height, round, blockID, sigs⟩
  simp only [fromProtoWith, bind_eq_ok, exists_unit, pure_eq_ok, blockIDFromProto_eq_ok,
    mapM_eq_ok, mk.injEq]
  constructor
  · rintro ⟨_, ⟨valid, blockID_eq⟩, _, decoded, checked, rfl, rfl, rfl, rfl⟩
    exact ⟨valid, blockID_eq, decoded, rfl, rfl, checked⟩
  · rintro ⟨valid, blockID_eq, decoded, rfl, rfl, checked⟩
    exact ⟨_, ⟨valid, blockID_eq⟩, _, decoded, checked, rfl, rfl, rfl, rfl⟩

/-- Decoding an encoded commit whose signatures decode back as `validateSig` allows: it comes
back exactly when its block ID, its signatures and the commit itself pass their checks. -/
theorem fromProtoWith_toProtoWith (sigToProto : σ → π) (sigFromProto : π → Except String σ)
    (validateSig : σ → Except String Unit)
    (sigRoundTrip : ∀ s, sigFromProto (sigToProto s) = (validateSig s).map fun _ => s)
    (validate : CommitOf σ → Except String Unit) (c c' : CommitOf σ) :
    fromProtoWith sigFromProto validate (c.toProtoWith sigToProto) = .ok c' ↔
      c' = c ∧ c.blockID.validateBasic = .ok () ∧ (∀ s ∈ c.signatures, validateSig s = .ok ()) ∧
        validate c = .ok () := by
  rw [fromProtoWith_eq_ok]
  rcases c with ⟨height, round, blockID, sigs⟩
  rcases c' with ⟨height', round', blockID', sigs'⟩
  simp only [toProtoWith, List.forall₂_map_left_iff, sigRoundTrip, map_eq_ok, exists_unit,
    forall₂_and_eq_iff, BlockID.toProto_inj, mk.injEq]
  constructor
  · rintro ⟨valid, rfl, ⟨sigsValid, rfl⟩, rfl, rfl, checked⟩
    exact ⟨⟨rfl, rfl, rfl, rfl⟩, valid, sigsValid, checked⟩
  · rintro ⟨⟨rfl, rfl, rfl, rfl⟩, valid, sigsValid, checked⟩
    exact ⟨valid, rfl, ⟨sigsValid, rfl⟩, rfl, rfl, checked⟩

/-- A decoded commit encodes back to its wire form exactly when every wire signature does,
given when a decoded signature does. -/
theorem toProtoWith_eq_iff (sigToProto : σ → π) (sigFromProto : π → Except String σ)
    (canonical : π → Prop)
    (sigCanonical : ∀ p s, sigFromProto p = .ok s → (sigToProto s = p ↔ canonical p))
    (validate : CommitOf σ → Except String Unit) {cp : Proto.CommitOf π} {c : CommitOf σ}
    (decoded : fromProtoWith sigFromProto validate cp = .ok c) :
    c.toProtoWith sigToProto = cp ↔ ∀ p ∈ cp.signatures, canonical p := by
  obtain ⟨-, blockID_eq, sigs, height_eq, round_eq, -⟩ :=
    (fromProtoWith_eq_ok sigFromProto validate cp c).mp decoded
  rw [← map_eq_iff_of_forall₂ sigCanonical sigs]
  rcases cp with ⟨height, round, blockID, sigs⟩
  simp_all [toProtoWith]

end CommitOf

/-- A commit comes back from its own encoding exactly when its block ID, each signature and
the commit pass `ValidateBasic`; the same holds for an extended commit. -/
theorem commitFromProto_toProto_iff :
    (∀ c c' : Commit, commitFromProto c.toProto = .ok c' ↔
      c' = c ∧ c.blockID.validateBasic = .ok () ∧
        (∀ s ∈ c.signatures, s.validateBasic = .ok ()) ∧ c.validateBasic = .ok ()) ∧
    ∀ ec ec' : ExtendedCommit, extendedCommitFromProto ec.toProto = .ok ec' ↔
      ec' = ec ∧ ec.blockID.validateBasic = .ok () ∧
        (∀ s ∈ ec.signatures, s.validateBasic = .ok ()) ∧ ec.validateBasic = .ok () :=
  ⟨CommitOf.fromProtoWith_toProtoWith _ _ _ CommitSig.fromProto_toProto _,
    CommitOf.fromProtoWith_toProtoWith _ _ _ ExtendedCommitSig.fromProto_toProto _⟩

/-- Every commit `CommitFromProto` accepts encodes back to the wire commit it came from exactly
when each wire flag is below 256, which for an accepted commit is exactly when each is 1, 2 or
3; the same holds for `ExtendedCommitFromProto`. -/
theorem commitFromProto_canonical_iff :
    (∀ cp c, commitFromProto cp = .ok c →
      (c.toProto = cp ↔ ∀ s ∈ cp.signatures, s.blockIdFlag.toNat < 256) ∧
      (c.toProto = cp ↔ ∀ s ∈ cp.signatures, s.blockIdFlag.toNat ∈ [1, 2, 3])) ∧
    ∀ ecp ec, extendedCommitFromProto ecp = .ok ec →
      (ec.toProto = ecp ↔ ∀ s ∈ ecp.signatures, s.commitSig.blockIdFlag.toNat < 256) ∧
      (ec.toProto = ecp ↔ ∀ s ∈ ecp.signatures, s.commitSig.blockIdFlag.toNat ∈ [1, 2, 3]) :=
  ⟨fun _ _ decoded =>
      ⟨CommitOf.toProtoWith_eq_iff _ _ _ (fun _ _ => CommitSig.toProto_eq_iff_of_fromProto) _
          decoded,
        CommitOf.toProtoWith_eq_iff _ _ _ (fun _ _ sig => (CommitSig.toProto_eq_iff_of_fromProto
          sig).trans (CommitSig.wireFlag_lt_iff_of_fromProto sig)) _ decoded⟩,
    fun _ _ decoded =>
      ⟨CommitOf.toProtoWith_eq_iff _ _ _
          (fun _ _ => ExtendedCommitSig.toProto_eq_iff_of_fromProto) _ decoded,
        CommitOf.toProtoWith_eq_iff _ _ _ (fun _ _ sig =>
          (ExtendedCommitSig.toProto_eq_iff_of_fromProto sig).trans
            (ExtendedCommitSig.wireFlag_lt_iff_of_fromProto sig)) _ decoded⟩⟩

/-- The wire form of an absent signature: no address, the zero time, no signature, and the
given flag. -/
def absentSigWithFlag (flag : Proto.BlockIDFlag) : Proto.CommitSig := ⟨flag, [], ⟨0, 0⟩, []⟩

/-- A wire commit at height 0 for the zero block with the one given signature. -/
def heightZeroCommit {π : Type} (sig : π) : Proto.CommitOf π := ⟨0, 0, ⟨[], ⟨0, []⟩⟩, [sig]⟩

/-- The commit both decode to. -/
def absentCommit : Commit := ⟨0, 0, ⟨[], ⟨0, []⟩⟩, [⟨blockIDFlagAbsent, [], ⟨0, 0⟩, []⟩]⟩

/-- `CommitFromProto` accepts a signature flag of 257, reads it as its low byte 1
(`BlockIDFlagAbsent`) and returns the commit the wire commit with flag 1 decodes to, which
encodes back with flag 1; `ExtendedCommitFromProto` does the same. -/
theorem commitFromProto_narrows_flag :
    commitFromProto (heightZeroCommit (absentSigWithFlag 257)) = .ok absentCommit ∧
    commitFromProto (heightZeroCommit (absentSigWithFlag 1)) = .ok absentCommit ∧
    absentCommit.toProto = heightZeroCommit (absentSigWithFlag 1) ∧
    absentSigWithFlag 257 ≠ absentSigWithFlag 1 ∧
    extendedCommitFromProto (heightZeroCommit ⟨absentSigWithFlag 257, [], []⟩) =
      .ok absentCommit.wrappedExtendedCommit ∧
    extendedCommitFromProto (heightZeroCommit ⟨absentSigWithFlag 1, [], []⟩) =
      .ok absentCommit.wrappedExtendedCommit := by
  refine ⟨rfl, rfl, rfl, by decide, rfl, rfl⟩

end CelestiaCore.Types
