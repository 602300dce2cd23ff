import CelestiaCore.Types.Commit

set_option autoImplicit false

/- `WrappedExtendedCommit` and `ToCommit` between commits and extended commits without
extensions: they are inverse, and the checks and the votes of a commit are those of its
wrapping. `ToCommit` loses nothing exactly on what `EnsureExtensions(false)` accepts. -/

namespace CelestiaCore.Types

namespace Commit

@[simp] theorem wrappedExtendedCommit_toCommit (c : Commit) :
    c.wrappedExtendedCommit.toCommit = c := by
  simp [wrappedExtendedCommit, ExtendedCommit.toCommit, Function.comp_def]

theorem wrappedExtendedCommit_validateBasic (c : Commit) :
    c.wrappedExtendedCommit.validateBasic = .ok () ↔ c.validateBasic = .ok () := by
  simp [ExtendedCommit.validateBasic, validateBasic, CommitOf.validateWith_eq_ok,
    wrappedExtendedCommit]

theorem wrappedExtendedCommit_ensureExtensions (timeString : Time → String) (c : Commit) :
    c.wrappedExtendedCommit.ensureExtensions timeString false = .ok () := by
  simp [ExtendedCommit.ensureExtensions, wrappedExtendedCommit, forM_eq_ok]

theorem wrappedExtendedCommit_getExtendedVote (c : Commit) (i : BitVec 32) :
    c.wrappedExtendedCommit.getExtendedVote i = c.getVote i := by
  simp only [ExtendedCommit.getExtendedVote, getVote, CommitOf.voteWith, wrappedExtendedCommit,
    index_map]
  cases index c.signatures i <;> rfl

end Commit

namespace ExtendedCommit

theorem toCommit_validateBasic {ec : ExtendedCommit} (valid : ec.validateBasic = .ok ()) :
    ec.toCommit.validateBasic = .ok () := by
  simp only [validateBasic, Commit.validateBasic, CommitOf.validateWith_eq_ok] at valid ⊢
  obtain ⟨height, round, started⟩ := valid
  refine ⟨height, round, fun one => ?_⟩
  obtain ⟨nonzero, nonempty, sigs⟩ := started one
  simpa [toCommit] using
    ⟨nonzero, nonempty, fun s mem => ExtendedCommitSig.commitSig_validateBasic (sigs s mem)⟩

theorem toCommit_wrappedExtendedCommit {ec : ExtendedCommit}
    (unextended : ∀ s ∈ ec.signatures, s.extension = [] ∧ s.extensionSignature = []) :
    ec.toCommit.wrappedExtendedCommit = ec := by
  rcases ec with ⟨height, round, blockID, sigs⟩
  have stripped : sigs.map (fun s => (⟨s.commitSig, [], []⟩ : ExtendedCommitSig)) = sigs := by
    refine (List.map_congr_left fun s mem => ?_).trans (List.map_id' _)
    obtain ⟨ext, extSig⟩ := unextended s mem
    rcases s with ⟨cs, _, _⟩
    simp_all
  simpa [toCommit, Commit.wrappedExtendedCommit, Function.comp_def] using stripped

theorem toCommit_getVote (ec : ExtendedCommit) (i : BitVec 32) :
    ec.toCommit.getVote i =
      (ec.getExtendedVote i).map fun v => { v with extension := [], extensionSignature := [] } := by
  simp only [Commit.getVote, getExtendedVote, CommitOf.voteWith, toCommit, index_map]
  cases index ec.signatures i with
  | error => rfl
  | ok s =>
    cases blockID : s.commitSig.blockID ec.blockID <;>
      simp [Except.map, bind, Except.bind, pure, Except.pure, blockID]

end ExtendedCommit

/-- `WrappedExtendedCommit` and `ToCommit` are inverse between commits and extended commits
without extensions, and keep what the checks and the votes see: a wrapped commit passes
`ValidateBasic` exactly when the commit does and always passes `EnsureExtensions(false)`, its
extended vote at every index is the commit's vote there (the same panic out of range), and
stripping a well-formed extended commit leaves a well-formed commit. -/
theorem wrappedExtendedCommit_toCommit_inverse :
    (∀ c : Commit, c.wrappedExtendedCommit.toCommit = c) ∧
    (∀ c : Commit, c.wrappedExtendedCommit.validateBasic = .ok () ↔ c.validateBasic = .ok ()) ∧
    (∀ (timeString : Time → String) (c : Commit),
      c.wrappedExtendedCommit.ensureExtensions timeString false = .ok ()) ∧
    (∀ (c : Commit) (i : BitVec 32), c.wrappedExtendedCommit.getExtendedVote i = c.getVote i) ∧
    (∀ ec : ExtendedCommit, ec.validateBasic = .ok () → ec.toCommit.validateBasic = .ok ()) ∧
    ∀ ec : ExtendedCommit, (∀ s ∈ ec.signatures, s.extension = [] ∧ s.extensionSignature = []) →
      ec.toCommit.wrappedExtendedCommit = ec :=
  ⟨Commit.wrappedExtendedCommit_toCommit, Commit.wrappedExtendedCommit_validateBasic,
    Commit.wrappedExtendedCommit_ensureExtensions, Commit.wrappedExtendedCommit_getExtendedVote,
    fun _ => ExtendedCommit.toCommit_validateBasic,
    fun _ => ExtendedCommit.toCommit_wrappedExtendedCommit⟩

/-- `ToCommit` drops the vote extensions and nothing else. It loses nothing exactly on the
extended commits that `EnsureExtensions(false)` accepts, those that are wrapped commits; and the
stripped commit's vote at every index is the extended vote without its extension, with the same
panic out of range. -/
theorem toCommit_drops_only_extensions :
    (∀ (timeString : Time → String) (ec : ExtendedCommit),
      ec.ensureExtensions timeString false = .ok () ↔ ec.toCommit.wrappedExtendedCommit = ec) ∧
    ∀ (ec : ExtendedCommit) (i : BitVec 32), ec.toCommit.getVote i =
      (ec.getExtendedVote i).map fun v => { v with extension := [], extensionSignature := [] } := by
  refine ⟨fun timeString ec => ⟨fun accepted => ?_, fun wrapped => ?_⟩, ExtendedCommit.toCommit_getVote⟩
  · refine ExtendedCommit.toCommit_wrappedExtendedCommit fun s mem => ?_
    simpa using (ExtendedCommitSig.ensureExtension_eq_ok timeString s false).mp
      (forM_eq_ok.mp accepted s mem)
  · rw [← wrapped]
    exact Commit.wrappedExtendedCommit_ensureExtensions timeString _

end CelestiaCore.Types
