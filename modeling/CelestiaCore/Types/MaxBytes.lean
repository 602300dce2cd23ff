import CelestiaCore.Types.Basic
import Mathlib.Algebra.Group.Int
import Mathlib.Algebra.Group.Nat.Basic

set_option autoImplicit false

/- The size budget of a block (types/block.go): `MaxCommitBytes`, and `MaxDataBytes` and
`MaxDataBytesNoEvidence`, which take the overhead, the header, the last commit and the
evidence out of the block's maximum size and panic when nothing is left. They compute in Go's
`int64`, which wraps; a Go `int` is 64 bits wide, so `int64(valCount)` changes nothing. -/

namespace CelestiaCore.Types

/-- `MaxHeaderBytes`. -/
def maxHeaderBytes : BitVec 64 := 626

/-- `MaxOverheadForBlock`. -/
def maxOverheadForBlock : BitVec 64 := 11

/-- `MaxCommitOverheadBytes`. -/
def maxCommitOverheadBytes : BitVec 64 := 94

/-- `MaxCommitSigBytes`. -/
def maxCommitSigBytes : BitVec 64 := 109

/-- `MaxCommitBytes`. -/
def maxCommitBytes (valCount : BitVec 64) : BitVec 64 :=
  let protoEncodingOverhead : BitVec 64 := 2
  maxCommitOverheadBytes + (maxCommitSigBytes + protoEncodingOverhead) * valCount

/-- The body `MaxDataBytes` and `MaxDataBytesNoEvidence` share, given the function's name that
its panic message starts with; the panic is the error. -/
def dataBytesWith (name : String) (maxBytes evidenceBytes valsCount : BitVec 64) :
    Except String (BitVec 64) :=
  let maxDataBytes :=
    maxBytes - maxOverheadForBlock - maxHeaderBytes - maxCommitBytes valsCount - evidenceBytes
  if maxDataBytes.toInt < 0 then
    .error ("Negative " ++ name ++ ". Block.MaxBytes=" ++ toString maxBytes.toInt ++
      " is too small to accommodate header&lastCommit&evidence=" ++
      toString (-(maxDataBytes - maxBytes)).toInt)
  else .ok maxDataBytes

/-- `MaxDataBytes`. -/
def maxDataBytes (maxBytes evidenceBytes valsCount : BitVec 64) : Except String (BitVec 64) :=
  dataBytesWith "MaxDataBytes" maxBytes evidenceBytes valsCount

/-- `MaxDataBytesNoEvidence`: the same budget with no evidence subtracted. -/
def maxDataBytesNoEvidence (maxBytes valsCount : BitVec 64) : Except String (BitVec 64) :=
  dataBytesWith "MaxDataBytesNoEvidence" maxBytes 0 valsCount

/-- What a block needs besides its data, in exact integers: the encoding overhead, the header,
a commit of `valsCount` signatures, and the evidence. -/
def reservedBytes (evidenceBytes valsCount : Int) : Int :=
  11 + 626 + (94 + (109 + 2) * valsCount) + evidenceBytes

/-- The `int64` result is the exact one modulo `2^64`, whatever overflows on the way. -/
theorem dataBytes_toInt (maxBytes evidenceBytes valsCount : BitVec 64) :
    (maxBytes - maxOverheadForBlock - maxHeaderBytes - maxCommitBytes valsCount -
      evidenceBytes).toInt =
      (maxBytes.toInt - reservedBytes evidenceBytes.toInt valsCount.toInt).bmod (2 ^ 64) := by
  simp only [BitVec.toInt_sub, BitVec.toInt_add, BitVec.toInt_mul, maxCommitBytes,
    Int.bmod_sub_bmod_congr, Int.sub_bmod_bmod, Int.add_bmod_bmod, Int.mul_bmod_bmod,
    Int.bmod_add_bmod_congr, Int.bmod_mul_bmod]
  obtain ⟨overhead, header, commit, sig, proto⟩ : maxOverheadForBlock.toInt = 11 ∧
      maxHeaderBytes.toInt = 626 ∧ maxCommitOverheadBytes.toInt = 94 ∧
      maxCommitSigBytes.toInt = 109 ∧ (2 : BitVec 64).toInt = 2 := by decide
  rw [overhead, header, commit, sig, proto, reservedBytes]
  congr 1
  omega

theorem toInt_bounds (x : BitVec 64) : -2 ^ 63 ≤ x.toInt ∧ x.toInt < 2 ^ 63 := by
  have := x.isLt
  rw [BitVec.toInt_eq_toNat_cond]
  split <;> omega

theorem bmod_of_fits {x : Int} (lower : -2 ^ 63 ≤ x) (upper : x < 2 ^ 63) :
    x.bmod (2 ^ 64) = x := by
  rw [Int.bmod_def]
  split <;> omega

/-- For inputs that are not negative and a reserve that fits in an `int64`, nothing overflows:
the budget is the exact difference, and the panic reports the exact reserve. -/
theorem dataBytesWith_eq (name : String) (maxBytes evidenceBytes valsCount : BitVec 64)
    (nonneg : 0 ≤ maxBytes.toInt ∧ 0 ≤ evidenceBytes.toInt ∧ 0 ≤ valsCount.toInt)
    (fits : reservedBytes evidenceBytes.toInt valsCount.toInt < 2 ^ 63) :
    dataBytesWith name maxBytes evidenceBytes valsCount =
      if reservedBytes evidenceBytes.toInt valsCount.toInt ≤ maxBytes.toInt then
        .ok (BitVec.ofInt 64 (maxBytes.toInt - reservedBytes evidenceBytes.toInt valsCount.toInt))
      else .error ("Negative " ++ name ++ ". Block.MaxBytes=" ++ toString maxBytes.toInt ++
        " is too small to accommodate header&lastCommit&evidence=" ++
        toString (reservedBytes evidenceBytes.toInt valsCount.toInt)) := by
  have reserved : 0 ≤ reservedBytes evidenceBytes.toInt valsCount.toInt := by
    unfold reservedBytes; omega
  have upper := (toInt_bounds maxBytes).2
  have wrapped := dataBytes_toInt maxBytes evidenceBytes valsCount
  simp only [dataBytesWith]
  generalize reservedBytes evidenceBytes.toInt valsCount.toInt = r at *
  generalize maxBytes - maxOverheadForBlock - maxHeaderBytes - maxCommitBytes valsCount -
    evidenceBytes = maxDataBytes at *
  have exact : maxDataBytes.toInt = maxBytes.toInt - r := by
    rw [wrapped, bmod_of_fits (by omega) (by omega)]
  have reported : (-(maxDataBytes - maxBytes)).toInt = r := by
    rw [BitVec.toInt_neg, BitVec.toInt_sub, exact, show maxBytes.toInt - r - maxBytes.toInt = -r
      by omega, bmod_of_fits (x := -r) (by omega) (by omega), Int.neg_neg, bmod_of_fits (by omega) fits]
  simp only [exact, reported]
  by_cases enough : r ≤ maxBytes.toInt
  · rw [if_neg (by omega), if_pos enough]
    refine congrArg Except.ok (BitVec.toInt_inj.mp ?_)
    rw [BitVec.toInt_ofInt, exact, bmod_of_fits (by omega) (by omega)]
  · rw [if_pos (by omega), if_neg enough]

/-- `MaxDataBytes` and `MaxDataBytesNoEvidence` compute the exact budget. For a block size, an
evidence size and a validator count that are not negative, and whose reserve fits in an
`int64`, each returns what is left of `maxBytes` once the overhead, the header, a commit of
`valsCount` signatures and the evidence are taken out, and panics exactly when that is
negative, reporting the reserve. -/
theorem maxDataBytes_exact :
    (∀ maxBytes evidenceBytes valsCount : BitVec 64,
      0 ≤ maxBytes.toInt → 0 ≤ evidenceBytes.toInt → 0 ≤ valsCount.toInt →
      reservedBytes evidenceBytes.toInt valsCount.toInt < 2 ^ 63 →
      maxDataBytes maxBytes evidenceBytes valsCount =
        if reservedBytes evidenceBytes.toInt valsCount.toInt ≤ maxBytes.toInt then
          .ok (BitVec.ofInt 64
            (maxBytes.toInt - reservedBytes evidenceBytes.toInt valsCount.toInt))
        else .error ("Negative MaxDataBytes. Block.MaxBytes=" ++ toString maxBytes.toInt ++
          " is too small to accommodate header&lastCommit&evidence=" ++
          toString (reservedBytes evidenceBytes.toInt valsCount.toInt))) ∧
    ∀ maxBytes valsCount : BitVec 64, 0 ≤ maxBytes.toInt → 0 ≤ valsCount.toInt →
      reservedBytes 0 valsCount.toInt < 2 ^ 63 →
      maxDataBytesNoEvidence maxBytes valsCount =
        if reservedBytes 0 valsCount.toInt ≤ maxBytes.toInt then
          .ok (BitVec.ofInt 64 (maxBytes.toInt - reservedBytes 0 valsCount.toInt))
        else .error ("Negative MaxDataBytesNoEvidence. Block.MaxBytes=" ++
          toString maxBytes.toInt ++ " is too small to accommodate header&lastCommit&evidence=" ++
          toString (reservedBytes 0 valsCount.toInt)) :=
  ⟨fun _ _ _ size evidence count fits => dataBytesWith_eq _ _ _ _ ⟨size, evidence, count⟩ fits,
    fun _ _ size count fits => dataBytesWith_eq _ _ 0 _ ⟨size, by decide, count⟩ fits⟩

example : maxDataBytes 1000 0 1 = .ok 158 := rfl

example : maxDataBytesNoEvidence 100 0 = .error ("Negative MaxDataBytesNoEvidence. " ++
    "Block.MaxBytes=100 is too small to accommodate header&lastCommit&evidence=731") := rfl

end CelestiaCore.Types
