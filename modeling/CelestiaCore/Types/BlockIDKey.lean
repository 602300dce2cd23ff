import CelestiaCore.Types.BlockID

set_option autoImplicit false

/- Whether `BlockID.Key` tells block IDs apart. The header encoding is prefix-free, so a key
splits uniquely once the hash's length is known; `ValidateBasic` admits two hash lengths,
0 and 32, and a key of one length can spell a key of the other. Complete block IDs have
32-byte hashes only, and on them the key is injective. -/

namespace CelestiaCore.Types

theorem toUInt8_inj {m n : Nat} (hm : m < 256) (hn : n < 256) (same : m.toUInt8 = n.toUInt8) :
    m = n := by
  simpa [UInt8.toNat_ofNat_of_lt, hm, hn] using congrArg UInt8.toNat same

/-- A varint can be read back off the front of any byte string: its last byte is the only
one below `0x80`. -/
theorem encodeVarint_append_inj {a b : Nat} {r s : Bytes}
    (same : encodeVarint a ++ r = encodeVarint b ++ s) : a = b ∧ r = s := by
  induction a using Nat.strong_induction_on generalizing b with
  | _ a ih =>
  rcases Nat.lt_or_ge a 128 with ha | ha <;> rcases Nat.lt_or_ge b 128 with hb | hb <;>
    simp only [encodeVarint_of_lt, encodeVarint_of_ge, ha, hb, List.singleton_append,
      List.cons_append, List.cons.injEq] at same
  · exact ⟨toUInt8_inj (by omega) (by omega) same.1, same.2⟩
  · exact absurd (toUInt8_inj (by omega) (by omega) same.1) (by omega)
  · exact absurd (toUInt8_inj (by omega) (by omega) same.1) (by omega)
  · have low := toUInt8_inj (by omega) (by omega) same.1
    obtain ⟨high, rest⟩ := ih (a / 128) (by omega) same.2
    exact ⟨by omega, rest⟩

namespace Proto

theorem bytesField_inj {tag : UInt8} {a b : Bytes} (same : bytesField tag a = bytesField tag b) :
    a = b := by
  unfold bytesField at same
  split_ifs at same with ha hb
  · exact ha.trans hb.symm
  · exact (encodeVarint_append_inj (List.cons.inj same).2).2

/-- A varint field followed by a field with another tag reads back uniquely: an absent first
field cannot pass for a present one, the next byte being the other tag or nothing. -/
theorem varintField_append_inj {tag tag' : UInt8} {v w : Nat} {a b : Bytes} (other : tag ≠ tag')
    (same : varintField tag v ++ bytesField tag' a = varintField tag w ++ bytesField tag' b) :
    v = w ∧ a = b := by
  have headed : ∀ {c x : Bytes}, bytesField tag' c ≠ tag :: x := fun h => by
    unfold bytesField at h
    split_ifs at h
    exact other (List.cons.inj h).1.symm
  unfold varintField at same
  split_ifs at same with hv hw hw
  · exact ⟨hv.trans hw.symm, bytesField_inj same⟩
  · exact absurd same headed
  · exact absurd same.symm headed
  · simp only [List.cons_append, List.cons.injEq, true_and] at same
    obtain ⟨value, rest⟩ := encodeVarint_append_inj same
    exact ⟨value, bytesField_inj rest⟩

theorem PartSetHeader.marshal_injective {p q : PartSetHeader} (same : p.marshal = q.marshal) :
    p = q := by
  obtain ⟨total, hash⟩ := varintField_append_inj (by decide) same
  cases p
  cases q
  exact PartSetHeader.mk.injEq .. ▸ ⟨UInt32.toNat.inj total, hash⟩

end Proto

namespace BlockID

theorem key_eq_iff_of_length {a b : BlockID} (length : a.hash.length = b.hash.length) :
    a.key = b.key ↔ a = b := by
  refine ⟨fun same => ?_, fun h => h ▸ rfl⟩
  obtain ⟨hash, psh⟩ := List.append_inj same length
  rcases a with ⟨_, _, _⟩
  rcases b with ⟨_, _, _⟩
  cases Proto.PartSetHeader.marshal_injective psh
  simp_all

/-- `Key` tells well-formed block IDs apart whenever their hashes have one length (both empty
or both `tmhash.Size` bytes), and equal block IDs always share a key. -/
theorem key_eq_iff_equals_of_same_hash_length :
    (∀ a b : BlockID, a.equals b = true → a.key = b.key) ∧
    ∀ a b : BlockID, a.hash.length = b.hash.length → (a.key = b.key ↔ a.equals b = true) :=
  ⟨fun a b same => by rw [(equals_iff a b).mp same],
    fun a b length => by rw [equals_iff, key_eq_iff_of_length length]⟩

/-- A well-formed block ID with an empty hash, whose part set header hash is a 32-byte string
that ends in the encoding of a header with total 1. -/
def emptyHashID : BlockID := ⟨[], ⟨0, List.replicate 30 0 ++ [0x08, 0x01]⟩⟩

/-- A well-formed block ID whose 32-byte hash is the encoding of `emptyHashID`'s header without
its last two bytes, and whose header has total 1 and no hash. -/
def fullHashID : BlockID := ⟨[0x12, 0x20] ++ List.replicate 30 0, ⟨1, []⟩⟩

/-- `Key` is not injective on well-formed block IDs: `emptyHashID` and `fullHashID` pass
`ValidateBasic` and share a key, yet are not `Equals`. -/
theorem key_injective_on_valid_fails :
    ¬ ∀ a b : BlockID, a.validateBasic = .ok () → b.validateBasic = .ok () →
      (a.key = b.key ↔ a.equals b = true) := fun law => by
  have keys : emptyHashID.key = fullHashID.key := by
    simp [key, emptyHashID, fullHashID, PartSetHeader.toProto, Proto.PartSetHeader.marshal,
      Proto.varintField, Proto.bytesField, encodeVarint_of_lt]
    rfl
  have equal := (law emptyHashID fullHashID
    (by simp [validateBasic_eq_ok, emptyHashID, tmhashSize])
    (by simp [validateBasic_eq_ok, fullHashID, tmhashSize])).mp keys
  simp [emptyHashID, fullHashID] at equal

end BlockID

/-- On complete block IDs, the IDs of non-nil blocks that commits vote for, `Key` is
injective: two complete IDs share a key exactly when they are `Equals`. Both hashes of a
complete ID are `tmhash.Size` bytes, so no key of an ID with an empty hash can collide with
one; and a complete ID passes `ValidateBasic` and is not zero. -/
theorem complete_blockID_key_injective :
    ∀ a b : BlockID, a.isComplete = true → b.isComplete = true →
      (a.key = b.key ↔ a.equals b = true) ∧ a.validateBasic = .ok () ∧ a.isZero = false := by
  intro a b completeA completeB
  have length (id : BlockID) (complete : id.isComplete = true) : id.hash.length = tmhashSize := by
    simp only [BlockID.isComplete, Bool.and_eq_true, beq_iff_eq] at complete
    exact complete.1.1
  rw [BlockID.equals_iff, BlockID.key_eq_iff_of_length
    ((length a completeA).trans (length b completeB).symm)]
  exact ⟨Iff.rfl, BlockID.validateBasic_of_isComplete completeA⟩

/-- Complete block IDs of zero hashes, with one part and with two. -/
def onePartID : BlockID := ⟨List.replicate tmhashSize 0, ⟨1, List.replicate tmhashSize 0⟩⟩

def twoPartID : BlockID := ⟨List.replicate tmhashSize 0, ⟨2, List.replicate tmhashSize 0⟩⟩

theorem onePartID_twoPartID_keys_differ :
    onePartID.isComplete = true ∧ twoPartID.isComplete = true ∧ onePartID.key ≠ twoPartID.key :=
  ⟨rfl, rfl, fun same => absurd
    ((complete_blockID_key_injective onePartID twoPartID rfl rfl).1.mp same) (by decide)⟩

end CelestiaCore.Types
