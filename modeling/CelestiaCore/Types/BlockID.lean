import CelestiaCore.Types.Basic

set_option autoImplicit false

/- `BlockID` (types/block.go) and what it calls outside src/: the `PartSetHeader` methods
(types/part_set.go) and the encoding gogoproto generates for `cmtproto.PartSetHeader`, which
`Key` embeds. Each decoder is characterised by one lemma: it accepts exactly the encodings of
well-formed values and returns the value encoded. -/

namespace CelestiaCore.Types

/-- `encodeVarintTypes`: the base-128 varint gogoproto writes, seven bits a byte, low bits
first, the high bit set on every byte but the last. -/
def encodeVarint (v : Nat) : Bytes :=
  if v < 128 then [v.toUInt8] else (v % 128 + 128).toUInt8 :: encodeVarint (v / 128)
termination_by v
decreasing_by omega

theorem encodeVarint_of_lt {v : Nat} (small : v < 128) : encodeVarint v = [v.toUInt8] := by
  rw [encodeVarint, if_pos small]

theorem encodeVarint_of_ge {v : Nat} (large : 128 ≤ v) :
    encodeVarint v = (v % 128 + 128).toUInt8 :: encodeVarint (v / 128) := by
  rw [encodeVarint, if_neg (by omega)]

namespace Proto

/-- `cmtproto.PartSetHeader`. -/
structure PartSetHeader where
  total : UInt32
  hash : Bytes
  deriving DecidableEq, Repr

/-- A varint field as the generated marshallers write it: its tag and value, left out when
the value is 0. -/
def varintField (tag : UInt8) (v : Nat) : Bytes := if v = 0 then [] else tag :: encodeVarint v

/-- A length-delimited field: its tag, length and bytes, left out when empty. -/
def bytesField (tag : UInt8) (bz : Bytes) : Bytes :=
  if bz = [] then [] else tag :: (encodeVarint bz.length ++ bz)

/-- The generated `PartSetHeader.Marshal`: field 1 (`total`) then field 2 (`hash`). -/
def PartSetHeader.marshal (p : PartSetHeader) : Bytes :=
  varintField 0x08 p.total.toNat ++ bytesField 0x12 p.hash

/-- `cmtproto.BlockID`. -/
structure BlockID where
  hash : Bytes
  partSetHeader : PartSetHeader
  deriving DecidableEq, Repr

end Proto

/-- `PartSetHeader` (types/part_set.go). -/
structure PartSetHeader where
  total : UInt32
  hash : Bytes
  deriving DecidableEq, Repr

namespace PartSetHeader

def equals (psh other : PartSetHeader) : Bool :=
  psh.total == other.total && psh.hash == other.hash

def isZero (psh : PartSetHeader) : Bool := psh.total == 0 && psh.hash.isEmpty

def validateBasic (psh : PartSetHeader) : Except String Unit :=
  wrapErr "wrong Hash: " (validateHash psh.hash)

def toProto (psh : PartSetHeader) : Proto.PartSetHeader := ⟨psh.total, psh.hash⟩

@[simp] theorem equals_iff (psh other : PartSetHeader) : psh.equals other = true ↔ psh = other := by
  cases psh; cases other; simp [equals]

end PartSetHeader

/-- `PartSetHeaderFromProto`. -/
def partSetHeaderFromProto (p : Proto.PartSetHeader) : Except String PartSetHeader :=
  let psh : PartSetHeader := ⟨p.total, p.hash⟩
  psh.validateBasic.map fun _ => psh

/-- `BlockID`. -/
structure BlockID where
  hash : Bytes
  partSetHeader : PartSetHeader
  deriving DecidableEq, Repr

namespace BlockID

/-- `Equals`: the same hash and an equal part set header. -/
def equals (blockID other : BlockID) : Bool :=
  blockID.hash == other.hash && blockID.partSetHeader.equals other.partSetHeader

/-- `Key`: `fmt.Sprint` of two strings is their plain concatenation, the raw hash followed by
the marshalled part set header. -/
def key (blockID : BlockID) : Bytes := blockID.hash ++ blockID.partSetHeader.toProto.marshal

def validateBasic (blockID : BlockID) : Except String Unit := do
  (validateHash blockID.hash).mapError fun _ => "wrong Hash"
  wrapErr "wrong PartSetHeader: " blockID.partSetHeader.validateBasic

def isZero (blockID : BlockID) : Bool := blockID.hash.isEmpty && blockID.partSetHeader.isZero

/-- `IsComplete`: both hashes are `tmhash.Size` bytes and there is at least one part. -/
def isComplete (blockID : BlockID) : Bool :=
  blockID.hash.length == tmhashSize && blockID.partSetHeader.total > 0 &&
    blockID.partSetHeader.hash.length == tmhashSize

def toProto (blockID : BlockID) : Proto.BlockID := ⟨blockID.hash, blockID.partSetHeader.toProto⟩

@[simp] theorem equals_iff (blockID other : BlockID) :
    blockID.equals other = true ↔ blockID = other := by
  cases blockID; cases other; simp [equals]

@[simp] theorem toProto_inj {blockID other : BlockID} :
    blockID.toProto = other.toProto ↔ blockID = other := by
  rcases blockID with ⟨_, _, _⟩
  rcases other with ⟨_, _, _⟩
  simp [toProto, PartSetHeader.toProto]

theorem validateBasic_eq_ok (blockID : BlockID) :
    blockID.validateBasic = .ok () ↔
      validateHash blockID.hash = .ok () ∧ validateHash blockID.partSetHeader.hash = .ok () := by
  cases valid : validateHash blockID.hash <;>
    simp [validateBasic, valid, Except.mapError, PartSetHeader.validateBasic]

theorem validateBasic_of_isComplete {blockID : BlockID} (complete : blockID.isComplete = true) :
    blockID.validateBasic = .ok () ∧ blockID.isZero = false := by
  simp only [isComplete, Bool.and_eq_true, beq_iff_eq, decide_eq_true_eq] at complete
  obtain ⟨⟨hash, -⟩, partsHash⟩ := complete
  refine ⟨(validateBasic_eq_ok blockID).mpr ?_, ?_⟩
  · simp [validateHash_eq_ok, hash, partsHash]
  · simp [isZero, ← List.length_eq_zero, hash, tmhashSize]

end BlockID

/-- `BlockIDFromProto`: the part set header is checked first, then the whole `BlockID`. -/
def blockIDFromProto (p : Proto.BlockID) : Except String BlockID := do
  let ph ← partSetHeaderFromProto p.partSetHeader
  let blockID : BlockID := ⟨p.hash, ph⟩
  blockID.validateBasic
  return blockID

theorem blockIDFromProto_eq_ok (p : Proto.BlockID) (blockID : BlockID) :
    blockIDFromProto p = .ok blockID ↔ blockID.validateBasic = .ok () ∧ p = blockID.toProto := by
  simp only [blockIDFromProto, partSetHeaderFromProto, PartSetHeader.validateBasic, bind_eq_ok,
    map_eq_ok, exists_unit, wrapErr_eq_ok, bind_unit_eq_ok, pure_eq_ok, BlockID.validateBasic_eq_ok]
  constructor
  · rintro ⟨_, ⟨psh_ok, rfl⟩, ⟨hash_ok, -⟩, rfl⟩
    exact ⟨⟨hash_ok, psh_ok⟩, rfl⟩
  · rintro ⟨⟨hash_ok, psh_ok⟩, rfl⟩
    exact ⟨_, ⟨psh_ok, rfl⟩, ⟨hash_ok, psh_ok⟩, rfl⟩

end CelestiaCore.Types
