import Asapo.Common.Networking

namespace Asapo.LittleEndian

/-- The lowest bytes of a number, the lowest one first. -/
def toBytes : ℕ → ℕ → List UInt8
  | 0, _ => []
  | k + 1, n => UInt8.ofNat n :: toBytes k (n / 256)

def ofBytes : List UInt8 → ℕ
  | [] => 0
  | b :: bs => b.toNat + 256 * ofBytes bs

@[simp] theorem length_toBytes (k n : ℕ) : (toBytes k n).length = k := by
  induction k generalizing n with
  | zero => rfl
  | succ k ih => rw [toBytes, List.length_cons, ih]

theorem ofBytes_toBytes {k n : ℕ} (h : n < 256 ^ k) : ofBytes (toBytes k n) = n := by
  induction k generalizing n with
  | zero =>
    rw [Nat.pow_zero] at h
    rw [toBytes, ofBytes]
    omega
  | succ k ih =>
    have hk : n / 256 < 256 ^ k := by
      rw [Nat.pow_succ] at h
      omega
    rw [toBytes, ofBytes, ih hk, UInt8.toNat_ofNat']
    omega

def field (offset size : ℕ) (bs : List UInt8) : List UInt8 := (bs.drop offset).take size

theorem field_head {size : ℕ} {bs rest : List UInt8} (hs : bs.length = size) :
    field 0 size (bs ++ rest) = bs := by
  subst hs
  rw [field, List.drop_zero, List.take_left]

theorem field_skip {offset size k : ℕ} {first rest : List UInt8} (hf : first.length = k) :
    field (offset + k) size (first ++ rest) = field offset size rest := by
  subst hf
  rw [field, field, Nat.add_comm, ← List.drop_drop, List.drop_left]

end Asapo.LittleEndian

namespace Asapo

open LittleEndian

namespace Opcode

def code : Opcode → ℕ
  | .unknownOp => 1
  | .transferData => 2
  | .transferDatasetData => 3
  | .streamInfo => 4
  | .lastStream => 5
  | .getBufferData => 6
  | .authorize => 7
  | .transferMetaData => 8
  | .deleteStream => 9
  | .getMeta => 10
  | .other code => code

def ofCode : ℕ → Opcode
  | 1 => .unknownOp
  | 2 => .transferData
  | 3 => .transferDatasetData
  | 4 => .streamInfo
  | 5 => .lastStream
  | 6 => .getBufferData
  | 7 => .authorize
  | 8 => .transferMetaData
  | 9 => .deleteStream
  | 10 => .getMeta
  | code => .other code

end Opcode

namespace GenericRequestHeader

/-- A character array that `strncpy` fills. -/
def chars (size : ℕ) (t : Text) : Bytes := (bytesOfText t ++ List.replicate size 0).take size

def ofChars (bs : Bytes) : Text := textOfBytes (bs.takeWhile (· ≠ 0))

def size : ℕ := 2120

/-- The structure as it lies in the memory of a little-endian machine, which is what is
sent. The padding is not read. -/
def toBytes (h : GenericRequestHeader) : Bytes :=
  LittleEndian.toBytes 1 h.opCode.code ++ (List.replicate 7 0 ++
  (LittleEndian.toBytes 8 h.dataId ++ (LittleEndian.toBytes 8 h.dataSize ++
  (LittleEndian.toBytes 8 h.metaSize ++ (LittleEndian.toBytes 8 (h.customData kPosIngestMode) ++
  (LittleEndian.toBytes 8 (h.customData kPosDataSetId) ++
  (LittleEndian.toBytes 8 (h.customData kPosDataSetSize) ++
  (chars kMaxMessageSize h.message ++ (chars kMaxMessageSize h.stream ++
  (chars kMaxVersionSize h.apiVersion ++ List.replicate 6 0))))))))))

def number (offset : ℕ) (bs : Bytes) : ℕ := LittleEndian.ofBytes (field offset 8 bs)

def ofBytes (bs : Bytes) : GenericRequestHeader where
  opCode := .ofCode (LittleEndian.ofBytes (field 0 1 bs))
  dataId := number 8 bs
  dataSize := number 16 bs
  metaSize := number 24 bs
  customData := ![number 32 bs, number 40 bs, number 48 bs]
  message := ofChars (field 56 kMaxMessageSize bs)
  stream := ofChars (field 1080 kMaxMessageSize bs)
  apiVersion := ofChars (field 2104 kMaxVersionSize bs)

structure Fits (h : GenericRequestHeader) : Prop where
  dataSize : h.dataSize < 256 ^ 8
  metaSize : h.metaSize < 256 ^ 8
  customData : ∀ i, h.customData i < 256 ^ 8

instance (h : GenericRequestHeader) : Decidable h.Fits :=
  decidable_of_iff (h.dataSize < 256 ^ 8 ∧ h.metaSize < 256 ^ 8 ∧ ∀ i, h.customData i < 256 ^ 8)
    ⟨fun ⟨hd, hm, hc⟩ => ⟨hd, hm, hc⟩, fun hf => ⟨hf.dataSize, hf.metaSize, hf.customData⟩⟩

@[simp] theorem length_chars (size : ℕ) (t : Text) : (chars size t).length = size := by
  simp [chars]

@[simp] theorem length_toBytes (h : GenericRequestHeader) : h.toBytes.length = size := by
  simp [toBytes, size, kMaxMessageSize, kMaxVersionSize]

theorem number_head {n : ℕ} {rest : Bytes} (hn : n < 256 ^ 8) :
    number 0 (LittleEndian.toBytes 8 n ++ rest) = n := by
  rw [number, field_head (LittleEndian.length_toBytes 8 n), ofBytes_toBytes hn]

theorem number_skip {offset n : ℕ} {rest : Bytes} :
    number (offset + 8) (LittleEndian.toBytes 8 n ++ rest) = number offset rest := by
  rw [number, number, field_skip (LittleEndian.length_toBytes 8 n)]

variable {h : GenericRequestHeader}

theorem number_toBytes (offset : ℕ) : number (offset + 7 + 1) h.toBytes =
    number offset (h.toBytes.drop 8) := by
  rw [number, number, toBytes, field_skip (LittleEndian.length_toBytes 1 _),
    field_skip (List.length_replicate ..)]
  congr 1

theorem ofBytes_opCode (hc : h.opCode.code < 256) (ho : Opcode.ofCode h.opCode.code = h.opCode) :
    (ofBytes h.toBytes).opCode = h.opCode := by
  change Opcode.ofCode (LittleEndian.ofBytes (field 0 1 h.toBytes)) = _
  rw [toBytes, field_head (LittleEndian.length_toBytes 1 _), ofBytes_toBytes hc, ho]

theorem ofBytes_dataSize (hf : h.Fits) : (ofBytes h.toBytes).dataSize = h.dataSize := by
  change number (0 + 8 + 7 + 1) h.toBytes = _
  rw [number_toBytes]
  exact number_skip.trans (number_head hf.dataSize)

theorem ofBytes_metaSize (hf : h.Fits) : (ofBytes h.toBytes).metaSize = h.metaSize := by
  change number (0 + 8 + 8 + 7 + 1) h.toBytes = _
  rw [number_toBytes]
  exact (number_skip.trans number_skip).trans (number_head hf.metaSize)

theorem ofBytes_ingestMode (hf : h.Fits) : (ofBytes h.toBytes).ingestMode = h.ingestMode := by
  change number (0 + 8 + 8 + 8 + 7 + 1) h.toBytes = _
  rw [number_toBytes]
  exact ((number_skip.trans number_skip).trans number_skip).trans (number_head (hf.customData 0))

end GenericRequestHeader

end Asapo
