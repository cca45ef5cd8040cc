import Mathlib

namespace Asapo.Word

def add (a b : ℕ) : ℕ := (a + b) % 2 ^ 64

def sub (a b : ℕ) : ℕ := (a + (2 ^ 64 - b % 2 ^ 64)) % 2 ^ 64

theorem add_eq {a b : ℕ} (h : a + b < 2 ^ 64) : add a b = a + b :=
  Nat.mod_eq_of_lt h

theorem sub_eq {a b : ℕ} (ha : a < 2 ^ 64) (h : b ≤ a) : sub a b = a - b := by
  have hb : b % 2 ^ 64 = b := Nat.mod_eq_of_lt (by omega)
  have he : a + (2 ^ 64 - b) = (a - b) + 2 ^ 64 := by omega
  rw [sub, hb, he, Nat.add_mod_right]
  exact Nat.mod_eq_of_lt (by omega)

theorem sub_add_eq_iff {a b c : ℕ} (ha : a < 2 ^ 64) (hb : b < 2 ^ 64) (hc : c ≤ a) :
    sub a b + c = a ↔ b = c := by
  rw [sub, Nat.mod_eq_of_lt hb]
  omega

end Asapo.Word

namespace Asapo

abbrev Bytes := List UInt8

/-- A string of the program. Each of its bytes is a character below 256. -/
abbrev Text := List Char

def textOfBytes (bs : Bytes) : Text := bs.map (fun b => Char.ofNat b.toNat)

def bytesOfText (t : Text) : Bytes := t.map (fun c => UInt8.ofNat c.toNat)

/-- A C string ends in front of its first zero byte. -/
def cString (t : Text) : Text := t.takeWhile (fun c => c.toNat ≠ 0)

def NoNul (t : Text) : Prop := t.all (fun c => c.toNat ≠ 0) = true

instance (t : Text) : Decidable (NoNul t) := inferInstanceAs (Decidable (_ = true))

theorem noNul_append {s t : Text} : NoNul (s ++ t) ↔ NoNul s ∧ NoNul t := by
  simp only [NoNul, List.all_append, Bool.and_eq_true]

theorem noNul_cString (t : Text) : NoNul (cString t) := List.all_takeWhile

theorem cString_eq_iff {t : Text} : cString t = t ↔ NoNul t :=
  List.takeWhile_eq_self_iff.trans List.all_eq_true.symm

def cBytes (s : Bytes) : Bytes := s.takeWhile (· ≠ 0)

theorem bytesOfText_textOfBytes (s : Bytes) : bytesOfText (textOfBytes s) = s := by
  have hbyte : ∀ b : UInt8, UInt8.ofNat (Char.ofNat b.toNat).toNat = b := by
    intro b
    have hvalid : b.toNat.isValidChar := .inl (b.toNat_lt.trans (by decide))
    rw [Char.toNat_ofNat, if_pos hvalid, UInt8.ofNat_toNat]
  induction s with
  | nil => rfl
  | cons b s ih => exact congrArg₂ List.cons (hbyte b) ih

inductive Opcode where
  | unknownOp
  | transferData
  | transferDatasetData
  | streamInfo
  | lastStream
  | getBufferData
  | authorize
  | transferMetaData
  | deleteStream
  | getMeta
  | other (code : ℕ)
  deriving DecidableEq, Repr

inductive NetworkErrorCode where
  | noError
  | reauthorize
  | warning
  | wrongRequest
  | notSupported
  | noData
  | authorizationError
  | internalServerError
  deriving DecidableEq, Repr

def kMaxMessageSize : ℕ := 1024
def kMaxVersionSize : ℕ := 10
def kPosIngestMode : Fin 3 := 0
def kPosDataSetId : Fin 3 := 1
def kPosMetaIngestMode : Fin 3 := 1
def kPosDataSetSize : Fin 3 := 2

namespace IngestModeFlags

def transferData : ℕ := 1 <<< 0
def transferMetaDataOnly : ℕ := 1 <<< 1
def storeInFilesystem : ℕ := 1 <<< 2
def storeInDatabase : ℕ := 1 <<< 3
def writeRawDataToOffline : ℕ := 1 <<< 4

end IngestModeFlags

def hasFlag (mode flag : ℕ) : Bool := mode &&& flag != 0

inductive MetaIngestOp where
  | insert
  | replace
  | update
  | other (code : ℕ)
  deriving DecidableEq, Repr

def MetaIngestOp.ofCode : ℕ → MetaIngestOp
  | 1 => .insert
  | 2 => .replace
  | 3 => .update
  | code => .other code

structure MetaIngestMode where
  op : MetaIngestOp
  upsert : Bool
  deriving DecidableEq, Repr

/-- `Decode` leaves the operation as it is, uninitialised at the only caller, for a code
that names none. -/
def MetaIngestMode.decode (op : MetaIngestOp) (code : ℕ) : MetaIngestMode :=
  let upsert := code > 10
  let val := code - (if upsert then 10 else 0)
  ⟨if val ≤ 3 then .ofCode val else op, upsert⟩

/-- The fields `message`, `stream` and `api_version` hold the character arrays up to
their first NUL, which is all that the getters of a request read. -/
structure GenericRequestHeader where
  opCode : Opcode
  dataId : ℕ
  dataSize : ℕ
  metaSize : ℕ
  customData : Fin 3 → ℕ
  message : Text
  stream : Text
  apiVersion : Text
  deriving DecidableEq

def GenericRequestHeader.ingestMode (h : GenericRequestHeader) : ℕ := h.customData kPosIngestMode

structure GenericNetworkResponse where
  opCode : Opcode
  errorCode : NetworkErrorCode
  message : Text
  deriving DecidableEq, Repr

def kReadWriteBufSize : ℕ := 1024 * 1024 * 50

def isSpace (c : Char) : Bool := c = ' ' || (9 ≤ c.toNat && c.toNat ≤ 13)

/-- Blanks and a sign may stand in front of the digits, and what is behind them is not read. -/
def atoi (s : Text) : ℤ :=
  let s := s.dropWhile isSpace
  let negative := s.head? = some '-'
  let s := if negative ∨ s.head? = some '+' then s.tail else s
  let n : ℤ := (s.takeWhile Char.isDigit).foldl (fun n c => 10 * n + (c.toNat - '0'.toNat)) 0
  if negative then -n else n

/-- The source's substring runs one character past the dot, at which `atoi` stops. An `int` has
32 bits. -/
def versionToNumber (version : Text) : ℤ :=
  match version.findIdx? (· = '.') with
  | none => 0
  | some found =>
    Int.bmod (atoi ((version.drop 1).take found) * 1000 + atoi (version.drop (found + 1))) (2 ^ 32)

example : versionToNumber "v0.5".toList = 5 ∧ versionToNumber "v 1.-2 ".toList = 998 := by decide

end Asapo
