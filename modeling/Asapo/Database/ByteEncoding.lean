import Asapo.Common.Networking
import Asapo.PercentEncoding

namespace Asapo.Database.ByteString

open PercentEncoding

/-- A `char` is signed, and this is its value as an `int`. -/
def promoted (c : UInt8) : BitVec 32 := c.toBitVec.signExtend 32

def shouldEscape (c : UInt8) (db : Bool) : Bool :=
  if c = '$'.toUInt8 || c = ' '.toUInt8 || c = '%'.toUInt8 then true
  else if !db then false
  else c = '/'.toUInt8 || c = '\\'.toUInt8 || c = '.'.toUInt8 || c = '"'.toUInt8

def upperhex : Bytes := "0123456789ABCDEF".toList.map Char.toUInt8

/-- The loop of `Escape`. It is undefined to take a digit behind the end of `upperhex`. -/
def escapeLoop (db : Bool) : Bytes → Bytes → Option Bytes
  | [], res => some res
  | c :: s, res =>
    if shouldEscape c db then
      (upperhex[(((promoted c).sshiftRight 4).signExtend 64).toNat]?).bind (fun high =>
        (upperhex[((promoted c &&& 15).signExtend 64).toNat]?).bind (fun low =>
          escapeLoop db s (res ++ ['%'.toUInt8, high, low])))
    else escapeLoop db s (res ++ [c])

def escape (s : Bytes) (db : Bool) : Option Bytes :=
  if s.countP (fun c => shouldEscape c db) = 0 then some s else escapeLoop db s []

def encodeDbName (dbname : Bytes) : Option Bytes := escape dbname true

def encodeColName (colname : Bytes) : Option Bytes := escape colname false

def ishex (x : BitVec 32) : Bool :=
  (BitVec.sle 48 x && BitVec.sle x 57) || (BitVec.sle 97 x && BitVec.sle x 102) ||
    (BitVec.sle 65 x && BitVec.sle x 70)

/-- Reading behind the terminator or writing behind the buffer is undefined, and -1 is
returned for a text that is not encoded. -/
inductive DecodeFault where
  | undefined
  | invalid
  deriving DecidableEq, Repr

def scanHex (x y : UInt8) : Option (BitVec 32) :=
  (hexValue x).bind (fun h => (hexValue y).map (fun l => BitVec.ofNat 32 (16 * h + l)))

def store (room : ℕ) (c : BitVec 32) (rest : Except DecodeFault Bytes) : Except DecodeFault Bytes :=
  if room = 0 then .error .undefined else rest.map (UInt8.ofBitVec (c.setWidth 8) :: ·)

def decode : ℕ → Bytes → Except DecodeFault Bytes
  | _, [] => .ok []
  | room, c :: s =>
    if promoted c = 37 then
      match s with
      | [] => .error .undefined
      | x :: s =>
        if !ishex (promoted x) then .error .invalid
        else
          match s with
          | [] => .error .undefined
          | y :: s =>
            if !ishex (promoted y) then .error .invalid
            else
              match scanHex x y with
              | none => .error .invalid
              | some c => store room c (decode (room - 1) s)
    else store room (promoted c) (decode (room - 1) s)

def decodeName (name : Bytes) : Option Bytes :=
  match decode (name.length + 1) (cBytes name ++ [0]) with
  | .error .undefined => none
  | .error .invalid => some []
  | .ok decoded => some (cBytes decoded)

theorem forall_byte {P : UInt8 → Prop} (h : ∀ n : Fin 256, P (UInt8.ofNat n)) (b : UInt8) : P b := by
  have hb := h ⟨b.toNat, b.toNat_lt⟩
  rwa [UInt8.ofNat_toNat] at hb

theorem mem_of_shouldEscape {c : UInt8} {db : Bool} (h : shouldEscape c db = true) :
    c ∈ [36, 32, 37, 47, 92, 46, 34] := by
  revert h
  cases db <;> refine forall_byte (P := fun c => shouldEscape c _ = true → c ∈ [36, 32, 37, 47, 92, 46, 34]) ?_ c <;>
    decide +kernel

/-- The digits are those of the byte, since only characters below 128 are encoded. -/
theorem upperhex_of_shouldEscape {c : UInt8} {db : Bool} (h : shouldEscape c db = true) :
    upperhex[(((promoted c).sshiftRight 4).signExtend 64).toNat]? = some (hexDigit (c.toNat / 16)) ∧
      upperhex[((promoted c &&& 15).signExtend 64).toNat]? = some (hexDigit (c.toNat % 16)) := by
  have hc := mem_of_shouldEscape h
  simp only [List.mem_cons, List.not_mem_nil, or_false] at hc
  obtain rfl | rfl | rfl | rfl | rfl | rfl | rfl := hc <;> decide

theorem escapeLoop_eq (db : Bool) (s res : Bytes) :
    escapeLoop db s res = some (res ++ encode (shouldEscape · db) s) := by
  induction s generalizing res with
  | nil => simp [escapeLoop]
  | cons c s ih =>
    rw [escapeLoop, encode_cons, encodeByte]
    split
    · rename_i hc
      obtain ⟨hhigh, hlow⟩ := upperhex_of_shouldEscape hc
      rw [hhigh, hlow, Option.bind_some, Option.bind_some, ih, List.append_assoc]
      rfl
    · rw [ih, List.append_assoc]

theorem escape_eq (s : Bytes) (db : Bool) : escape s db = some (encode (shouldEscape · db) s) := by
  unfold escape
  split
  · rename_i hcount
    rw [encode_of_forall]
    intro b hb
    simpa using List.countP_eq_zero.mp hcount b hb
  · exact escapeLoop_eq db s []

theorem promoted_percent (c : UInt8) : promoted c = 37 ↔ c = percent := by
  revert c
  exact forall_byte (by decide +kernel)

theorem stored_promoted (c : UInt8) : UInt8.ofBitVec ((promoted c).setWidth 8) = c := by
  revert c
  exact forall_byte (by decide +kernel)

theorem ishex_promoted (c : UInt8) : ishex (promoted c) = (hexValue c).isSome := by
  revert c
  exact forall_byte (by decide +kernel)

theorem store_ok {room : ℕ} (h : 0 < room) (c : BitVec 32) (rest : Except DecodeFault Bytes) :
    store room c rest = rest.map (UInt8.ofBitVec (c.setWidth 8) :: ·) := if_neg (Nat.ne_of_gt h)

def decoded (s : Bytes) : Except DecodeFault Bytes :=
  match PercentEncoding.decode s with
  | none => .error .invalid
  | some t => .ok (t ++ [0])

theorem decoded_cons {b : UInt8} {s t : Bytes}
    (h : PercentEncoding.decode s = (PercentEncoding.decode t).map (b :: ·)) :
    decoded s = (decoded t).map (b :: ·) := by
  unfold decoded
  rw [h]
  cases PercentEncoding.decode t <;> rfl

theorem decode_plain {c : UInt8} {room : ℕ} (hc : c ≠ percent) (hroom : 0 < room) (s : Bytes) :
    decode room (c :: s) = (decode (room - 1) s).map (c :: ·) := by
  have hne : promoted c ≠ 37 := fun h => hc ((promoted_percent c).mp h)
  rw [decode.eq_def]
  refine (if_neg hne).trans ?_
  rw [store_ok hroom, stored_promoted]

theorem decode_percent {x y : UInt8} {h l room : ℕ} (hx : hexValue x = some h) (hy : hexValue y = some l)
    (hroom : 0 < room) (s : Bytes) :
    decode room (percent :: x :: y :: s) = (decode (room - 1) s).map (UInt8.ofNat (16 * h + l) :: ·) := by
  have hscan : scanHex x y = some (BitVec.ofNat 32 (16 * h + l)) := by
    rw [scanHex, hx, hy]
    rfl
  have hbyte : UInt8.ofBitVec ((BitVec.ofNat 32 (16 * h + l)).setWidth 8) = UInt8.ofNat (16 * h + l) :=
    congrArg UInt8.ofBitVec (BitVec.setWidth_ofNat_of_le (by decide) _)
  rw [decode.eq_def]
  refine (if_pos ((promoted_percent _).mpr rfl)).trans ?_
  simp only [ishex_promoted, hx, hy, hscan, store_ok hroom, hbyte, Option.isSome_some, Bool.not_true,
    Bool.false_eq_true, if_false]

theorem decode_invalid {s : Bytes} {room : ℕ}
    (h : ∀ x y t, s = x :: y :: t → hexValue x = none ∨ hexValue y = none) :
    decode room (percent :: (s ++ [0])) = .error .invalid := by
  have hzero : hexValue 0 = none := by decide
  rw [decode.eq_def]
  refine (if_pos ((promoted_percent _).mpr rfl)).trans ?_
  cases s with
  | nil => simp [ishex_promoted, hzero]
  | cons x s =>
    cases s with
    | nil => cases hx : hexValue x <;> simp [ishex_promoted, hx, hzero]
    | cons y t =>
      obtain hx | hy := h x y t rfl
      · simp [ishex_promoted, hx]
      · cases hx : hexValue x <;> simp [ishex_promoted, hx, hy]

theorem decode_eq {s : Bytes} {room : ℕ} (hroom : s.length < room) :
    decode room (s ++ [0]) = decoded s := by
  induction s using PercentEncoding.decode.induct generalizing room with
  | case1 =>
    rw [List.nil_append, decode_plain (by decide) (by omega)]
    rfl
  | case2 x y rest ih =>
    simp only [List.length_cons] at hroom
    cases hx : hexValue x with
    | none =>
      rw [List.cons_append, decode_invalid (by rintro x' y' t ⟨⟩; exact .inl hx), decoded,
        PercentEncoding.decode_percent, hx]
      rfl
    | some h =>
      cases hy : hexValue y with
      | none =>
        rw [List.cons_append, decode_invalid (by rintro x' y' t ⟨⟩; exact .inr hy), decoded,
          PercentEncoding.decode_percent, hx, hy]
        rfl
      | some l =>
        have hd : PercentEncoding.decode (percent :: x :: y :: rest) =
            (PercentEncoding.decode rest).map (UInt8.ofNat (16 * h + l) :: ·) := by
          rw [PercentEncoding.decode_percent, hx, hy]
          rfl
        rw [decoded_cons hd, List.cons_append, List.cons_append, List.cons_append,
          decode_percent hx hy (by omega), ih (by omega)]
  | case3 rest hshort =>
    have hno : ∀ x y t, rest ≠ x :: y :: t := fun x y t he => hshort x y t he
    rw [List.cons_append, decode_invalid (fun x y t he => absurd he (hno x y t)), decoded,
      decode_incomplete hno]
  | case4 b rest hb ih =>
    rw [List.length_cons] at hroom
    rw [List.cons_append, decode_plain hb (by omega), ih (by omega),
      decoded_cons (PercentEncoding.decode_plain hb rest)]

theorem cBytes_of_notMem {s t : Bytes} (h : 0 ∉ s) : cBytes (s ++ 0 :: t) = s := by
  have hne : ∀ b ∈ s, decide (b ≠ 0) = true := fun b hb => decide_eq_true (ne_of_mem_of_not_mem hb h)
  rw [cBytes, List.takeWhile_append_of_pos hne]
  simp

theorem cBytes_eq_self {s : Bytes} (h : 0 ∉ s) : cBytes s = s :=
  List.takeWhile_eq_self_iff.mpr (fun _ hb => decide_eq_true (ne_of_mem_of_not_mem hb h))

theorem decodeName_encode {p : UInt8 → Bool} (hp : p percent = true) {s : Bytes} (hs : 0 ∉ s) :
    decodeName (encode p s) = some s := by
  rw [decodeName, cBytes_eq_self (zero_notMem_encode hs), decode_eq (Nat.lt_succ_self _), decoded,
    decode_encode hp]
  exact congrArg some (cBytes_of_notMem hs)

end Asapo.Database.ByteString
