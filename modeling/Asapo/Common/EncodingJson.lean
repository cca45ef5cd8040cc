import Asapo.Common.DataStructs
import Asapo.Json

namespace Asapo.EncodingJson

open JsonText (Value)

section Characters

/-- The characters of a string, which `encoding/json` decodes from its bytes. -/
abbrev Runes := List Char

def utf8 (t : Runes) : Bytes := t.flatMap String.utf8EncodeChar

/-- The characters that a decoder of Go finds in so many bytes. A byte that does not begin the
encoding of a character is replaced. -/
def decodeRunes : ℕ → Bytes → Runes
  | 0, _ => []
  | _ + 1, [] => []
  | n + 1, b :: bs =>
    match (b :: bs).toByteArray.utf8DecodeChar? 0 with
    | some c => c :: decodeRunes n ((b :: bs).drop c.utf8Size)
    | none => '\uFFFD' :: decodeRunes n bs

/-- The bytes outside of ASCII are in the strings of a body, where they are decoded. -/
def characters (body : Bytes) : Runes := decodeRunes body.length body

theorem utf8_append (s t : Runes) : utf8 (s ++ t) = utf8 s ++ utf8 t := List.flatMap_append

theorem decodeRunes_utf8 (t : Runes) {n : ℕ} (h : (utf8 t).length ≤ n) : decodeRunes n (utf8 t) = t := by
  induction t generalizing n with
  | nil => cases n <;> rfl
  | cons c t ih =>
    have hcons : utf8 (c :: t) = String.utf8EncodeChar c ++ utf8 t := List.flatMap_cons
    have hsize := String.length_utf8EncodeChar c
    have hdecode : (utf8 (c :: t)).toByteArray.utf8DecodeChar? 0 = some c := List.utf8DecodeChar?_utf8Encode_cons
    cases hbytes : utf8 (c :: t) with
    | nil =>
      have hpos := Char.utf8Size_pos c
      simp only [hcons, List.append_eq_nil_iff] at hbytes
      rw [hbytes.1, List.length_nil] at hsize
      omega
    | cons b bs =>
      cases n with
      | zero => simp [hbytes] at h
      | succ n =>
        have hdrop : (b :: bs).drop c.utf8Size = utf8 t := by
          rw [← hbytes, hcons, ← hsize, List.drop_left]
        rw [hbytes] at hdecode
        simp only [decodeRunes, hdecode, hdrop]
        rw [ih]
        have hlength := congrArg List.length hcons
        rw [List.length_append, hsize] at hlength
        have hpos := Char.utf8Size_pos c
        omega

theorem characters_utf8 (t : Runes) : characters (utf8 t) = t := decodeRunes_utf8 t le_rfl

theorem utf8_injective : Function.Injective utf8 := by
  intro s t h
  rw [← characters_utf8 s, h, characters_utf8 t]

def Ascii (t : Text) : Prop := t.all (fun c => c.toNat < 128) = true

instance (t : Text) : Decidable (Ascii t) := inferInstanceAs (Decidable (_ = true))

theorem bytesOfText_ascii {t : Text} (h : Ascii t) : bytesOfText t = utf8 t := by
  induction t with
  | nil => rfl
  | cons c t ih =>
    obtain ⟨hc, ht⟩ : c.toNat < 128 ∧ Ascii t := by simpa [Ascii] using h
    have hsize : c.utf8Size = 1 :=
      Char.utf8Size_eq_one_iff.mpr (UInt32.le_iff_toNat_le.mpr (Nat.le_of_lt_succ hc))
    have hcons : utf8 (c :: t) = String.utf8EncodeChar c ++ utf8 t := List.flatMap_cons
    rw [hcons, String.utf8EncodeChar_eq_singleton hsize, ← ih ht]
    rfl

end Characters

section Fields

/-- The names of members and fields are compared without regard to case. Two characters
outside of ASCII have a letter of ASCII as their other case. -/
def foldRune (c : Char) : Char := if c = '\u017f' then 's' else if c = '\u212a' then 'k' else c.toLower

def sameName (a b : Runes) : Bool := a.map foldRune = b.map foldRune

/-- A value for a field of type string. A null leaves the field as it is, other values are an
error. -/
def intoString (old : Runes) : Value → Option Runes
  | .string s => some s
  | .null => some old
  | _ => none

/-- A number with a fraction or an exponent is an error, even if its value is an integer. -/
def intoInt (old : ℤ) : Value → Option ℤ
  | .null => some old
  | .integer z => if -(2 ^ 63) ≤ z ∧ z < 2 ^ 63 then some z else none
  | _ => none

/-- A null takes the value of a pointer away. -/
def intoBool : Value → Option (Option Bool)
  | .null => some none
  | .bool b => some (some b)
  | _ => none

end Fields

section Floats

/-- What becomes of a number that is read into an `interface{}` and written again. It is a
`float64` in between, so an integer is only kept if it has no more than 53 bits. A number that
is too large is an error. -/
structure Floats where
  rewritten : Value → Option Value
  exact : ∀ z : ℤ, |z| ≤ 2 ^ 53 → rewritten (.integer z) = some (.integer z)

def insertMember (x : Runes × Value) : List (Runes × Value) → List (Runes × Value)
  | [] => [x]
  | y :: ys => if x.1 = y.1 then x :: ys else if x.1 < y.1 then x :: y :: ys else y :: insertMember x ys

/-- The members of a map in the order in which it is written. The last one with a name counts. -/
def asMap (ms : List (Runes × Value)) : List (Runes × Value) := ms.foldl (fun m x => insertMember x m) []

variable (floats : Floats)

mutual

def throughInterface : Value → Option Value
  | .integer z => floats.rewritten (.integer z)
  | .number q => floats.rewritten (.number q)
  | .array elements => (throughElements elements).map .array
  | .object members => (throughMembers members).map (fun ms => .object (asMap ms))
  | v => some v

def throughElements : List Value → Option (List Value)
  | [] => some []
  | v :: vs => (throughInterface v).bind (fun v => (throughElements vs).map (v :: ·))

def throughMembers : List (Runes × Value) → Option (List (Runes × Value))
  | [] => some []
  | (name, v) :: ms => (throughInterface v).bind (fun v => (throughMembers ms).map ((name, v) :: ·))

end

end Floats

end Asapo.EncodingJson
