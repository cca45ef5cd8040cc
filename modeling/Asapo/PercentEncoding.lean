import Mathlib

namespace Asapo.PercentEncoding

def percent : UInt8 := 37

def hexDigit (n : ℕ) : UInt8 := if n < 10 then UInt8.ofNat (48 + n) else UInt8.ofNat (55 + n)

def hexValue (b : UInt8) : Option ℕ :=
  if 48 ≤ b ∧ b ≤ 57 then some (b.toNat - 48)
  else if 65 ≤ b ∧ b ≤ 70 then some (b.toNat - 55)
  else if 97 ≤ b ∧ b ≤ 102 then some (b.toNat - 87)
  else none

def triple (b : UInt8) : List UInt8 := [percent, hexDigit (b.toNat / 16), hexDigit (b.toNat % 16)]

def encodeByte (p : UInt8 → Bool) (b : UInt8) : List UInt8 := if p b then triple b else [b]

/-- The bytes that are selected are written as a percent sign and two digits. -/
def encode (p : UInt8 → Bool) (s : List UInt8) : List UInt8 := s.flatMap (encodeByte p)

/-- Every percent sign stands for the byte of the two digits behind it. -/
def decode : List UInt8 → Option (List UInt8)
  | [] => some []
  | b :: rest =>
    if b = percent then
      match rest with
      | x :: y :: rest =>
        (hexValue x).bind (fun h => (hexValue y).bind (fun l =>
          (decode rest).map (UInt8.ofNat (16 * h + l) :: ·)))
      | _ => none
    else (decode rest).map (b :: ·)

theorem hexValue_hexDigit {n : ℕ} (h : n < 16) : hexValue (hexDigit n) = some n := by
  interval_cases n <;> rfl

variable {p : UInt8 → Bool}

@[simp] theorem encode_nil : encode p [] = [] := rfl

theorem encode_cons (b : UInt8) (s : List UInt8) : encode p (b :: s) = encodeByte p b ++ encode p s :=
  List.flatMap_cons

theorem encode_append (s t : List UInt8) : encode p (s ++ t) = encode p s ++ encode p t :=
  List.flatMap_append

theorem encode_of_forall {s : List UInt8} (h : ∀ b ∈ s, p b = false) : encode p s = s := by
  induction s with
  | nil => rfl
  | cons b s ih =>
    rw [encode_cons, ih (fun c hc => h c (List.mem_cons_of_mem _ hc)), encodeByte,
      h b List.mem_cons_self]
    rfl

theorem length_encode (s : List UInt8) : (encode p s).length = s.length + 2 * s.countP p := by
  induction s with
  | nil => rfl
  | cons b s ih =>
    rw [encode_cons, List.length_append, ih, List.length_cons, List.countP_cons, encodeByte]
    cases p b with
    | true =>
      simp only [triple, if_true, List.length_cons, List.length_nil]
      omega
    | false =>
      simp only [Bool.false_eq_true, if_false, List.length_singleton]
      omega

theorem hexDigit_ne_zero {n : ℕ} (h : n < 16) : hexDigit n ≠ 0 := by
  interval_cases n <;> decide

theorem zero_notMem_encode {s : List UInt8} (h : 0 ∉ s) : 0 ∉ encode p s := by
  intro hz
  obtain ⟨b, hb, hmem⟩ := List.mem_flatMap.mp hz
  unfold encodeByte at hmem
  split at hmem
  · have hlt := b.toNat_lt
    simp only [triple, List.mem_cons, List.not_mem_nil, or_false] at hmem
    obtain hmem | hmem | hmem := hmem
    · exact absurd hmem (by decide)
    · exact hexDigit_ne_zero (by omega) hmem.symm
    · exact hexDigit_ne_zero (by omega) hmem.symm
  · rw [List.mem_singleton.mp hmem] at h
    exact h hb

theorem byte_of_halves (b : UInt8) : UInt8.ofNat (16 * (b.toNat / 16) + b.toNat % 16) = b := by
  rw [Nat.div_add_mod, UInt8.ofNat_toNat]

theorem decode_percent (x y : UInt8) (s : List UInt8) :
    decode (percent :: x :: y :: s) = (hexValue x).bind (fun h => (hexValue y).bind (fun l =>
      (decode s).map (UInt8.ofNat (16 * h + l) :: ·))) := by
  rw [decode.eq_def]
  exact if_pos rfl

theorem decode_incomplete {s : List UInt8} (h : ∀ x y t, s ≠ x :: y :: t) :
    decode (percent :: s) = none := by
  rw [decode.eq_def]
  refine (if_pos rfl).trans ?_
  split
  · rename_i x y t
    exact absurd rfl (h x y t)
  · rfl

theorem decode_triple (b : UInt8) (s : List UInt8) : decode (triple b ++ s) = (decode s).map (b :: ·) := by
  have hb := b.toNat_lt
  have hhigh : b.toNat / 16 < 16 := by omega
  have hlow : b.toNat % 16 < 16 := by omega
  change decode (percent :: hexDigit (b.toNat / 16) :: hexDigit (b.toNat % 16) :: s) = _
  rw [decode_percent, hexValue_hexDigit hhigh, hexValue_hexDigit hlow]
  simp only [Option.bind_some, byte_of_halves]

theorem decode_plain {b : UInt8} (h : b ≠ percent) (s : List UInt8) :
    decode (b :: s) = (decode s).map (b :: ·) := by
  rw [decode.eq_def]
  exact if_neg h

theorem decode_encode (hp : p percent = true) (s : List UInt8) : decode (encode p s) = some s := by
  induction s with
  | nil => rfl
  | cons b s ih =>
    rw [encode_cons, encodeByte]
    split
    · rw [decode_triple, ih]
      rfl
    · rename_i hb
      have hne : b ≠ percent := by
        rintro rfl
        exact hb hp
      rw [List.singleton_append, decode_plain hne, ih]
      rfl

theorem encode_injective (hp : p percent = true) : Function.Injective (encode p) := by
  intro s t h
  have hd := congrArg decode h
  rw [decode_encode hp, decode_encode hp] at hd
  exact Option.some.inj hd

end Asapo.PercentEncoding
