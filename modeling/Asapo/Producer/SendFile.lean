import Asapo.Producer.ProducerRequest

namespace Asapo.Producer

variable {bufSize length rounds total : ℕ} {file bytes : Bytes}

theorem sendFileLoop_done (h : length ≤ total)
    (hs : sendFileLoop bufSize length rounds total file = some bytes) : bytes = [] := by
  unfold sendFileLoop at hs
  rw [if_neg (by omega)] at hs
  cases hs
  rfl

theorem sendFileLoop_step (h : total < length)
    (hs : sendFileLoop bufSize length rounds total file = some bytes) :
    ∃ rounds' rest, rounds = rounds' + 1 ∧ bytes = file.take bufSize ++ rest ∧
      sendFileLoop bufSize length rounds' (total + min bufSize file.length) (file.drop bufSize) =
        some rest := by
  unfold sendFileLoop at hs
  rw [if_pos h] at hs
  cases rounds with
  | zero => cases hs
  | succ rounds' =>
    simp only [Option.map_eq_some_iff] at hs
    obtain ⟨rest, hr, rfl⟩ := hs
    exact ⟨rounds', rest, rfl, rfl, by simpa using hr⟩

theorem sendFileLoop_nil (h : total < length) : sendFileLoop bufSize length rounds total [] = none := by
  induction rounds with
  | zero =>
    unfold sendFileLoop
    rw [if_pos h]
  | succ rounds ih =>
    unfold sendFileLoop
    rw [if_pos h]
    simpa using ih

/-- The loop sends whole buffers, so that it sends too much unless the buffer divides what
is left or the file ends there. -/
theorem sendFileLoop_length
    (hs : sendFileLoop bufSize length rounds total file = some bytes) :
    length - total ≤ bytes.length ∧
      (bytes.length = length - total ↔ bufSize ∣ length - total ∨ file.length = length - total) := by
  induction rounds generalizing total file bytes with
  | zero =>
    obtain h | h := Nat.lt_or_ge total length
    · obtain ⟨rounds', rest, hr, -⟩ := sendFileLoop_step h hs
      cases hr
    · rw [sendFileLoop_done h hs, Nat.sub_eq_zero_of_le h]
      simp
  | succ rounds ih =>
    obtain h | h := Nat.lt_or_ge total length
    swap
    · rw [sendFileLoop_done h hs, Nat.sub_eq_zero_of_le h]
      simp
    obtain ⟨rounds', rest, hr, rfl, hrest⟩ := sendFileLoop_step h hs
    cases hr
    obtain ⟨hle, heq⟩ := ih hrest
    rw [List.length_append, List.length_take]
    obtain hf | hf := Nat.lt_or_ge file.length bufSize
    · -- the whole file fits into the buffer
      rw [Nat.min_eq_right (by omega)] at hrest hle heq ⊢
      rw [List.drop_eq_nil_of_le (by omega)] at hrest
      have hend : length ≤ total + file.length := by
        by_contra hn
        rw [sendFileLoop_nil (by omega)] at hrest
        cases hrest
      rw [sendFileLoop_done hend hrest]
      refine ⟨by simp; omega, ?_⟩
      have hnd : ¬ bufSize ∣ length - total := fun hd => by
        have := Nat.le_of_dvd (by omega) hd
        omega
      simp [hnd]
    · rw [Nat.min_eq_left hf] at hrest hle heq ⊢
      rw [List.length_drop] at heq
      obtain hd | hd := Nat.lt_or_ge (total + bufSize) length
      · have hdvd : bufSize ∣ length - total ↔ bufSize ∣ length - (total + bufSize) := by
          have hsum : length - total = length - (total + bufSize) + bufSize := by omega
          rw [hsum, Nat.dvd_add_self_right]
        rw [hdvd]
        omega
      · rw [sendFileLoop_done hd hrest]
        have hdvd : bufSize ∣ length - total ↔ bufSize = length - total := by
          constructor
          · intro hdvd
            have := Nat.le_of_dvd (by omega) hdvd
            omega
          · exact fun he => ⟨1, by omega⟩
        rw [hdvd]
        simp
        omega

/-- A file is sent with the length that was asked for unless it is longer and the length is
more than one buffer and not a number of whole buffers. -/
theorem sendFile_length (hs : sendFile rounds file length = some bytes) :
    length ≤ bytes.length ∧ (bytes.length = length ↔
      length ≤ kReadWriteBufSize ∨ kReadWriteBufSize ∣ length ∨ file.length = length) := by
  unfold sendFile at hs
  obtain hz | hz := Nat.eq_zero_or_pos length
  · subst hz
    rw [sendFileLoop_done (Nat.zero_le _) hs]
    simp
  obtain ⟨hle, heq⟩ := sendFileLoop_length hs
  rw [Nat.sub_zero] at hle heq
  refine ⟨hle, heq.trans ?_⟩
  obtain hl | hl := Nat.le_total length kReadWriteBufSize
  · simp [hl]
  · rw [Nat.min_eq_right hl]
    constructor
    · exact .inr
    · rintro (h | h)
      · exact .inl ⟨1, by omega⟩
      · exact h

end Asapo.Producer
