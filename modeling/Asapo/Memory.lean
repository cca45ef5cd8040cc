import Mathlib

namespace Asapo.Memory

variable {β : Type}

def slice (memory : ℕ → β) (a n : ℕ) : List β := (List.range n).map (fun i => memory (a + i))

def write (memory : ℕ → β) (a : ℕ) : List β → ℕ → β
  | [] => memory
  | b :: bs => fun i => if i = a then b else write memory (a + 1) bs i

theorem write_cons_ne (memory : ℕ → β) {a i : ℕ} (b : β) (bs : List β) (h : i ≠ a) :
    write memory a (b :: bs) i = write memory (a + 1) bs i := if_neg h

variable (memory : ℕ → β) (a n : ℕ)

@[simp] theorem slice_length : (slice memory a n).length = n := by simp [slice]

@[simp] theorem slice_zero : slice memory a 0 = [] := rfl

theorem slice_add (m : ℕ) :
    slice memory a (n + m) = slice memory a n ++ slice memory (a + n) m := by
  simp [slice, List.range_add, Function.comp_def, Nat.add_assoc]

theorem slice_isPrefix {m : ℕ} (h : n ≤ m) : slice memory a n <+: slice memory a m := by
  obtain ⟨d, rfl⟩ := Nat.exists_eq_add_of_le h
  rw [slice_add]
  exact List.prefix_append _ _

theorem slice_congr {memory' : ℕ → β} (h : ∀ i, a ≤ i → i < a + n → memory' i = memory i) :
    slice memory' a n = slice memory a n := by
  apply List.map_congr_left
  intro i hi
  have := List.mem_range.mp hi
  exact h (a + i) (by omega) (by omega)

theorem write_outside (bs : List β) {i : ℕ} (h : i < a ∨ a + bs.length ≤ i) :
    write memory a bs i = memory i := by
  induction bs generalizing a with
  | nil => rfl
  | cons b bs ih =>
    simp only [List.length_cons] at h
    rw [write_cons_ne _ _ _ (by omega), ih (a + 1) (by omega)]

theorem slice_write (bs : List β) : slice (write memory a bs) a bs.length = bs := by
  induction bs generalizing a with
  | nil => rfl
  | cons b bs ih =>
    have hrest : slice (write memory a (b :: bs)) (a + 1) bs.length = bs := by
      refine Eq.trans (slice_congr _ _ _ ?_) (ih (a + 1))
      exact fun i hi _ => write_cons_ne _ _ _ (by omega)
    rw [List.length_cons, Nat.add_comm, slice_add, hrest]
    simp [slice, write]

theorem slice_write_apart (bs : List β) (b : ℕ) (h : n = 0 ∨ bs.length = 0 ∨ a + n ≤ b ∨ b + bs.length ≤ a) :
    slice (write memory b bs) a n = slice memory a n := by
  apply slice_congr
  intro i hl hr
  exact write_outside memory b bs (by omega)

theorem slice_write_append (bs : List β) :
    slice (write memory (a + n) bs) a (n + bs.length) = slice memory a n ++ bs := by
  rw [slice_add, slice_write, slice_write_apart _ _ _ _ _ (by omega)]

theorem takeWhile_slice (p : β → Bool) {m : ℕ} (hp : ∀ i < n, p (memory (a + i)) = true)
    (hn : p (memory (a + n)) = false) :
    (slice memory a m).takeWhile p = slice memory a (min m n) := by
  have hall : ∀ k ≤ n, ∀ b ∈ slice memory a k, p b = true := by
    intro k hk b hb
    obtain ⟨i, hi, rfl⟩ := List.mem_map.mp hb
    exact hp i (by have := List.mem_range.mp hi; omega)
  obtain hm | hm := Nat.lt_or_ge n m
  · obtain ⟨d, rfl⟩ := Nat.exists_eq_add_of_lt hm
    have hs : slice memory a (n + d + 1) = slice memory a n ++ memory (a + n) :: slice memory (a + n + 1) d := by
      rw [Nat.add_assoc, slice_add, Nat.add_comm d 1, slice_add]
      rfl
    rw [hs, List.takeWhile_append_of_pos (hall n (Nat.le_refl n)), List.takeWhile_cons_of_neg (by simp [hn]),
      List.append_nil, Nat.min_eq_right (by omega)]
  · rw [List.takeWhile_eq_self_iff.mpr (hall m hm), Nat.min_eq_left hm]

end Asapo.Memory
