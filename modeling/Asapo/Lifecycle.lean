import Mathlib

namespace Asapo.Lifecycle

variable {N : Type}

inductive Event (N : Type) where
  | created (h : ℕ) (name : N)
  | destroyed (h : ℕ)
  | passed (h : Option ℕ) (name : N)
  deriving DecidableEq

/-- An event behind others: nothing is destroyed twice, and what is passed on for a name was
created for it and is not destroyed. -/
def Allowed (log : List (Event N)) : Event N → Prop
  | .created _ _ => True
  | .destroyed h => .destroyed h ∉ log
  | .passed h name => ∃ k, h = some k ∧ .created k name ∈ log ∧ .destroyed k ∉ log

/-- A log with the last event first. -/
def Valid : List (Event N) → Prop
  | [] => True
  | e :: log => Allowed log e ∧ Valid log

instance [DecidableEq N] (log : List (Event N)) : ∀ e, Decidable (Allowed log e)
  | .created _ _ => .isTrue trivial
  | .destroyed h => inferInstanceAs (Decidable (.destroyed h ∉ log))
  | .passed none _ => .isFalse (fun ⟨_, h, _⟩ => nomatch h)
  | .passed (some k) name =>
    decidable_of_iff (.created k name ∈ log ∧ .destroyed k ∉ log)
      ⟨fun h => ⟨k, rfl, h⟩, fun ⟨_, hk, h⟩ => Option.some.inj hk ▸ h⟩

instance decidableValid [DecidableEq N] : ∀ log : List (Event N), Decidable (Valid log)
  | [] => .isTrue trivial
  | e :: log =>
    have : Decidable (Valid log) := decidableValid log
    inferInstanceAs (Decidable (Allowed log e ∧ Valid log))

theorem valid_of_append {l log : List (Event N)} (h : Valid (l ++ log)) : Valid log := by
  induction l with
  | nil => exact h
  | cons e l ih => exact ih h.2

/-- The handles in a log have the numbers below a bound, and each is created for one name. -/
structure Numbered (n : ℕ) (log : List (Event N)) : Prop where
  created : ∀ h name, .created h name ∈ log → h < n
  destroyed : ∀ h, .destroyed h ∈ log → h < n
  once : ∀ h name name', .created h name ∈ log → .created h name' ∈ log → name = name'

section Passed

variable {log : List (Event N)} {p : Option ℕ} {name : N} {k : ℕ}

theorem created_mem_passed {h : ℕ} {name' : N} :
    .created h name' ∈ List.replicate k (.passed p name) ++ log ↔ .created h name' ∈ log := by
  simp [List.mem_replicate]

theorem destroyed_mem_passed {h : ℕ} :
    .destroyed h ∈ List.replicate k (.passed p name) ++ log ↔ .destroyed h ∈ log := by
  simp [List.mem_replicate]

theorem valid_passed (hv : Valid log) (ha : Allowed log (.passed p name)) :
    Valid (List.replicate k (.passed p name) ++ log) := by
  induction k with
  | zero => exact hv
  | succ k ih =>
    obtain ⟨h, hp, hc, hd⟩ := ha
    exact ⟨⟨h, hp, created_mem_passed.mpr hc, fun hd' => hd (destroyed_mem_passed.mp hd')⟩, ih⟩

theorem not_valid_passed (hk : k ≠ 0) (ha : ¬ Allowed log (.passed p name)) :
    ¬ Valid (List.replicate k (.passed p name) ++ log) := by
  obtain ⟨k, rfl⟩ := Nat.exists_eq_succ_of_ne_zero hk
  rw [List.replicate_succ', List.append_assoc, List.singleton_append]
  exact fun hv => ha (valid_of_append hv).1

theorem Numbered.passed {n : ℕ} (h : Numbered n log) :
    Numbered n (List.replicate k (.passed p name) ++ log) where
  created i name' hc := h.created i name' (created_mem_passed.mp hc)
  destroyed i hd := h.destroyed i (destroyed_mem_passed.mp hd)
  once i name' name'' hc hc' := h.once i name' name'' (created_mem_passed.mp hc) (created_mem_passed.mp hc')

end Passed

theorem Numbered.destroy {n h : ℕ} {log : List (Event N)} (hn : Numbered n log) (hh : h < n) :
    Numbered n (.destroyed h :: log) where
  created i name hc := hn.created i name (by simpa using hc)
  destroyed i hd := by
    obtain rfl | hd : i = h ∨ _ := by simpa using hd
    · exact hh
    · exact hn.destroyed i hd
  once i name name' hc hc' := hn.once i name name' (by simpa using hc) (by simpa using hc')

theorem Numbered.create {n : ℕ} {log : List (Event N)} (hn : Numbered n log) (name : N) :
    Numbered (n + 1) (.created n name :: log) where
  created i name' hc := by
    obtain ⟨rfl, -⟩ | hc : (i = n ∧ name' = name) ∨ _ := by simpa using hc
    · exact Nat.lt_succ_self _
    · exact Nat.lt_succ_of_lt (hn.created i name' hc)
  destroyed i hd := Nat.lt_succ_of_lt (hn.destroyed i (by simpa using hd))
  once i name' name'' hc hc' := by
    have hnew : ∀ x, .created n x ∈ log → False := fun x hx => Nat.lt_irrefl _ (hn.created n x hx)
    obtain ⟨rfl, rfl⟩ | hc : (i = n ∧ name' = name) ∨ _ := by simpa using hc
    · obtain ⟨-, rfl⟩ | hc' : (i = i ∧ name'' = name') ∨ _ := by simpa using hc'
      · rfl
      · exact (hnew _ hc').elim
    · obtain ⟨he, -⟩ | hc' : (i = n ∧ name'' = name) ∨ _ := by simpa using hc'
      · exact (hnew name' (he ▸ hc)).elim
      · exact hn.once i name' name'' hc hc'

end Asapo.Lifecycle
