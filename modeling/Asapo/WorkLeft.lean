import Asapo.Interleaving

namespace Asapo.Interleaving

open Finset Transition

variable {S T A E : Type} {n : ℕ} {act : S → T → A → Option (S × T)} {env : S → E → Option S} {rank : T → ℕ}
  {s t : System S T n}

def Event.isThread : Event A E n → Bool
  | .thread _ _ => true
  | .world _ => false

/-- What all threads together have still to do. -/
def workLeft (rank : T → ℕ) (s : System S T n) : ℕ := ∑ i, rank (s.threads i)

/-- Every step of a thread leaves less to do. -/
def Works (act : S → T → A → Option (S × T)) (rank : T → ℕ) : Prop :=
  ∀ s l a t m, act s l a = some (t, m) → rank m < rank l

theorem workLeft_step (h : Works act rank) (e : Event A E n) (ht : step act env s e = some t) :
    workLeft rank t + [e].countP Event.isThread ≤ workLeft rank s := by
  cases e with
  | thread i a =>
    obtain ⟨⟨t', m⟩, hx, rfl⟩ := Option.map_eq_some_iff.mp ht
    have hsum := sum_update rank s.threads i m
    have hless := h _ _ a t' m hx
    change ∑ j, rank (Function.update s.threads i m j) + 1 ≤ ∑ j, rank (s.threads j)
    omega
  | world e =>
    obtain ⟨t', -, rfl⟩ := Option.map_eq_some_iff.mp ht
    exact le_rfl

theorem workLeft_exec (h : Works act rank) (es : List (Event A E n)) (ht : exec (step act env) s es = some t) :
    workLeft rank t + es.countP Event.isThread ≤ workLeft rank s := by
  induction es generalizing s with
  | nil =>
    cases ht
    exact le_rfl
  | cons e es ih =>
    obtain ⟨u, hu, hrest⟩ := Option.bind_eq_some_iff.mp ht
    have hhead := workLeft_step h e hu
    have htail := ih hrest
    rw [List.countP_cons]
    rw [List.countP_singleton] at hhead
    omega

theorem exists_done (h : Works act rank) {Inv : System S T n → Prop}
    (hinv : ∀ s e t, Inv s → step act env s e = some t → Inv t)
    (hnext : ∀ s i, Inv s → rank (s.threads i) ≠ 0 → ∃ a x, act s.shared (s.threads i) a = some x)
    (s : System S T n) (hs : Inv s) :
    ∃ t, Reaches (step act env) s t ∧ ∀ i, rank (t.threads i) = 0 := by
  induction hwork : workLeft rank s using Nat.strong_induction_on generalizing s with
  | _ work ih =>
    by_cases hdone : ∀ i, rank (s.threads i) = 0
    · exact ⟨s, .refl s, hdone⟩
    · obtain ⟨i, hi⟩ := not_forall.mp hdone
      obtain ⟨a, x, hx⟩ := hnext s i hs hi
      have hu : step act env s (.thread i a) = some ⟨x.1, Function.update s.threads i x.2⟩ := by
        rw [step, hx]
        rfl
      have hless := workLeft_step h _ hu
      obtain ⟨t, ht, hdone⟩ := ih _ (by rw [← hwork]; exact hless) _ (hinv _ _ _ hs hu) rfl
      exact ⟨t, ht.head _ hu, hdone⟩

end Asapo.Interleaving
