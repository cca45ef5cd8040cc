import Asapo.Transition

namespace Asapo.Interleaving

open Transition

/-- Threads with a state of their own each, on one shared state. -/
structure System (S T : Type) (n : ℕ) where
  shared : S
  threads : Fin n → T

inductive Event (A E : Type) (n : ℕ) where
  | thread (i : Fin n) (a : A)
  | world (e : E)

variable {S T A E : Type} {n : ℕ} (act : S → T → A → Option (S × T)) (env : S → E → Option S)

def step (s : System S T n) : Event A E n → Option (System S T n)
  | .thread i a =>
    (act s.shared (s.threads i) a).map (fun x => ⟨x.1, Function.update s.threads i x.2⟩)
  | .world e => (env s.shared e).map (fun t => { s with shared := t })

theorem forall_update {P : T → Prop} {threads : Fin n → T} (h : ∀ j, P (threads j)) (i : Fin n) {m : T}
    (hm : P m) (j : Fin n) : P (Function.update threads i m j) := by
  by_cases hj : j = i
  · subst hj
    rwa [Function.update_self]
  · rw [Function.update_of_ne hj]
    exact h j

def OnThreads (C : S → T → A → Prop) (s : System S T n) : Event A E n → Prop
  | .thread i a => C s.shared (s.threads i) a
  | .world _ => True

instance (C : S → T → A → Prop) [∀ s l a, Decidable (C s l a)] (s : System S T n) :
    ∀ e : Event A E n, Decidable (OnThreads C s e)
  | .thread i a => inferInstanceAs (Decidable (C s.shared (s.threads i) a))
  | .world _ => .isTrue trivial

/-- An invariant of the shared state, with one of every thread about it. -/
structure Holds (I : S → Prop) (J : S → T → Prop) (s : System S T n) : Prop where
  shared : I s.shared
  threads : ∀ i, J s.shared (s.threads i)

/-- What a thread does keeps the invariants: its own, and what the others rely on. -/
structure Keeps (C : S → T → A → Prop) (I : S → Prop) (J : S → T → Prop) : Prop where
  own : ∀ s l a t m, I s → J s l → C s l a → act s l a = some (t, m) → I t ∧ J t m
  other : ∀ s l k a t m, I s → J s l → J s k → C s l a → act s l a = some (t, m) → J t k
  world : ∀ s e t, I s → env s e = some t → I t ∧ ∀ k, J s k → J t k

variable {act env} {C : S → T → A → Prop} {I : S → Prop} {J : S → T → Prop}

theorem Keeps.step (h : Keeps act env C I J) (s : System S T n) (e : Event A E n) (t : System S T n)
    (hs : Holds I J s) (hc : OnThreads C s e) (ht : step act env s e = some t) : Holds I J t := by
  cases e with
  | thread i a =>
    obtain ⟨⟨t', m⟩, hx, rfl⟩ := Option.map_eq_some_iff.mp ht
    obtain ⟨hI, hJ⟩ := h.own _ _ a t' m hs.shared (hs.threads i) hc hx
    refine ⟨hI, fun j => ?_⟩
    by_cases hj : j = i
    · subst hj
      simpa using hJ
    · simpa [hj] using h.other _ _ _ a t' m hs.shared (hs.threads i) (hs.threads j) hc hx
  | world e =>
    obtain ⟨t', hx, rfl⟩ := Option.map_eq_some_iff.mp ht
    obtain ⟨hI, hJ⟩ := h.world _ e t' hs.shared hx
    exact ⟨hI, fun j => hJ _ (hs.threads j)⟩

theorem Keeps.always (h : Keeps act env C I J) {P : System S T n → Prop}
    (hp : ∀ s, Holds I J s → P s) (s : System S T n) (es : List (Event A E n)) (hs : Holds I J s)
    (hc : Along (Interleaving.step act env) (OnThreads C) s es) :
    Always (Interleaving.step act env) P s es := always_of_along hp h.step s es hs hc

section Apart

variable {R : T → T → Prop}

structure HoldsApart (I : S → Prop) (J : S → T → Prop) (R : T → T → Prop) (s : System S T n) : Prop
    extends Holds I J s where
  apart : ∀ i j, i ≠ j → R (s.threads i) (s.threads j)

structure KeepsApart (act : S → T → A → Option (S × T)) (env : S → E → Option S)
    (C : S → T → A → Prop) (I : S → Prop) (J : S → T → Prop) (R : T → T → Prop) : Prop where
  symm : ∀ l k, R l k → R k l
  own : ∀ s l a t m, I s → J s l → C s l a → act s l a = some (t, m) → I t ∧ J t m
  other : ∀ s l k a t m, I s → J s l → J s k → R l k → C s l a → act s l a = some (t, m) →
    J t k ∧ R m k
  world : ∀ s e t, I s → env s e = some t → I t ∧ ∀ k, J s k → J t k

theorem KeepsApart.step (h : KeepsApart act env C I J R) (s : System S T n) (e : Event A E n)
    (t : System S T n) (hs : HoldsApart I J R s) (hc : OnThreads C s e)
    (ht : step act env s e = some t) : HoldsApart I J R t := by
  cases e with
  | thread i a =>
    obtain ⟨⟨t', m⟩, hx, rfl⟩ := Option.map_eq_some_iff.mp ht
    obtain ⟨hI, hJ⟩ := h.own _ _ a t' m hs.shared (hs.threads i) hc hx
    have hother : ∀ j, j ≠ i → J t' (s.threads j) ∧ R m (s.threads j) := fun j hj =>
      h.other _ _ _ a t' m hs.shared (hs.threads i) (hs.threads j) (hs.apart i j hj.symm) hc hx
    refine ⟨⟨hI, fun j => ?_⟩, fun j k hjk => ?_⟩
    · by_cases hj : j = i
      · subst hj
        simpa using hJ
      · simpa [hj] using (hother j hj).1
    · by_cases hj : j = i
      · subst hj
        simpa [hjk.symm] using (hother k hjk.symm).2
      · by_cases hk : k = i
        · subst hk
          simpa [hj] using h.symm _ _ (hother j hj).2
        · simpa [hj, hk] using hs.apart j k hjk
  | world e =>
    obtain ⟨t', hx, rfl⟩ := Option.map_eq_some_iff.mp ht
    obtain ⟨hI, hJ⟩ := h.world _ e t' hs.shared hx
    exact ⟨⟨hI, fun j => hJ _ (hs.threads j)⟩, hs.apart⟩

theorem KeepsApart.always (h : KeepsApart act env C I J R) {P : System S T n → Prop}
    (hp : ∀ s, HoldsApart I J R s → P s) (s : System S T n) (es : List (Event A E n))
    (hs : HoldsApart I J R s) (hc : Along (Interleaving.step act env) (OnThreads C) s es) :
    Always (Interleaving.step act env) P s es := always_of_along hp h.step s es hs hc

end Apart

section Balance

open Finset

variable {S T : Type} {n : ℕ} {s : System S T n} {a b : S → ℕ} {w : T → ℕ}

/-- A number in the shared state is the sum of what the shared state and the threads hold. -/
def Balanced (a b : S → ℕ) (w : T → ℕ) (s : System S T n) : Prop :=
  a s.shared = b s.shared + ∑ i, w (s.threads i)

theorem sum_update (w : T → ℕ) (threads : Fin n → T) (i : Fin n) (m : T) :
    ∑ j, w (Function.update threads i m j) + w (threads i) = ∑ j, w (threads j) + w m := by
  have hne : ∀ j ∈ univ.erase i, w (Function.update threads i m j) = w (threads j) := fun j hj => by
    rw [Function.update_of_ne (mem_erase.mp hj).1]
  rw [← add_sum_erase univ _ (mem_univ i), ← add_sum_erase univ (fun j => w (threads j)) (mem_univ i),
    sum_congr rfl hne, Function.update_self]
  omega

theorem weight_le_sum (w : T → ℕ) (threads : Fin n → T) (i : Fin n) :
    w (threads i) ≤ ∑ j, w (threads j) :=
  single_le_sum (f := fun j => w (threads j)) (fun _ _ => Nat.zero_le _) (mem_univ i)

/-- A step of a thread keeps the balance exactly if what it changes is balanced. -/
theorem balanced_update (h : Balanced a b w s) (i : Fin n) (t : S) (m : T) :
    Balanced a b w ⟨t, Function.update s.threads i m⟩ ↔
      a t + b s.shared + w (s.threads i) = a s.shared + b t + w m := by
  have hsum := sum_update w s.threads i m
  unfold Balanced at h ⊢
  dsimp only
  omega

theorem balanced_shared (h : Balanced a b w s) (t : S) :
    Balanced a b w { s with shared := t } ↔ a t + b s.shared = a s.shared + b t := by
  unfold Balanced at h ⊢
  dsimp only
  omega

end Balance

end Asapo.Interleaving
