import Mathlib

namespace Asapo.Transition

variable {S L : Type} (step : S → L → Option S)

/-- Run a sequence of labels. A label that is not enabled has no outcome. -/
def exec : S → List L → Option S
  | s, [] => some s
  | s, l :: ls => (step s l).bind (fun t => exec t ls)

/-- Some run leads from one state to another one. -/
def Reaches (s t : S) : Prop := ∃ ls, exec step s ls = some t

/-- Every step of the run meets a condition on its label and on the state before it. -/
def Along (C : S → L → Prop) : S → List L → Prop
  | _, [] => True
  | s, l :: ls => ∀ t, step s l = some t → C s l ∧ Along C t ls

/-- Every state that the run passes through satisfies a predicate. -/
def Always (P : S → Prop) : S → List L → Prop
  | s, [] => P s
  | s, l :: ls => P s ∧ ∀ t, step s l = some t → Always P t ls

instance decidableAlong (C : S → L → Prop) [∀ s l, Decidable (C s l)] :
    ∀ s ls, Decidable (Along step C s ls)
  | _, [] => .isTrue trivial
  | s, l :: ls =>
    match h : step s l with
    | none => .isTrue (fun t ht => by simp [h] at ht)
    | some u =>
      have := decidableAlong C u ls
      decidable_of_iff (C s l ∧ Along step C u ls)
        ⟨fun hc t ht => by cases h.symm.trans ht; exact hc, fun hc => hc u h⟩

variable {step} {Inv P : S → Prop} {C : S → L → Prop}

theorem Reaches.refl (s : S) : Reaches step s s := ⟨[], rfl⟩

theorem Reaches.head {s t u : S} (l : L) (h : step s l = some t) (hu : Reaches step t u) :
    Reaches step s u := by
  obtain ⟨ls, hls⟩ := hu
  exact ⟨l :: ls, by rw [exec, h]; exact hls⟩

theorem along_mono {D : S → L → Prop} (hcd : ∀ s l, C s l → D s l) (s : S) (ls : List L)
    (h : Along step C s ls) : Along step D s ls := by
  induction ls generalizing s with
  | nil => trivial
  | cons l ls ih =>
    intro t ht
    obtain ⟨hl, hrest⟩ := h t ht
    exact ⟨hcd s l hl, ih t hrest⟩

theorem along_and_of_forall {A : L → Prop} (s : S) (ls : List L) (ha : ∀ l ∈ ls, A l)
    (h : Along step C s ls) : Along step (fun s l => A l ∧ C s l) s ls := by
  induction ls generalizing s with
  | nil => trivial
  | cons l ls ih =>
    intro t ht
    obtain ⟨hl, hrest⟩ := h t ht
    exact ⟨⟨ha l List.mem_cons_self, hl⟩, ih t (fun x hx => ha x (List.mem_cons_of_mem l hx)) hrest⟩

theorem along_of_along {D : S → L → Prop} (hcd : ∀ s l, Inv s → C s l → D s l)
    (hs : ∀ s l t, Inv s → C s l → step s l = some t → Inv t)
    (s : S) (ls : List L) (hi : Inv s) (hc : Along step C s ls) : Along step D s ls := by
  induction ls generalizing s with
  | nil => trivial
  | cons l ls ih =>
    intro t ht
    obtain ⟨hl, hrest⟩ := hc t ht
    exact ⟨hcd s l hi hl, ih t (hs s l t hi hl ht) hrest⟩

theorem always_of_along (hp : ∀ s, Inv s → P s)
    (hs : ∀ s l t, Inv s → C s l → step s l = some t → Inv t)
    (s : S) (ls : List L) (hi : Inv s) (hc : Along step C s ls) : Always step P s ls := by
  induction ls generalizing s with
  | nil => exact hp s hi
  | cons l ls ih =>
    refine ⟨hp s hi, fun t ht => ?_⟩
    obtain ⟨hl, hrest⟩ := hc t ht
    exact ih t (hs s l t hi hl ht) hrest

theorem always_of_step (hp : ∀ s, Inv s → P s)
    (hs : ∀ s l t, Inv s → step s l = some t → Inv t)
    (s : S) (ls : List L) (hi : Inv s) : Always step P s ls := by
  induction ls generalizing s with
  | nil => exact hp s hi
  | cons l ls ih => exact ⟨hp s hi, fun t ht => ih t (hs s l t hi ht)⟩

theorem always_head (s : S) (ls : List L) (h : Always step P s ls) : P s := by
  cases ls with
  | nil => exact h
  | cons l ls => exact h.1

/-- A condition that an invariant needs, and whose failure is visible in the next
state, holds along exactly the runs that satisfy the property throughout. -/
theorem always_iff_along (hp : ∀ s, Inv s → P s)
    (hs : ∀ s l t, Inv s → C s l → step s l = some t → Inv t)
    (hn : ∀ s l t, Inv s → ¬ C s l → step s l = some t → ¬ P t)
    (s : S) (ls : List L) (hi : Inv s) : Always step P s ls ↔ Along step C s ls := by
  refine ⟨fun h => ?_, always_of_along hp hs s ls hi⟩
  induction ls generalizing s with
  | nil => trivial
  | cons l ls ih =>
    intro t ht
    have hrest := h.2 t ht
    by_cases hl : C s l
    · exact ⟨hl, ih t (hs s l t hi hl ht) hrest⟩
    · exact absurd (always_head t ls hrest) (hn s l t hi hl ht)

theorem always_exec (s t : S) (ls : List L) (h : Always step P s ls)
    (ht : exec step s ls = some t) : P t := by
  induction ls generalizing s with
  | nil =>
    simp only [exec, Option.some.injEq] at ht
    exact ht ▸ h
  | cons l ls ih =>
    simp only [exec, Option.bind_eq_some_iff] at ht
    obtain ⟨u, hu, hrest⟩ := ht
    exact ih u (h.2 u hu) hrest

end Asapo.Transition

namespace Asapo.History

variable {α : Type} {P Q : List α → α → Prop} {l : List α} {a : α}

/-- Every entry of a history stands in a relation to the entries before it. -/
def Justified (P : List α → α → Prop) (l : List α) : Prop :=
  ∀ before a after, l = before ++ a :: after → P before a

theorem justified_nil : Justified P [] := by
  intro before a after h
  simp at h

theorem justified_concat : Justified P (l ++ [a]) ↔ Justified P l ∧ P l a := by
  constructor
  · intro h
    refine ⟨fun before b after hl => h before b (after ++ [a]) ?_, h l a [] rfl⟩
    rw [hl, List.append_assoc, List.cons_append]
  · rintro ⟨hl, ha⟩ before b after hb
    -- the entry is the last one, or the history was longer by the new entry only
    rcases List.eq_nil_or_concat after with rfl | ⟨init, c, rfl⟩
    · obtain ⟨rfl, hab⟩ := List.append_inj' hb rfl
      cases hab
      exact ha
    · rw [List.concat_eq_append, ← List.cons_append, ← List.append_assoc] at hb
      obtain ⟨h, -⟩ := List.append_inj' hb rfl
      exact hl before b init h

theorem justified_append {l' : List α} (h : Justified P l) (h' : Justified (fun before a => P (l ++ before) a) l') :
    Justified P (l ++ l') := by
  induction l' using List.reverseRecOn with
  | nil => rwa [List.append_nil]
  | append_singleton l' a ih =>
    obtain ⟨hl', ha⟩ := justified_concat.mp h'
    rw [← List.append_assoc]
    exact justified_concat.mpr ⟨ih hl', ha⟩

theorem Justified.mono (hpq : ∀ before a, P before a → Q before a) (h : Justified P l) : Justified Q l :=
  fun before a after hl => hpq before a (h before a after hl)

end Asapo.History

namespace Asapo.Observation

variable {S O A : Type} (step : S → O → S × A)

def run : S → List O → S × List A
  | s, [] => (s, [])
  | s, o :: os =>
    let (s, a) := step s o
    let (s, as) := run s os
    (s, a :: as)

def answers (s : S) (os : List O) : List A := (run step s os).2

/-- No sequence of operations tells the two states apart. -/
def Indistinguishable (s t : S) : Prop := ∀ os, answers step s os = answers step t os

variable {step} {R : S → S → Prop}

theorem answers_cons (s : S) (o : O) (os : List O) :
    answers step s (o :: os) = (step s o).2 :: answers step (step s o).1 os := rfl

theorem indistinguishable_of_relation
    (h : ∀ s t o, R s t → (step s o).2 = (step t o).2 ∧ R (step s o).1 (step t o).1) {s t : S}
    (hst : R s t) : Indistinguishable step s t := by
  intro os
  induction os generalizing s t with
  | nil => rfl
  | cons o os ih =>
    obtain ⟨ha, hr⟩ := h s t o hst
    rw [answers_cons, answers_cons, ha, ih hr]

end Asapo.Observation

namespace Asapo.Progress

variable {S I : Type} (step : I → S → S)

def states (inputs : ℕ → I) (s : S) : ℕ → S
  | 0 => s
  | n + 1 => step (inputs n) (states inputs s n)

variable {step} {inputs : ℕ → I} {s : S} (Inv : S → Prop) {Done : S → Prop}

theorem states_inv (hs : ∀ n t, Inv t → Inv (step (inputs n) t)) (hi : Inv s) (n : ℕ) :
    Inv (states step inputs s n) := by
  induction n with
  | zero => exact hi
  | succ n ih => exact hs n _ ih

/-- A rank that goes down from some input on, unless the run is done, leads to the end of
the run. -/
theorem eventually_done {N : ℕ} (rank : S → ℕ) (hs : ∀ n t, Inv t → Inv (step (inputs n) t))
    (hr : ∀ n t, N ≤ n → Inv t → ¬ Done t → Done (step (inputs n) t) ∨ rank (step (inputs n) t) < rank t)
    (hi : Inv s) : ∃ n, Done (states step inputs s n) := by
  have hrank : ∀ r n, N ≤ n → rank (states step inputs s n) = r → ∃ n, Done (states step inputs s n) := by
    intro r
    induction r using Nat.strong_induction_on with
    | _ r ih =>
      intro n hn hrn
      by_cases hd : Done (states step inputs s n)
      · exact ⟨n, hd⟩
      · rcases hr n _ hn (states_inv Inv hs hi n) hd with hdone | hless
        · exact ⟨n + 1, hdone⟩
        · exact ih _ (hrn ▸ hless) (n + 1) (by omega) rfl
  exact hrank _ N le_rfl rfl

end Asapo.Progress
