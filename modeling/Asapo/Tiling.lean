import Mathlib

namespace Asapo.Tiling

/-- Half-open ranges that follow one another from `a` to `b`, none of them empty. -/
def Tiles : ℕ → List (ℕ × ℕ) → ℕ → Prop
  | a, [], b => a = b
  | a, r :: rs, b => r.1 = a ∧ r.1 < r.2 ∧ Tiles r.2 rs b

/-- The ranges cut the numbers below `n` into parts of the same size, up to one. -/
structure EvenPartition (rs : List (ℕ × ℕ)) (n : ℕ) : Prop where
  consecutive : rs.IsChain (fun r s => r.2 = s.1)
  disjoint : rs.Pairwise (fun r s => Disjoint (Set.Ico r.1 r.2) (Set.Ico s.1 s.2))
  union : ⋃ r ∈ rs, Set.Ico r.1 r.2 = Set.Ico 0 n
  even : ∀ r ∈ rs, ∀ s ∈ rs, r.2 - r.1 ≤ s.2 - s.1 + 1

variable {a b c : ℕ} {rs : List (ℕ × ℕ)}

namespace Tiles

theorem le (h : Tiles a rs b) : a ≤ b := by
  induction rs generalizing a with
  | nil => exact h.le
  | cons r rs ih =>
    obtain ⟨rfl, hlt, hrest⟩ := h
    exact hlt.le.trans (ih hrest)

theorem concat (h : Tiles a rs b) (hbc : b < c) : Tiles a (rs ++ [(b, c)]) c := by
  induction rs generalizing a with
  | nil =>
    obtain rfl : a = b := h
    exact ⟨rfl, hbc, rfl⟩
  | cons r rs ih =>
    obtain ⟨ha, hlt, hrest⟩ := h
    exact ⟨ha, hlt, ih hrest⟩

theorem flatMap_Ico (h : Tiles a rs b) : rs.flatMap (fun r => List.Ico r.1 r.2) = List.Ico a b := by
  induction rs generalizing a with
  | nil =>
    obtain rfl : a = b := h
    simp
  | cons r rs ih =>
    obtain ⟨rfl, hlt, hrest⟩ := h
    rw [List.flatMap_cons, ih hrest, List.Ico.append_consecutive hlt.le hrest.le]

theorem sum_sizes (h : Tiles a rs b) (k : ℕ) :
    (rs.map (fun r => r.2 - r.1 + k)).sum = b - a + k * rs.length := by
  induction rs generalizing a with
  | nil =>
    obtain rfl : a = b := h
    simp
  | cons r rs ih =>
    obtain ⟨rfl, hlt, hrest⟩ := h
    have hle := hrest.le
    rw [List.map_cons, List.sum_cons, ih hrest, List.length_cons, Nat.mul_succ]
    omega

theorem flatMap_getElem {α : Type} {l : List α} (h : Tiles 0 rs l.length) :
    rs.flatMap (fun r => (List.Ico r.1 r.2).filterMap (fun k => l[k]?)) = l := by
  have hall : (List.range l.length).filterMap (fun k => l[k]?) = l := by
    clear h
    induction l with
    | nil => rfl
    | cons x l ih =>
      rw [List.length_cons, List.range_succ_eq_map]
      simpa [List.filterMap_map, Function.comp_def] using ih
  rw [← List.filterMap_flatMap, h.flatMap_Ico, List.Ico.zero_bot, hall]

theorem bounds (h : Tiles a rs b) : ∀ r ∈ rs, a ≤ r.1 ∧ r.1 < r.2 ∧ r.2 ≤ b := by
  induction rs generalizing a with
  | nil => rintro _ ⟨⟩
  | cons r rs ih =>
    obtain ⟨rfl, hlt, hrest⟩ := h
    intro s hs
    obtain rfl | hs := List.mem_cons.mp hs
    · exact ⟨le_rfl, hlt, hrest.le⟩
    · obtain ⟨hle, hs⟩ := ih hrest s hs
      exact ⟨hlt.le.trans hle, hs⟩

theorem consecutive (h : Tiles a rs b) : rs.IsChain (fun r s => r.2 = s.1) := by
  induction rs generalizing a with
  | nil => exact .nil
  | cons r rs ih =>
    obtain ⟨-, -, hrest⟩ := h
    cases rs with
    | nil => exact .singleton r
    | cons s rs => exact .cons_cons hrest.1.symm (ih hrest)

theorem pairwise (h : Tiles a rs b) : rs.Pairwise (fun r s => r.2 ≤ s.1) := by
  induction rs generalizing a with
  | nil => exact .nil
  | cons r rs ih =>
    obtain ⟨-, -, hrest⟩ := h
    exact .cons (fun s hs => (hrest.bounds s hs).1) (ih hrest)

theorem union (h : Tiles a rs b) : ⋃ r ∈ rs, Set.Ico r.1 r.2 = Set.Ico a b := by
  ext x
  rw [Set.mem_Ico, ← List.Ico.mem, ← h.flatMap_Ico]
  simp only [Set.mem_iUnion, List.mem_flatMap, List.Ico.mem, Set.mem_Ico, exists_prop]

theorem evenPartition_iff {n size : ℕ} (h : Tiles 0 rs b)
    (hsize : ∀ r ∈ rs, size ≤ r.2 - r.1 ∧ r.2 - r.1 ≤ size + 1) : EvenPartition rs n ↔ b = n := by
  constructor
  · intro hp
    have hIco : Set.Ico 0 b = Set.Ico 0 n := h.union.symm.trans hp.union
    exact eq_of_forall_lt_iff (fun x => by simpa using Set.ext_iff.mp hIco x)
  · rintro rfl
    refine ⟨h.consecutive, h.pairwise.imp ?_, h.union, ?_⟩
    · intro r s hrs
      exact Set.disjoint_left.mpr (fun x hr hs => absurd (hr.2.trans_le hrs) (not_lt.mpr hs.1))
    · intro r hr s hs
      exact (hsize r hr).2.trans (Nat.succ_le_succ (hsize s hs).1)

end Tiles

end Asapo.Tiling
