import Asapo.Receiver.CacheEviction

namespace Asapo.Receiver.CacheLaps

open DataCache CacheEviction InitialSegment

def Apart (a b : CacheMeta) : Prop :=
  a.size = 0 ∨ b.size = 0 ∨ a.addr + a.size ≤ b.addr ∨ b.addr + b.size ≤ a.addr

/-- The byte ranges of the listed slots lie in the cache and share no byte. -/
structure RangesSafe (c : DataCache) : Prop where
  inside : ∀ m ∈ c.metas, 0 < m.size → m.addr + m.size ≤ c.cacheSize
  apart : c.metas.Pairwise Apart

def Before (a b : CacheMeta) : Prop := a.addr + a.size ≤ b.addr

/-- The deque holds what is left of the previous lap, at and above the write position,
followed by the current lap, below it. A lap starts with a slot at offset 0. -/
structure Laps (c : DataCache) (old new : List CacheMeta) : Prop where
  metas : c.metas = old ++ new
  small : c.cacheSize < 2 ^ 63
  cur : c.curPointer ≤ c.cacheSize
  oldOrder : old.Pairwise Before
  newOrder : new.Pairwise Before
  oldAbove : ∀ m ∈ old, c.curPointer ≤ m.addr ∧ m.addr + m.size ≤ c.cacheSize
  newBelow : ∀ m ∈ new, m.addr + m.size ≤ c.curPointer
  fresh : c.curPointer = 0 → old = []
  first : 0 < c.curPointer → ∃ m rest, new = m :: rest ∧ m.addr = 0 ∧ 0 < m.size

def LapOrder (c : DataCache) : Prop := ∃ old new, Laps c old new

theorem rangesSafe_of_laps {c : DataCache} (h : LapOrder c) : RangesSafe c := by
  obtain ⟨old, new, h⟩ := h
  have hb : ∀ a b, Before a b → Apart a b := fun a b hab => .inr (.inr (.inl hab))
  constructor
  · intro m hm _
    rw [h.metas, List.mem_append] at hm
    rcases hm with hm | hm
    · exact (h.oldAbove m hm).2
    · exact le_trans (h.newBelow m hm) h.cur
  · rw [h.metas, List.pairwise_append]
    refine ⟨h.oldOrder.imp (hb _ _), h.newOrder.imp (hb _ _), fun a ha b hb => ?_⟩
    exact .inr (.inr (.inr (le_trans (h.newBelow b hb) (h.oldAbove a ha).1)))

variable {c : DataCache} {old new : List CacheMeta} {size : ℕ}

theorem Laps.oldSlot (h : Laps c old new) {m : CacheMeta} (hm : m ∈ old) {left right : ℕ}
    (hl : left ≤ c.curPointer) (hr : left < right) :
    slotIntersects left right m = true ↔ m.addr < right ∨ (m.addr = right ∧ m.size = 0) := by
  have ho := h.oldAbove m hm
  have hw : Word.add m.addr m.size = m.addr + m.size := Word.add_eq (by have := h.small; omega)
  rw [slotIntersects, hw]
  exact intersects_of_le (by omega) hr

theorem Laps.newSlot (h : Laps c old new) {m : CacheMeta} (hm : m ∈ new) {right : ℕ}
    (hr : 0 < right) :
    slotIntersects 0 right m = true ↔ m.addr < right ∨ (m.addr = right ∧ m.size = 0) := by
  have ho := h.newBelow m hm
  have hw : Word.add m.addr m.size = m.addr + m.size :=
    Word.add_eq (by have := h.small; have := h.cur; omega)
  rw [slotIntersects, hw]
  exact intersects_of_le (Nat.zero_le _) hr

theorem intersecting_first {l : List CacheMeta} {left right : ℕ} (ho : l.Pairwise Before)
    (hi : ∀ m ∈ l, slotIntersects left right m = true ↔
      m.addr < right ∨ (m.addr = right ∧ m.size = 0)) :
    l.Pairwise (fun a b => slotIntersects left right b = true → slotIntersects left right a = true) := by
  refine ho.imp_of_mem (fun {a b} ha hb hab h => ?_)
  have hab' : a.addr + a.size ≤ b.addr := hab
  have := (hi b hb).mp h
  exact (hi a ha).mpr (by omega)

theorem above_of_dropWhile {l : List CacheMeta} {left right : ℕ} (ho : l.Pairwise Before)
    (hi : ∀ m ∈ l, slotIntersects left right m = true ↔
      m.addr < right ∨ (m.addr = right ∧ m.size = 0)) :
    ∀ m ∈ l.dropWhile (slotIntersects left right), right ≤ m.addr := by
  intro m hm
  have hn := not_of_mem_dropWhile (intersecting_first ho hi) m hm
  have := (hi m ((List.dropWhile_suffix _).subset hm)).not.mp (by simp [hn])
  omega

theorem laps_behind {kept : List CacheMeta} (h : Laps c old new) (hst : startOf c size = c.curPointer)
    (hw : c.curPointer + size ≤ c.cacheSize) (hkept : kept.Sublist old)
    (habove : ∀ m ∈ kept, c.curPointer + size ≤ m.addr) (hlap : 0 < c.curPointer ∨ size = 0) (timeMillis : ℕ) :
    LapOrder (grant c size timeMillis (kept ++ new)) := by
  refine ⟨kept, new ++ [CacheEviction.newSlot c size timeMillis], ?_⟩
  exact {
    metas := by simp
    small := h.small
    cur := by simpa [hst] using hw
    oldOrder := h.oldOrder.sublist hkept
    newOrder := by
      refine List.pairwise_append.mpr ⟨h.newOrder, List.pairwise_singleton _ _, fun a ha b hb => ?_⟩
      obtain rfl := List.mem_singleton.mp hb
      simpa [Before, CacheEviction.newSlot, hst] using h.newBelow a ha
    oldAbove := by
      intro m hm
      refine ⟨?_, (h.oldAbove m (hkept.subset hm)).2⟩
      simpa [hst] using habove m hm
    newBelow := by
      intro m hm
      rcases List.mem_append.mp hm with hm | hm
      · have hle := h.newBelow m hm
        simp only [grant_curPointer, hst]
        omega
      · obtain rfl := List.mem_singleton.mp hm
        simp [CacheEviction.newSlot]
    fresh := by
      intro h0
      simp only [grant_curPointer, hst] at h0
      exact List.sublist_nil.mp (h.fresh (by omega) ▸ hkept)
    first := by
      intro hp
      simp only [grant_curPointer, hst] at hp
      obtain ⟨f, rest, hnew, hf⟩ := h.first (by omega)
      exact ⟨f, rest ++ [CacheEviction.newSlot c size timeMillis], by simp [hnew], hf⟩ }

theorem laps_advance (h : Laps c old new) (hs : size ≤ c.cacheSize)
    (hw : c.curPointer + size ≤ c.cacheSize) (hz : 0 < size) (hp : 0 < c.curPointer)
    (timeMillis : ℕ) : LapOrder (c.getFreeSlotAndLock size timeMillis).1 := by
  have hst : startOf c size = c.curPointer := if_neg (by omega)
  have hi : ∀ m ∈ old, slotIntersects c.curPointer (c.curPointer + size) m = true ↔
      m.addr < c.curPointer + size ∨ (m.addr = c.curPointer + size ∧ m.size = 0) :=
    fun m hm => h.oldSlot hm le_rfl (by omega)
  have hf : ∀ m ∈ new.head?, slotIntersects c.curPointer (c.curPointer + size) m = false := by
    intro m hm
    obtain ⟨f, rest, hnew, hf0, hfs⟩ := h.first hp
    obtain rfl : f = m := by simpa [hnew] using hm
    have hb := h.newBelow f (by simp [hnew])
    have hadd : Word.add f.addr f.size = f.addr + f.size :=
      Word.add_eq (by have := h.small; omega)
    simp only [slotIntersects, hadd, intersects, Bool.or_eq_false_iff, Bool.and_eq_false_iff,
      decide_eq_false_iff_not]
    omega
  set p := slotIntersects c.curPointer (c.curPointer + size)
  have hm : c.metas = old.takeWhile p ++ (old.dropWhile p ++ new) := by
    rw [← List.append_assoc, List.takeWhile_append_dropWhile, h.metas]
  have hd : lastDel (startOf c size) (startOf c size + size) 0 false 0 c.metas =
      (old.takeWhile p).length := by
    rw [hst, hm]
    have hhead := head_dropWhile_append (l := old) hf
    by_cases hne : old.takeWhile p = []
    · simpa [hne] using lastDel_break (Or.inl hp) hhead 0 0
    · simpa using lastDel_hit hne (fun m hm => List.mem_takeWhile_imp hm) hhead 0 false 0
  rw [getFreeSlotAndLock_eq h.small h.cur hs hm hd]
  split
  · exact ⟨old, new, h⟩
  · exact laps_behind h hst hw (List.dropWhile_sublist p) (above_of_dropWhile h.oldOrder hi) (.inl hp) timeMillis

theorem laps_empty_slot (h : Laps c old new) (timeMillis : ℕ) :
    LapOrder (c.getFreeSlotAndLock 0 timeMillis).1 := by
  have hcur := h.cur
  have hst : startOf c 0 = c.curPointer := if_neg (by omega)
  have hd : lastDel (startOf c 0) (startOf c 0 + 0) 0 false 0 c.metas = ([] : List CacheMeta).length :=
    lastDel_miss (fun m _ => intersects_empty _ _ _) 0 0
  rw [getFreeSlotAndLock_eq h.small h.cur (Nat.zero_le _) (h.metas.trans (List.nil_append _).symm) hd]
  exact laps_behind h hst hcur (.refl old) (fun m hm => (h.oldAbove m hm).1) (.inr rfl) timeMillis

theorem laps_restart {rest : List CacheMeta} (hc : c.cacheSize < 2 ^ 63) (hs : size ≤ c.cacheSize)
    (hz : 0 < size) (hst : startOf c size = 0) (ho : rest.Pairwise Before)
    (hr : ∀ m ∈ rest, size ≤ m.addr ∧ m.addr + m.size ≤ c.cacheSize) (timeMillis : ℕ) :
    LapOrder (grant c size timeMillis rest) := by
  refine ⟨rest, [CacheEviction.newSlot c size timeMillis], ?_⟩
  exact {
    metas := by simp
    small := hc
    cur := by simpa [hst] using hs
    oldOrder := ho
    newOrder := List.pairwise_singleton _ _
    oldAbove := by simpa [hst] using hr
    newBelow := by
      intro m hm
      obtain rfl := List.mem_singleton.mp hm
      simp [CacheEviction.newSlot]
    fresh := by
      intro h0
      simp only [grant_curPointer, hst] at h0
      omega
    first := fun _ => ⟨_, [], rfl, hst, hz⟩ }

theorem laps_first_slot (h : Laps c old new) (hs : size ≤ c.cacheSize) (hz : 0 < size)
    (hp : c.curPointer = 0) (timeMillis : ℕ) : LapOrder (c.getFreeSlotAndLock size timeMillis).1 := by
  have hst : startOf c size = 0 := by simp [startOf, hp]
  have hm : c.metas = new := by simpa [h.fresh hp] using h.metas
  have hi : ∀ m ∈ new, slotIntersects 0 (0 + size) m = true := by
    intro m hmem
    have hb := h.newBelow m hmem
    exact (h.newSlot hmem (by omega)).mpr (by omega)
  have hd : lastDel (startOf c size) (startOf c size + size) 0 false 0 c.metas = new.length := by
    rw [hst, hm]
    by_cases hne : new = []
    · simp [hne, lastDel]
    · have hh := @lastDel_hit 0 (0 + size) new [] hne hi (by simp) 0 false 0
      simpa using hh
  rw [getFreeSlotAndLock_eq h.small h.cur hs (by rw [hm, List.append_nil]) hd]
  split
  · exact ⟨old, new, h⟩
  · exact laps_restart h.small hs hz hst List.Pairwise.nil (by simp) timeMillis

def leftover (c : DataCache) : List CacheMeta := c.metas.takeWhile (fun m => m.addr ≠ 0)

theorem leftover_eq (h : Laps c old new) (hp : 0 < c.curPointer) : leftover c = old := by
  obtain ⟨f, rest, hnew, hf0, -⟩ := h.first hp
  have ho : ∀ m ∈ old, decide (m.addr ≠ 0) = true := by
    intro m hm
    have := (h.oldAbove m hm).1
    simp only [ne_eq, decide_eq_true_eq]
    omega
  rw [leftover, h.metas, List.takeWhile_append_of_pos ho, hnew,
    List.takeWhile_cons_of_neg (by simp [hf0]), List.append_nil]

/-- When a request restarts from offset 0, the leftover slots all intersect the new
range, or none of them does, or an intersecting one is locked. -/
def WrapSafe (c : DataCache) (size : ℕ) : Prop :=
  size ≤ c.cacheSize → c.cacheSize < c.curPointer + size →
    (∀ m ∈ leftover c, slotIntersects 0 size m = true) ∨
    (∀ m ∈ leftover c, slotIntersects 0 size m = false) ∨
    ∃ m ∈ leftover c, slotIntersects 0 size m = true ∧ 0 < m.lock

instance (c : DataCache) (size : ℕ) : Decidable (WrapSafe c size) :=
  inferInstanceAs (Decidable (_ → _ → _))

theorem laps_wrap (h : Laps c old new) (hs : size ≤ c.cacheSize)
    (hw : c.cacheSize < c.curPointer + size)
    (hu : (∀ m ∈ old, slotIntersects 0 size m = true) ∨ ∀ m ∈ old, slotIntersects 0 size m = false)
    (timeMillis : ℕ) : LapOrder (c.getFreeSlotAndLock size timeMillis).1 := by
  have hcur := h.cur
  have hst : startOf c size = 0 := if_pos hw
  have hz : 0 < size := by omega
  obtain ⟨f, rest, hnew, hf0, -⟩ := h.first (by omega)
  have hi : ∀ m ∈ new, slotIntersects 0 size m = true ↔
      m.addr < size ∨ (m.addr = size ∧ m.size = 0) := fun m hm => h.newSlot hm hz
  set p := slotIntersects 0 size
  have hpf : p f = true := (hi f (by simp [hnew])).mpr (by omega)
  have hne : new.takeWhile p ≠ [] := by simp [hnew, List.takeWhile_cons_of_pos hpf]
  have hit : ∀ m ∈ new.takeWhile p, p m = true := fun m hm => List.mem_takeWhile_imp hm
  have hend : ∀ m ∈ (new.dropWhile p).head?, p m = false := by
    simpa using head_dropWhile_append (p := p) (l := new) (r := []) (by simp)
  have hm : c.metas = (old ++ new.takeWhile p) ++ new.dropWhile p := by
    rw [List.append_assoc, List.takeWhile_append_dropWhile, h.metas]
  have hd : lastDel (startOf c size) (startOf c size + size) 0 false 0 c.metas =
      (old ++ new.takeWhile p).length := by
    rw [hst, Nat.zero_add, hm]
    rcases hu with hu | hu
    · have hall : ∀ m ∈ old ++ new.takeWhile p, p m = true := fun m hm =>
        (List.mem_append.mp hm).elim (hu m) (hit m)
      simpa using lastDel_hit (by simp [hne]) hall hend 0 false 0
    · rw [List.append_assoc, lastDel_skip hu]
      simpa using lastDel_hit hne hit hend (0 + old.length) false 0
  rw [getFreeSlotAndLock_eq h.small h.cur hs hm hd]
  split
  · exact ⟨old, new, h⟩
  · refine laps_restart h.small hs hz hst (h.newOrder.sublist (List.dropWhile_sublist p))
      (fun m hm => ⟨above_of_dropWhile h.newOrder hi m hm, ?_⟩) timeMillis
    exact le_trans (h.newBelow m ((List.dropWhile_suffix p).subset hm)) h.cur

theorem getFree_mixed (h : Laps c old new) (hs : size ≤ c.cacheSize)
    (hw : c.cacheSize < c.curPointer + size) (ha : ¬ ∀ m ∈ old, slotIntersects 0 size m = true)
    (hn : ¬ ∀ m ∈ old, slotIntersects 0 size m = false) (timeMillis : ℕ) :
    c.getFreeSlotAndLock size timeMillis =
      if (old.takeWhile (slotIntersects 0 size)).any (fun m => m.lock > 0) then (c, none)
      else (grant c size timeMillis (old.dropWhile (slotIntersects 0 size) ++ new),
        some (CacheEviction.newSlot c size timeMillis)) := by
  have hcur := h.cur
  have hst : startOf c size = 0 := if_pos hw
  have hi : ∀ m ∈ old, slotIntersects 0 size m = true ↔
      m.addr < size ∨ (m.addr = size ∧ m.size = 0) :=
    fun m hm => h.oldSlot hm (Nat.zero_le _) (by omega)
  have hfirst := intersecting_first h.oldOrder hi
  set p := slotIntersects 0 size
  have hne : old.takeWhile p ≠ [] := by
    obtain ⟨m, hm, hpm⟩ : ∃ m ∈ old, ¬ p m = false := by simpa using hn
    exact List.ne_nil_of_mem (mem_takeWhile hfirst hm (by simpa using hpm))
  have hrest : old.dropWhile p ≠ [] := by
    intro he
    exact ha (fun m hm => List.mem_takeWhile_imp (p := p) (l := old) (by
      rwa [← List.append_nil (old.takeWhile p), ← he, List.takeWhile_append_dropWhile]))
  have hend : ∀ m ∈ (old.dropWhile p ++ new).head?, p m = false := by
    intro m hm
    obtain ⟨a, rest, hd⟩ := List.exists_cons_of_ne_nil hrest
    obtain rfl : a = m := by simpa [hd] using hm
    exact not_of_mem_dropWhile hfirst a (by simp [hd])
  have hm : c.metas = old.takeWhile p ++ (old.dropWhile p ++ new) := by
    rw [← List.append_assoc, List.takeWhile_append_dropWhile, h.metas]
  refine getFreeSlotAndLock_eq h.small h.cur hs hm ?_ timeMillis
  rw [hst, Nat.zero_add, hm]
  simpa using lastDel_hit hne (fun m hm => List.mem_takeWhile_imp hm) hend 0 false 0

end Asapo.Receiver.CacheLaps
