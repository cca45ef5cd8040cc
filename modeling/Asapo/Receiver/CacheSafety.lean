import Asapo.Receiver.CacheLaps

namespace Asapo.Receiver.CacheSafety

open DataCache CacheEviction CacheLaps InitialSegment Transition

variable {c : DataCache} {size timeMillis : ℕ}

theorem lapOrder_create {cacheSize keepUnlocked rand : ℕ}
    (h : create cacheSize keepUnlocked rand = some c) : LapOrder c := by
  unfold create maxArraySize at h
  split at h
  · cases h
    refine ⟨[], [], ?_⟩
    constructor <;> simp
    omega
  · cases h

theorem lapOrder_getFree (h : LapOrder c) (hw : WrapSafe c size) :
    LapOrder (c.getFreeSlotAndLock size timeMillis).1 := by
  obtain ⟨old, new, h⟩ := h
  by_cases hs : size ≤ c.cacheSize
  · by_cases hz : size = 0
    · subst hz
      exact laps_empty_slot h timeMillis
    by_cases hp : c.curPointer = 0
    · exact laps_first_slot h hs (by omega) hp timeMillis
    by_cases hfit : c.curPointer + size ≤ c.cacheSize
    · exact laps_advance h hs hfit (by omega) (by omega) timeMillis
    have hover : c.cacheSize < c.curPointer + size := by omega
    have hsafe := hw hs hover
    rw [leftover_eq h (by omega)] at hsafe
    by_cases hall : ∀ m ∈ old, slotIntersects 0 size m = true
    · exact laps_wrap h hs hover (.inl hall) timeMillis
    by_cases hnone : ∀ m ∈ old, slotIntersects 0 size m = false
    · exact laps_wrap h hs hover (.inr hnone) timeMillis
    -- the scan stops inside the leftover slots, but one of those it deletes is locked
    obtain ⟨m, hm, hi, hl⟩ := (hsafe.resolve_left hall).resolve_left hnone
    have hany : (old.takeWhile (slotIntersects 0 size)).any (fun m => m.lock > 0) = true := by
      have hold : ∀ m ∈ old, slotIntersects 0 size m = true ↔
          m.addr < size ∨ (m.addr = size ∧ m.size = 0) :=
        fun m hm => h.oldSlot hm (Nat.zero_le _) (by omega)
      have hfirst := intersecting_first h.oldOrder hold
      exact List.any_eq_true.mpr ⟨m, mem_takeWhile hfirst hm hi, by simpa using hl⟩
    rw [getFree_mixed h hs hover hall hnone, if_pos hany]
    exact ⟨old, new, h⟩
  · have he : c.getFreeSlotAndLock size timeMillis = (c, none) := by
      simp [getFreeSlotAndLock, checkAllocationSize, hs]
    rw [he]
    exact ⟨old, new, h⟩

/-- A restart that deletes only a part of the leftover slots keeps the slot at offset 0
and hands out the bytes of that slot a second time. -/
theorem overlap_getFree (h : LapOrder c) (hw : ¬ WrapSafe c size) :
    ¬ RangesSafe (c.getFreeSlotAndLock size timeMillis).1 := by
  obtain ⟨old, new, h⟩ := h
  simp only [WrapSafe, not_forall, not_or] at hw
  obtain ⟨hs, hover, hall, hnone, hlock⟩ := hw
  have hcur := h.cur
  rw [leftover_eq h (by omega)] at hall hnone hlock
  have hany : ¬ (old.takeWhile (slotIntersects 0 size)).any (fun m => m.lock > 0) = true := by
    intro hany
    obtain ⟨m, hm, hl⟩ := List.any_eq_true.mp hany
    exact hlock ⟨m, (List.takeWhile_prefix _).subset hm, List.mem_takeWhile_imp hm, by simpa using hl⟩
  rw [getFree_mixed h hs hover (by simpa using hall) (by simpa using hnone), if_neg hany]
  intro hsafe
  obtain ⟨f, rest, hnew, hf0, hfs⟩ := h.first (by omega)
  have hp := hsafe.apart
  rw [grant_metas, List.pairwise_append] at hp
  have hst : startOf c size = 0 := if_pos hover
  have := hp.2.2 f (by simp [hnew]) (newSlot c size timeMillis) (by simp)
  simp only [Apart, newSlot, hst] at this
  omega

def range (m : CacheMeta) : ℕ × ℕ := (m.addr, m.size)

theorem map_range_lockForRead (id dataSize : ℕ) (ms : List CacheMeta) :
    (c.lockForRead id dataSize ms).1.map range = ms.map range := by
  induction ms with
  | nil => rfl
  | cons m ms ih =>
    rw [lockForRead]
    split
    · split <;> rfl
    · simpa using ih

theorem map_range_release (ptr : ℕ) (ms : List CacheMeta) :
    (ms.map (releaseSlot ptr)).map range = ms.map range := by
  rw [List.map_map]
  refine List.map_congr_left (fun m _ => ?_)
  simp only [Function.comp_apply, releaseSlot]
  split <;> rfl

theorem lapOrder_of_ranges {ms : List CacheMeta} (h : LapOrder c)
    (hr : ms.map range = c.metas.map range) : LapOrder { c with metas := ms } := by
  obtain ⟨old, new, h⟩ := h
  rw [h.metas, List.map_append, List.map_eq_append_iff] at hr
  obtain ⟨old', new', rfl, ho, hn⟩ := hr
  have horder : ∀ {l l' : List CacheMeta}, l'.map range = l.map range →
      l.Pairwise Before → l'.Pairwise Before := by
    intro l l' he hl
    have hb : (l.map range).Pairwise (fun a b => a.1 + a.2 ≤ b.1) := List.pairwise_map.mpr hl
    rw [← he] at hb
    exact (List.pairwise_map (f := range)).mp hb
  have hmem : ∀ {l l' : List CacheMeta}, l'.map range = l.map range →
      ∀ m ∈ l', ∃ m' ∈ l, m'.addr = m.addr ∧ m'.size = m.size := by
    intro l l' he m hm
    have : range m ∈ l.map range := he ▸ List.mem_map_of_mem hm
    obtain ⟨m', hm', hr⟩ := List.mem_map.mp this
    exact ⟨m', hm', congrArg Prod.fst hr, congrArg Prod.snd hr⟩
  refine ⟨old', new', ?_⟩
  exact {
    metas := rfl
    small := h.small
    cur := h.cur
    oldOrder := horder ho h.oldOrder
    newOrder := horder hn h.newOrder
    oldAbove := by
      intro m hm
      obtain ⟨m', hm', ha, hs⟩ := hmem ho m hm
      exact ha ▸ hs ▸ h.oldAbove m' hm'
    newBelow := by
      intro m hm
      obtain ⟨m', hm', ha, hs⟩ := hmem hn m hm
      exact ha ▸ hs ▸ h.newBelow m' hm'
    fresh := by
      intro hp
      rw [h.fresh hp] at ho
      simpa using ho
    first := by
      intro hp
      obtain ⟨f, rest, hnew, hf0, hfs⟩ := h.first hp
      rw [hnew, List.map_cons, List.map_eq_cons_iff] at hn
      obtain ⟨f', rest', rfl, hr, -⟩ := hn
      have ha : f'.addr = f.addr := congrArg Prod.fst hr
      have hs : f'.size = f.size := congrArg Prod.snd hr
      exact ⟨f', rest', rfl, ha.trans hf0, hs ▸ hfs⟩ }

/-- The condition that a call has to meet in the state in which it is made. -/
def CallSafe (s : SharedCache) : CacheCall → Prop
  | .getFreeSlotAndLock size _ => WrapSafe s.cache size
  | _ => True

instance (s : SharedCache) (l : CacheCall) : Decidable (CallSafe s l) := by
  cases l <;> simp only [CallSafe] <;> infer_instance

theorem lapOrder_step (s : SharedCache) (l : CacheCall) (t : SharedCache)
    (h : LapOrder s.cache) (hc : CallSafe s l) (ht : s.step l = some t) : LapOrder t.cache := by
  cases l with
  | getFreeSlotAndLock size timeMillis =>
    simp only [SharedCache.step, Option.some.injEq] at ht
    subst ht
    exact lapOrder_getFree h hc
  | getSlotToReadAndLock id dataSize =>
    simp only [SharedCache.step, Option.some.injEq] at ht
    subst ht
    exact lapOrder_of_ranges h (map_range_lockForRead id dataSize _)
  | unlockSlot ptr =>
    simp only [SharedCache.step, Option.ite_none_right_eq_some, Option.some.injEq] at ht
    obtain ⟨-, rfl⟩ := ht
    exact lapOrder_of_ranges h (map_range_release ptr _)

theorem overlap_step (s : SharedCache) (l : CacheCall) (t : SharedCache)
    (h : LapOrder s.cache) (hc : ¬ CallSafe s l) (ht : s.step l = some t) :
    ¬ RangesSafe t.cache := by
  cases l with
  | getFreeSlotAndLock size timeMillis =>
    simp only [SharedCache.step, Option.some.injEq] at ht
    subst ht
    exact overlap_getFree h hc
  | getSlotToReadAndLock id dataSize => exact absurd trivial hc
  | unlockSlot ptr => exact absurd trivial hc

theorem getFree_metas {c' : DataCache} {slot : CacheMeta}
    (h : c.getFreeSlotAndLock size timeMillis = (c', some slot)) :
    ∃ kept, c'.metas = kept ++ [slot] ∧ ∀ m ∈ kept, m ∈ c.metas := by
  obtain hn | ⟨c₁, slot₁, hg, hgr⟩ := getFree_cases c size timeMillis
  · simp [hn] at h
  · rw [hg] at h
    cases h
    obtain ⟨gone, kept, hm, -, hk⟩ := hgr.split
    exact ⟨kept, hk, fun m hmem => by simp [hm, hmem]⟩

/-- The listed ranges stay disjoint and inside the cache along exactly the runs in
which every request that restarts from offset 0 is wrap-safe. A slot that is handed out
into such a state shares no byte with a slot that stays listed. -/
theorem ranges_safe_iff (cacheSize keepUnlocked rand : ℕ) (c : DataCache)
    (hc : create cacheSize keepUnlocked rand = some c) (calls : List CacheCall) :
    (Always SharedCache.step (fun s => RangesSafe s.cache) ⟨c, []⟩ calls ↔
      Along SharedCache.step CallSafe ⟨c, []⟩ calls) ∧
    ∀ (before after : DataCache) (size timeMillis : ℕ) (slot : CacheMeta),
      before.getFreeSlotAndLock size timeMillis = (after, some slot) → RangesSafe after →
        ∃ kept, after.metas = kept ++ [slot] ∧ ∀ m ∈ kept, m ∈ before.metas ∧ Apart m slot := by
  constructor
  · have hsafe : ∀ s : SharedCache, LapOrder s.cache → RangesSafe s.cache :=
      fun s h => rangesSafe_of_laps h
    exact always_iff_along hsafe lapOrder_step overlap_step _ calls (lapOrder_create hc)
  · intro before after size timeMillis slot hget hsafe
    obtain ⟨kept, hk, hsub⟩ := getFree_metas hget
    have hp := hsafe.apart
    rw [hk, List.pairwise_append] at hp
    exact ⟨kept, hk, fun m hm => ⟨hsub m hm, hp.2.2 m hm slot (by simp)⟩⟩

def wrappingCalls : List CacheCall :=
  [.getFreeSlotAndLock 6 7, .unlockSlot 1, .getFreeSlotAndLock 6 7, .getSlotToReadAndLock 0 6]

theorem ranges_safe_wrapping :
    create 10 0 1 = some ⟨10, 0, 2, 0, [], 1⟩ ∧
    Always SharedCache.step (fun s => RangesSafe s.cache) ⟨⟨10, 0, 2, 0, [], 1⟩, []⟩ wrappingCalls :=
  ⟨by decide, (ranges_safe_iff 10 0 1 _ (by decide) wrappingCalls).1.mpr (by decide)⟩

def overlappingCalls : List CacheCall :=
  [.getFreeSlotAndLock 45 7, .getFreeSlotAndLock 15 7, .getFreeSlotAndLock 10 7,
    .getFreeSlotAndLock 30 7, .unlockSlot 1, .unlockSlot 2, .unlockSlot 3, .unlockSlot 4,
    .getFreeSlotAndLock 40 7, .getFreeSlotAndLock 65 7]

theorem ranges_unsafe :
    ¬ ∀ (cacheSize keepUnlocked rand : ℕ) (c : DataCache) (calls : List CacheCall),
      create cacheSize keepUnlocked rand = some c →
        Always SharedCache.step (fun s => RangesSafe s.cache) ⟨c, []⟩ calls := by
  intro h
  have hrun := h 100 0 1 ⟨100, 0, 2, 0, [], 1⟩ overlappingCalls (by decide)
  have hsafe := always_exec _ ⟨⟨100, 0, 8, 65, [⟨4, 30064771078, 70, 30, 0⟩,
    ⟨5, 30064771079, 0, 40, 1⟩, ⟨6, 30064771080, 0, 65, 1⟩], 7⟩, [6, 5]⟩ _ hrun (by decide)
  have hp := hsafe.apart
  simp [Apart] at hp

end Asapo.Receiver.CacheSafety
