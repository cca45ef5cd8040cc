import Asapo.Receiver.CacheSafety

namespace Asapo.Receiver

/-- A call on the cache alone. A slot may be unlocked by a caller that does not hold it; a
pointer to a slot that is not listed any more has no outcome. -/
def DataCache.step (c : DataCache) : CacheCall → Option DataCache
  | .getFreeSlotAndLock size timeMillis => some (c.getFreeSlotAndLock size timeMillis).1
  | .getSlotToReadAndLock id dataSize => some (c.getSlotToReadAndLock id dataSize).1
  | .unlockSlot ptr => if c.metas.any (fun m => m.ptr = ptr) then some (c.unlockSlot ptr) else none

namespace SlotGrants

open DataCache CacheEviction CacheSafety Transition

variable {c c' : DataCache} {slot : CacheMeta} {size timeMillis id dataSize : ℕ}

/-- The write position and the listed ranges are inside the cache. The position is at the
start only as long as nothing but empty slots was handed out. -/
structure Placed (c : DataCache) : Prop where
  capacity : c.cacheSize < 2 ^ 63
  pointer : c.curPointer ≤ c.cacheSize
  inside : ∀ r ∈ c.metas.map range, r.1 + r.2 ≤ c.cacheSize
  start : c.curPointer = 0 → ∀ r ∈ c.metas.map range, r.1 = 0

theorem placed_create {cacheSize keepUnlocked rand : ℕ} (h : create cacheSize keepUnlocked rand = some c) :
    Placed c := by
  unfold create maxArraySize at h
  split at h <;> cases h
  constructor <;> simp
  omega

theorem granted_range (hp : Placed c) (hg : Granted c size c' slot) (hs : size ≤ c.cacheSize)
    (hptr : c'.curPointer = Word.add slot.addr size) :
    slot.addr + size ≤ c.cacheSize ∧ c'.curPointer = slot.addr + size ∧
      (c'.curPointer = 0 → c.curPointer = 0) := by
  have hcap := hp.capacity
  have hcur := hp.pointer
  have haddr := hg.addr
  rw [Word.add_eq (by omega)] at haddr
  have hin : slot.addr + size ≤ c.cacheSize := by split at haddr <;> omega
  rw [Word.add_eq (by omega)] at hptr
  refine ⟨hin, hptr, fun h0 => ?_⟩
  split at haddr <;> omega

theorem placed_getFree (hp : Placed c) : Placed (c.getFreeSlotAndLock size timeMillis).1 := by
  obtain ⟨hn, -⟩ | ⟨c', slot, he, hg, hs, hcur⟩ := getFree_outcome c size timeMillis
  · rw [hn]
    exact hp
  · obtain ⟨hin, hptr, hzero⟩ := granted_range hp hg hs hcur
    obtain ⟨gone, kept, hm, -, hk⟩ := hg.split
    have hkept : ∀ r ∈ kept.map range, r ∈ c.metas.map range := by
      intro r hr
      rw [hm, List.map_append]
      exact List.mem_append_right _ hr
    rw [he]
    refine ⟨hg.cacheSize ▸ hp.capacity, hptr ▸ hg.cacheSize ▸ hin, ?_, ?_⟩
    · intro r hr
      rw [hk, List.map_append, List.mem_append] at hr
      rw [hg.cacheSize]
      obtain hr | hr := hr
      · exact hp.inside r (hkept r hr)
      · obtain rfl := List.mem_singleton.mp hr
        change slot.addr + slot.size ≤ c.cacheSize
        rw [hg.size]
        exact hin
    · intro h0 r hr
      rw [hk, List.map_append, List.mem_append] at hr
      obtain hr | hr := hr
      · exact hp.start (hzero h0) r (hkept r hr)
      · obtain rfl := List.mem_singleton.mp hr
        change slot.addr = 0
        have hend : slot.addr + size = 0 := hptr.symm.trans h0
        omega

theorem Placed.relock (hp : Placed c) {ms : List CacheMeta} (hm : ms.map range = c.metas.map range) :
    Placed { c with metas := ms } :=
  ⟨hp.capacity, hp.pointer, hm ▸ hp.inside, fun h0 => hm ▸ hp.start h0⟩

theorem placed_step (c : DataCache) (l : CacheCall) (c' : DataCache) (hp : Placed c)
    (h : c.step l = some c') : Placed c' := by
  cases l with
  | getFreeSlotAndLock size timeMillis =>
    cases h
    exact placed_getFree hp
  | getSlotToReadAndLock id dataSize =>
    cases h
    exact hp.relock (map_range_lockForRead id dataSize c.metas)
  | unlockSlot ptr =>
    simp only [DataCache.step, Option.ite_none_right_eq_some, Option.some.injEq] at h
    obtain ⟨-, rfl⟩ := h
    exact hp.relock (map_range_release ptr c.metas)

theorem placed_run {cacheSize keepUnlocked rand : ℕ} {c₀ : DataCache} {calls : List CacheCall}
    (hc : create cacheSize keepUnlocked rand = some c₀) (hr : exec DataCache.step c₀ calls = some c) :
    Placed c :=
  always_exec c₀ c calls (always_of_step (fun _ h => h) placed_step c₀ calls (placed_create hc)) hr

/-- A request for a slot that fails leaves the cache as it was, and then it does not fit or
a slot is locked. One that succeeds gets a range inside the cache; the slots that give way
are the oldest ones and are not locked, the others stay as they are. -/
theorem allocation_clean (cacheSize keepUnlocked rand : ℕ) (c₀ c : DataCache) (calls : List CacheCall)
    (hc : create cacheSize keepUnlocked rand = some c₀) (hr : exec DataCache.step c₀ calls = some c)
    (size timeMillis : ℕ) :
    c.getFreeSlotAndLock size timeMillis = (c, none) ∧
      (c.cacheSize < size ∨ ∃ m ∈ c.metas, 0 < m.lock) ∨
    ∃ c' slot gone kept, c.getFreeSlotAndLock size timeMillis = (c', some slot) ∧
      slot.size = size ∧ slot.addr + size ≤ c.cacheSize ∧
      c.metas = gone ++ kept ∧ (∀ m ∈ gone, m.lock = 0) ∧
      c'.metas = kept ++ [slot] ∧ slot.lock = 1 := by
  have hp := placed_run hc hr
  obtain hnull | ⟨c', slot, he, hg, hs, hcur⟩ := getFree_outcome c size timeMillis
  · exact .inl hnull
  · obtain ⟨hin, -, -⟩ := granted_range hp hg hs hcur
    obtain ⟨gone, kept, hm, hgone, hk⟩ := hg.split
    exact .inr ⟨c', slot, gone, kept, he, hg.size, hin, hm, hgone, hk, hg.lock⟩

def lapCalls : List CacheCall :=
  [.getFreeSlotAndLock 50 1, .getFreeSlotAndLock 50 1, .unlockSlot 1, .unlockSlot 2,
    .getFreeSlotAndLock 50 1]

def lapCache : DataCache := ⟨100, 10, 5, 50, [⟨2, 4294967300, 50, 50, 0⟩, ⟨3, 4294967301, 0, 50, 1⟩], 4⟩

theorem allocation_clean_lap :
    create 100 10 1 = some ⟨100, 10, 2, 0, [], 1⟩ ∧
    exec DataCache.step ⟨100, 10, 2, 0, [], 1⟩ lapCalls = some lapCache ∧
    (lapCache.getFreeSlotAndLock 60 1 = (lapCache, none) ∧ (100 < 60 ∨ ∃ m ∈ lapCache.metas, 0 < m.lock) ∨
    ∃ c' slot gone kept, lapCache.getFreeSlotAndLock 60 1 = (c', some slot) ∧
      slot.size = 60 ∧ slot.addr + 60 ≤ 100 ∧ lapCache.metas = gone ++ kept ∧
      (∀ m ∈ gone, m.lock = 0) ∧ c'.metas = kept ++ [slot] ∧ slot.lock = 1) :=
  ⟨by decide, by decide, allocation_clean 100 10 1 _ lapCache lapCalls rfl (by decide) 60 1⟩

/-- The forward circular distance from the write position to a slot. -/
def distance (c : DataCache) (m : CacheMeta) : ℤ := ((m.addr : ℤ) - c.curPointer) % c.cacheSize

theorem lockForRead_granted {ms : List CacheMeta} (h : (c.lockForRead id dataSize ms).2 = some slot) :
    ∃ m ∈ ms, m.addr = slot.addr ∧ c.slotTooCloseToCurrentPointer m = false := by
  induction ms with
  | nil => cases h
  | cons m ms ih =>
    rw [lockForRead] at h
    split at h
    · split at h
      · cases h
      · rename_i hgood
        cases h
        exact ⟨m, List.mem_cons_self, rfl, by simpa using (not_or.mp hgood).2⟩
    · obtain ⟨m', hm', hfound⟩ := ih h
      exact ⟨m', List.mem_cons_of_mem m hm', hfound⟩

/-- The test computes the distance, except at the write position itself, which it takes to
be a whole lap away. -/
theorem tooClose_eq (hp : Placed c) {m : CacheMeta} (hm : m ∈ c.metas) :
    c.slotTooCloseToCurrentPointer m =
      decide ((if m.addr = c.curPointer then (c.cacheSize : ℤ) else distance c m) < c.keepUnlocked) := by
  have hcap := hp.capacity
  have hcur := hp.pointer
  have hin : m.addr + m.size ≤ c.cacheSize := hp.inside _ (List.mem_map_of_mem hm)
  have hstart : c.curPointer = 0 → m.addr = 0 := fun h0 => hp.start h0 _ (List.mem_map_of_mem hm)
  unfold slotTooCloseToCurrentPointer distance
  rw [decide_eq_decide]
  by_cases hgt : m.addr > c.curPointer
  · have hd : Word.sub m.addr c.curPointer = m.addr - c.curPointer := Word.sub_eq (by omega) (by omega)
    have hmod : ((m.addr : ℤ) - c.curPointer) % c.cacheSize = m.addr - c.curPointer :=
      Int.emod_eq_of_lt (by omega) (by omega)
    rw [if_pos hgt, if_neg (by omega), hd, hmod]
    omega
  · have hd : Word.add (Word.sub c.cacheSize c.curPointer) m.addr = c.cacheSize - c.curPointer + m.addr := by
      rw [Word.sub_eq (by omega) hcur, Word.add_eq (by omega)]
    rw [if_neg hgt, hd]
    by_cases heq : m.addr = c.curPointer
    · rw [if_pos heq]
      omega
    · have hmod : ((m.addr : ℤ) - c.curPointer) % c.cacheSize = c.cacheSize - c.curPointer + m.addr := by
        by_cases hlap : m.addr = 0 ∧ c.curPointer = c.cacheSize
        · simp [hlap.1, hlap.2]
        · rw [← Int.add_emod_right, Int.emod_eq_of_lt (by omega) (by omega)]
          omega
      rw [if_neg heq, hmod]
      omega

/-- A slot that is granted for reading keeps the distance from the write position if and
only if it does not start there. -/
theorem read_distance_iff (cacheSize keepUnlocked rand : ℕ) (c₀ c c' : DataCache) (calls : List CacheCall)
    (hc : create cacheSize keepUnlocked rand = some c₀) (hr : exec DataCache.step c₀ calls = some c)
    (id dataSize : ℕ) (slot : CacheMeta) (hg : c.getSlotToReadAndLock id dataSize = (c', some slot)) :
    c.keepUnlocked ≤ distance c slot ↔ c.keepUnlocked = 0 ∨ slot.addr ≠ c.curPointer := by
  have hp := placed_run hc hr
  obtain ⟨m, hm, haddr, hfar⟩ := lockForRead_granted (congrArg Prod.snd hg)
  rw [tooClose_eq hp hm] at hfar
  have hfar := of_decide_eq_false hfar
  have hd : distance c slot = distance c m := by rw [distance, distance, haddr]
  rw [hd, ← haddr]
  by_cases heq : m.addr = c.curPointer
  · have h0 : distance c m = 0 := by rw [distance, heq, sub_self, Int.zero_emod]
    rw [h0]
    omega
  · rw [if_neg heq] at hfar
    exact iff_of_true (by omega) (.inr heq)

theorem read_distance_lap :
    create 100 10 1 = some ⟨100, 10, 2, 0, [], 1⟩ ∧
    exec DataCache.step ⟨100, 10, 2, 0, [], 1⟩ lapCalls = some lapCache ∧
    ∃ c' slot, lapCache.getSlotToReadAndLock 4294967301 50 = (c', some slot) ∧
      (lapCache.keepUnlocked ≤ distance lapCache slot ↔
        lapCache.keepUnlocked = 0 ∨ slot.addr ≠ lapCache.curPointer) :=
  ⟨by decide, by decide, _, ⟨3, 4294967301, 0, 50, 2⟩, rfl,
    read_distance_iff 100 10 1 _ lapCache _ lapCalls rfl (by decide) 4294967301 50 _ rfl⟩

theorem read_at_write_position :
    ¬ ∀ (cacheSize keepUnlocked rand : ℕ) (c₀ c c' : DataCache) (calls : List CacheCall)
        (id dataSize : ℕ) (slot : CacheMeta),
      0 < cacheSize → keepUnlocked ≤ cacheSize → create cacheSize keepUnlocked rand = some c₀ →
      exec DataCache.step c₀ calls = some c → c.getSlotToReadAndLock id dataSize = (c', some slot) →
        c.keepUnlocked ≤ distance c slot := by
  intro h
  have hfar := h 100 10 1 _ lapCache _ lapCalls 4294967300 50 ⟨2, 4294967300, 50, 50, 1⟩
    (by decide) (by decide) rfl (by decide) rfl
  exact absurd hfar (by decide)

end SlotGrants

end Asapo.Receiver
