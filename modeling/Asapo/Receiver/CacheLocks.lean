import Asapo.Receiver.CacheSafety

namespace Asapo.Receiver.CacheLocks

open DataCache CacheEviction Transition

/-- The lock of a listed slot counts the callers that hold it, and a slot that is held
is listed. -/
structure Accounted (s : SharedCache) : Prop where
  distinct : (s.cache.metas.map (fun m => m.ptr)).Nodup
  fresh : ∀ m ∈ s.cache.metas, m.ptr < s.cache.nextPtr
  locks : ∀ m ∈ s.cache.metas, m.lock = s.holders.count m.ptr
  listed : ∀ p ∈ s.holders, ∃ m ∈ s.cache.metas, m.ptr = p

theorem accounted_empty {c : DataCache} {cacheSize keepUnlocked rand : ℕ}
    (h : create cacheSize keepUnlocked rand = some c) : Accounted ⟨c, []⟩ := by
  have hm : c.metas = [] := by
    unfold create at h
    split at h <;> cases h
    rfl
  constructor <;> simp [hm]

theorem lockForRead_cases (c : DataCache) (id dataSize : ℕ) (ms : List CacheMeta) :
    c.lockForRead id dataSize ms = (ms, none) ∨
    ∃ front m back, ms = front ++ m :: back ∧
      c.lockForRead id dataSize ms =
        (front ++ { m with lock := m.lock + 1 } :: back, some { m with lock := m.lock + 1 }) := by
  induction ms with
  | nil => exact .inl rfl
  | cons a ms ih =>
    rw [lockForRead]
    split
    · split
      · exact .inl rfl
      · exact .inr ⟨[], a, ms, rfl, rfl⟩
    · obtain hn | ⟨front, m, back, hms, hr⟩ := ih
      · exact .inl (by rw [hn])
      · exact .inr ⟨a :: front, m, back, by rw [hms]; rfl, by rw [hr]; rfl⟩

variable {s : SharedCache}

theorem mem_kept {gone kept : List CacheMeta} (h : Accounted s)
    (hm : s.cache.metas = gone ++ kept) (hg : ∀ m ∈ gone, m.lock = 0) {m : CacheMeta}
    (hmem : m ∈ s.cache.metas) (hh : m.ptr ∈ s.holders) : m ∈ kept := by
  have hl := h.locks m hmem
  have hc : 0 < s.holders.count m.ptr := List.count_pos_iff.mpr hh
  rw [hm] at hmem
  obtain hgone | hkept := List.mem_append.mp hmem
  · have := hg m hgone
    omega
  · exact hkept

theorem accounted_getFree (h : Accounted s) (size timeMillis : ℕ) :
    Accounted (s.hold (s.cache.getFreeSlotAndLock size timeMillis)) := by
  obtain hn | ⟨c', slot, hg, hgr⟩ := getFree_cases s.cache size timeMillis
  · rw [hn]
    exact h
  rw [hg]
  obtain ⟨gone, kept, hm, hgone, hk⟩ := hgr.split
  have hsub : ∀ m ∈ kept, m ∈ s.cache.metas := fun m hmem => by simp [hm, hmem]
  have hlt : ∀ m ∈ kept, m.ptr < slot.ptr := fun m hmem => hgr.ptr ▸ h.fresh m (hsub m hmem)
  have hnot : slot.ptr ∉ s.holders := by
    intro hp
    obtain ⟨m, hmem, he⟩ := h.listed _ hp
    have := h.fresh m hmem
    rw [he, hgr.ptr] at this
    omega
  have hdist := h.distinct
  rw [hm, List.map_append] at hdist
  constructor
  · simp only [SharedCache.hold, hk, List.map_append, List.map_cons, List.map_nil]
    refine List.nodup_append.mpr ⟨(List.nodup_append.mp hdist).2.1, by simp, ?_⟩
    intro p hp q hq
    obtain ⟨m, hmem, rfl⟩ := List.mem_map.mp hp
    have := hlt m hmem
    simp only [List.mem_singleton] at hq
    omega
  · intro m hmem
    simp only [SharedCache.hold, hk, List.mem_append, List.mem_singleton] at hmem
    simp only [SharedCache.hold, hgr.nextPtr]
    obtain hmem | rfl := hmem
    · have := h.fresh m (hsub m hmem)
      omega
    · have := hgr.ptr
      omega
  · intro m hmem
    simp only [SharedCache.hold, hk, List.mem_append, List.mem_singleton] at hmem
    simp only [SharedCache.hold, Option.map_some, Option.toList_some, List.cons_append, List.nil_append]
    obtain hmem | rfl := hmem
    · have := hlt m hmem
      rw [List.count_cons_of_ne (by omega)]
      exact h.locks m (hsub m hmem)
    · rw [List.count_cons_self, List.count_eq_zero_of_not_mem hnot, hgr.lock]
  · intro p hp
    simp only [SharedCache.hold, Option.map_some, Option.toList_some, List.cons_append,
      List.nil_append, List.mem_cons] at hp
    simp only [SharedCache.hold, hk]
    obtain rfl | hp := hp
    · exact ⟨slot, by simp, rfl⟩
    · obtain ⟨m, hmem, rfl⟩ := h.listed p hp
      exact ⟨m, by simp [mem_kept h hm hgone hmem hp], rfl⟩

theorem accounted_getSlot (h : Accounted s) (id dataSize : ℕ) :
    Accounted (s.hold (s.cache.getSlotToReadAndLock id dataSize)) := by
  unfold getSlotToReadAndLock
  obtain hn | ⟨front, m, back, hms, hr⟩ := lockForRead_cases s.cache id dataSize s.cache.metas
  · rw [hn]
    exact h
  rw [hr]
  have hdist := h.distinct
  rw [hms] at hdist
  have hother : ∀ x, x ∈ front ∨ x ∈ back → x.ptr ≠ m.ptr := by
    intro x hx he
    simp only [List.map_append, List.map_cons, List.nodup_append, List.nodup_cons, List.mem_cons] at hdist
    obtain hx | hx := hx
    · exact hdist.2.2 x.ptr (List.mem_map_of_mem hx) m.ptr (.inl rfl) he
    · exact hdist.2.1.1 (he ▸ List.mem_map_of_mem hx)
  constructor
  · simpa [SharedCache.hold] using hdist
  · intro x hx
    simp only [SharedCache.hold, List.mem_append, List.mem_cons] at hx ⊢
    obtain hx | rfl | hx := hx
    · exact h.fresh x (by simp [hms, hx])
    · exact h.fresh m (by simp [hms])
    · exact h.fresh x (by simp [hms, hx])
  · intro x hx
    simp only [SharedCache.hold, List.mem_append, List.mem_cons] at hx
    simp only [SharedCache.hold, Option.map_some, Option.toList_some, List.cons_append, List.nil_append]
    obtain hx | rfl | hx := hx
    · rw [List.count_cons_of_ne (Ne.symm (hother x (.inl hx)))]
      exact h.locks x (by simp [hms, hx])
    · rw [List.count_cons_self, ← h.locks m (by simp [hms])]
    · rw [List.count_cons_of_ne (Ne.symm (hother x (.inr hx)))]
      exact h.locks x (by simp [hms, hx])
  · intro p hp
    simp only [SharedCache.hold, Option.map_some, Option.toList_some, List.cons_append,
      List.nil_append, List.mem_cons] at hp
    have hm : { m with lock := m.lock + 1 } ∈ front ++ { m with lock := m.lock + 1 } :: back := by
      simp
    obtain rfl | hp := hp
    · exact ⟨_, hm, rfl⟩
    · obtain ⟨x, hx, rfl⟩ := h.listed p hp
      simp only [hms, List.mem_append, List.mem_cons] at hx
      obtain hx | rfl | hx := hx
      · exact ⟨x, by simp [SharedCache.hold, hx], rfl⟩
      · exact ⟨_, hm, rfl⟩
      · exact ⟨x, by simp [SharedCache.hold, hx], rfl⟩

theorem releaseSlot_ptr (ptr : ℕ) (m : CacheMeta) : (releaseSlot ptr m).ptr = m.ptr := by
  unfold releaseSlot
  split <;> rfl

theorem accounted_unlock (h : Accounted s) (ptr : ℕ) :
    Accounted ⟨s.cache.unlockSlot ptr, s.holders.erase ptr⟩ := by
  constructor
  · simpa [unlockSlot, Function.comp_def, releaseSlot_ptr] using h.distinct
  · intro m hm
    obtain ⟨x, hx, rfl⟩ := List.mem_map.mp hm
    simpa [unlockSlot, releaseSlot_ptr] using h.fresh x hx
  · intro m hm
    obtain ⟨x, hx, rfl⟩ := List.mem_map.mp hm
    have hl := h.locks x hx
    by_cases he : x.ptr = ptr
    · simp [releaseSlot, he, List.count_erase_self, hl]
    · simp [releaseSlot, he, List.count_erase_of_ne he, hl]
  · intro p hp'
    obtain ⟨m, hm, rfl⟩ := h.listed p (List.mem_of_mem_erase hp')
    exact ⟨releaseSlot ptr m, List.mem_map_of_mem hm, releaseSlot_ptr ptr m⟩

end Asapo.Receiver.CacheLocks
