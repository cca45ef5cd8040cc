import Asapo.Receiver.DataCache

namespace Asapo.InitialSegment

variable {α : Type} {p : α → Bool}

/-- When the elements that pass a test come first in a list, the test passes exactly
on the segment that `takeWhile` selects. -/
theorem not_of_mem_dropWhile {l : List α} (h : l.Pairwise (fun a b => p b = true → p a = true)) :
    ∀ m ∈ l.dropWhile p, p m = false := by
  induction l with
  | nil => simp
  | cons a l ih =>
    obtain ⟨ha, hl⟩ := List.pairwise_cons.mp h
    cases hpa : p a with
    | true =>
      rw [List.dropWhile_cons_of_pos hpa]
      exact ih hl
    | false =>
      rw [List.dropWhile_cons_of_neg (by simp [hpa])]
      intro m hm
      rcases List.mem_cons.mp hm with rfl | hml
      · exact hpa
      · by_contra hpm
        have := ha m hml (by simpa using hpm)
        simp [hpa] at this

theorem mem_takeWhile {l : List α} (h : l.Pairwise (fun a b => p b = true → p a = true))
    {m : α} (hm : m ∈ l) (hpm : p m = true) : m ∈ l.takeWhile p := by
  have hs : m ∈ l.takeWhile p ++ l.dropWhile p := by rwa [List.takeWhile_append_dropWhile]
  rcases List.mem_append.mp hs with ht | hd
  · exact ht
  · simp [not_of_mem_dropWhile h m hd] at hpm

theorem head_dropWhile_append {l r : List α} (hr : ∀ m ∈ r.head?, p m = false) :
    ∀ m ∈ (l.dropWhile p ++ r).head?, p m = false := by
  intro m hm
  cases hd : l.dropWhile p with
  | nil => exact hr m (by simpa [hd] using hm)
  | cons a rest =>
    have ha := List.head_dropWhile_not (p := p) (l := l) (by simp [hd])
    simp only [hd, List.head_cons] at ha
    simp only [hd, List.cons_append, List.head?_cons, Option.mem_def, Option.some.injEq] at hm
    exact hm ▸ ha

end Asapo.InitialSegment

namespace Asapo.Receiver.CacheEviction

open DataCache

theorem intersects_of_le {a n left right : ℕ} (hl : left ≤ a) (hr : left < right) :
    intersects a (a + n) left right = true ↔ a < right ∨ (a = right ∧ n = 0) := by
  simp only [intersects, Bool.or_eq_true, Bool.and_eq_true, decide_eq_true_eq]
  omega

theorem intersects_empty (a b left : ℕ) : intersects a b left left = false := by
  simp only [intersects, Bool.or_eq_false_iff, Bool.and_eq_false_iff, decide_eq_false_iff_not]
  omega

theorem lastDel_miss {left right : ℕ} {ms : List CacheMeta}
    (h : ∀ m ∈ ms, slotIntersects left right m = false) (i del : ℕ) :
    lastDel left right i false del ms = del := by
  induction ms generalizing i with
  | nil => rfl
  | cons m ms ih =>
    rw [lastDel, h m (by simp)]
    by_cases hl : left > 0
    · simp [hl]
    · simpa [hl] using ih (fun x hx => h x (by simp [hx])) (i + 1)

theorem lastDel_skip {right : ℕ} {miss : List CacheMeta}
    (h : ∀ m ∈ miss, slotIntersects 0 right m = false) (ms : List CacheMeta) (i del : ℕ) :
    lastDel 0 right i false del (miss ++ ms) = lastDel 0 right (i + miss.length) false del ms := by
  induction miss generalizing i with
  | nil => rfl
  | cons m miss ih =>
    have ht := ih (fun x hx => h x (by simp [hx])) (i + 1)
    rw [List.cons_append, lastDel, h m (by simp)]
    simpa [Nat.add_assoc, Nat.add_comm 1] using ht

theorem lastDel_break {left right : ℕ} {was : Bool} (hb : 0 < left ∨ was = true)
    {ms : List CacheMeta} (h : ∀ m ∈ ms.head?, slotIntersects left right m = false) (i del : ℕ) :
    lastDel left right i was del ms = del := by
  cases ms with
  | nil => rfl
  | cons m ms =>
    rw [lastDel, h m (by simp)]
    rcases hb with hb | hb <;> simp [hb]

theorem lastDel_hit {left right : ℕ} {hit ms : List CacheMeta} (hne : hit ≠ [])
    (hh : ∀ m ∈ hit, slotIntersects left right m = true)
    (h : ∀ m ∈ ms.head?, slotIntersects left right m = false) (i : ℕ) (was : Bool) (del : ℕ) :
    lastDel left right i was del (hit ++ ms) = i + hit.length := by
  induction hit generalizing i was del with
  | nil => exact absurd rfl hne
  | cons m hit ih =>
    rw [List.cons_append, lastDel, hh m (by simp), if_pos rfl]
    cases hit with
    | nil => simpa using lastDel_break (Or.inr rfl) h (i + 1) (i + 1)
    | cons m' hit =>
      rw [ih (by simp) (fun x hx => hh x (by simp [hx]))]
      simp only [List.length_cons]
      omega

def startOf (c : DataCache) (size : ℕ) : ℕ :=
  if c.cacheSize < c.curPointer + size then 0 else c.curPointer

def newSlot (c : DataCache) (size timeMillis : ℕ) : CacheMeta :=
  ⟨c.nextPtr, (c.getNextId timeMillis).2, startOf c size, size, 1⟩

def grant (c : DataCache) (size timeMillis : ℕ) (rest : List CacheMeta) : DataCache :=
  { (c.getNextId timeMillis).1 with
    curPointer := startOf c size + size
    metas := rest ++ [newSlot c size timeMillis]
    nextPtr := c.nextPtr + 1 }

@[simp] theorem grant_cacheSize (c : DataCache) (size timeMillis : ℕ) (rest : List CacheMeta) :
    (grant c size timeMillis rest).cacheSize = c.cacheSize := rfl

@[simp] theorem grant_curPointer (c : DataCache) (size timeMillis : ℕ) (rest : List CacheMeta) :
    (grant c size timeMillis rest).curPointer = startOf c size + size := rfl

@[simp] theorem grant_metas (c : DataCache) (size timeMillis : ℕ) (rest : List CacheMeta) :
    (grant c size timeMillis rest).metas = rest ++ [newSlot c size timeMillis] := rfl

theorem getFreeSlotAndLock_eq {c : DataCache} {size : ℕ} (hc : c.cacheSize < 2 ^ 63)
    (hp : c.curPointer ≤ c.cacheSize) (hs : size ≤ c.cacheSize) {hit rest : List CacheMeta}
    (hm : c.metas = hit ++ rest)
    (hd : lastDel (startOf c size) (startOf c size + size) 0 false 0 c.metas = hit.length)
    (timeMillis : ℕ) :
    c.getFreeSlotAndLock size timeMillis =
      if hit.any (fun m => m.lock > 0) then (c, none)
      else (grant c size timeMillis rest, some (newSlot c size timeMillis)) := by
  have hadd : Word.add c.curPointer size = c.curPointer + size := Word.add_eq (by omega)
  have hstart : (if Word.add c.curPointer size > c.cacheSize then 0 else c.curPointer) =
      startOf c size := by rw [hadd]; rfl
  have hle : startOf c size ≤ c.curPointer := by unfold startOf; split <;> omega
  have hend : Word.add (startOf c size) size = startOf c size + size := Word.add_eq (by omega)
  have hsub : Word.sub (startOf c size + size) size = startOf c size := by
    rw [Word.sub_eq (by omega) (by omega)]
    omega
  have htake : c.metas.take hit.length = hit := by rw [hm, List.take_left]
  have hdrop : c.metas.drop hit.length = rest := by rw [hm, List.drop_left]
  have ha : c.allocateSlot size = if hit.any (fun m => m.lock > 0) then (c, none)
      else ({ c with curPointer := startOf c size + size, metas := rest }, some (startOf c size)) := by
    simp only [allocateSlot, cleanOldSlots, hstart, hend, hsub, hd, htake, hdrop]
    cases hit.any (fun m => m.lock > 0) <;> simp
  simp only [getFreeSlotAndLock, checkAllocationSize, hs, decide_true, if_true, ha]
  cases hit.any (fun m => m.lock > 0) <;> simp [grant, newSlot, getNextId]

/-- What holds of every slot that the cache hands out, whatever state it is in. -/
structure Granted (c : DataCache) (size : ℕ) (c' : DataCache) (slot : CacheMeta) : Prop where
  split : ∃ gone kept, c.metas = gone ++ kept ∧ (∀ m ∈ gone, m.lock = 0) ∧
    c'.metas = kept ++ [slot]
  ptr : slot.ptr = c.nextPtr
  nextPtr : c'.nextPtr = c.nextPtr + 1
  cacheSize : c'.cacheSize = c.cacheSize
  addr : slot.addr = if Word.add c.curPointer size > c.cacheSize then 0 else c.curPointer
  size : slot.size = size
  lock : slot.lock = 1

theorem getFree_outcome (c : DataCache) (size timeMillis : ℕ) :
    c.getFreeSlotAndLock size timeMillis = (c, none) ∧ (c.cacheSize < size ∨ ∃ m ∈ c.metas, 0 < m.lock) ∨
    ∃ c' slot, c.getFreeSlotAndLock size timeMillis = (c', some slot) ∧ Granted c size c' slot ∧
      size ≤ c.cacheSize ∧ c'.curPointer = Word.add slot.addr size := by
  by_cases hs : c.checkAllocationSize size = true
  · simp only [getFreeSlotAndLock, hs, if_true, allocateSlot, cleanOldSlots]
    generalize hst : (if Word.add c.curPointer size > c.cacheSize then 0 else c.curPointer) = start
    generalize lastDel (Word.sub (Word.add start size) size) (Word.add start size) 0 false 0 c.metas = del
    by_cases hl : (c.metas.take del).any (fun m => m.lock > 0) = true
    · left
      obtain ⟨m, hm, hlock⟩ := List.any_eq_true.mp hl
      exact ⟨by simp [hl], .inr ⟨m, List.mem_of_mem_take hm, by simpa using hlock⟩⟩
    · right
      simp only [hl, if_false, if_true, Bool.false_eq_true]
      refine ⟨_, _, rfl, ?_, of_decide_eq_true hs, rfl⟩
      constructor
      · refine ⟨c.metas.take del, c.metas.drop del, (List.take_append_drop _ _).symm, ?_, rfl⟩
        intro m hm
        have hno : ¬ ∃ m ∈ c.metas.take del, decide (m.lock > 0) = true := by
          simpa only [List.any_eq_true] using hl
        simp only [decide_eq_true_eq, not_exists, not_and] at hno
        have := hno m hm
        omega
      · rfl
      · rfl
      · rfl
      · exact hst.symm
      · rfl
      · rfl
  · left
    simp only [checkAllocationSize, decide_eq_true_eq] at hs
    exact ⟨by simp [getFreeSlotAndLock, checkAllocationSize, hs], .inl (by omega)⟩

theorem getFree_cases (c : DataCache) (size timeMillis : ℕ) :
    c.getFreeSlotAndLock size timeMillis = (c, none) ∨
    ∃ c' slot, c.getFreeSlotAndLock size timeMillis = (c', some slot) ∧ Granted c size c' slot := by
  obtain ⟨hn, -⟩ | ⟨c', slot, he, hg, -⟩ := getFree_outcome c size timeMillis
  · exact .inl hn
  · exact .inr ⟨c', slot, he, hg⟩

end Asapo.Receiver.CacheEviction
