import Asapo.Receiver.DataServer

namespace Asapo.Receiver.ServedData

open Payload DataCache CacheEviction CacheLaps CacheSafety CacheLocks DataServer RequestHandlerReceiveData
open Transition Interleaving

variable {n m : ℕ} {b t : Shared n}

def Listed (b : Shared n) (p addr size : ℕ) : Prop :=
  ∃ x ∈ b.cache.metas, x.ptr = p ∧ x.addr = addr ∧ x.size = size

/-- The listed slots begin with what has been received into them. -/
structure Filled (b : Shared n) : Prop where
  laps : LapOrder b.cache
  fresh : ∀ p, b.cache.nextPtr ≤ p → b.received p = []
  fits : ∀ x ∈ b.cache.metas, (b.received x.ptr).length ≤ x.size
  content : ∀ x ∈ b.cache.metas,
    Memory.slice b.receiver.memory x.addr (b.received x.ptr).length = b.received x.ptr

structure Receiving (b : Shared n) : Prop where
  opened : ∀ k, (b.receiver.connections k).stage = .opened → (b.receiver.connections k).socket = []
  socket : ∀ k p, (b.receiver.connections k).stage = .receiving p →
    (b.receiver.connections k).socket = b.received p
  listed : ∀ k p, (b.receiver.connections k).stage = .receiving p →
    Listed b p (b.receiver.connections k).dataPtr (b.receiver.connections k).size
  single : ∀ j k p, (b.receiver.connections j).stage = .receiving p →
    (b.receiver.connections k).stage = .receiving p → j = k

def Serves (config : Config) (b : Shared n) : Worker → Prop
  | .invalid h _ code => checkRequest config.rdsApiVersion h = some code
  | .getSlotAndLock h _ | .noData h => checkRequest config.rdsApiVersion h = none
  | .serving h _ slot before sent todo =>
    checkRequest config.rdsApiVersion h = none ∧ slot.id = h.dataId ∧ slot.size = h.dataSize ∧
    Listed b slot.ptr slot.addr slot.size ∧ before <+: b.received slot.ptr ∧
    (sent <+: before ∨ before <+: sent) ∧ sent.length ≤ slot.size ∧
    (.slotData ∈ todo ∨ sent.length = slot.size)
  | _ => True

/-- Data is sent only for a valid request, with the id and the size that it asks for. It starts
with what had been received when the slot was locked, and is just that if it was complete. -/
def Answered (config : Config) (a : Answer) : Prop :=
  match a.slot with
  | some slot => a.code = .noError ∧ checkRequest config.rdsApiVersion a.header = none ∧
      slot.id = a.header.dataId ∧ a.data.length = a.header.dataSize ∧ a.before <+: a.data ∧
      (a.before.length = a.header.dataSize → a.data = a.before)
  | none => a.data = [] ∧
      (checkRequest config.rdsApiVersion a.header).getD .noData = a.code

structure Inv (config : Config) (s : Run n m) : Prop where
  locked : Locked s
  filled : Filled s.shared
  receiving : Receiving s.shared
  serves : ∀ i, Serves config s.shared (s.threads i)
  answered : ∀ a ∈ s.shared.answers, Answered config a

/-- What a thread of the data server relies on while it holds a slot. -/
structure Later (b t : Shared n) : Prop where
  listed : ∀ p addr size, p ∈ b.holders → Listed b p addr size → Listed t p addr size
  received : ∀ p, b.received p <+: t.received p

theorem Later.set (h : Later b t) (k : Fin n) (c : Payload.Connection) : Later b (t.set k c) := ⟨h.listed, h.received⟩

theorem Serves.later {config : Config} {w : Worker} (h : Serves config b w)
    (hw : ∀ slot, w.slot? = some slot → slot.ptr ∈ b.holders) (hl : Later b t) : Serves config t w := by
  cases w with
  | serving hd source slot before sent todo =>
    obtain ⟨hv, hid, hsize, hlist, hbefore, hrest⟩ := h
    exact ⟨hv, hid, hsize, hl.listed _ _ _ (hw slot rfl) hlist, hbefore.trans (hl.received _), hrest⟩
  | _ => exact h

def place (x : CacheMeta) : ℕ × ℕ × ℕ := (x.ptr, x.addr, x.size)

theorem map_place_release (p : ℕ) (ms : List CacheMeta) :
    (ms.map (releaseSlot p)).map place = ms.map place := by
  rw [List.map_map]
  refine List.map_congr_left (fun x _ => ?_)
  simp only [Function.comp_apply, releaseSlot]
  split <;> rfl

theorem map_place_lockForRead (c : DataCache) (id dataSize : ℕ) (ms : List CacheMeta) :
    (c.lockForRead id dataSize ms).1.map place = ms.map place := by
  obtain hn | ⟨front, x, back, hms, hr⟩ := lockForRead_cases c id dataSize ms
  · rw [hn]
  · rw [hr, hms]
    simp [place]

structure Relocked (c c' : DataCache) : Prop where
  places : c'.metas.map place = c.metas.map place
  next : c'.nextPtr = c.nextPtr
  laps : LapOrder c → LapOrder c'

theorem relocked_unlock (c : DataCache) (p : ℕ) : Relocked c (c.unlockSlot p) :=
  ⟨map_place_release p c.metas, rfl, fun h => lapOrder_of_ranges h (map_range_release p _)⟩

theorem relocked_getSlot {c c' : DataCache} {id dataSize : ℕ} {slot : CacheMeta}
    (h : c.getSlotToReadAndLock id dataSize = (c', some slot)) : Relocked c c' := by
  have hc : c' = (c.getSlotToReadAndLock id dataSize).1 := by rw [h]
  subst hc
  exact ⟨map_place_lockForRead c id dataSize c.metas, rfl,
    fun h => lapOrder_of_ranges h (map_range_lockForRead id dataSize _)⟩

theorem Relocked.mem {c c' : DataCache} (h : Relocked c c') {x : CacheMeta} (hx : x ∈ c'.metas) :
    ∃ y ∈ c.metas, y.ptr = x.ptr ∧ y.addr = x.addr ∧ y.size = x.size := by
  have hp : place x ∈ c.metas.map place := h.places ▸ List.mem_map_of_mem hx
  obtain ⟨y, hy, he⟩ := List.mem_map.mp hp
  simp only [place, Prod.mk.injEq] at he
  exact ⟨y, hy, he⟩

theorem Relocked.symm_mem {c c' : DataCache} (h : Relocked c c') {y : CacheMeta} (hy : y ∈ c.metas) :
    ∃ x ∈ c'.metas, x.ptr = y.ptr ∧ x.addr = y.addr ∧ x.size = y.size := by
  have hp : place y ∈ c'.metas.map place := h.places ▸ List.mem_map_of_mem hy
  obtain ⟨x, hx, he⟩ := List.mem_map.mp hp
  simp only [place, Prod.mk.injEq] at he
  exact ⟨x, hx, he⟩

theorem later_relocked (hr : Relocked b.cache t.cache) (hd : t.received = b.received) : Later b t where
  listed := by
    rintro p addr size - ⟨y, hy, rfl, rfl, rfl⟩
    exact hr.symm_mem hy
  received := fun p => by rw [hd]

theorem filled_relocked (h : Filled b) (hr : Relocked b.cache t.cache) (hd : t.received = b.received)
    (hm : t.receiver.memory = b.receiver.memory) : Filled t where
  laps := hr.laps h.laps
  fresh := fun p hp => by
    rw [hd]
    exact h.fresh p (hr.next ▸ hp)
  fits := by
    intro x hx
    obtain ⟨y, hy, hp, -, hs⟩ := hr.mem hx
    rw [hd, ← hp, ← hs]
    exact h.fits y hy
  content := by
    intro x hx
    obtain ⟨y, hy, hp, ha, -⟩ := hr.mem hx
    rw [hd, hm, ← hp, ← ha]
    exact h.content y hy

theorem Receiving.later (h : Receiving b)
    (hh : ∀ k p, (b.receiver.connections k).stage = .receiving p → p ∈ b.holders) (hl : Later b t)
    (hc : t.receiver.connections = b.receiver.connections) (hd : t.received = b.received) :
    Receiving t where
  opened := hc ▸ h.opened
  socket := hc ▸ hd ▸ h.socket
  listed := fun k p hst => by
    rw [hc] at hst ⊢
    exact hl.listed _ _ _ (hh k p hst) (h.listed k p hst)
  single := hc ▸ h.single

theorem Receiving.set (h : Receiving b) {k : Fin n} {c : Payload.Connection} (ho : c.stage = .opened → c.socket = [])
    (hs : ∀ p, c.stage = .receiving p → c.socket = b.received p ∧ Listed b p c.dataPtr c.size ∧
      ∀ j, j ≠ k → (b.receiver.connections j).stage ≠ .receiving p) : Receiving (b.set k c) where
  opened := forall_set (P := fun d => d.stage = .opened → d.socket = []) ho h.opened
  socket := forall_set (P := fun d => ∀ p, d.stage = .receiving p → d.socket = b.received p)
    (fun p hp => (hs p hp).1) h.socket
  listed := forall_set (P := fun d => ∀ p, d.stage = .receiving p → Listed b p d.dataPtr d.size)
    (fun p hp => (hs p hp).2.1) h.listed
  single := by
    intro i j p hi hj
    by_contra hne
    refine pairs_set (R := fun a b => ∀ p, a.stage = .receiving p → b.stage ≠ .receiving p) ?_ ?_ ?_ i j hne p hi hj
    · exact fun a b hab p hb ha => hab p ha hb
    · exact fun j hj p hp => (hs p hp).2.2 j hj
    · exact fun i j hij p hi hj => hij (h.single i j p hi hj)

theorem filled_set {k : Fin n} {c : Payload.Connection} (h : Filled b) : Filled (b.set k c) :=
  ⟨h.laps, h.fresh, h.fits, h.content⟩

section Granted

variable {c' : DataCache} {slot : CacheMeta} {size : ℕ}

theorem filled_granted (h : Filled b) (hg : Granted b.cache size c' slot) (hl : LapOrder c')
    (holders : List ℕ) : Filled (b.relist c' holders) := by
  obtain ⟨gone, kept, hm, -, hk⟩ := hg.split
  have hnew : b.received slot.ptr = [] := h.fresh _ hg.ptr.ge
  have hold : ∀ x ∈ c'.metas, x ∈ b.cache.metas ∨ x = slot := by
    intro x hx
    rw [hk, List.mem_append, List.mem_singleton] at hx
    exact hx.imp_left (fun hx => by simp [hm, hx])
  constructor
  · exact hl
  · intro p hp
    have hn : c'.nextPtr = b.cache.nextPtr + 1 := hg.nextPtr
    have hp' : c'.nextPtr ≤ p := hp
    exact h.fresh p (by omega)
  · intro x hx
    change (b.received x.ptr).length ≤ x.size
    obtain hx | rfl := hold x hx
    · exact h.fits x hx
    · simp [hnew]
  · intro x hx
    change Memory.slice b.receiver.memory x.addr (b.received x.ptr).length = b.received x.ptr
    obtain hx | rfl := hold x hx
    · exact h.content x hx
    · simp [hnew]

theorem later_granted (ha : Accounted b.receiver.shared) (hg : Granted b.cache size c' slot)
    (holders : List ℕ) : Later b (b.relist c' holders) where
  listed := by
    rintro p addr size hp ⟨x, hx, rfl, rfl, rfl⟩
    obtain ⟨gone, kept, hm, hgone, hk⟩ := hg.split
    exact ⟨x, by simp [hk, mem_kept ha hm hgone hx hp], rfl, rfl, rfl⟩
  received := fun p => List.prefix_rfl

end Granted

section Written

variable {x : CacheMeta} {chunk : Bytes}

theorem apart_of_ne {c : DataCache} {y : CacheMeta} (h : LapOrder c) (hy : y ∈ c.metas) (hx : x ∈ c.metas)
    (hne : y ≠ x) : Apart y x := by
  have hsymm : Std.Symm Apart := ⟨fun a b hab => by unfold Apart at *; omega⟩
  exact (rangesSafe_of_laps h).apart.forall hy hx hne

theorem filled_written (h : Filled b) (ha : Accounted b.receiver.shared) (hx : x ∈ b.cache.metas)
    (hl : (b.received x.ptr).length + chunk.length ≤ x.size) :
    Filled (b.write x.ptr (x.addr + (b.received x.ptr).length) chunk) := by
  have hsame : ∀ y ∈ b.cache.metas, y.ptr = x.ptr → y = x := fun y hy he =>
    List.inj_on_of_nodup_map ha.distinct hy hx he
  have hapart : ∀ y ∈ b.cache.metas, y.ptr ≠ x.ptr → Apart y x := fun y hy hne =>
    apart_of_ne h.laps hy hx (fun he => hne (he ▸ rfl))
  constructor
  · exact h.laps
  · intro p hp
    have hlt : x.ptr < b.cache.nextPtr := ha.fresh x hx
    have hp' : b.cache.nextPtr ≤ p := hp
    change Function.update b.received x.ptr _ p = []
    rw [Function.update_of_ne (by omega)]
    exact h.fresh p hp
  · intro y hy
    change (Function.update b.received x.ptr _ y.ptr).length ≤ y.size
    by_cases he : y.ptr = x.ptr
    · rw [he, Function.update_self, hsame y hy he, List.length_append]
      exact hl
    · rw [Function.update_of_ne he]
      exact h.fits y hy
  · intro y hy
    change Memory.slice (Memory.write b.receiver.memory _ chunk) y.addr
      (Function.update b.received x.ptr _ y.ptr).length = Function.update b.received x.ptr _ y.ptr
    by_cases he : y.ptr = x.ptr
    · rw [he, Function.update_self, hsame y hy he, List.length_append, Memory.slice_write_append,
        h.content x hx]
    · rw [Function.update_of_ne he]
      have hd := hapart y hy he
      have hy' := h.fits y hy
      unfold Apart at hd
      rw [Memory.slice_write_apart _ _ _ _ _ (by omega)]
      exact h.content y hy

theorem receiving_written (h : Receiving b) {k : Fin n} {p offset : ℕ}
    (hst : (b.receiver.connections k).stage = .receiving p) :
    Receiving ((b.write p offset chunk).set k
      { b.receiver.connections k with socket := (b.receiver.connections k).socket ++ chunk }) := by
  set t := (b.write p offset chunk).set k
    { b.receiver.connections k with socket := (b.receiver.connections k).socket ++ chunk }
  have hself : t.receiver.connections k =
      { b.receiver.connections k with socket := (b.receiver.connections k).socket ++ chunk } := set_self _ _ _
  have hother : ∀ j, j ≠ k → t.receiver.connections j = b.receiver.connections j :=
    fun j hj => set_other _ _ hj
  have hstage : ∀ j, (t.receiver.connections j).stage = (b.receiver.connections j).stage := by
    intro j
    by_cases hj : j = k
    · rw [hj, hself]
    · rw [hother j hj]
  constructor
  · intro j hj
    have hne : j ≠ k := fun he => by simp [hstage, he, hst] at hj
    rw [hother j hne] at hj ⊢
    exact h.opened j hj
  · intro j q hj
    change _ = Function.update b.received p _ q
    rw [hstage] at hj
    by_cases he : j = k
    · subst he
      obtain rfl : p = q := by simpa [hst] using hj
      rw [hself, Function.update_self, h.socket j p hst]
    · have hq : q ≠ p := fun hq => he (h.single j k p (hq ▸ hj) hst)
      rw [hother j he, Function.update_of_ne hq]
      exact h.socket j q hj
  · intro j q hj
    rw [hstage] at hj
    have hl := h.listed j q hj
    by_cases he : j = k
    · subst he
      rw [hself]
      exact hl
    · rw [hother j he]
      exact hl
  · intro i j q hi hj
    rw [hstage] at hi hj
    exact h.single i j q hi hj

theorem later_written (p offset : ℕ) : Later b (b.write p offset chunk) where
  listed := fun _ _ _ _ h => h
  received := by
    intro q
    change b.received q <+: Function.update b.received p _ q
    by_cases hq : q = p
    · subst hq
      rw [Function.update_self]
      exact List.prefix_append _ _
    · rw [Function.update_of_ne hq]

end Written

/-- A slot is requested only if the request is wrap-safe. -/
def LayoutSafe (s : Run n m) : Interleaving.Event Action (Payload.Event n) m → Prop
  | .world (.prepare k _) =>
    needReceiveData (s.shared.receiver.connections k).header = true →
      WrapSafe s.shared.cache (s.shared.receiver.connections k).size
  | _ => True

instance (s : Run n m) (e : Interleaving.Event Action (Payload.Event n) m) : Decidable (LayoutSafe s e) := by
  unfold LayoutSafe
  split <;> infer_instance

variable {config : Config} {s : Run n m}

theorem receiver_world {e : Payload.Event n} (h : Inv config s) (hc : LayoutSafe s (.world e))
    (hm : Moved s.shared e t) : Filled t ∧ Receiving t ∧ Later s.shared t := by
  have hheld : ∀ k p, (s.shared.receiver.connections k).stage = .receiving p → p ∈ s.shared.holders :=
    fun k p hst => h.locked.receiving hst
  cases hm with
  | quiet hk hn ho =>
    exact ⟨filled_set h.filled, h.receiving.set ho (fun p hp => absurd hp (hn p)),
      ⟨fun _ _ _ _ hl => hl, fun _ => List.prefix_rfl⟩⟩
  | @granted k timeMillis c' slot hst hneed hg =>
    have hlaps : LapOrder (s.shared.cache.getFreeSlotAndLock
        (s.shared.receiver.connections k).size timeMillis).1 := lapOrder_getFree h.filled.laps (hc hneed)
    rw [hg] at hlaps
    obtain hn | ⟨c₁, slot₁, hg₁, hgr⟩ := getFree_cases s.shared.cache
      (s.shared.receiver.connections k).size timeMillis
    · cases hn.symm.trans hg
    cases hg₁.symm.trans hg
    have hlater := later_granted h.locked.accounted hgr (slot.ptr :: s.shared.holders)
    have hrec := h.receiving.later (t := s.shared.relist c' (slot.ptr :: s.shared.holders)) hheld hlater rfl rfl
    obtain ⟨gone, kept, -, -, hk⟩ := hgr.split
    refine ⟨filled_set (filled_granted h.filled hgr hlaps _), hrec.set (by simp) ?_, hlater.set _ _⟩
    rintro p ⟨⟩
    refine ⟨?_, ⟨slot, by simp [hk], rfl, rfl, hgr.size⟩, ?_⟩
    · exact (h.receiving.opened k hst).trans (h.filled.fresh _ hgr.ptr.ge).symm
    · -- the pointer is a new one
      intro j _ hj
      obtain ⟨x, hx, hp, -⟩ := h.receiving.listed j _ hj
      have hlt : x.ptr < s.shared.cache.nextPtr := h.locked.accounted.fresh x hx
      have hnew := hgr.ptr
      omega
  | @written k p chunk hst hl =>
    obtain ⟨x, hx, rfl, hxa, hxs⟩ := h.receiving.listed k p hst
    have hsock := h.receiving.socket k x.ptr hst
    rw [hsock, ← hxs] at hl
    have hfilled := filled_written h.filled h.locked.accounted hx hl
    rw [hxa, ← hsock] at hfilled
    exact ⟨filled_set hfilled, receiving_written h.receiving hst, (later_written _ _).set _ _⟩
  | @released k p stage hst hp hs =>
    have hr := relocked_unlock s.shared.cache p
    have hlater : Later s.shared (s.shared.relist (s.shared.cache.unlockSlot p) (s.shared.holders.erase p)) :=
      later_relocked hr rfl
    have hrec := h.receiving.later hheld hlater rfl rfl
    refine ⟨filled_set (filled_relocked h.filled hr rfl rfl), hrec.set ?_ ?_, hlater.set _ _⟩
    · obtain rfl | rfl := hs <;> simp
    · obtain rfl | rfl := hs <;> simp

theorem lockForRead_found {c : DataCache} {id dataSize : ℕ} {ms : List CacheMeta} {slot : CacheMeta}
    (h : (c.lockForRead id dataSize ms).2 = some slot) : slot.id = id ∧ slot.size = dataSize := by
  induction ms with
  | nil => cases h
  | cons x ms ih =>
    rw [lockForRead] at h
    split at h
    · rename_i hid
      split at h
      · cases h
      · rename_i hsize
        cases h
        exact ⟨hid, (not_not.mp (not_or.mp hsize).1).symm⟩
    · exact ih h

theorem getSlot_found {c c' : DataCache} {id dataSize : ℕ} {slot : CacheMeta}
    (h : c.getSlotToReadAndLock id dataSize = (c', some slot)) :
    slot.id = id ∧ slot.size = dataSize ∧ slot ∈ c'.metas := by
  unfold getSlotToReadAndLock at h
  have hfound : (c.lockForRead id dataSize c.metas).2 = some slot := congrArg Prod.snd h
  obtain ⟨hid, hsize⟩ := lockForRead_found hfound
  obtain hn | ⟨front, x, back, -, hr⟩ := lockForRead_cases c id dataSize c.metas
  · rw [hn] at hfound
    cases hfound
  · rw [hr] at h
    cases h
    exact ⟨hid, hsize, by simp⟩

theorem receiver_relocked (hf : Filled b) (hr : Receiving b)
    (hh : ∀ k p, (b.receiver.connections k).stage = .receiving p → p ∈ b.holders)
    (hre : Relocked b.cache t.cache) (hd : t.received = b.received)
    (hm : t.receiver.memory = b.receiver.memory) (hc : t.receiver.connections = b.receiver.connections) :
    Filled t ∧ Receiving t ∧ Later b t := by
  have hl := later_relocked hre hd
  exact ⟨filled_relocked hf hre hd hm, hr.later hh hl hc hd, hl⟩

theorem receiver_thread {w w' : Worker} (hf : Filled b) (hr : Receiving b)
    (hh : ∀ k p, (b.receiver.connections k).stage = .receiving p → p ∈ b.holders)
    (ha : Acted b w t w') : Filled t ∧ Receiving t ∧ Later b t := by
  cases ha with
  | quiet hrec hd hw =>
    have hre : Relocked b.cache t.cache := by
      rw [Shared.cache, Shared.cache, hrec]
      exact ⟨rfl, rfl, id⟩
    exact receiver_relocked hf hr hh hre hd (by rw [hrec]) (by rw [hrec])
  | locked hw hg => exact receiver_relocked hf hr hh (relocked_getSlot hg) rfl rfl rfl
  | unlocked hw => exact receiver_relocked hf hr hh (relocked_unlock _ _) rfl rfl rfl

theorem agrees_transfer {memory : ℕ → UInt8} {addr : ℕ} {before sent : Bytes}
    (hb : before = Memory.slice memory addr before.length) (h : sent <+: before ∨ before <+: sent) (count : ℕ) :
    sent ++ Memory.slice memory (addr + sent.length) count <+: before ∨
      before <+: sent ++ Memory.slice memory (addr + sent.length) count := by
  obtain h | h := h
  · have hs : sent = Memory.slice memory addr sent.length := slice_of_isPrefix (hb ▸ h)
    have he : sent ++ Memory.slice memory (addr + sent.length) count =
        Memory.slice memory addr (sent.length + count) := by
      rw [Memory.slice_add, ← hs]
    rw [he, hb]
    obtain hle | hle := Nat.le_total (sent.length + count) before.length
    · exact .inl (Memory.slice_isPrefix _ _ _ hle)
    · exact .inr (Memory.slice_isPrefix _ _ _ hle)
  · exact .inr (h.trans (List.prefix_append _ _))

theorem serves_transfer {h : GenericRequestHeader} {source : ℕ} {slot : CacheMeta} {before sent : Bytes}
    {todo : List Part} (hf : Filled b)
    (hw : Serves config b (.serving h source slot before sent (.slotData :: todo))) (count : ℕ) {sent' : Bytes}
    (hs : sent' = sent ++ Memory.slice b.receiver.memory (slot.addr + sent.length)
      (min count (slot.size - sent.length))) :
    Serves config b (.serving h source slot before sent'
      (if sent'.length = slot.size then todo else .slotData :: todo)) := by
  obtain ⟨hv, hid, hsize, ⟨x, hx, hp, ha, hxs⟩, hbefore, hagree, hle, -⟩ := hw
  have hmem : before = Memory.slice b.receiver.memory slot.addr before.length := by
    have hc := hf.content x hx
    rw [hp, ha] at hc
    exact slice_of_isPrefix (hc.symm ▸ hbefore)
  refine ⟨hv, hid, hsize, ⟨x, hx, hp, ha, hxs⟩, hbefore, hs ▸ agrees_transfer hmem hagree _, ?_, ?_⟩
  · rw [hs, List.length_append, Memory.slice_length]
    omega
  · by_cases hfull : sent'.length = slot.size
    · exact .inr hfull
    · exact .inl (by simp [hfull])

theorem answered_served {h : GenericRequestHeader} {source : ℕ} {slot : CacheMeta} {before sent : Bytes}
    (hf : Filled b) (hw : Serves config b (.serving h source slot before sent [])) :
    Answered config ⟨h, .noError, sent, some slot, before⟩ := by
  obtain ⟨hv, hid, hsize, ⟨x, hx, hp, -, hs⟩, hbefore, hagree, hle, hdone⟩ := hw
  have hfull : sent.length = slot.size := hdone.resolve_left (by simp)
  have hfits := hf.fits x hx
  rw [hp, hs] at hfits
  have hlen := hbefore.length_le
  have hstart : before <+: sent := by
    obtain hagree | hagree := hagree
    · rw [hagree.eq_of_length_le (by omega)]
    · exact hagree
  exact ⟨rfl, hv, hid, hfull.trans hsize, hstart,
    fun hall => (hstart.eq_of_length (by dsimp only at hall; omega)).symm⟩

theorem serves_lock {h : GenericRequestHeader} {source : ℕ} {w' : Worker}
    (hw : checkRequest config.rdsApiVersion h = none)
    (hs : step config b (.getSlotAndLock h source) .proceed = some (t, w')) :
    Serves config t w' ∧ t.answers = b.answers := by
  rw [DataServer.step] at hs
  simp only [Shared.getSlotToReadAndLock] at hs
  cases hg : b.cache.getSlotToReadAndLock h.dataId h.dataSize with
  | mk c' found =>
    rw [hg] at hs
    cases found with
    | none =>
      cases hs
      exact ⟨hw, rfl⟩
    | some slot =>
      cases hs
      obtain ⟨hid, hsize, hmem⟩ := getSlot_found hg
      refine ⟨⟨hw, hid, hsize, ⟨slot, hmem, rfl, rfl, rfl⟩, List.prefix_rfl, .inl List.nil_prefix,
        Nat.zero_le _, .inl ?_⟩, rfl⟩
      cases config.net <;> simp [NetServer.parts]

theorem answers_append {a : Answer} (ha : Answered config a) :
    ∀ x ∈ (b.answer a).answers, x ∈ b.answers ∨ Answered config x := by
  intro x hx
  obtain hx | hx := List.mem_append.mp hx
  · exact .inl hx
  · exact .inr (List.mem_singleton.mp hx ▸ ha)

theorem answers_handleAfterError (b : Shared n) (net : NetServer) (source : ℕ) :
    (b.handleAfterError net source).answers = b.answers := by
  cases net <;> rfl

theorem serves_step {w w' : Worker} {a : Action} (hf : Filled b) (hw : Serves config b w)
    (hs : DataServer.step config b w a = some (t, w')) :
    Serves config t w' ∧ ∀ x ∈ t.answers, x ∈ b.answers ∨ Answered config x := by
  have hsame : ∀ x ∈ b.answers, x ∈ b.answers ∨ Answered config x := fun x hx => .inl hx
  cases w with
  | idle =>
    cases a with
    | take h source =>
      cases hs
      exact ⟨trivial, hsame⟩
    | _ => cases hs
  | checkRequest h source =>
    cases a with
    | proceed =>
      rw [DataServer.step] at hs
      split at hs <;> rename_i hcheck <;> cases hs <;> exact ⟨hcheck, hsame⟩
    | _ => cases hs
  | invalid h source code =>
    have hcode : checkRequest config.rdsApiVersion h = some code := hw
    cases a with
    | send fault =>
      cases fault <;> cases hs
      · exact ⟨trivial, answers_append ⟨rfl, by rw [hcode]; rfl⟩⟩
      · exact ⟨trivial, hsame⟩
    | _ => cases hs
  | closeInvalid source =>
    cases a with
    | proceed =>
      cases hs
      exact ⟨trivial, answers_handleAfterError b config.net source ▸ hsame⟩
    | _ => cases hs
  | getSlotAndLock h source =>
    cases a with
    | proceed =>
      obtain ⟨hserves, hanswers⟩ := serves_lock hw hs
      exact ⟨hserves, hanswers ▸ hsame⟩
    | _ => cases hs
  | noData h =>
    have hvalid : checkRequest config.rdsApiVersion h = none := hw
    cases a with
    | send fault =>
      cases fault <;> cases hs
      · exact ⟨trivial, answers_append ⟨rfl, by rw [hvalid]; rfl⟩⟩
      · exact ⟨trivial, hsame⟩
    | _ => cases hs
  | serving h source slot before sent todo =>
    cases todo with
    | nil =>
      cases a with
      | proceed =>
        cases hs
        exact ⟨trivial, answers_append (answered_served hf hw)⟩
      | _ => cases hs
    | cons part todo =>
      cases part <;> cases a <;> try cases hs
      · rename_i fault
        obtain ⟨hv, hid, hsize, hl, hbefore, hagree, hle, hdone⟩ := hw
        cases fault
        · exact ⟨⟨hv, hid, hsize, hl, hbefore, hagree, hle, hdone.imp_left (by simp)⟩, hsame⟩
        · exact ⟨trivial, hsame⟩
      · exact ⟨serves_transfer hf hw _ rfl, hsame⟩
      · exact ⟨trivial, hsame⟩
  | handleAfterError source slot =>
    cases a with
    | proceed =>
      cases hs
      exact ⟨trivial, answers_handleAfterError b config.net source ▸ hsame⟩
    | _ => cases hs
  | unlockSlot slot =>
    cases a with
    | proceed =>
      cases hs
      exact ⟨trivial, hsame⟩
    | _ => cases hs

theorem answers_moved {e : Payload.Event n} (h : Moved b e t) : t.answers = b.answers := by
  cases h <;> rfl

theorem inv_step (s : Run n m) (e : Interleaving.Event Action (Payload.Event n) m) (u : Run n m)
    (h : Inv config s) (hc : LayoutSafe s e) (hu : next config s e = some u) : Inv config u := by
  have hlocked := locked_step s e u h.locked hu
  have hheld : ∀ i slot, (s.threads i).slot? = some slot → slot.ptr ∈ s.shared.holders :=
    fun i slot hi => h.locked.serving hi
  cases e with
  | thread i a =>
    obtain ⟨⟨t, w⟩, hx, rfl⟩ := Option.map_eq_some_iff.mp hu
    obtain ⟨hf, hr, hl⟩ := receiver_thread h.filled h.receiving (fun k p hst => h.locked.receiving hst)
      (acted_of_step hx)
    obtain ⟨hserves, hanswers⟩ := serves_step h.filled (h.serves i) hx
    refine ⟨hlocked, hf, hr, ?_, fun x hx => (hanswers x hx).elim (h.answered x) id⟩
    exact forall_update (fun j => (h.serves j).later (hheld j) hl) i hserves
  | world e =>
    obtain ⟨t, hx, rfl⟩ := Option.map_eq_some_iff.mp hu
    have hm := moved_of_world hx
    obtain ⟨hf, hr, hl⟩ := receiver_world h hc hm
    exact ⟨hlocked, hf, hr, fun i => (h.serves i).later (hheld i) hl, answers_moved hm ▸ h.answered⟩

theorem inv_start {cacheSize keepUnlocked rand : ℕ} {cache : DataCache}
    (hc : create cacheSize keepUnlocked rand = some cache) (memory : ℕ → UInt8)
    (h : GenericRequestHeader) : Inv config (start n m cache memory h) where
  locked := locked_start hc memory h
  filled := ⟨lapOrder_create hc, fun _ _ => rfl, fun _ _ => Nat.zero_le _, fun _ _ => rfl⟩
  receiving := by
    constructor <;> simp [start, State.initial]
  serves := fun _ => trivial
  answered := by simp [start]

/-- As long as every request for a slot is wrap-safe, a consumer that asks the data server gets
the bytes that were received into the slot with that id and size, in whatever order the
connections and the threads take turns. A slot that was still being received when it was locked
is sent as well, and only what had arrived is certain then. -/
theorem served_data_received (config : Config) (cacheSize keepUnlocked rand : ℕ) (cache : DataCache)
    (hc : create cacheSize keepUnlocked rand = some cache) (memory : ℕ → UInt8)
    (h : GenericRequestHeader) (n m : ℕ) (events : List (Interleaving.Event Action (Payload.Event n) m))
    (hs : Along (next config) LayoutSafe (start n m cache memory h) events) :
    Always (next config) (fun s => ∀ a ∈ s.shared.answers, Answered config a)
      (start n m cache memory h) events :=
  always_of_along (fun _ hi => hi.answered) inv_step _ events (inv_start hc memory h) hs

theorem served_data_received_half :
    create 8 0 1 = some ⟨8, 0, 2, 0, [], 1⟩ ∧
    Along (next tcpConfig) LayoutSafe (start 1 2 ⟨8, 0, 2, 0, [], 1⟩ (fun _ => 0) fileHeader) (servingEvents 0 0 1) ∧
    ∃ s, exec (next tcpConfig) (start 1 2 ⟨8, 0, 2, 0, [], 1⟩ (fun _ => 0) fileHeader) (servingEvents 0 0 1) = some s ∧
      s.shared.answers.map (fun a => (a.code, a.before, a.data)) = [(.noError, [1, 2], [1, 2, 3, 4])] ∧
      ∀ a ∈ s.shared.answers, Answered tcpConfig a := by
  have hs : Along (next tcpConfig) LayoutSafe
      (start 1 2 ⟨8, 0, 2, 0, [], 1⟩ (fun _ => 0) fileHeader) (servingEvents 0 0 1) := by decide +kernel
  have hend : (exec (next tcpConfig) (start 1 2 ⟨8, 0, 2, 0, [], 1⟩ (fun _ => 0) fileHeader)
      (servingEvents 0 0 1)).any (fun s => decide (s.shared.answers.map (fun a => (a.code, a.before, a.data)) =
        [(.noError, [1, 2], [1, 2, 3, 4])])) = true := by decide +kernel
  obtain ⟨s, he, ha⟩ := Option.any_eq_true _ _ |>.mp hend
  have hrun := served_data_received tcpConfig 8 0 1 ⟨8, 0, 2, 0, [], 1⟩ (by decide) (fun _ => 0) fileHeader 1 2
    (servingEvents 0 0 1) hs
  exact ⟨by decide, hs, s, he, of_decide_eq_true ha, always_exec _ s _ hrun he⟩

end Asapo.Receiver.ServedData
