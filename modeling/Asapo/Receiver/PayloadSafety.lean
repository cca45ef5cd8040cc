import Asapo.Receiver.Payload

namespace Asapo.Receiver.Payload

open DataCache CacheEviction CacheLaps CacheSafety CacheLocks RequestHandlerReceiveData Transition

variable {n : ℕ} {s : State n} {k : Fin n} {c : Connection}

def Disjoint (a n b m : ℕ) : Prop := n = 0 ∨ m = 0 ∨ a + n ≤ b ∨ b + m ≤ a

instance (a n b m : ℕ) : Decidable (Disjoint a n b m) :=
  inferInstanceAs (Decidable (_ ∨ _ ∨ _ ∨ _))

namespace Connection

def Receiving (c : Connection) : Prop := ∃ slot, c.stage = .receiving slot

/-- The payload is in the cache without a lock and a handler has yet to read it. -/
def Unread (c : Connection) : Prop :=
  c.stage = .received ∧ c.reader.isSome = true ∧ needReceiveData c.header = true

instance (c : Connection) : Decidable c.Unread := inferInstanceAs (Decidable (_ ∧ _ ∧ _))

def InUse (c : Connection) : Prop := c.Receiving ∨ c.Unread

structure Consistent (c : Connection) (memory : ℕ → UInt8) : Prop where
  readPart : c.stored <+: c.socket
  opened : c.stage = .opened → c.socket = [] ∧ c.stored = []
  receiving : c.Receiving → needReceiveData c.header = true ∧ c.socket.length ≤ c.size ∧ c.stored = []
  inMemory : c.InUse → Memory.slice memory c.dataPtr c.socket.length = c.socket
  complete : c.stage = .received → needReceiveData c.header = true → c.socket.length = c.size
  skipped : c.stage = .received → needReceiveData c.header = false → c.socket = []
  stored : c.stage = .stored → c.stored = c.socket ∧ c.socket.length = c.size

end Connection

def nextStart (c : DataCache) (size : ℕ) : ℕ :=
  if Word.add c.curPointer size > c.cacheSize then 0 else c.curPointer

/-- No payload reaches a handler unless it was received. A slot is requested only if the
request is wrap-safe and does not reach the unlocked bytes that another request has yet
to read. A payload read as a C string ends at its size. -/
def StepSafe (s : State n) : Event n → Prop
  | .prepare k _ =>
    let c := s.connections k
    needReceiveData c.header = true → WrapSafe s.shared.cache c.size ∧
      ∀ j, j ≠ k → (s.connections j).Unread →
        Disjoint (nextStart s.shared.cache c.size) c.size (s.connections j).dataPtr (s.connections j).size
  | .read k _ =>
    let c := s.connections k
    (needReceiveData c.header = true ∨ c.size = 0) ∧
      (c.reader = some .terminated →
        (∀ i < c.size, s.memory (c.dataPtr + i) ≠ 0) ∧ s.memory (c.dataPtr + c.size) = 0)
  | _ => True

instance (s : State n) (l : Event n) : Decidable (StepSafe s l) :=
  match l with
  | .prepare _ _ => inferInstanceAs (Decidable (_ → _ ∧ ∀ _, _ → _ → _))
  | .read _ _ => inferInstanceAs (Decidable ((_ ∨ _) ∧ (_ → (∀ i < _, _) ∧ _)))
  | .openRequest _ _ _ _ => .isTrue trivial
  | .receive _ _ => .isTrue trivial
  | .unlock _ => .isTrue trivial
  | .finish _ => .isTrue trivial
  | .getSlotToReadAndLock _ _ => .isTrue trivial
  | .unlockSlot _ => .isTrue trivial

structure Inv (s : State n) : Prop where
  laps : LapOrder s.shared.cache
  accounted : Accounted s.shared
  readers : ∀ p, s.readers.count p ≤ s.shared.holders.count p
  held : ∀ k slot, (s.connections k).stage = .receiving slot →
    s.readers.count slot < s.shared.holders.count slot
  listed : ∀ k slot, (s.connections k).stage = .receiving slot → ∃ m ∈ s.shared.cache.metas,
    m.ptr = slot ∧ m.addr = (s.connections k).dataPtr ∧ m.size = (s.connections k).size
  single : ∀ j k slot, (s.connections j).stage = .receiving slot →
    (s.connections k).stage = .receiving slot → j = k
  apart : ∀ j k, j ≠ k → (s.connections j).InUse → (s.connections k).InUse →
    Disjoint (s.connections j).dataPtr (s.connections j).size
      (s.connections k).dataPtr (s.connections k).size
  consistent : ∀ k, (s.connections k).Consistent s.memory

theorem inv_initial {cacheSize keepUnlocked rand : ℕ} {cache : DataCache}
    (hc : create cacheSize keepUnlocked rand = some cache) (memory : ℕ → UInt8)
    (h : GenericRequestHeader) : Inv (State.initial cache memory h : State n) where
  laps := lapOrder_create hc
  accounted := accounted_empty hc
  readers := fun p => Nat.le_refl _
  held := by simp [State.initial]
  listed := by simp [State.initial]
  single := by simp [State.initial]
  apart := by simp [State.initial, Connection.InUse, Connection.Receiving, Connection.Unread]
  consistent := by
    intro k
    constructor <;>
      simp [State.initial, Connection.InUse, Connection.Receiving, Connection.Unread]

theorem disjoint_symm {a n b m : ℕ} (h : Disjoint a n b m) : Disjoint b m a n := by
  unfold Disjoint at *
  omega

theorem set_self (s : State n) (k : Fin n) (c : Connection) : (s.set k c).connections k = c :=
  if_pos rfl

theorem set_other (s : State n) {j k : Fin n} (c : Connection) (h : j ≠ k) :
    (s.set k c).connections j = s.connections j := if_neg h

/-- The pointer `p` is a locked slot with the bytes of `c`, and nobody else receives into it. -/
structure Owns (s : State n) (k : Fin n) (c : Connection) (p : ℕ) : Prop where
  held : s.readers.count p < s.shared.holders.count p
  listed : ∃ m ∈ s.shared.cache.metas, m.ptr = p ∧ m.addr = c.dataPtr ∧ m.size = c.size
  single : ∀ j, j ≠ k → (s.connections j).stage ≠ .receiving p

theorem Inv.owns (h : Inv s) {p : ℕ} (hst : (s.connections k).stage = .receiving p) :
    Owns s k (s.connections k) p where
  held := h.held k p hst
  listed := h.listed k p hst
  single := fun j hne hj => hne (h.single j k p hj hst)

theorem forall_set {P : Connection → Prop} (hk : P c) (hother : ∀ j, P (s.connections j)) (j : Fin n) :
    P ((s.set k c).connections j) := by
  by_cases he : j = k
  · subst he
    rw [set_self]
    exact hk
  · rw [set_other s c he]
    exact hother j

theorem pairs_set {R : Connection → Connection → Prop} (hsymm : ∀ a b, R a b → R b a)
    (hk : ∀ j, j ≠ k → R c (s.connections j)) (hother : ∀ i j, i ≠ j → R (s.connections i) (s.connections j))
    (i j : Fin n) (hne : i ≠ j) : R ((s.set k c).connections i) ((s.set k c).connections j) := by
  by_cases hik : i = k
  · subst hik
    rw [set_self, set_other s c hne.symm]
    exact hk j hne.symm
  · by_cases hjk : j = k
    · subst hjk
      rw [set_self, set_other s c hik]
      exact hsymm _ _ (hk i hik)
    · rw [set_other s c hik, set_other s c hjk]
      exact hother i j hne

theorem inv_set (h : Inv s) (hc : c.Consistent s.memory)
    (hr : ∀ p, c.stage = .receiving p → Owns s k c p)
    (hd : c.InUse → ∀ j, j ≠ k → (s.connections j).InUse →
      Disjoint c.dataPtr c.size (s.connections j).dataPtr (s.connections j).size) :
    Inv (s.set k c) where
  laps := h.laps
  accounted := h.accounted
  readers := h.readers
  held := forall_set (P := fun d => ∀ p, d.stage = .receiving p → s.readers.count p < s.shared.holders.count p)
    (fun p hp => (hr p hp).held) h.held
  listed := forall_set (P := fun d => ∀ p, d.stage = .receiving p → ∃ m ∈ s.shared.cache.metas,
      m.ptr = p ∧ m.addr = d.dataPtr ∧ m.size = d.size)
    (fun p hp => (hr p hp).listed) h.listed
  single := by
    intro i j p hi hj
    by_contra hne
    refine pairs_set (R := fun a b => ∀ p, a.stage = .receiving p → b.stage ≠ .receiving p) ?_ ?_ ?_ i j hne p hi hj
    · exact fun a b hab p hb ha => hab p ha hb
    · exact fun j hj p hp => (hr p hp).single j hj
    · exact fun i j hij p hi hj => hij (h.single i j p hi hj)
  apart := pairs_set (R := fun a b => a.InUse → b.InUse → Disjoint a.dataPtr a.size b.dataPtr b.size)
    (fun _ _ hab hb ha => disjoint_symm (hab ha hb)) (fun j hj hin => hd hin j hj) h.apart
  consistent := forall_set (P := fun d => d.Consistent s.memory) hc h.consistent

theorem inv_shared {shared : SharedCache} {readers : List ℕ} (h : Inv s)
    (hl : LapOrder shared.cache) (ha : Accounted shared)
    (hr : ∀ p, readers.count p ≤ shared.holders.count p)
    (hh : ∀ k slot, (s.connections k).stage = .receiving slot →
      readers.count slot < shared.holders.count slot)
    (hk : ∀ m ∈ s.shared.cache.metas, m.ptr ∈ s.shared.holders →
      ∃ m' ∈ shared.cache.metas, m'.ptr = m.ptr ∧ m'.addr = m.addr ∧ m'.size = m.size) :
    Inv { s with shared := shared, readers := readers } where
  laps := hl
  accounted := ha
  readers := hr
  held := hh
  listed := by
    intro k slot hst
    obtain ⟨m, hm, hp, hma, hms⟩ := h.listed k slot hst
    have hheld := h.held k slot hst
    have hpos : m.ptr ∈ s.shared.holders := List.count_pos_iff.mp (by rw [hp]; omega)
    obtain ⟨m', hm', hp', ha', hs'⟩ := hk m hm hpos
    exact ⟨m', hm', hp'.trans hp, ha'.trans hma, hs'.trans hms⟩
  single := h.single
  apart := h.apart
  consistent := h.consistent

theorem consistent_idle {memory : ℕ → UInt8} (h : c.stored <+: c.socket) :
    { c with stage := .idle : Connection }.Consistent memory := by
  constructor <;> simp [h, Connection.InUse, Connection.Receiving, Connection.Unread]

theorem inv_idle (h : Inv s) (hst : c.stored <+: c.socket) : Inv (s.set k { c with stage := .idle }) :=
  inv_set h (consistent_idle hst) (by simp)
    (by simp [Connection.InUse, Connection.Receiving, Connection.Unread])

theorem inv_openRequest {thresholdMb dataPtr : ℕ} {hd : GenericRequestHeader} {op : MetaIngestOp}
    {t : State n} (h : Inv s) (ht : s.openRequest thresholdMb k hd dataPtr op = some t) : Inv t := by
  unfold State.openRequest at ht
  split at ht
  · simp only [Option.ite_none_right_eq_some, Option.some.injEq] at ht
    obtain ⟨-, rfl⟩ := ht
    apply inv_set h
    · constructor <;> simp [Connection.InUse, Connection.Receiving, Connection.Unread]
    · simp
    · simp [Connection.InUse, Connection.Receiving, Connection.Unread]
  · cases ht

theorem inv_finish {t : State n} (h : Inv s) (ht : s.finish k = some t) : Inv t := by
  unfold State.finish at ht
  extract_lets c at ht
  split at ht
  · cases ht
  · cases ht
    exact inv_idle h (h.consistent k).readPart

/-- A slot that is handed out shares no byte with the slots that are being received into,
because those are locked and stay listed. -/
theorem disjoint_receiving {c' : DataCache} {slot : CacheMeta} {size : ℕ} (h : Inv s)
    (hg : Granted s.shared.cache size c' slot) (hsafe : RangesSafe c')
    (hr : (s.connections k).Receiving) :
    Disjoint slot.addr slot.size (s.connections k).dataPtr (s.connections k).size := by
  obtain ⟨p, hst⟩ := hr
  obtain ⟨m, hm, hp, hma, hms⟩ := h.listed k p hst
  obtain ⟨gone, kept, hmetas, hgone, hkept⟩ := hg.split
  have hheld := h.held k p hst
  have hpos : m.ptr ∈ s.shared.holders := List.count_pos_iff.mp (by rw [hp]; omega)
  have hmk := mem_kept h.accounted hmetas hgone hm hpos
  have hap := hsafe.apart
  rw [hkept, List.pairwise_append] at hap
  have := hap.2.2 m hmk slot (by simp)
  unfold Apart at this
  unfold Disjoint
  omega

theorem not_receiving_next (h : Inv s) (j : Fin n) :
    (s.connections j).stage ≠ .receiving s.shared.cache.nextPtr := by
  intro hj
  obtain ⟨m, hm, hp, -, -⟩ := h.listed j _ hj
  have := h.accounted.fresh m hm
  omega

theorem inv_granted {c' : DataCache} {slot : CacheMeta} (h : Inv s)
    (hst : (s.connections k).stage = .opened) (hneed : needReceiveData (s.connections k).header = true)
    (hg : Granted s.shared.cache (s.connections k).size c' slot) (hl : LapOrder c')
    (ha : Accounted ⟨c', slot.ptr :: s.shared.holders⟩)
    (hu : ∀ j, j ≠ k → (s.connections j).Unread →
      Disjoint slot.addr slot.size (s.connections j).dataPtr (s.connections j).size) :
    Inv ({ s with shared := ⟨c', slot.ptr :: s.shared.holders⟩ }.set k
      { s.connections k with dataPtr := slot.addr, stage := .receiving slot.ptr }) := by
  obtain ⟨hsock, hstored⟩ := (h.consistent k).opened hst
  have hfresh : ∀ j, (s.connections j).stage ≠ .receiving slot.ptr := hg.ptr ▸ not_receiving_next h
  have hle : ∀ p, s.shared.holders.count p ≤ (slot.ptr :: s.shared.holders).count p :=
    fun p => List.count_le_count_cons
  obtain ⟨gone, kept, hm, hgone, hkept⟩ := hg.split
  have h₁ : Inv { s with shared := ⟨c', slot.ptr :: s.shared.holders⟩ } := by
    apply inv_shared h hl ha
    · exact fun p => le_trans (h.readers p) (hle p)
    · exact fun j p hj => lt_of_lt_of_le (h.held j p hj) (hle p)
    · exact fun m hmem hp =>
        ⟨m, by simp [hkept, mem_kept h.accounted hm hgone hmem hp], rfl, rfl, rfl⟩
  apply inv_set h₁
  · constructor <;> simp [hsock, hstored, hneed, Connection.Receiving]
  · rintro p ⟨⟩
    exact {
      held := by
        rw [List.count_cons_self]
        exact Nat.lt_succ_of_le (h.readers slot.ptr)
      listed := ⟨slot, by simp [hkept], rfl, rfl, hg.size⟩
      single := fun j _ => hfresh j }
  · intro _ j hne hj
    have hsize : slot.size = (s.connections k).size := hg.size
    have hd : Disjoint slot.addr slot.size (s.connections j).dataPtr (s.connections j).size := by
      obtain hj | hj := hj
      · exact disjoint_receiving h hg (rangesSafe_of_laps hl) hj
      · exact hu j hne hj
    rwa [hsize] at hd

theorem inv_prepare {timeMillis : ℕ} {t : State n} (h : Inv s)
    (hc : StepSafe s (.prepare k timeMillis)) (ht : s.prepare k timeMillis = some t) : Inv t := by
  unfold State.prepare at ht
  extract_lets c r s₁ at ht
  split at ht
  · rename_i hst
    have hcon := h.consistent k
    split at ht
    · rename_i hneed
      obtain ⟨hwrap, hunread⟩ := hc hneed
      have hacc : Accounted (s.shared.hold r) := accounted_getFree h.accounted c.size timeMillis
      have hlaps : LapOrder r.1 := lapOrder_getFree h.laps hwrap
      obtain hn | ⟨c', slot, hg, hgr⟩ := getFree_cases s.shared.cache c.size timeMillis
      · have hs : s₁ = s := by
          simp only [s₁, r, hn]
          rfl
        simp only [r, hn, Option.some.injEq] at ht
        rw [← ht, hs]
        exact inv_idle h hcon.readPart
      · have hr : r = (c', some slot) := hg
        rw [hr] at hacc hlaps
        have hs : s₁ = { s with shared := ⟨c', slot.ptr :: s.shared.holders⟩ } := by
          simp only [s₁, hr]
          rfl
        simp only [hr, Option.some.injEq] at ht
        rw [← ht, hs]
        apply inv_granted h hst hneed hgr hlaps hacc
        intro j hne hj
        have hd := hunread j hne hj
        rwa [nextStart, ← hgr.addr, ← hgr.size] at hd
    · cases ht
      obtain ⟨hsock, hstored⟩ := hcon.opened hst
      apply inv_set h
      · constructor <;>
          simp_all [c, Connection.InUse, Connection.Receiving, Connection.Unread]
      · simp
      · simp_all [c, Connection.InUse, Connection.Receiving, Connection.Unread]
  · cases ht

theorem Connection.Consistent.of_memory {memory memory' : ℕ → UInt8} (h : c.Consistent memory)
    (hm : c.InUse → Memory.slice memory' c.dataPtr c.socket.length =
      Memory.slice memory c.dataPtr c.socket.length) : c.Consistent memory' :=
  { h with inMemory := fun hu => (hm hu).trans (h.inMemory hu) }

theorem Connection.Consistent.length_le {memory : ℕ → UInt8} (h : c.Consistent memory)
    (hu : c.InUse) : c.socket.length ≤ c.size := by
  obtain hr | hr := hu
  · exact (h.receiving hr).2.1
  · exact Nat.le_of_eq (h.complete hr.1 hr.2.2)

theorem inv_write {chunk : Bytes} (h : Inv s) (hr : (s.connections k).Receiving)
    (hl : (s.connections k).socket.length + chunk.length ≤ (s.connections k).size) :
    Inv { s with
      memory := Memory.write s.memory ((s.connections k).dataPtr + (s.connections k).socket.length) chunk } :=
  { h with
    consistent := by
      intro j
      apply (h.consistent j).of_memory
      intro hu
      apply Memory.slice_write_apart
      by_cases he : j = k
      · subst he
        omega
      · have hd := h.apart j k he hu (.inl hr)
        have hj := (h.consistent j).length_le hu
        unfold Disjoint at hd
        omega }

theorem inv_receive {chunk : Bytes} {t : State n} (h : Inv s) (ht : s.receive k chunk = some t) :
    Inv t := by
  unfold State.receive at ht
  extract_lets c at ht
  split at ht
  · rename_i slot hst
    simp only [Option.ite_none_right_eq_some, Option.some.injEq] at ht
    obtain ⟨hl, rfl⟩ := ht
    have hrec : c.Receiving := ⟨slot, hst⟩
    have hcon := h.consistent k
    obtain ⟨hneed, -, hstored⟩ := hcon.receiving hrec
    have hmem := hcon.inMemory (.inl hrec)
    have h₁ := inv_write h hrec hl
    apply inv_set h₁
    · exact {
        readPart := by simp [c, hstored]
        opened := fun ho => by simp [hst] at ho
        receiving := fun _ => ⟨hneed, by simpa [Connection.size] using hl, hstored⟩
        inMemory := fun _ => by
          simp only [List.length_append]
          rw [Memory.slice_write_append, hmem]
        complete := fun ho => by simp [hst] at ho
        skipped := fun ho => by simp [hst] at ho
        stored := fun ho => by simp [hst] at ho }
    · intro p hp
      have ho := h₁.owns hp
      exact ⟨ho.held, ho.listed, ho.single⟩
    · intro _ j hne hj
      exact h₁.apart k j (Ne.symm hne) (.inl hrec) hj
  · cases ht

theorem inv_release {ptr : ℕ} {readers : List ℕ} (h : Inv s)
    (hr : ∀ p, readers.count p ≤ (s.shared.holders.erase ptr).count p)
    (hh : ∀ k slot, (s.connections k).stage = .receiving slot →
      readers.count slot < (s.shared.holders.erase ptr).count slot) :
    Inv { s with
      shared := ⟨s.shared.cache.unlockSlot ptr, s.shared.holders.erase ptr⟩, readers := readers } := by
  have hl : LapOrder (s.shared.cache.unlockSlot ptr) :=
    lapOrder_of_ranges h.laps (map_range_release ptr _)
  apply inv_shared h hl (accounted_unlock h.accounted ptr) hr hh
  intro m hm _
  refine ⟨releaseSlot ptr m, List.mem_map_of_mem hm, ?_⟩
  unfold releaseSlot
  split <;> exact ⟨rfl, rfl, rfl⟩

theorem inv_unlock {t : State n} (h : Inv s) (ht : s.unlock k = some t) : Inv t := by
  unfold State.unlock at ht
  extract_lets c at ht
  split at ht
  · rename_i slot hst
    simp only [SharedCache.step, Option.map_eq_some_iff, Option.ite_none_right_eq_some,
      Option.some.injEq] at ht
    obtain ⟨shared, ⟨-, rfl⟩, rfl⟩ := ht
    have hrec : c.Receiving := ⟨slot, hst⟩
    have hcon := h.consistent k
    obtain ⟨hneed, -, hstored⟩ := hcon.receiving hrec
    have hmem := hcon.inMemory (.inl hrec)
    have howns := h.owns hst
    -- the request gives up its slot before the cache takes the lock away
    have h₁ : Inv (s.set k
        { c with stage := if c.socket.length = c.size then .received else .idle }) := by
      apply inv_set h
      · split
        · rename_i hfull
          constructor <;> simp_all [c, Connection.InUse, Connection.Receiving, Connection.Unread,
            Connection.size]
        · exact consistent_idle hcon.readPart
      · intro p hp
        split at hp <;> cases hp
      · intro _ j hne hj
        exact h.apart k j (Ne.symm hne) (.inl hrec) hj
    apply inv_release h₁
    · intro p
      have hp := h.readers p
      have hheld := howns.held
      by_cases he : p = slot
      · subst he
        rw [List.count_erase_self]
        exact Nat.le_sub_one_of_lt hheld
      · rw [List.count_erase_of_ne he]
        exact hp
    · intro j p hj
      by_cases he : j = k
      · subst he
        rw [set_self] at hj
        simp only at hj
        split at hj <;> cases hj
      · rw [set_other _ _ he] at hj
        have hp : p ≠ slot := fun hps => howns.single j he (hps ▸ hj)
        rw [List.count_erase_of_ne hp]
        exact h.held j p hj
  · cases ht

theorem slice_of_isPrefix {memory : ℕ → UInt8} {a size : ℕ} {part : Bytes}
    (h : part <+: Memory.slice memory a size) : part = Memory.slice memory a part.length := by
  have hl : part.length ≤ size := by simpa using h.length_le
  exact (List.prefix_of_prefix_length_le h (Memory.slice_isPrefix memory a _ hl) (by simp)).eq_of_length
    (by simp)

theorem consistent_part {memory : ℕ → UInt8} {part : ℕ} {stage : Stage} (h : c.Consistent memory)
    (hst : c.stage = .received) (hsock : c.socket = Memory.slice memory c.dataPtr c.size)
    (hp : part ≤ c.size) (hs : stage = .received ∨ stage = .stored ∧ part = c.size) :
    { c with stored := Memory.slice memory c.dataPtr part, stage := stage : Connection }.Consistent
      memory := by
  have hprefix := hsock ▸ Memory.slice_isPrefix memory c.dataPtr part hp
  obtain rfl | ⟨rfl, rfl⟩ := hs
  · refine { h with
      readPart := hprefix
      opened := by simp
      receiving := by simp [Connection.Receiving]
      complete := fun _ => h.complete hst
      skipped := fun _ => h.skipped hst
      inMemory := ?_
      stored := by simp }
    rintro (⟨slot, ⟨⟩⟩ | hu)
    exact h.inMemory (.inr ⟨hst, hu.2⟩)
  · constructor <;>
      simp [hsock, Connection.InUse, Connection.Receiving, Connection.Unread, Connection.size]

theorem socket_eq_slice {memory : ℕ → UInt8} {reader : Reader} (h : c.Consistent memory)
    (hst : c.stage = .received) (hr : c.reader = some reader)
    (hneed : needReceiveData c.header = true ∨ c.size = 0) :
    c.socket = Memory.slice memory c.dataPtr c.size := by
  by_cases hn : needReceiveData c.header = true
  · have hm := h.inMemory (.inr ⟨hst, by simp [hr], hn⟩)
    rw [h.complete hst hn] at hm
    exact hm.symm
  · rw [h.skipped hst (by simpa using hn), hneed.resolve_left hn, Memory.slice_zero]

theorem consistent_read {memory : ℕ → UInt8} {count : ℕ} {reader : Reader} (h : c.Consistent memory)
    (hst : c.stage = .received) (hr : c.reader = some reader)
    (hneed : needReceiveData c.header = true ∨ c.size = 0)
    (hnul : c.reader = some .terminated →
      (∀ i < c.size, memory (c.dataPtr + i) ≠ 0) ∧ memory (c.dataPtr + c.size) = 0) :
    (c.read memory count reader).Consistent memory := by
  have hsock := socket_eq_slice h hst hr hneed
  have hread := h.readPart
  rw [hsock] at hread
  have hle : c.stored.length ≤ c.size := by simpa using hread.length_le
  have hnext : c.stored ++ Memory.slice memory (c.dataPtr + c.stored.length)
      (min count (c.size - c.stored.length)) = Memory.slice memory c.dataPtr
        (c.stored.length + min count (c.size - c.stored.length)) := by
    rw [Memory.slice_add, ← slice_of_isPrefix hread]
  cases reader with
  | sized =>
    simp only [Connection.read]
    rw [hnext]
    apply consistent_part h hst hsock (by omega)
    split <;> simp_all
  | terminated =>
    obtain ⟨hchar, hend⟩ := hnul hr
    have hchunk := Memory.takeWhile_slice memory (c.dataPtr + c.stored.length)
      (c.size - c.stored.length) (fun b => decide (b ≠ 0)) (m := count)
      (fun i hi => by
        have := hchar (c.stored.length + i) (by omega)
        simpa [Nat.add_assoc] using this)
      (by
        have hpos : c.dataPtr + c.stored.length + (c.size - c.stored.length) = c.dataPtr + c.size := by
          omega
        simp [hpos, hend])
    simp only [Connection.read]
    rw [hchunk, hnext]
    apply consistent_part h hst hsock (by omega)
    rw [Memory.slice_length]
    split
    · right
      exact ⟨rfl, by omega⟩
    · exact .inl rfl

theorem inv_read {count : ℕ} {t : State n} (h : Inv s) (hc : StepSafe s (.read k count))
    (ht : s.read k count = some t) : Inv t := by
  unfold State.read at ht
  extract_lets c at ht
  split at ht
  · rename_i reader hst hr
    cases ht
    have hcon := h.consistent k
    have hfields : (c.read s.memory count reader).dataPtr = c.dataPtr ∧
        (c.read s.memory count reader).header = c.header ∧ (c.read s.memory count reader).size = c.size ∧
        (c.read s.memory count reader).reader = c.reader ∧
        ∀ p, (c.read s.memory count reader).stage ≠ .receiving p := by
      cases reader <;> refine ⟨rfl, rfl, rfl, rfl, ?_⟩ <;> intro p hp <;>
        simp only [Connection.read] at hp <;> (split at hp <;> cases hp)
    obtain ⟨hp, hh, hsz, hrd, hns⟩ := hfields
    apply inv_set h (consistent_read hcon hst hr hc.1 hc.2)
    · exact fun p hp => absurd hp (hns p)
    · rintro (⟨p, hp⟩ | hu) j hne hj
      · exact absurd hp (hns p)
      · have hu' : c.Unread := ⟨hst, hrd ▸ hu.2.1, hh ▸ hu.2.2⟩
        change Disjoint (c.read s.memory count reader).dataPtr (c.read s.memory count reader).size _ _
        rw [hp, hsz]
        exact h.apart k j (Ne.symm hne) (.inr hu') hj
  · cases ht

theorem inv_lockRead {id dataSize : ℕ} (h : Inv s) :
    Inv { s with
      shared := s.shared.hold (s.shared.cache.getSlotToReadAndLock id dataSize)
      readers := ((s.shared.cache.getSlotToReadAndLock id dataSize).2.map (fun m => m.ptr)).toList ++
        s.readers } := by
  have hl : LapOrder (s.shared.cache.getSlotToReadAndLock id dataSize).1 :=
    lapOrder_of_ranges h.laps (map_range_lockForRead id dataSize _)
  apply inv_shared h hl (accounted_getSlot h.accounted id dataSize)
  · intro p
    simpa [SharedCache.hold] using h.readers p
  · intro k slot hst
    simpa [SharedCache.hold] using h.held k slot hst
  · intro m hm _
    simp only [SharedCache.hold, getSlotToReadAndLock]
    obtain hn | ⟨front, x, back, hms, hr⟩ := lockForRead_cases s.shared.cache id dataSize s.shared.cache.metas
    · exact ⟨m, by rwa [hn], rfl, rfl, rfl⟩
    · rw [hr]
      simp only [hms, List.mem_append, List.mem_cons] at hm
      obtain hm | rfl | hm := hm
      · exact ⟨m, by simp [hm], rfl, rfl, rfl⟩
      · exact ⟨{ m with lock := m.lock + 1 }, by simp, rfl, rfl, rfl⟩
      · exact ⟨m, by simp [hm], rfl, rfl, rfl⟩

theorem inv_unlockRead {ptr : ℕ} (h : Inv s) (hp : ptr ∈ s.readers) :
    Inv { s with
      shared := ⟨s.shared.cache.unlockSlot ptr, s.shared.holders.erase ptr⟩
      readers := s.readers.erase ptr } := by
  have hpos := List.count_pos_iff.mpr hp
  apply inv_release h
  · intro p
    have := h.readers p
    by_cases he : p = ptr
    · subst he
      rw [List.count_erase_self, List.count_erase_self]
      omega
    · rwa [List.count_erase_of_ne he, List.count_erase_of_ne he]
  · intro k p hst
    have := h.held k p hst
    by_cases he : p = ptr
    · subst he
      rw [List.count_erase_self, List.count_erase_self]
      omega
    · rwa [List.count_erase_of_ne he, List.count_erase_of_ne he]

theorem inv_step {thresholdMb : ℕ} (s : State n) (l : Event n) (t : State n) (h : Inv s)
    (hc : StepSafe s l) (ht : s.step thresholdMb l = some t) : Inv t := by
  cases l with
  | openRequest k hd dataPtr op => exact inv_openRequest h ht
  | prepare k timeMillis => exact inv_prepare h hc ht
  | receive k chunk => exact inv_receive h ht
  | unlock k => exact inv_unlock h ht
  | read k count => exact inv_read h hc ht
  | finish k => exact inv_finish h ht
  | getSlotToReadAndLock id dataSize =>
    cases ht
    exact inv_lockRead h
  | unlockSlot ptr =>
    simp only [State.step, SharedCache.step, Option.ite_none_right_eq_some, Option.map_eq_some_iff,
      Option.some.injEq] at ht
    obtain ⟨hp, shared, ⟨-, rfl⟩, rfl⟩ := ht
    exact inv_unlockRead h hp

theorem payloadKept_of_inv (s : State n) (h : Inv s) : s.PayloadKept :=
  fun k => ⟨(h.consistent k).readPart, (h.consistent k).stored⟩

/-- In every run whose steps are safe, the handlers read the bytes that were received. -/
theorem payload_kept_of_safe (thresholdMb cacheSize keepUnlocked rand : ℕ) (cache : DataCache)
    (hc : create cacheSize keepUnlocked rand = some cache) (memory : ℕ → UInt8)
    (h : GenericRequestHeader) (n : ℕ) (events : List (Event n))
    (hs : Along (State.step thresholdMb) StepSafe (State.initial cache memory h) events) :
    Always (State.step thresholdMb) State.PayloadKept (State.initial cache memory h) events :=
  always_of_along payloadKept_of_inv inv_step _ events (inv_initial hc memory h) hs

def fileHeader : GenericRequestHeader :=
  ⟨.transferData, 1, 4, 0, ![5, 0, 0], [], [], []⟩

def quietEvents : List (Event 2) :=
  [.openRequest 0 fileHeader 0 .insert, .prepare 0 7, .receive 0 [1, 2], .openRequest 1 fileHeader 0 .insert,
    .receive 0 [3, 4], .unlock 0, .prepare 1 7, .receive 1 [5, 6, 7, 8], .read 0 3, .unlock 1,
    .read 0 4, .read 1 4, .finish 0]

theorem payload_kept_quiet :
    create 8 0 1 = some ⟨8, 0, 2, 0, [], 1⟩ ∧
    Along (State.step 1) StepSafe (State.initial ⟨8, 0, 2, 0, [], 1⟩ (fun _ => 0) fileHeader) quietEvents ∧
    Always (State.step 1) State.PayloadKept
      (State.initial ⟨8, 0, 2, 0, [], 1⟩ (fun _ => 0) fileHeader) quietEvents :=
  have hs : Along (State.step 1) StepSafe
      (State.initial ⟨8, 0, 2, 0, [], 1⟩ (fun _ => 0) fileHeader) quietEvents := by decide +kernel
  ⟨by decide, hs, payload_kept_of_safe 1 8 0 1 _ (by decide) _ _ 2 quietEvents hs⟩

/-- The second request gets the bytes of the first one after they were unlocked and
before they are written to the file. -/
def reusingEvents : List (Event 2) :=
  [.openRequest 0 fileHeader 0 .insert, .prepare 0 7, .receive 0 [1, 2, 3, 4], .unlock 0,
    .openRequest 1 fileHeader 0 .insert, .prepare 1 7, .receive 1 [5, 6, 7, 8], .read 0 4]

theorem payload_not_kept :
    ¬ ∀ (thresholdMb cacheSize keepUnlocked rand : ℕ) (cache : DataCache) (memory : ℕ → UInt8)
      (h : GenericRequestHeader) (n : ℕ) (events : List (Event n)),
      create cacheSize keepUnlocked rand = some cache →
        Always (State.step thresholdMb) State.PayloadKept (State.initial cache memory h) events := by
  intro h
  have hrun := h 1 4 0 1 ⟨4, 0, 2, 0, [], 1⟩ (fun _ => 0) fileHeader 2 reusingEvents (by decide)
  have hbad : (exec (State.step 1) (State.initial ⟨4, 0, 2, 0, [], 1⟩ (fun _ => 0) fileHeader)
      reusingEvents).any (fun t => !decide t.PayloadKept) = true := by decide +kernel
  obtain ⟨t, ht, hk⟩ := Option.any_eq_true _ _ |>.mp hbad
  have := always_exec _ t _ hrun ht
  simp [this] at hk

end Asapo.Receiver.Payload
