import Asapo.Interleaving
import Asapo.Receiver.PayloadSafety

namespace Asapo.Receiver.DataServer

open Payload DataCache CacheEviction CacheLocks RequestHandlerReceiveData Transition Interleaving

inductive NetServer where
  | tcp
  | fabric
  deriving DecidableEq, Repr

structure Config where
  net : NetServer
  rdsApiVersion : Text
  thresholdMb : ℕ

inductive Part where
  | response
  | slotData
  deriving DecidableEq, Repr

/-- The fabric server writes the data into the memory of the consumer before it answers. -/
def NetServer.parts : NetServer → List Part
  | .tcp => [.response, .slotData]
  | .fabric => [.slotData, .response]

/-- An answer that was sent in full. For data of a slot, `before` is what had been received
into the slot when it was locked. -/
structure Answer where
  header : GenericRequestHeader
  code : NetworkErrorCode
  data : Bytes
  slot : Option CacheMeta
  before : Bytes

/-- The receiver, what the sockets have delivered into the slot behind each pointer, the
sockets that the data server has closed and the answers that it has sent. -/
structure Shared (n : ℕ) where
  receiver : Payload.State n
  received : ℕ → Bytes
  answers : List Answer
  closed : List ℕ

inductive Worker where
  | idle
  | checkRequest (h : GenericRequestHeader) (source : ℕ)
  | invalid (h : GenericRequestHeader) (source : ℕ) (code : NetworkErrorCode)
  | closeInvalid (source : ℕ)
  | getSlotAndLock (h : GenericRequestHeader) (source : ℕ)
  | noData (h : GenericRequestHeader)
  | serving (h : GenericRequestHeader) (source : ℕ) (slot : CacheMeta) (before sent : Bytes) (todo : List Part)
  | handleAfterError (source : ℕ) (slot : CacheMeta)
  | unlockSlot (slot : CacheMeta)

inductive Action where
  | take (h : GenericRequestHeader) (source : ℕ)
  | proceed
  | send (fault : Bool)
  | transfer (count : ℕ)
  | interrupt
  deriving DecidableEq

def checkRequest (rdsApiVersion : Text) (h : GenericRequestHeader) : Option NetworkErrorCode :=
  if h.opCode ≠ .getBufferData then some .wrongRequest
  else if versionToNumber h.apiVersion > versionToNumber rdsApiVersion then some .notSupported
  else none

variable {n : ℕ}

namespace Shared

def answer (b : Shared n) (a : Answer) : Shared n := { b with answers := b.answers ++ [a] }

/-- Only the TCP server closes the socket. -/
def handleAfterError (b : Shared n) (net : NetServer) (source : ℕ) : Shared n :=
  match net with
  | .tcp => { b with closed := b.closed ++ [source] }
  | .fabric => b

def getSlotToReadAndLock (b : Shared n) (id dataSize : ℕ) : Shared n × Option CacheMeta :=
  let r := b.receiver.shared.cache.getSlotToReadAndLock id dataSize
  ({ b with receiver := { b.receiver with
      shared := b.receiver.shared.hold r
      readers := (r.2.map (fun m => m.ptr)).toList ++ b.receiver.readers } }, r.2)

def unlockSlot (b : Shared n) (ptr : ℕ) : Shared n :=
  { b with receiver := { b.receiver with
      shared := ⟨b.receiver.shared.cache.unlockSlot ptr, b.receiver.shared.holders.erase ptr⟩
      readers := b.receiver.readers.erase ptr } }

end Shared

/-- `ProcessRequestUnlocked`, one call on the cache or one send at a time. The data of a slot goes
out in pieces, and each piece is read when it goes out. -/
def step (config : Config) (b : Shared n) : Worker → Action → Option (Shared n × Worker)
  | .idle, .take h source => some (b, .checkRequest h source)
  | .checkRequest h source, .proceed =>
    match checkRequest config.rdsApiVersion h with
    | some code => some (b, .invalid h source code)
    | none => some (b, .getSlotAndLock h source)
  | .invalid h source code, .send fault =>
    some (if fault then b else b.answer ⟨h, code, [], none, []⟩, .closeInvalid source)
  | .closeInvalid source, .proceed => some (b.handleAfterError config.net source, .idle)
  | .getSlotAndLock h source, .proceed =>
    match b.getSlotToReadAndLock h.dataId h.dataSize with
    | (b', none) => some (b', .noData h)
    | (b', some slot) => some (b', .serving h source slot (b.received slot.ptr) [] config.net.parts)
  | .noData h, .send fault => some (if fault then b else b.answer ⟨h, .noData, [], none, []⟩, .idle)
  | .serving h source slot before sent (.response :: todo), .send fault =>
    some (b, if fault then .handleAfterError source slot else .serving h source slot before sent todo)
  | .serving h source slot before sent (.slotData :: todo), .transfer count =>
    let n := min count (slot.size - sent.length)
    let sent' := sent ++ Memory.slice b.receiver.memory (slot.addr + sent.length) n
    some (b, .serving h source slot before sent' (if sent'.length = slot.size then todo else .slotData :: todo))
  | .serving _ source slot _ _ (.slotData :: _), .interrupt => some (b, .handleAfterError source slot)
  | .serving h _ slot before sent [], .proceed =>
    some (b.answer ⟨h, .noError, sent, some slot, before⟩, .unlockSlot slot)
  | .handleAfterError source slot, .proceed =>
    some (b.handleAfterError config.net source, .unlockSlot slot)
  | .unlockSlot slot, .proceed => some (b.unlockSlot slot.ptr, .idle)
  | _, _ => none

/-- What arrives for a request is delivered into its slot. -/
def deliver (s : Payload.State n) (received : ℕ → Bytes) : Payload.Event n → ℕ → Bytes
  | .receive k chunk =>
    match (s.connections k).stage with
    | .receiving slot => Function.update received slot (received slot ++ chunk)
    | _ => received
  | _ => received

def ofServer : Payload.Event n → Bool
  | .getSlotToReadAndLock _ _ | .unlockSlot _ => true
  | _ => false

def world (config : Config) (b : Shared n) (e : Payload.Event n) : Option (Shared n) :=
  if ofServer e then none
  else (b.receiver.step config.thresholdMb e).map (fun t =>
    { b with receiver := t, received := deliver b.receiver b.received e })

abbrev Run (n m : ℕ) := System (Shared n) Worker m

abbrev next {m : ℕ} (config : Config) (s : Run n m) (e : Interleaving.Event Action (Payload.Event n) m) :
    Option (Run n m) := Interleaving.step (step config) (world config) s e

def start (n m : ℕ) (cache : DataCache) (memory : ℕ → UInt8) (h : GenericRequestHeader) : Run n m :=
  ⟨⟨.initial cache memory h, fun _ => [], [], []⟩, fun _ => .idle⟩

def Worker.slot? : Worker → Option CacheMeta
  | .serving _ _ slot _ _ _ | .handleAfterError _ slot | .unlockSlot slot => some slot
  | _ => none

namespace Shared

abbrev cache (b : Shared n) : DataCache := b.receiver.shared.cache

abbrev holders (b : Shared n) : List ℕ := b.receiver.shared.holders

def set (b : Shared n) (k : Fin n) (c : Payload.Connection) : Shared n :=
  { b with receiver := b.receiver.set k c }

def relist (b : Shared n) (c : DataCache) (holders : List ℕ) : Shared n :=
  { b with receiver := { b.receiver with shared := ⟨c, holders⟩ } }

def write (b : Shared n) (p offset : ℕ) (chunk : Bytes) : Shared n :=
  { b with
    receiver := { b.receiver with memory := Memory.write b.receiver.memory offset chunk }
    received := Function.update b.received p (b.received p ++ chunk) }

@[simp] theorem relist_cache (b : Shared n) (c : DataCache) (holders : List ℕ) :
    (b.relist c holders).cache = c := rfl

@[simp] theorem relist_holders (b : Shared n) (c : DataCache) (holders : List ℕ) :
    (b.relist c holders).holders = holders := rfl

end Shared

inductive Moved (b : Shared n) : Payload.Event n → Shared n → Prop
  | quiet {e : Payload.Event n} {k : Fin n} {c : Payload.Connection}
      (hk : ∀ p, (b.receiver.connections k).stage ≠ .receiving p) (hc : ∀ p, c.stage ≠ .receiving p)
      (ho : c.stage = .opened → c.socket = []) : Moved b e (b.set k c)
  | granted {k : Fin n} {timeMillis : ℕ} {c' : DataCache} {slot : CacheMeta}
      (hst : (b.receiver.connections k).stage = .opened)
      (hneed : needReceiveData (b.receiver.connections k).header = true)
      (hg : b.cache.getFreeSlotAndLock (b.receiver.connections k).size timeMillis = (c', some slot)) :
      Moved b (.prepare k timeMillis) ((b.relist c' (slot.ptr :: b.holders)).set k
        { b.receiver.connections k with dataPtr := slot.addr, stage := .receiving slot.ptr })
  | written {k : Fin n} {p : ℕ} {chunk : Bytes} (hst : (b.receiver.connections k).stage = .receiving p)
      (hl : (b.receiver.connections k).socket.length + chunk.length ≤ (b.receiver.connections k).size) :
      Moved b (.receive k chunk) ((b.write p ((b.receiver.connections k).dataPtr +
        (b.receiver.connections k).socket.length) chunk).set k
          { b.receiver.connections k with socket := (b.receiver.connections k).socket ++ chunk })
  | released {k : Fin n} {p : ℕ} {stage : Stage} (hst : (b.receiver.connections k).stage = .receiving p)
      (hp : p ∈ b.holders) (hs : stage = .received ∨ stage = .idle) :
      Moved b (.unlock k) ((b.relist (b.cache.unlockSlot p) (b.holders.erase p)).set k
        { b.receiver.connections k with stage := stage })

variable {b b' : Shared n} {config : Config}

theorem moved_openRequest {k : Fin n} {h : GenericRequestHeader} {dataPtr : ℕ} {op : MetaIngestOp}
    {t : Payload.State n} (ht : b.receiver.openRequest config.thresholdMb k h dataPtr op = some t) :
    Moved b (.openRequest k h dataPtr op) { b with receiver := t } := by
  unfold State.openRequest at ht
  split at ht
  · rename_i hst _
    simp only [Option.ite_none_right_eq_some, Option.some.injEq] at ht
    obtain ⟨-, rfl⟩ := ht
    exact .quiet (by simp [hst]) (by simp) (fun _ => rfl)
  · cases ht

theorem moved_prepare {k : Fin n} {timeMillis : ℕ} {t : Payload.State n}
    (ht : b.receiver.prepare k timeMillis = some t) :
    Moved b (.prepare k timeMillis) { b with receiver := t } := by
  unfold State.prepare at ht
  extract_lets c r s₁ at ht
  split at ht
  · rename_i hst
    have hk : ∀ p, (b.receiver.connections k).stage ≠ .receiving p := fun p hp => by simp [c, hp] at hst
    split at ht
    · rename_i hneed
      obtain hn | ⟨c', slot, hg, -⟩ := getFree_cases b.cache c.size timeMillis
      · have hs : s₁ = b.receiver := by
          simp only [s₁, r, hn]
          rfl
        simp only [r, hn, Option.some.injEq] at ht
        rw [← ht, hs]
        exact .quiet hk (by simp) (by simp)
      · have hr : r = (c', some slot) := hg
        have hs : s₁ = { b.receiver with shared := ⟨c', slot.ptr :: b.holders⟩ } := by
          simp only [s₁, hr]
          rfl
        simp only [hr, Option.some.injEq] at ht
        rw [← ht, hs]
        exact .granted hst hneed hg
    · cases ht
      exact .quiet hk (by simp) (by simp)
  · cases ht

theorem moved_receive {k : Fin n} {chunk : Bytes} {t : Payload.State n}
    (ht : b.receiver.receive k chunk = some t) :
    Moved b (.receive k chunk)
      { b with receiver := t, received := deliver b.receiver b.received (.receive k chunk) } := by
  unfold State.receive at ht
  extract_lets c at ht
  split at ht
  · rename_i p hst
    simp only [Option.ite_none_right_eq_some, Option.some.injEq] at ht
    obtain ⟨hl, rfl⟩ := ht
    have hd : deliver b.receiver b.received (.receive k chunk) =
        Function.update b.received p (b.received p ++ chunk) := by
      have hst' : (b.receiver.connections k).stage = .receiving p := hst
      simp only [deliver, hst']
    rw [hd]
    exact .written hst hl
  · cases ht

theorem moved_unlock {k : Fin n} {t : Payload.State n} (ht : b.receiver.unlock k = some t) :
    Moved b (.unlock k) { b with receiver := t } := by
  unfold State.unlock at ht
  extract_lets c at ht
  split at ht
  · rename_i p hst
    simp only [SharedCache.step, Option.map_eq_some_iff, Option.ite_none_right_eq_some,
      Option.some.injEq] at ht
    obtain ⟨shared, ⟨hp, rfl⟩, rfl⟩ := ht
    refine .released hst hp ?_
    split
    · exact .inl rfl
    · exact .inr rfl
  · cases ht

theorem stage_read (c : Payload.Connection) (memory : ℕ → UInt8) (count : ℕ) (reader : Reader) :
    (c.read memory count reader).stage = .received ∨ (c.read memory count reader).stage = .stored := by
  cases reader <;> simp only [Payload.Connection.read] <;> split <;> simp

theorem moved_read {k : Fin n} {count : ℕ} {t : Payload.State n} (ht : b.receiver.read k count = some t) :
    Moved b (.read k count) { b with receiver := t } := by
  unfold State.read at ht
  extract_lets c at ht
  split at ht
  · rename_i reader hst _
    cases ht
    have hk : ∀ p, (b.receiver.connections k).stage ≠ .receiving p := fun p hp => by simp [c, hp] at hst
    obtain hs | hs := stage_read c b.receiver.memory count reader
    · exact .quiet hk (by simp [hs]) (by simp [hs])
    · exact .quiet hk (by simp [hs]) (by simp [hs])
  · cases ht

theorem moved_finish {k : Fin n} {t : Payload.State n} (ht : b.receiver.finish k = some t) :
    Moved b (.finish k) { b with receiver := t } := by
  unfold State.finish at ht
  extract_lets c at ht
  split at ht
  · cases ht
  · rename_i hst
    cases ht
    exact .quiet hst (by simp) (by simp)

theorem moved_of_world {e : Payload.Event n} (h : world config b e = some b') : Moved b e b' := by
  unfold world at h
  split at h
  · cases h
  · rename_i hs
    obtain ⟨t, ht, rfl⟩ := Option.map_eq_some_iff.mp h
    cases e with
    | openRequest k hd dataPtr op => exact moved_openRequest ht
    | prepare k timeMillis => exact moved_prepare ht
    | receive k chunk => exact moved_receive ht
    | unlock k => exact moved_unlock ht
    | read k count => exact moved_read ht
    | finish k => exact moved_finish ht
    | getSlotToReadAndLock id dataSize => exact absurd rfl hs
    | unlockSlot ptr => exact absurd rfl hs

inductive Acted (b : Shared n) (w : Worker) : Shared n → Worker → Prop
  | quiet {b' : Shared n} {w' : Worker} (hr : b'.receiver = b.receiver) (hd : b'.received = b.received)
      (hw : w'.slot? = w.slot?) : Acted b w b' w'
  | locked {h : GenericRequestHeader} {source : ℕ} {c' : DataCache} {slot : CacheMeta} {todo : List Part}
      (hw : w = .getSlotAndLock h source)
      (hg : b.cache.getSlotToReadAndLock h.dataId h.dataSize = (c', some slot)) :
      Acted b w { b with receiver := { b.receiver with
          shared := ⟨c', slot.ptr :: b.holders⟩, readers := slot.ptr :: b.receiver.readers } }
        (.serving h source slot (b.received slot.ptr) [] todo)
  | unlocked {slot : CacheMeta} (hw : w = .unlockSlot slot) : Acted b w (b.unlockSlot slot.ptr) .idle

theorem getSlot_none {c c' : DataCache} {id dataSize : ℕ}
    (h : c.getSlotToReadAndLock id dataSize = (c', none)) : c' = c := by
  unfold getSlotToReadAndLock at h
  obtain hn | ⟨front, m, back, -, hr⟩ := lockForRead_cases c id dataSize c.metas
  · rw [hn] at h
    cases h
    rfl
  · rw [hr] at h
    cases h

theorem acted_getSlotAndLock {h : GenericRequestHeader} {source : ℕ} {w' : Worker}
    (hs : step config b (.getSlotAndLock h source) .proceed = some (b', w')) :
    Acted b (.getSlotAndLock h source) b' w' := by
  rw [step] at hs
  simp only [Shared.getSlotToReadAndLock] at hs
  cases hg : b.cache.getSlotToReadAndLock h.dataId h.dataSize with
  | mk c' found =>
    rw [hg] at hs
    cases found with
    | none =>
      cases hs
      refine .quiet ?_ rfl rfl
      simp only [SharedCache.hold, getSlot_none hg]
      rfl
    | some slot =>
      cases hs
      exact .locked rfl hg

theorem handleAfterError_receiver (b : Shared n) (net : NetServer) (source : ℕ) :
    (b.handleAfterError net source).receiver = b.receiver ∧
      (b.handleAfterError net source).received = b.received := by
  cases net <;> exact ⟨rfl, rfl⟩

theorem acted_of_step {w w' : Worker} {a : Action} (hs : step config b w a = some (b', w')) :
    Acted b w b' w' := by
  cases w with
  | idle =>
    cases a with
    | take h source =>
      cases hs
      exact .quiet rfl rfl rfl
    | _ => cases hs
  | checkRequest h source =>
    cases a with
    | proceed =>
      rw [step] at hs
      split at hs <;> cases hs <;> exact .quiet rfl rfl rfl
    | _ => cases hs
  | invalid h source code =>
    cases a with
    | send fault => cases fault <;> cases hs <;> exact .quiet rfl rfl rfl
    | _ => cases hs
  | closeInvalid source =>
    cases a with
    | proceed =>
      cases hs
      obtain ⟨hr, hd⟩ := handleAfterError_receiver b config.net source
      exact .quiet hr hd rfl
    | _ => cases hs
  | getSlotAndLock h source =>
    cases a with
    | proceed => exact acted_getSlotAndLock hs
    | _ => cases hs
  | noData h =>
    cases a with
    | send fault => cases fault <;> cases hs <;> exact .quiet rfl rfl rfl
    | _ => cases hs
  | serving h source slot before sent todo =>
    cases todo with
    | nil =>
      cases a with
      | proceed =>
        cases hs
        exact .quiet rfl rfl rfl
      | _ => cases hs
    | cons part todo =>
      cases part <;> cases a <;> try cases hs
      · rename_i fault
        cases fault <;> exact .quiet rfl rfl rfl
      · exact .quiet rfl rfl rfl
      · exact .quiet rfl rfl rfl
  | handleAfterError source slot =>
    cases a with
    | proceed =>
      cases hs
      obtain ⟨hr, hd⟩ := handleAfterError_receiver b config.net source
      exact .quiet hr hd rfl
    | _ => cases hs
  | unlockSlot slot =>
    cases a with
    | proceed =>
      cases hs
      exact .unlocked rfl
    | _ => cases hs

def receives (p : ℕ) (c : Payload.Connection) : ℕ := if c.stage = .receiving p then 1 else 0

def Worker.locks (p : ℕ) (w : Worker) : ℕ := if w.slot?.map (fun slot => slot.ptr) = some p then 1 else 0

def receivers (p : ℕ) (b : Shared n) : ℕ := ∑ k, receives p (b.receiver.connections k)

/-- Every lock on a slot belongs to a connection that receives into it or to a thread of the
data server that sends it. -/
structure Locked {m : ℕ} (s : Run n m) : Prop where
  accounted : Accounted s.shared.receiver.shared
  balanced : ∀ p, Interleaving.Balanced (fun b => b.holders.count p) (receivers p) (Worker.locks p) s

theorem set_connections (s : Payload.State n) (k : Fin n) (c : Payload.Connection) :
    (s.set k c).connections = Function.update s.connections k c := by
  funext j
  by_cases hj : j = k
  · subst hj
    rw [Function.update_self, set_self]
  · rw [Function.update_of_ne hj, set_other _ _ hj]

theorem receivers_set (p : ℕ) (b : Shared n) (k : Fin n) (c : Payload.Connection) :
    receivers p (b.set k c) + receives p (b.receiver.connections k) = receivers p b + receives p c := by
  have h := sum_update (receives p) b.receiver.connections k c
  simpa only [receivers, Shared.set, set_connections] using h

variable {m : ℕ} {s : Run n m}

theorem Locked.receiving (h : Locked s) {k : Fin n} {p : ℕ}
    (hst : (s.shared.receiver.connections k).stage = .receiving p) : p ∈ s.shared.holders := by
  have hb : s.shared.holders.count p = receivers p s.shared + ∑ i, Worker.locks p (s.threads i) :=
    h.balanced p
  have hk := weight_le_sum (receives p) s.shared.receiver.connections k
  rw [receives, if_pos hst] at hk
  rw [receivers] at hb
  exact List.count_pos_iff.mp (by omega)

theorem Locked.serving (h : Locked s) {i : Fin m} {slot : CacheMeta}
    (hi : (s.threads i).slot? = some slot) : slot.ptr ∈ s.shared.holders := by
  have hb : s.shared.holders.count slot.ptr =
      receivers slot.ptr s.shared + ∑ i, Worker.locks slot.ptr (s.threads i) := h.balanced slot.ptr
  have hk := weight_le_sum (Worker.locks slot.ptr) s.threads i
  rw [Worker.locks, hi, Option.map_some, if_pos rfl] at hk
  exact List.count_pos_iff.mp (by omega)

theorem count_erase_add {l : List ℕ} {p : ℕ} (h : p ∈ l) (q : ℕ) :
    (l.erase p).count q + (if p = q then 1 else 0) = l.count q := by
  by_cases hq : p = q
  · subst hq
    have := List.count_pos_iff.mpr h
    rw [List.count_erase_self, if_pos rfl]
    omega
  · rw [List.count_erase_of_ne (Ne.symm hq), if_neg hq, Nat.add_zero]

theorem count_cons_add (l : List ℕ) (p q : ℕ) :
    (p :: l).count q = l.count q + (if p = q then 1 else 0) := by
  simp [List.count_cons]

theorem Locked.set (h : Locked s) {t : Shared n} {k : Fin n} {c : Payload.Connection}
    (ht : t.receiver.connections = s.shared.receiver.connections) (ha : Accounted t.receiver.shared)
    (hc : ∀ p, t.holders.count p + receives p (s.shared.receiver.connections k) =
      s.shared.holders.count p + receives p c) : Locked { s with shared := t.set k c } where
  accounted := ha
  balanced := by
    intro p
    have hr := receivers_set p t k c
    have he : receivers p t = receivers p s.shared := by rw [receivers, receivers, ht]
    have hp := hc p
    rw [ht, he] at hr
    rw [balanced_shared (h.balanced p)]
    change t.holders.count p + receivers p s.shared = s.shared.holders.count p + receivers p (t.set k c)
    omega

theorem locked_world {e : Payload.Event n} {t : Shared n} (h : Locked s) (hm : Moved s.shared e t) :
    Locked { s with shared := t } := by
  cases hm with
  | quiet hk hc ho =>
    refine h.set rfl h.accounted (fun p => ?_)
    rw [receives, receives, if_neg (hk p), if_neg (hc p)]
  | @granted k timeMillis c' slot hst hneed hg =>
    have ha := accounted_getFree h.accounted (s.shared.receiver.connections k).size timeMillis
    rw [hg] at ha
    refine h.set rfl ha (fun p => ?_)
    simpa [receives, hst] using count_cons_add s.shared.holders slot.ptr p
  | written hst hl => exact h.set rfl h.accounted (fun p => rfl)
  | @released k q stage hst hq hs =>
    refine h.set rfl (accounted_unlock h.accounted q) (fun p => ?_)
    have hidle : stage ≠ .receiving p := by
      obtain rfl | rfl := hs <;> simp
    simpa [receives, hst, hidle] using count_erase_add hq p

theorem locked_thread {i : Fin m} {t : Shared n} {w : Worker} (h : Locked s)
    (ha : Acted s.shared (s.threads i) t w) :
    Locked ⟨t, Function.update s.threads i w⟩ := by
  cases ha with
  | quiet hr hd hw =>
    have hl : ∀ p, Worker.locks p w = Worker.locks p (s.threads i) := fun p => by
      rw [Worker.locks, Worker.locks, hw]
    refine ⟨hr ▸ h.accounted, fun p => (balanced_update (h.balanced p) i t w).mpr ?_⟩
    rw [hl, receivers, receivers, hr, Shared.holders, hr]
  | @locked hd source c' slot todo hw hg =>
    have ha := accounted_getSlot h.accounted hd.dataId hd.dataSize
    rw [hg] at ha
    refine ⟨ha, fun p => (balanced_update (h.balanced p) i _ _).mpr ?_⟩
    have hc := count_cons_add s.shared.holders slot.ptr p
    simp only [receivers, Worker.locks, hw, Worker.slot?, Option.map_some, Option.map_none, Option.some.injEq,
      reduceCtorEq, if_false]
    change (slot.ptr :: s.shared.holders).count p + _ + 0 = _
    omega
  | @unlocked slot hw =>
    have hheld : slot.ptr ∈ s.shared.holders := h.serving (i := i) (by rw [hw]; rfl)
    refine ⟨accounted_unlock h.accounted slot.ptr, fun p => (balanced_update (h.balanced p) i _ _).mpr ?_⟩
    have hc := count_erase_add hheld p
    simp only [receivers, Worker.locks, hw, Worker.slot?, Option.map_some, Option.map_none, Option.some.injEq,
      reduceCtorEq, if_false]
    change (s.shared.holders.erase slot.ptr).count p + _ + _ = _ + _ + 0
    simp only [Shared.unlockSlot]
    omega

theorem locked_step (s : Run n m) (e : Interleaving.Event Action (Payload.Event n) m) (t : Run n m)
    (h : Locked s) (ht : next config s e = some t) : Locked t := by
  cases e with
  | thread i a =>
    obtain ⟨⟨t', w⟩, hx, rfl⟩ := Option.map_eq_some_iff.mp ht
    exact locked_thread h (acted_of_step hx)
  | world e =>
    obtain ⟨t', hx, rfl⟩ := Option.map_eq_some_iff.mp ht
    exact locked_world h (moved_of_world hx)

theorem locked_start {cacheSize keepUnlocked rand : ℕ} {cache : DataCache}
    (hc : create cacheSize keepUnlocked rand = some cache) (memory : ℕ → UInt8)
    (h : GenericRequestHeader) : Locked (start n m cache memory h) where
  accounted := accounted_empty hc
  balanced := fun p => by
    simp [Interleaving.Balanced, start, State.initial, Shared.holders, receivers, receives, Worker.locks,
      Worker.slot?]

theorem Locked.lock_eq (h : Locked s) {slot : CacheMeta} (hm : slot ∈ s.shared.cache.metas) :
    slot.lock = receivers slot.ptr s.shared + ∑ i, (s.threads i).locks slot.ptr :=
  (h.accounted.locks slot hm).trans (h.balanced slot.ptr)

theorem Locked.unlocked (h : Locked s) (hr : ∀ k, ¬ (s.shared.receiver.connections k).Receiving)
    (hw : ∀ i, (s.threads i).slot? = none) : ∀ slot ∈ s.shared.cache.metas, slot.lock = 0 := by
  intro slot hm
  have hk : ∀ k, receives slot.ptr (s.shared.receiver.connections k) = 0 :=
    fun k => if_neg (fun hst => hr k ⟨slot.ptr, hst⟩)
  have hi : ∀ i, (s.threads i).locks slot.ptr = 0 := fun i => by
    rw [Worker.locks, hw i]
    exact if_neg (by simp)
  rw [h.lock_eq hm, receivers, Finset.sum_eq_zero (fun k _ => hk k), Finset.sum_eq_zero (fun i _ => hi i),
    Nat.add_zero]

/-- However the connections and the threads of the data server take turns, and wherever a
send fails, no lock is left behind: each one belongs to a connection that receives into the
slot or to a thread that has yet to unlock it. So when all of them are done, every slot that
fits into the cache can be allocated. -/
theorem no_lock_left (config : Config) (cacheSize keepUnlocked rand : ℕ) (cache : DataCache)
    (hc : create cacheSize keepUnlocked rand = some cache) (memory : ℕ → UInt8)
    (h : GenericRequestHeader) (n m : ℕ) (events : List (Interleaving.Event Action (Payload.Event n) m)) :
    Always (next config) (fun s =>
      (∀ slot ∈ s.shared.cache.metas,
        slot.lock = receivers slot.ptr s.shared + ∑ i, (s.threads i).locks slot.ptr) ∧
      ((∀ k, ¬ (s.shared.receiver.connections k).Receiving) → (∀ i, (s.threads i).slot? = none) →
        ∀ size ≤ s.shared.cache.cacheSize, ∀ timeMillis,
          (s.shared.cache.getFreeSlotAndLock size timeMillis).2.isSome = true))
      (start n m cache memory h) events := by
  refine always_of_step (fun s hs => ⟨fun slot hm => hs.lock_eq hm, ?_⟩) locked_step _ events
    (locked_start hc memory h)
  intro hr hw size hsize timeMillis
  obtain ⟨-, hbig | ⟨slot, hm, hl⟩⟩ | ⟨c', slot, hg, -⟩ := getFree_outcome s.shared.cache size timeMillis
  · omega
  · have := hs.unlocked hr hw slot hm
    omega
  · rw [hg]
    rfl

def bufferHeader : GenericRequestHeader :=
  ⟨.getBufferData, 30064771075, 4, 0, ![0, 0, 0], [], [], "v0.1".toList⟩

def tcpConfig : Config := ⟨.tcp, "v0.1".toList, 1⟩

/-- The slot is locked when a half of it has been received, and the data is sent after the
rest has arrived. -/
def servingEvents (k : Fin 1) (i j : Fin 2) : List (Interleaving.Event Action (Payload.Event 1) 2) :=
  [.world (.openRequest k fileHeader 0 .insert), .world (.prepare k 7), .world (.receive k [1, 2]),
    .thread i (.take bufferHeader 5), .thread i .proceed, .thread i .proceed, .thread i (.send false),
    .thread i (.transfer 1), .world (.receive k [3, 4]), .world (.unlock k), .thread j (.take bufferHeader 6),
    .thread i (.transfer 9), .thread j .proceed, .thread j .proceed, .thread i .proceed, .thread i .proceed,
    .thread j (.send true), .thread j .proceed, .thread j .proceed]

theorem no_lock_left_served :
    create 8 0 1 = some ⟨8, 0, 2, 0, [], 1⟩ ∧
    ∃ s, exec (next tcpConfig) (start 1 2 ⟨8, 0, 2, 0, [], 1⟩ (fun _ => 0) fileHeader) (servingEvents 0 0 1) = some s ∧
      ∀ size ≤ s.shared.cache.cacheSize, ∀ timeMillis,
        (s.shared.cache.getFreeSlotAndLock size timeMillis).2.isSome = true := by
  have hend : (exec (next tcpConfig) (start 1 2 ⟨8, 0, 2, 0, [], 1⟩ (fun _ => 0) fileHeader)
      (servingEvents 0 0 1)).any (fun s => decide ((∀ k, (s.shared.receiver.connections k).stage = .received) ∧
        ∀ i, (s.threads i).slot? = none)) = true := by decide +kernel
  obtain ⟨s, hs, hdone⟩ := Option.any_eq_true _ _ |>.mp hend
  obtain ⟨hk, hi⟩ := of_decide_eq_true hdone
  have hrun := no_lock_left tcpConfig 8 0 1 ⟨8, 0, 2, 0, [], 1⟩ (by decide) (fun _ => 0) fileHeader 1 2
    (servingEvents 0 0 1)
  refine ⟨by decide, s, hs, (always_exec _ s _ hrun hs).2 (fun k => ?_) hi⟩
  rintro ⟨p, hp⟩
  simp [hk k] at hp

end Asapo.Receiver.DataServer
