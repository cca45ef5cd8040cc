import Asapo.Interleaving
import Asapo.Producer.HandlerExits

namespace Asapo.Producer.PoolAccounting

open Interleaving Transition RequestPool

inductive HandlerKind where
  | tcp (maxConnections updateFrequency : ℕ)
  | filesystem
  deriving DecidableEq

def HandlerKind.handler : HandlerKind → RequestHandler
  | .tcp maxConnections updateFrequency => requestHandlerTcp maxConnections updateFrequency
  | .filesystem => requestHandlerFilesystem

abbrev PoolSystem (k : HandlerKind) (n : ℕ) := System RequestPool (Worker k.handler.State) n

abbrev PoolEvent (k : HandlerKind) (n : ℕ) := Event (Work k.handler.Outcome) Order n

abbrev poolStep {k : HandlerKind} {n : ℕ} : PoolSystem k n → PoolEvent k n → Option (PoolSystem k n) :=
  step (act k.handler) order

def start (k : HandlerKind) (n : ℕ) (limits : RequestPoolLimits) : PoolSystem k n :=
  ⟨.create limits, fun _ => ⟨k.handler.initial, .waiting⟩⟩

/-- What a request counted in the memory of the pool when it was accepted. -/
def admittedCharge (r : PoolRequest) : ℕ := charge r.admitted

def queuedMemory (p : RequestPool) : ℕ := (p.queue.map admittedCharge).sum

def heldMemory {S : Type} (w : Worker S) : ℕ := (w.pc.requests.map admittedCharge).sum

def heldRequests {S : Type} (w : Worker S) : ℕ := w.pc.requests.length

/-- The memory and the number of requests are those of the requests that are in the queue or
that a thread has taken. -/
structure Accounted {k : HandlerKind} {n : ℕ} (s : PoolSystem k n) : Prop where
  memory : Balanced (fun p => p.memoryUsed) queuedMemory heldMemory s
  requests : Balanced nRequestsInPool (fun p => p.queue.length) heldRequests s

/-- What the handler leaves of a request counts as much as the request did when it was
accepted. The data of a request that also has a file to send does not go to a callback, and a
file that `RequestHandlerFilesystem` has read goes to one, unless they are empty. -/
structure Settles (k : HandlerKind) (r : PoolRequest) : Prop where
  memory : r.callback = true → r.admitted.data.isSome = true → r.admitted.file.isSome = true →
    r.admitted.needSend = true → r.admitted.header.dataSize = 0
  file : k = .filesystem → r.admitted.dataFromFile = true → r.callback = false →
    r.request.header.dataSize = 0

/-- No request is taken too late, the requests that are finished settle, and the sizes of the
requests do not exceed 64 bits. -/
def Orderly {k : HandlerKind} {n : ℕ} (s : PoolSystem k n) : PoolEvent k n → Prop
  | .thread _ (.take d) => ∀ r ∈ s.shared.queue.head?, r.timedOut d.now = false
  | .thread i .finish => ∀ r success, (s.threads i).pc = .processed r success false → Settles k r
  | .thread _ _ => True
  | .world e => s.shared.memoryUsed + ((s.shared.acceptedBy e).map (fun r => charge r.request)).sum < 2 ^ 64

variable {k : HandlerKind} {n : ℕ} {r : PoolRequest}

/-- A request that is not finished. Only the size of a file may have been looked up. -/
structure Fresh (k : HandlerKind) (r : PoolRequest) : Prop where
  data : r.request.data = r.admitted.data
  needSend : r.request.needSend = r.admitted.needSend
  file : r.request.file.isSome = r.admitted.file.isSome
  size : r.admitted.dataFromFile = false → r.request.header.dataSize = r.admitted.header.dataSize
  admittedBound : r.admitted.header.dataSize < 2 ^ 64
  bound : k = .filesystem → r.request.header.dataSize < 2 ^ 64

structure Settled (k : HandlerKind) (r : PoolRequest) : Prop where
  iff : charge r.request = charge r.admitted ↔ Settles k r
  bound : charge r.request < 2 ^ 64

def Follows (k : HandlerKind) : Pc → Prop
  | .waiting => True
  | .processing r => Fresh k r
  | .processed r _ retry => if retry then Fresh k r else Settled k r
  | .timingOut _ | .timedOut _ => False

theorem Fresh.dataFromFile (h : Fresh k r) : r.request.dataFromFile = r.admitted.dataFromFile := by
  rw [ProducerRequest.dataFromFile, ProducerRequest.dataFromFile, h.data, h.needSend, h.file]

theorem charge_file {q : ProducerRequest} (h : q.dataFromFile = true) : charge q = 0 := by
  simp [charge, ProducerRequest.containsData, h]

theorem charge_memory {q : ProducerRequest} (h : q.dataFromFile = false) : charge q = q.header.dataSize := by
  simp [charge, ProducerRequest.containsData, h]

theorem Fresh.charge (h : Fresh k r) : charge r.request = charge r.admitted := by
  have hfile := h.dataFromFile
  cases hd : r.admitted.dataFromFile with
  | true => rw [charge_file (hfile.trans hd), charge_file hd]
  | false => rw [charge_memory (hfile.trans hd), charge_memory hd, h.size hd]

theorem dataFromFile_eq (q : ProducerRequest) :
    q.dataFromFile = (q.data.isNone && (q.file.isSome && q.needSend)) := Bool.and_assoc ..

theorem settled_moved (h : Fresh k r) (hc : r.callback = true) :
    Settled k { r with request := { r.request with data := none } } := by
  have hadmitted := dataFromFile_eq r.admitted
  have hmoved : { r.request with data := none }.dataFromFile =
      (r.admitted.file.isSome && r.admitted.needSend) := by
    rw [← h.file, ← h.needSend]
    exact dataFromFile_eq { r.request with data := none }
  cases hsend : r.admitted.file.isSome && r.admitted.needSend with
  | false =>
    have hmem : r.admitted.dataFromFile = false := by rw [hadmitted, hsend, Bool.and_false]
    have hcharge : charge { r.request with data := none } = r.admitted.header.dataSize :=
      (charge_memory (hmoved.trans hsend)).trans (h.size hmem)
    refine ⟨⟨fun _ => ⟨fun _ _ hf hn => ?_, fun _ _ hcall => ?_⟩, fun _ => ?_⟩, ?_⟩
    · simp [hf, hn] at hsend
    · simp [hc] at hcall
    · exact hcharge.trans (charge_memory hmem).symm
    · exact hcharge ▸ h.admittedBound
  | true =>
    have hcharge : charge { r.request with data := none } = 0 := charge_file (hmoved.trans hsend)
    obtain ⟨hf, hn⟩ := Bool.and_eq_true_iff.mp hsend
    refine ⟨⟨fun he => ⟨fun _ hdata _ _ => ?_, fun _ _ hcall => ?_⟩, fun hs => ?_⟩, ?_⟩
    · have hmem : r.admitted.dataFromFile = false := by
        rw [hadmitted, hsend, Bool.and_true, ← Option.not_isSome, hdata]
        rfl
      rw [← charge_memory hmem]
      exact he.symm.trans hcharge
    · simp [hc] at hcall
    · cases hdata : r.admitted.data.isSome with
      | true =>
        have hzero := hs.memory hc hdata hf hn
        exact hcharge.trans (Nat.le_zero.mp (hzero ▸ charge_le r.admitted)).symm
      | false =>
        have hfile : r.admitted.dataFromFile = true := by
          rw [hadmitted, hsend, Bool.and_true, ← Option.not_isSome, hdata]
          rfl
        exact hcharge.trans (charge_file hfile).symm
    · rw [hcharge]
      decide

theorem settled_callback (h : Fresh k r) (hk : k = .filesystem → r.admitted.dataFromFile = false)
    (err : Option Error) (response : Text) :
    Settled k (RequestHandlerTcp.processRequestCallback err r response).1 := by
  rw [RequestHandlerTcp.processRequestCallback]
  by_cases hc : r.callback = true
  · rw [if_pos hc]
    exact settled_moved h hc
  · rw [if_neg hc]
    refine ⟨⟨fun _ => ⟨fun hcall => ?_, fun hfs hfile => ?_⟩, fun _ => h.charge⟩, ?_⟩
    · exact absurd hcall hc
    · simp [hk hfs] at hfile
    · exact h.charge ▸ Nat.lt_of_le_of_lt (charge_le _) h.admittedBound

theorem settled_loaded {q : PoolRequest} (hfile : q.admitted.dataFromFile = true)
    (hsend : (q.request.file.isSome && q.request.needSend) = true) (hdata : q.request.data.isSome = true)
    (hbound : q.request.header.dataSize < 2 ^ 64) (err : Option Error) (response : Text) :
    Settled .filesystem (RequestHandlerTcp.processRequestCallback err q response).1 := by
  have hadmitted := charge_file hfile
  have hnone : q.admitted.data.isSome = false := by
    rw [dataFromFile_eq, Bool.and_eq_true_iff, ← Option.not_isSome] at hfile
    simpa using hfile.1
  rw [RequestHandlerTcp.processRequestCallback]
  by_cases hc : q.callback = true
  · rw [if_pos hc]
    have hmoved : { q.request with data := none }.dataFromFile = true := by
      rw [dataFromFile_eq]
      exact hsend
    refine ⟨⟨fun _ => ⟨fun _ hsome => ?_, fun _ _ hcall => ?_⟩, fun _ => ?_⟩, ?_⟩
    · simp [hnone] at hsome
    · simp [hc] at hcall
    · exact (charge_file hmoved).trans hadmitted.symm
    · exact (charge_file hmoved).symm ▸ (by decide)
  · rw [if_neg hc]
    have hloaded : q.request.dataFromFile = false := by
      rw [dataFromFile_eq, ← Option.not_isSome, hdata]
      rfl
    have hcharge := charge_memory hloaded
    refine ⟨⟨fun he => ⟨fun hcall => ?_, fun _ _ _ => ?_⟩, fun hs => ?_⟩, ?_⟩
    · exact absurd hcall hc
    · exact hcharge.symm.trans (he.trans hadmitted)
    · exact (hcharge.trans (hs.file rfl hfile (by simpa using hc))).trans hadmitted.symm
    · exact hcharge ▸ hbound

section Handlers

variable {maxConnections updateFrequency : ℕ}

theorem fresh_update {file : Except Error Bytes} {q : ProducerRequest}
    (h : Fresh (.tcp maxConnections updateFrequency) r)
    (hq : RequestHandlerTcp.updateDataSizeFromFileIfNeeded file r.request = .ok q) :
    Fresh (.tcp maxConnections updateFrequency) { r with request := q } := by
  unfold RequestHandlerTcp.updateDataSizeFromFileIfNeeded at hq
  split at hq
  · cases hq
    exact h
  · rename_i hneeded
    rw [Bool.not_eq_true, Bool.or_eq_false_iff, Bool.not_eq_false'] at hneeded
    have hfile : r.admitted.dataFromFile = true := h.dataFromFile.symm.trans hneeded.1
    have hsome : r.request.file.isSome = true := by
      rw [dataFromFile_eq, Bool.and_eq_true_iff, Bool.and_eq_true_iff] at hneeded
      exact hneeded.1.2.1
    split at hq
    · cases hq
    · cases hq
      unfold ProducerRequest.updateDataSizeFromFileIfNeeded
      split
      · exact ⟨h.data, h.needSend, by rw [← h.file, hsome]; rfl, by simp [hfile], h.admittedBound, nofun⟩
      · exact ⟨h.data, h.needSend, by rw [← h.file, hsome]; rfl, by simp [hfile], h.admittedBound, nofun⟩

theorem settled_missing {file : Except Error Bytes} {err : Error}
    (h : Fresh (.tcp maxConnections updateFrequency) r)
    (hq : RequestHandlerTcp.updateDataSizeFromFileIfNeeded file r.request = .error err) :
    Settled (.tcp maxConnections updateFrequency) r := by
  unfold RequestHandlerTcp.updateDataSizeFromFileIfNeeded at hq
  split at hq
  · cases hq
  · rename_i hneeded
    rw [Bool.not_eq_true, Bool.or_eq_false_iff, Bool.not_eq_false'] at hneeded
    have hnone : r.admitted.data.isNone = true := by
      rw [dataFromFile_eq, Bool.and_eq_true_iff, h.data] at hneeded
      exact hneeded.1.1
    refine ⟨⟨fun _ => ⟨fun _ hsome => ?_, nofun⟩, fun _ => h.charge⟩, ?_⟩
    · rw [← Option.not_isNone, hnone] at hsome
      cases hsome
    · rw [charge_file hneeded.1]
      decide

theorem follows_tcp (h : Fresh (.tcp maxConnections updateFrequency) r) {s : RequestHandlerTcp.State}
    {o : RequestHandlerTcp.Circumstances} {res : HandlerResult RequestHandlerTcp.State}
    (hexit : RequestHandlerTcp.Exit updateFrequency r s o res) :
    Follows (.tcp maxConnections updateFrequency) (.processed res.request res.success res.retry) := by
  cases hexit with
  | missing file => exact settled_missing h file
  | loop file exit =>
    have hfresh := fresh_update h file
    cases exit with
    | exhausted => exact hfresh
    | givenBack => exact settled_callback hfresh nofun _ _

theorem getDataFromFile_cases {q q' : ProducerRequest} {o : RequestHandlerFilesystem.Circumstances}
    {err : Option Error} (hb : q.header.dataSize < 2 ^ 64)
    (h : RequestHandlerFilesystem.getDataFromFile q o = (q', err)) :
    q'.file = q.file ∧ q'.needSend = q.needSend ∧ q'.data.isSome = err.isNone ∧
      q'.header.dataSize < 2 ^ 64 := by
  unfold RequestHandlerFilesystem.getDataFromFile at h
  split at h
  · cases h
    exact ⟨rfl, rfl, rfl, hb⟩
  · rename_i dataSize hsize
    have hlt : dataSize < 2 ^ 64 := by
      split at hsize
      · cases hs : o.size with
        | error err => simp [hs, Except.map] at hsize
        | ok size =>
          simp only [hs, Except.map, Except.ok.injEq] at hsize
          exact hsize ▸ Nat.mod_lt _ (by decide)
      · cases hsize
        exact hb
    split at h
    · cases h
      exact ⟨rfl, rfl, rfl, hlt⟩
    · cases h
      exact ⟨rfl, rfl, rfl, hlt⟩

theorem follows_filesystem (h : Fresh .filesystem r) (o : RequestHandlerFilesystem.Circumstances)
    {res : HandlerResult Unit} (hres : RequestHandlerFilesystem.processRequestUnlocked r o = res) :
    Follows .filesystem (.processed res.request res.success res.retry) := by
  unfold RequestHandlerFilesystem.processRequestUnlocked at hres
  cases hfile : r.request.dataFromFile with
  | false =>
    rw [if_neg (by simp [hfile])] at hres
    subst hres
    exact settled_callback h (fun _ => h.dataFromFile.symm.trans hfile) _ _
  | true =>
    have hadmitted := h.dataFromFile.symm.trans hfile
    obtain ⟨⟨q, err⟩, hx⟩ : ∃ x, RequestHandlerFilesystem.getDataFromFile r.request o = x := ⟨_, rfl⟩
    rw [if_pos hfile, hx] at hres
    obtain ⟨hqfile, hqsend, hqdata, hqsize⟩ := getDataFromFile_cases (h.bound rfl) hx
    obtain ⟨hnone, hsend⟩ := Bool.and_eq_true_iff.mp ((dataFromFile_eq _).symm.trans hfile)
    cases err with
    | some err =>
      subst hres
      have hdata : q.data = none := by simpa using hqdata
      exact ⟨hdata.trans ((Option.isNone_iff_eq_none.mp hnone).symm.trans h.data),
        hqsend.trans h.needSend, by rw [← h.file, ← hqfile], by simp [hadmitted], h.admittedBound,
        fun _ => hqsize⟩
    | none =>
      subst hres
      refine settled_loaded (q := { r with request := q }) hadmitted ?_ hqdata hqsize _ _
      rw [hqfile, hqsend]
      exact hsend

theorem follows_process (h : Fresh k r) (s : k.handler.State) (o : k.handler.Outcome) :
    Follows k (.processed (k.handler.processRequestUnlocked s r o).request
      (k.handler.processRequestUnlocked s r o).success (k.handler.processRequestUnlocked s r o).retry) := by
  cases k with
  | tcp maxConnections updateFrequency =>
    exact follows_tcp h (RequestHandlerTcp.processRequestUnlocked_exit updateFrequency r s o)
  | filesystem => exact follows_filesystem h o rfl

theorem process_admitted (k : HandlerKind) (r : PoolRequest) (s : k.handler.State) (o : k.handler.Outcome) :
    (k.handler.processRequestUnlocked s r o).request.admitted = r.admitted := by
  cases k with
  | tcp => exact (RequestHandlerTcp.processRequestUnlocked_same _ r s o).admitted
  | filesystem => exact (RequestHandlerFilesystem.processRequestUnlocked_same r o).admitted

end Handlers

def inProgress {S : Type} (w : Worker S) : ℕ :=
  match w.pc with
  | .processing _ | .processed _ _ _ => 1
  | _ => 0

structure Inv (s : PoolSystem k n) : Prop extends Accounted s where
  progress : Balanced (fun p => p.requestsInProgress) (fun _ => 0) inProgress s
  queue : ∀ r ∈ s.shared.queue, Fresh k r
  threads : ∀ i, Follows k (s.threads i).pc
  bound : s.shared.memoryUsed < 2 ^ 64

theorem inv_start (k : HandlerKind) (n : ℕ) (limits : RequestPoolLimits) : Inv (start k n limits) where
  memory := by simp [Interleaving.Balanced, start, create, queuedMemory, heldMemory, Pc.requests]
  requests := by simp [Interleaving.Balanced, start, create, nRequestsInPool, heldRequests, Pc.requests]
  progress := by simp [Interleaving.Balanced, start, create, inProgress]
  queue r hr := by cases hr
  threads _ := trivial
  bound := Nat.two_pow_pos 64

theorem fresh_numbered {rs : List Submission} (id : ℕ)
    (h : ∀ r ∈ rs, r.request.header.dataSize < 2 ^ 64) : ∀ r ∈ numbered id rs, Fresh k r := by
  induction rs generalizing id with
  | nil =>
    intro r hr
    cases hr
  | cons q rs ih =>
    intro r hr
    rw [numbered, List.mem_cons] at hr
    obtain rfl | hr := hr
    · have hq := h q List.mem_cons_self
      exact ⟨rfl, rfl, rfl, fun _ => rfl, hq, fun _ => hq⟩
    · exact ih (id + 1) (fun r hr => h r (List.mem_cons_of_mem _ hr)) r hr

theorem charge_numbered (rs : List Submission) (id : ℕ) :
    ((numbered id rs).map admittedCharge).sum = (rs.map (fun r => charge r.request)).sum := by
  induction rs generalizing id with
  | nil => rfl
  | cons r rs ih => simp [numbered, ih, admittedCharge]

theorem orders_memory {s : PoolSystem k n} (hs : Inv s) {t : RequestPool} {rs : List Submission}
    (hm : t.memoryUsed = Word.add s.shared.memoryUsed (totalSize rs))
    (hq : t.queue.Perm (s.shared.queue ++ numbered s.shared.accepted.length rs)) :
    Balanced (fun p => p.memoryUsed) queuedMemory heldMemory { s with shared := t } ↔
      s.shared.memoryUsed + (rs.map (fun r => charge r.request)).sum < 2 ^ 64 := by
  have hqueued : queuedMemory t = queuedMemory s.shared + (rs.map (fun r => charge r.request)).sum := by
    rw [queuedMemory, (hq.map _).sum_eq, List.map_append, List.sum_append, charge_numbered]
    rfl
  rw [balanced_shared hs.memory, hm, hqueued, Word.add, totalSize_eq, Nat.add_mod_mod]
  omega

theorem orders_requests {s : PoolSystem k n} (hs : Inv s) {t : RequestPool} {new : List PoolRequest}
    (hp : t.requestsInProgress = s.shared.requestsInProgress)
    (hq : t.queue.Perm (s.shared.queue ++ new)) :
    Balanced nRequestsInPool (fun p => p.queue.length) heldRequests { s with shared := t } := by
  rw [balanced_shared hs.requests, nRequestsInPool, nRequestsInPool, hp, hq.length_eq]
  simp only [List.length_append]
  omega

theorem inv_order {s : PoolSystem k n} (hs : Inv s) {e : Order} {t : RequestPool}
    (h : Orders s.shared e t) :
    (Orderly s (.world e) → Inv { s with shared := t }) ∧
      (¬ Orderly s (.world e) → ¬ Accounted { s with shared := t }) := by
  cases h with
  | leave limits accepted =>
    have hfit : s.shared.memoryUsed + ((s.shared.acceptedBy e).map (fun r => charge r.request)).sum < 2 ^ 64 := by
      rw [accepted]
      exact hs.bound
    exact ⟨fun _ => ⟨⟨hs.memory, hs.requests⟩, hs.progress, hs.queue, hs.threads, hs.bound⟩,
      fun hn => absurd hfit hn⟩
  | @accept rs topPriority accepted sizes =>
    obtain ⟨queue, he, hperm⟩ := enqueueAll_eq s.shared rs topPriority
    rw [he]
    have hmemory := orders_memory hs (t := { s.shared with
      queue
      accepted := s.shared.accepted ++ rs
      memoryUsed := Word.add s.shared.memoryUsed (totalSize rs) }) rfl hperm
    refine ⟨fun hfit => ?_, fun hn ha => ?_⟩
    · have hfit' : s.shared.memoryUsed + (rs.map (fun r => charge r.request)).sum < 2 ^ 64 := accepted ▸ hfit
      refine ⟨⟨hmemory.mpr hfit', orders_requests hs rfl hperm⟩, hs.progress, fun r hr => ?_, hs.threads, ?_⟩
      · obtain hr | hr := List.mem_append.mp (hperm.mem_iff.mp hr)
        · exact hs.queue r hr
        · exact fresh_numbered _ sizes r hr
      · exact Nat.mod_lt _ (by decide)
    · apply hn
      rw [Orderly, accepted]
      exact hmemory.mp ha.memory

theorem inv_update {s : PoolSystem k n} (hs : Inv s) (i : Fin n) {t : RequestPool}
    {m : Worker k.handler.State}
    (hmemory : t.memoryUsed + queuedMemory s.shared + heldMemory (s.threads i) =
      s.shared.memoryUsed + queuedMemory t + heldMemory m)
    (hrequests : t.requestsInProgress + heldRequests (s.threads i) =
      s.shared.requestsInProgress + heldRequests m)
    (hprogress : t.requestsInProgress + inProgress (s.threads i) =
      s.shared.requestsInProgress + inProgress m)
    (hqueue : ∀ r ∈ t.queue, Fresh k r) (hm : Follows k m.pc) (hbound : t.memoryUsed < 2 ^ 64) :
    Inv ⟨t, Function.update s.threads i m⟩ where
  memory := (balanced_update hs.memory i t m).mpr hmemory
  requests := (balanced_update hs.requests i t m).mpr (by
    simp only [nRequestsInPool]
    omega)
  progress := (balanced_update hs.progress i t m).mpr (by omega)
  queue := hqueue
  threads := forall_update (P := fun w : Worker k.handler.State => Follows k w.pc) hs.threads i hm
  bound := hbound

theorem progress_pos {s : PoolSystem k n} (hs : Inv s) {i : Fin n} (hi : inProgress (s.threads i) = 1) :
    1 ≤ s.shared.requestsInProgress := by
  have hle := weight_le_sum inProgress s.threads i
  have hsum : s.shared.requestsInProgress = 0 + ∑ i, inProgress (s.threads i) := hs.progress
  omega

theorem heldMemory_le {s : PoolSystem k n} (hs : Inv s) (i : Fin n) :
    heldMemory (s.threads i) ≤ s.shared.memoryUsed := by
  have hle := weight_le_sum heldMemory s.threads i
  have hsum : s.shared.memoryUsed = queuedMemory s.shared + ∑ i, heldMemory (s.threads i) := hs.memory
  omega

theorem finish_memory {memoryUsed : ℕ} {q : ProducerRequest} (h : memoryUsed < 2 ^ 64) :
    (if q.containsData then Word.sub memoryUsed q.header.dataSize else memoryUsed) =
      Word.sub memoryUsed (charge q) := by
  unfold charge
  split
  · rfl
  · exact (Word.sub_eq h (Nat.zero_le _)).symm

theorem inv_finish {s : PoolSystem k n} (hs : Inv s) {i : Fin n} {success : Bool} {t : RequestPool}
    (pc : (s.threads i).pc = .processed r success false) (hqueue : t.queue = s.shared.queue)
    (hprogress : t.requestsInProgress = s.shared.requestsInProgress - 1)
    (hmemory : t.memoryUsed = Word.sub s.shared.memoryUsed (charge r.request)) :
    (Settles k r → Inv ⟨t, Function.update s.threads i { s.threads i with pc := .waiting }⟩) ∧
      (¬ Settles k r → ¬ Accounted ⟨t, Function.update s.threads i { s.threads i with pc := .waiting }⟩) := by
  have hsettled : Settled k r := by
    have hfollows := hs.threads i
    rw [pc] at hfollows
    exact hfollows
  have hpos := progress_pos hs (i := i) (by simp [inProgress, pc])
  have hheld : heldMemory (s.threads i) = charge r.admitted := by
    simp [heldMemory, pc, Pc.requests, admittedCharge]
  have hsub := Word.sub_add_eq_iff hs.bound hsettled.bound (hheld ▸ heldMemory_le hs i)
  rw [hsettled.iff, ← hmemory] at hsub
  refine ⟨fun hsettles => ?_, fun hn ha => hn ?_⟩
  · apply inv_update hs
    · have hback := hsub.mpr hsettles
      rw [hheld]
      simp only [queuedMemory, heldMemory, hqueue, Pc.requests, List.map_nil, List.sum_nil]
      omega
    · simp [heldRequests, pc, Pc.requests]
      omega
    · simp [inProgress, pc]
      omega
    · exact fun r' hr' => hs.queue r' (hqueue ▸ hr')
    · trivial
    · rw [hmemory]
      exact Nat.mod_lt _ (Nat.two_pow_pos 64)
  · have hbalance := (balanced_update hs.memory i _ _).mp ha.memory
    rw [hheld] at hbalance
    simp only [queuedMemory, heldMemory, hqueue, Pc.requests, List.map_nil, List.sum_nil] at hbalance
    exact hsub.mp (by omega)

theorem inv_take {s : PoolSystem k n} (hs : Inv s) {i : Fin n} {queue : List PoolRequest} {t : RequestPool}
    {m : Worker k.handler.State} (pc : (s.threads i).pc = .waiting) (queued : s.shared.queue = r :: queue)
    (hqueue : t.queue = queue) (hmemory : t.memoryUsed = s.shared.memoryUsed)
    (hprogress : t.requestsInProgress = s.shared.requestsInProgress + 1) (hm : m.pc = .processing r) :
    Inv ⟨t, Function.update s.threads i m⟩ := by
  apply inv_update hs
  · simp [queuedMemory, heldMemory, pc, queued, hm, hqueue, hmemory, Pc.requests]
    omega
  · simp [heldRequests, pc, hm, hprogress, Pc.requests]
  · simp [inProgress, pc, hm, hprogress]
  · rw [hqueue]
    exact fun r' hr' => hs.queue r' (queued ▸ List.mem_cons_of_mem _ hr')
  · rw [hm]
    exact hs.queue r (queued ▸ List.mem_cons_self)
  · rw [hmemory]
    exact hs.bound

theorem inv_putBack {s : PoolSystem k n} (hs : Inv s) {i : Fin n} {success : Bool} {t : RequestPool}
    (pc : (s.threads i).pc = .processed r success true)
    (hqueue : t.queue = { r with retryCounter := r.retryCounter + 1 } :: s.shared.queue)
    (hmemory : t.memoryUsed = s.shared.memoryUsed)
    (hprogress : t.requestsInProgress = s.shared.requestsInProgress - 1) :
    Inv ⟨t, Function.update s.threads i { s.threads i with pc := .waiting }⟩ := by
  have hfresh : Fresh k r := by
    have hfollows := hs.threads i
    rw [pc] at hfollows
    exact hfollows
  have hpos := progress_pos hs (i := i) (by simp [inProgress, pc])
  apply inv_update hs
  · simp [queuedMemory, heldMemory, pc, hqueue, hmemory, Pc.requests, admittedCharge]
    omega
  · simp [heldRequests, pc, hprogress, Pc.requests]
    omega
  · simp [inProgress, pc, hprogress]
    omega
  · rw [hqueue]
    rintro r' (- | ⟨_, hr'⟩)
    · exact ⟨hfresh.data, hfresh.needSend, hfresh.file, hfresh.size, hfresh.admittedBound, hfresh.bound⟩
    · exact hs.queue r' hr'
  · trivial
  · rw [hmemory]
    exact hs.bound

theorem inv_act {s : PoolSystem k n} (hs : Inv s) {i : Fin n} {a : Work k.handler.Outcome}
    {t : RequestPool} {m : Worker k.handler.State} (h : Acts k.handler s.shared (s.threads i) a t m) :
    (Orderly s (.thread i a) → Inv ⟨t, Function.update s.threads i m⟩) ∧
      (¬ Orderly s (.thread i a) → ¬ Accounted ⟨t, Function.update s.threads i m⟩) := by
  have hfollows := hs.threads i
  cases h with
  | @take d r queue pc queued ready inTime =>
    refine ⟨fun _ => inv_take hs pc queued rfl rfl rfl rfl, fun hn => absurd (fun r' hr' => ?_) hn⟩
    rw [queued] at hr'
    cases hr'
    exact inTime
  | @takeLate d r queue pc queued late =>
    refine ⟨fun hc => ?_, fun _ ha => ?_⟩
    · have hin := hc r (by rw [queued]; rfl)
      rw [late] at hin
      cases hin
    · have hrequests := (balanced_update hs.requests i _ _).mp ha.requests
      simp [nRequestsInPool, heldRequests, pc, queued, Pc.requests] at hrequests
      omega
  | @process o r pc =>
    rw [pc] at hfollows
    refine ⟨fun _ => ?_, fun hn => absurd trivial hn⟩
    apply inv_update hs
    · simp [queuedMemory, heldMemory, pc, Pc.requests, admittedCharge, process_admitted]
    · simp [heldRequests, pc, Pc.requests]
    · simp [inProgress, pc]
    · exact hs.queue
    · exact follows_process hfollows _ o
    · exact hs.bound
  | timeOut pc =>
    rw [pc] at hfollows
    exact hfollows.elim
  | @putBack r success pc =>
    refine ⟨fun _ => inv_putBack hs pc rfl rfl rfl, fun hn => absurd (fun r' success' hpc => ?_) hn⟩
    rw [pc] at hpc
    cases hpc
  | @finish r success pc =>
    obtain ⟨hinv, hnot⟩ := inv_finish hs pc (t := { s.shared with
      requestsInProgress := s.shared.requestsInProgress - 1
      sharedCounter := k.handler.tearDownProcessingRequestLocked success s.shared.sharedCounter
      memoryUsed := if r.request.containsData then Word.sub s.shared.memoryUsed r.request.header.dataSize
        else s.shared.memoryUsed }) rfl rfl (finish_memory hs.bound)
    refine ⟨fun hc => hinv (hc r success pc), fun hn => hnot fun hsettles => hn fun r' success' hpc => ?_⟩
    rw [pc] at hpc
    cases hpc
    exact hsettles
  | drop pc =>
    rw [pc] at hfollows
    exact hfollows.elim

theorem inv_step (s : PoolSystem k n) (e : PoolEvent k n) (t : PoolSystem k n) (hs : Inv s)
    (ht : poolStep s e = some t) : (Orderly s e → Inv t) ∧ (¬ Orderly s e → ¬ Accounted t) := by
  cases e with
  | thread i a =>
    obtain ⟨⟨p, m⟩, hx, rfl⟩ := Option.map_eq_some_iff.mp ht
    exact inv_act hs (acts_of_act hx)
  | world e =>
    obtain ⟨p, hx, rfl⟩ := Option.map_eq_some_iff.mp ht
    exact inv_order hs (orders_of_order hx)

/-- The pool counts its requests and their memory right in exactly the runs whose steps are
orderly. -/
theorem pool_accounted_iff (k : HandlerKind) (n : ℕ) (limits : RequestPoolLimits)
    (events : List (PoolEvent k n)) :
    Always poolStep Accounted (start k n limits) events ↔
      Along poolStep Orderly (start k n limits) events := by
  exact always_iff_along (fun s (hs : Inv s) => hs.toAccounted)
    (fun s e t hs hc ht => (inv_step s e t hs ht).1 hc) (fun s e t hs hn ht => (inv_step s e t hs ht).2 hn)
    _ _ (inv_start k n limits)

def shortLived : Submission where
  request := ⟨⟨.transferData, 1, 10, 0, ![9, 0, 0], text "a", text "stream", text "v0.5"⟩,
    some (fun _ => 0), [], none⟩
  callback := true
  timeoutMs := 100
  createdAt := 0

theorem memory_of_late_request_kept :
    ¬ ∀ (k : HandlerKind) (n : ℕ) (limits : RequestPoolLimits) (events : List (PoolEvent k n)),
      Always poolStep Accounted (start k n limits) events := by
  intro h
  have hrun : (exec poolStep (start (.tcp 1 0) 1 ⟨0, 0⟩)
      [.world (.addRequest shortLived false), .thread 0 (.take ⟨101, []⟩), .thread 0 .timeOut,
        .thread 0 .finish]).any (fun t =>
      t.shared.memoryUsed = 10 ∧ t.shared.queue.length = 0 ∧ heldMemory (t.threads 0) = 0) = true := by
    decide +kernel
  obtain ⟨t, ht, hx⟩ := (Option.any_eq_true _ _).mp hrun
  obtain ⟨hused, hqueue, hheld⟩ := of_decide_eq_true hx
  have hmemory : t.shared.memoryUsed = queuedMemory t.shared + ∑ i, heldMemory (t.threads i) :=
    (always_exec _ t _ (h _ 1 _ _) ht).memory
  rw [queuedMemory, List.length_eq_zero_iff.mp hqueue, Fin.sum_univ_one, hheld, hused] at hmemory
  cases hmemory

end Asapo.Producer.PoolAccounting
