import Asapo.Common.Networking
import Asapo.Interleaving
import Asapo.Producer.ProducerRequest

namespace Asapo.Producer

def ProducerRequest.containsData (r : ProducerRequest) : Bool := !r.dataFromFile

structure Submission where
  request : ProducerRequest
  callback : Bool
  timeoutMs : ℕ
  createdAt : ℤ

/-- A request that the pool has accepted, with its number and with what it was at that time. -/
structure PoolRequest extends Submission where
  id : ℕ
  admitted : ProducerRequest
  retryCounter : ℕ

/-- A time before the creation is converted to a large number. -/
def PoolRequest.timedOut (r : PoolRequest) (now : ℤ) : Bool :=
  if r.timeoutMs = 0 then false else ((now - r.createdAt) % 2 ^ 64).toNat > r.timeoutMs

structure RequestCallbackPayload where
  originalHeader : GenericRequestHeader
  data : Option (ℕ → UInt8)
  response : Text

inductive Effect where
  | sent (id : ℕ) (receiver : Text)
  | called (id : ℕ) (payload : RequestCallbackPayload) (err : Option Error)

structure Discovery where
  now : ℤ
  uris : List Text

structure HandlerResult (S : Type) where
  state : S
  request : PoolRequest
  effects : List Effect
  success : Bool
  retry : Bool

/-- The interface of the handlers, with the shared counter as a number and with all that
can happen while a request is processed as its outcome. -/
structure RequestHandler where
  State : Type
  Outcome : Type
  initial : State
  readyProcessRequest : State → ℕ → Bool
  prepareProcessingRequestLocked : Discovery → State → ℕ → State × ℕ
  processRequestUnlocked : State → PoolRequest → Outcome → HandlerResult State
  tearDownProcessingRequestLocked : Bool → ℕ → ℕ
  processRequestTimeoutUnlocked : PoolRequest → PoolRequest × List Effect

structure RequestPoolLimits where
  maxRequests : ℕ
  maxMemoryMb : ℕ
  deriving DecidableEq, Repr

structure RequestPool where
  queue : List PoolRequest
  requestsInProgress : ℕ
  memoryUsed : ℕ
  sharedCounter : ℕ
  limits : RequestPoolLimits
  accepted : List Submission
  history : List Effect

namespace RequestPool

def create (limits : RequestPoolLimits) : RequestPool := ⟨[], 0, 0, 0, limits, [], []⟩

def nRequestsInPool (p : RequestPool) : ℕ := p.queue.length + p.requestsInProgress

def charge (r : ProducerRequest) : ℕ := if r.containsData then r.header.dataSize else 0

def tooManyRequests (p : RequestPool) : Option Error :=
  some (IOErrorTemplates.noSpaceLeft.generate
    ("reached maximum number of " ++ toString p.limits.maxRequests ++ " requests"))

def tooMuchMemory (p : RequestPool) : Option Error :=
  some (IOErrorTemplates.noSpaceLeft.generate
    ("reached maximum memory capacity of " ++ toString p.limits.maxMemoryMb ++ " MB"))

def maxMemory (p : RequestPool) : ℕ := p.limits.maxMemoryMb * 1000000 % 2 ^ 64

def canAddRequest (p : RequestPool) (r : ProducerRequest) (topPriority : Bool) : Option Error :=
  if topPriority then none
  else if p.limits.maxRequests > 0 ∧ p.nRequestsInPool ≥ p.limits.maxRequests then p.tooManyRequests
  else if !r.containsData then none
  else if p.limits.maxMemoryMb > 0 ∧ Word.add p.memoryUsed r.header.dataSize > p.maxMemory then
    p.tooMuchMemory
  else none

def totalSize (rs : List Submission) : ℕ := rs.foldl (fun n r => Word.add n (charge r.request)) 0

def canAddRequests (p : RequestPool) (rs : List Submission) : Option Error :=
  if p.nRequestsInPool + rs.length > p.limits.maxRequests ∧ p.limits.maxRequests > 0 then
    p.tooManyRequests
  else if p.limits.maxMemoryMb = 0 then none
  else if Word.add p.memoryUsed (totalSize rs) > p.maxMemory then p.tooMuchMemory
  else none

def enqueue (p : RequestPool) (r : Submission) (topPriority : Bool) : RequestPool :=
  let request : PoolRequest := ⟨r, p.accepted.length, r.request, 0⟩
  { p with
    queue := if topPriority then request :: p.queue else p.queue ++ [request]
    accepted := p.accepted ++ [r] }

def enqueueAll (p : RequestPool) (rs : List Submission) (topPriority : Bool) : RequestPool :=
  rs.foldl (fun p r => p.enqueue r topPriority) p

def addRequest (p : RequestPool) (r : Submission) (topPriority : Bool) : RequestPool × Option Error :=
  match p.canAddRequest r.request topPriority with
  | some err => (p, some err)
  | none =>
    ({ p.enqueue r topPriority with memoryUsed := Word.add p.memoryUsed (charge r.request) }, none)

def addRequests (p : RequestPool) (rs : List Submission) : RequestPool × Option Error :=
  match p.canAddRequests rs with
  | some err => (p, some err)
  | none =>
    ({ p.enqueueAll rs true with memoryUsed := Word.add p.memoryUsed (totalSize rs) }, none)

def putRequestBackToQueue (p : RequestPool) (r : PoolRequest) : RequestPool :=
  { p with queue := { r with retryCounter := r.retryCounter + 1 } :: p.queue }

end RequestPool

/-- Where a thread of the pool is. The mutex is free in all of these states. -/
inductive Pc where
  | waiting
  | processing (r : PoolRequest)
  | processed (r : PoolRequest) (success retry : Bool)
  | timingOut (r : PoolRequest)
  | timedOut (r : PoolRequest)

/-- The requests that a thread has taken from the queue. -/
def Pc.requests : Pc → List PoolRequest
  | .waiting => []
  | .processing r | .processed r _ _ | .timingOut r | .timedOut r => [r]

structure Worker (S : Type) where
  handler : S
  pc : Pc

/-- The steps of a thread: from one release of the mutex to the next, and what the handler
does without it. -/
inductive Work (O : Type) where
  | take (d : Discovery)
  | process (o : O)
  | timeOut
  | finish

inductive Order where
  | addRequest (r : Submission) (topPriority : Bool)
  | addRequests (rs : List Submission)
  | setLimits (limits : RequestPoolLimits)

namespace RequestPool

def takeRequest (h : RequestHandler) (d : Discovery) (p : RequestPool) (w : Worker h.State)
    (r : PoolRequest) (queue : List PoolRequest) : RequestPool × Worker h.State :=
  if r.timedOut d.now then ({ p with queue }, { w with pc := .timingOut r })
  else
    let (state, counter) := h.prepareProcessingRequestLocked d w.handler p.sharedCounter
    ({ p with
        queue
        requestsInProgress := p.requestsInProgress + 1
        sharedCounter := counter }, ⟨state, .processing r⟩)

def finishRequest (h : RequestHandler) (p : RequestPool) (r : PoolRequest) (success retry : Bool) :
    RequestPool :=
  let p := { p with
    requestsInProgress := p.requestsInProgress - 1
    sharedCounter := h.tearDownProcessingRequestLocked success p.sharedCounter }
  if retry then p.putRequestBackToQueue r
  else if r.request.containsData then
    { p with memoryUsed := Word.sub p.memoryUsed r.request.header.dataSize }
  else p

def act (h : RequestHandler) (p : RequestPool) (w : Worker h.State) :
    Work h.Outcome → Option (RequestPool × Worker h.State)
  | .take d =>
    match w.pc, p.queue with
    | .waiting, r :: queue =>
      if h.readyProcessRequest w.handler p.sharedCounter then some (takeRequest h d p w r queue) else none
    | _, _ => none
  | .process o =>
    match w.pc with
    | .processing r =>
      let res := h.processRequestUnlocked w.handler r o
      some ({ p with history := p.history ++ res.effects },
        ⟨res.state, .processed res.request res.success res.retry⟩)
    | _ => none
  | .timeOut =>
    match w.pc with
    | .timingOut r =>
      let (r, effects) := h.processRequestTimeoutUnlocked r
      some ({ p with history := p.history ++ effects }, { w with pc := .timedOut r })
    | _ => none
  | .finish =>
    match w.pc with
    | .processed r success retry =>
      some (finishRequest h p r success retry, { w with pc := .waiting })
    | .timedOut _ => some (p, { w with pc := .waiting })
    | _ => none

/-- The sizes in the headers have 64 bits. -/
def order (p : RequestPool) : Order → Option RequestPool
  | .addRequest r topPriority =>
    if r.request.header.dataSize < 2 ^ 64 then some (p.addRequest r topPriority).1 else none
  | .addRequests rs =>
    if ∀ r ∈ rs, r.request.header.dataSize < 2 ^ 64 then some (p.addRequests rs).1 else none
  | .setLimits limits => some { p with limits }

def numbered : ℕ → List Submission → List PoolRequest
  | _, [] => []
  | id, r :: rs => ⟨r, id, r.request, 0⟩ :: numbered (id + 1) rs

theorem enqueueAll_eq (p : RequestPool) (rs : List Submission) (topPriority : Bool) :
    ∃ queue, p.enqueueAll rs topPriority = { p with queue, accepted := p.accepted ++ rs } ∧
      queue.Perm (p.queue ++ numbered p.accepted.length rs) := by
  induction rs generalizing p with
  | nil => exact ⟨p.queue, by simp [enqueueAll], by simp [numbered]⟩
  | cons r rs ih =>
    obtain ⟨queue, he, hperm⟩ := ih (p.enqueue r topPriority)
    refine ⟨queue, ?_, hperm.trans ?_⟩
    · change (p.enqueue r topPriority).enqueueAll rs topPriority = _
      rw [he]
      simp [enqueue]
    · simp only [enqueue, numbered, List.length_append, List.length_singleton]
      split
      · exact List.perm_middle.symm
      · rw [List.append_assoc]
        exact .refl _

def acceptedBy (p : RequestPool) : Order → List Submission
  | .addRequest r topPriority => if p.canAddRequest r.request topPriority = none then [r] else []
  | .addRequests rs => if p.canAddRequests rs = none then rs else []
  | .setLimits _ => []

inductive Orders (p : RequestPool) (e : Order) : RequestPool → Prop
  | accept {rs} (topPriority : Bool) (accepted : p.acceptedBy e = rs)
      (sizes : ∀ r ∈ rs, r.request.header.dataSize < 2 ^ 64) :
      Orders p e { p.enqueueAll rs topPriority with memoryUsed := Word.add p.memoryUsed (totalSize rs) }
  | leave (limits : RequestPoolLimits) (accepted : p.acceptedBy e = []) : Orders p e { p with limits }

theorem totalSize_eq (rs : List Submission) :
    totalSize rs = (rs.map (fun r => charge r.request)).sum % 2 ^ 64 := by
  have hfold : ∀ n, rs.foldl (fun n r => Word.add n (charge r.request)) n % 2 ^ 64 =
      (n + (rs.map (fun r => charge r.request)).sum) % 2 ^ 64 := by
    induction rs with
    | nil => simp
    | cons r rs ih =>
      intro n
      rw [List.foldl_cons, ih, List.map_cons, List.sum_cons, Word.add, Nat.mod_add_mod]
      congr 1
      omega
  have hlt : totalSize rs < 2 ^ 64 := by
    unfold totalSize
    induction rs using List.reverseRecOn with
    | nil => simp
    | append_singleton rs r =>
      rw [List.foldl_append]
      exact Nat.mod_lt _ (by decide)
  rw [← Nat.mod_eq_of_lt hlt, totalSize, hfold, Nat.zero_add]

theorem charge_le (r : ProducerRequest) : charge r ≤ r.header.dataSize := by
  unfold charge
  split <;> omega

theorem orders_of_order {p t : RequestPool} {e : Order} (h : p.order e = some t) : Orders p e t := by
  cases e with
  | setLimits limits =>
    cases h
    exact .leave limits rfl
  | addRequest r topPriority =>
    rw [order] at h
    split at h <;> cases h
    rename_i hsize
    unfold addRequest
    cases hcan : p.canAddRequest r.request topPriority with
    | some err => exact .leave p.limits (by simp [acceptedBy, hcan])
    | none =>
      have htotal : totalSize [r] = charge r.request := by
        rw [totalSize_eq, List.map_singleton, List.sum_singleton]
        exact Nat.mod_eq_of_lt (Nat.lt_of_le_of_lt (charge_le _) hsize)
      rw [← htotal]
      have haccepted : p.acceptedBy (.addRequest r topPriority) = [r] := by simp [acceptedBy, hcan]
      exact .accept topPriority haccepted (by simpa using hsize)
  | addRequests rs =>
    rw [order] at h
    split at h <;> cases h
    rename_i hsize
    unfold addRequests
    cases hcan : p.canAddRequests rs with
    | some err => exact .leave p.limits (by simp [acceptedBy, hcan])
    | none => exact .accept true (by simp [acceptedBy, hcan]) hsize

inductive Acts (h : RequestHandler) (p : RequestPool) (w : Worker h.State) :
    Work h.Outcome → RequestPool → Worker h.State → Prop
  | take {d r queue} (pc : w.pc = .waiting) (queued : p.queue = r :: queue)
      (ready : h.readyProcessRequest w.handler p.sharedCounter = true) (inTime : r.timedOut d.now = false) :
      Acts h p w (.take d)
        { p with
          queue
          requestsInProgress := p.requestsInProgress + 1
          sharedCounter := (h.prepareProcessingRequestLocked d w.handler p.sharedCounter).2 }
        ⟨(h.prepareProcessingRequestLocked d w.handler p.sharedCounter).1, .processing r⟩
  | takeLate {d r queue} (pc : w.pc = .waiting) (queued : p.queue = r :: queue)
      (late : r.timedOut d.now = true) :
      Acts h p w (.take d) { p with queue } { w with pc := .timingOut r }
  | process {o r} (pc : w.pc = .processing r) :
      Acts h p w (.process o)
        { p with history := p.history ++ (h.processRequestUnlocked w.handler r o).effects }
        ⟨(h.processRequestUnlocked w.handler r o).state,
          .processed (h.processRequestUnlocked w.handler r o).request
            (h.processRequestUnlocked w.handler r o).success
            (h.processRequestUnlocked w.handler r o).retry⟩
  | timeOut {r} (pc : w.pc = .timingOut r) :
      Acts h p w .timeOut { p with history := p.history ++ (h.processRequestTimeoutUnlocked r).2 }
        { w with pc := .timedOut (h.processRequestTimeoutUnlocked r).1 }
  | putBack {r success} (pc : w.pc = .processed r success true) :
      Acts h p w .finish
        { p with
          requestsInProgress := p.requestsInProgress - 1
          sharedCounter := h.tearDownProcessingRequestLocked success p.sharedCounter
          queue := { r with retryCounter := r.retryCounter + 1 } :: p.queue }
        { w with pc := .waiting }
  | finish {r success} (pc : w.pc = .processed r success false) :
      Acts h p w .finish
        { p with
          requestsInProgress := p.requestsInProgress - 1
          sharedCounter := h.tearDownProcessingRequestLocked success p.sharedCounter
          memoryUsed := if r.request.containsData then Word.sub p.memoryUsed r.request.header.dataSize
            else p.memoryUsed }
        { w with pc := .waiting }
  | drop {r} (pc : w.pc = .timedOut r) : Acts h p w .finish p { w with pc := .waiting }

theorem acts_of_act {h : RequestHandler} {p t : RequestPool} {w m : Worker h.State} {a : Work h.Outcome}
    (hx : act h p w a = some (t, m)) : Acts h p w a t m := by
  cases a with
  | take d =>
    rw [act] at hx
    split at hx
    · rename_i r queue hpc hqueue
      split at hx
      · rename_i hready
        rw [Option.some.injEq, takeRequest] at hx
        split at hx <;> rename_i hlate <;> cases hx
        · exact .takeLate hpc hqueue hlate
        · exact .take hpc hqueue hready (by simpa using hlate)
      · cases hx
    · cases hx
  | process o =>
    rw [act] at hx
    split at hx
    · rename_i r hpc
      cases hx
      exact .process hpc
    · cases hx
  | timeOut =>
    rw [act] at hx
    split at hx
    · rename_i r hpc
      cases hx
      exact .timeOut hpc
    · cases hx
  | finish =>
    rw [act] at hx
    split at hx
    · rename_i r success retry hpc
      cases hx
      cases retry with
      | true => exact .putBack hpc
      | false =>
        have hf := Acts.finish (p := p) hpc
        unfold finishRequest
        cases hdata : r.request.containsData with
        | true => simpa [hdata] using hf
        | false => simpa [hdata] using hf
    · rename_i r hpc
      cases hx
      exact .drop hpc
    · cases hx

end RequestPool

end Asapo.Producer
