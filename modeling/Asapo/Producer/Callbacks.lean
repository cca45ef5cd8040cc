import Asapo.Interleaving
import Asapo.Producer.HandlerExits

namespace Asapo.Producer.Callbacks

open Interleaving Transition RequestPool RequestHandlerTcp

def callsOf (id : ℕ) : Effect → Bool
  | .called id' _ _ => id' = id
  | .sent _ _ => false

def sendsOf (id : ℕ) : Effect → Bool
  | .sent id' _ => id' = id
  | .called _ _ _ => false

def calls (id : ℕ) (history : List Effect) : ℕ := history.countP (callsOf id)

def hasCallback (id : ℕ) (p : RequestPool) : Bool := p.accepted[id]?.any (fun r => r.callback)

def Held {n : ℕ} (id : ℕ) (s : TcpSystem n) : Prop := ∃ i, ∃ r ∈ (s.threads i).pc.requests, r.id = id

def Queued {n : ℕ} (id : ℕ) (s : TcpSystem n) : Prop := ∃ r ∈ s.shared.queue, r.id = id

/-- The callback of an accepted request is called at most once, the request has left the queue
and the threads exactly if it has been called and the thread is done with the request, and
nothing is sent of a request behind its callback. -/
structure OneCallback {n : ℕ} (s : TcpSystem n) : Prop where
  atMostOnce : ∀ id, hasCallback id s.shared = true → calls id s.shared.history ≤ 1
  gone : ∀ id, hasCallback id s.shared = true →
    (¬ Queued id s ∧ ¬ Held id s ↔ calls id s.shared.history = 1 ∧ ¬ Held id s)
  notSentAgain : ∀ id l l' e, s.shared.history = l ++ e :: l' → callsOf id e = true →
    ∀ e' ∈ l', sendsOf id e' = false

def due (id : ℕ) (r : PoolRequest) : ℕ := if r.id = id ∧ r.callback = true then 1 else 0

def duePc (id : ℕ) : Pc → ℕ
  | .processing r | .processed r _ true | .timingOut r => due id r
  | _ => 0

def dueWorker {S : Type} (id : ℕ) (w : Worker S) : ℕ := duePc id w.pc

def owed (id : ℕ) (accepted : List Submission) : ℕ :=
  if accepted[id]?.any (fun r => r.callback) then 1 else 0

def promised (id : ℕ) (p : RequestPool) : ℕ := owed id p.accepted

def dueOrDone (id : ℕ) (p : RequestPool) : ℕ := (p.queue.map (due id)).sum + calls id p.history

def Registered (p : RequestPool) (r : PoolRequest) : Prop :=
  p.accepted[r.id]?.map (fun q => q.callback) = some r.callback

structure Inv {n : ℕ} (s : TcpSystem n) : Prop where
  balanced : ∀ id, Balanced (promised id) (dueOrDone id) (dueWorker id) s
  queue : ∀ r ∈ s.shared.queue, Registered s.shared r
  threads : ∀ i, ∀ r ∈ (s.threads i).pc.requests, Registered s.shared r
  ordered : s.shared.history.Pairwise (fun e e' => ∀ id, callsOf id e = true → sendsOf id e' = false)

theorem calls_append (id : ℕ) (l l' : List Effect) : calls id (l ++ l') = calls id l + calls id l' :=
  List.countP_append

theorem calls_sent {id : ℕ} {r : PoolRequest} {l : List Effect}
    (h : ∀ e ∈ l, ∃ uri, e = .sent r.id uri) : calls id l = 0 := by
  apply List.countP_eq_zero.mpr
  intro e he
  obtain ⟨uri, rfl⟩ := h e he
  simp [callsOf]

theorem calls_callback (id : ℕ) (err : Option Error) (r : PoolRequest) (response : Text) :
    calls id (processRequestCallback err r response).2 = due id r := by
  unfold processRequestCallback due calls
  cases r.callback <;> simp [List.countP_singleton, callsOf]

/-- What a handler does with a request outside the pool: it sends it, and calls the callback at
the end if the request is not put back. -/
structure Performs (r : PoolRequest) (retry : Bool) (effects : List Effect) : Prop where
  calls : ∀ id, calls id effects = if retry then 0 else due id r
  sends : ∀ id, ∀ e ∈ effects, sendsOf id e = true → id = r.id
  ordered : effects.Pairwise (fun e e' => ∀ id, callsOf id e = true → sendsOf id e' = false)

theorem performs_sent {r : PoolRequest} {l : List Effect} (h : ∀ e ∈ l, ∃ uri, e = .sent r.id uri) :
    Performs r true l where
  calls id := by simpa using calls_sent h
  sends id e he hs := by
    obtain ⟨uri, rfl⟩ := h e he
    exact (of_decide_eq_true hs).symm
  ordered := by
    apply List.pairwise_of_forall_mem_list
    intro e he e' he' id hc
    obtain ⟨uri, rfl⟩ := h e he
    cases hc

theorem performs_called {r : PoolRequest} {l l' : List Effect}
    (h : ∀ e ∈ l, ∃ uri, e = .sent r.id uri) (hcalls : ∀ id, Callbacks.calls id l' = due id r)
    (hsends : ∀ id, ∀ e ∈ l', sendsOf id e = false) : Performs r false (l ++ l') where
  calls id := by rw [calls_append, calls_sent h, hcalls, Nat.zero_add, if_neg Bool.false_ne_true]
  sends id e he hs := by
    obtain he | he := List.mem_append.mp he
    · obtain ⟨uri, rfl⟩ := h e he
      exact (of_decide_eq_true hs).symm
    · rw [hsends id e he] at hs
      cases hs
  ordered := by
    refine List.pairwise_append.mpr ⟨(performs_sent h).ordered, ?_, ?_⟩
    · apply List.pairwise_of_forall_mem_list
      exact fun e _ e' he' id _ => hsends id e' he'
    · exact fun e _ e' he' id _ => hsends id e' he'

theorem callback_not_sent (err : Option Error) (r : PoolRequest) (response : Text) (id : ℕ) :
    ∀ e ∈ (processRequestCallback err r response).2, sendsOf id e = false := by
  unfold processRequestCallback
  split
  · intro e he
    rw [List.mem_singleton.mp he]
    rfl
  · intro e he
    cases he

theorem performs_missing (err : Error) (r : PoolRequest) :
    Performs r false
      (if r.callback then [.called r.id ⟨r.request.header, none, []⟩ (some err)] else []) := by
  by_cases hc : r.callback = true
  · rw [if_pos hc]
    refine performs_called (l := []) nofun (fun id => ?_) (fun id e he => ?_)
    · simp [Callbacks.calls, due, hc, List.countP_singleton, callsOf]
    · rw [List.mem_singleton.mp he]
      rfl
  · rw [if_neg hc]
    refine performs_called (l := []) nofun (fun id => ?_) nofun
    simp [Callbacks.calls, due, hc]

theorem performs_exit {updateFrequency : ℕ} {r : PoolRequest} {s : State} {o : Circumstances}
    {res : HandlerResult State} (h : Exit updateFrequency r s o res) :
    Performs r res.retry res.effects := by
  cases h with
  | missing file => exact performs_missing _ r
  | loop file exit =>
    cases exit with
    | exhausted list connected sent => exact performs_sent sent
    | givenBack list connected tried sent =>
      exact performs_called sent (fun id => calls_callback id _ _ _) (callback_not_sent _ _ _)

theorem performs_timeout (r : PoolRequest) : Performs r false (processRequestTimeoutUnlocked r).2 :=
  performs_called (l := []) nofun (fun id => calls_callback id _ _ _) (callback_not_sent _ _ _)

variable {n : ℕ} {s : TcpSystem n} {i : Fin n}

theorem due_of_registered {p : RequestPool} {r : PoolRequest} (h : Registered p r) :
    due r.id r = promised r.id p := by
  unfold Registered at h
  obtain ⟨q, hq, hc⟩ := Option.map_eq_some_iff.mp h
  simp [due, promised, owed, hq, hc]

theorem not_called (hs : Inv s) {r : PoolRequest} (hr : r ∈ (s.threads i).pc.requests)
    (hdue : dueWorker r.id (s.threads i) = due r.id r) : calls r.id s.shared.history = 0 := by
  have hle := weight_le_sum (dueWorker r.id) s.threads i
  have hsum : promised r.id s.shared = dueOrDone r.id s.shared + ∑ j, dueWorker r.id (s.threads j) :=
    hs.balanced r.id
  have hone := due_of_registered (hs.threads i r hr)
  unfold dueOrDone at hsum
  omega

theorem ordered_append (hs : Inv s) {r : PoolRequest} {retry : Bool} {effects : List Effect}
    (hcalls : calls r.id s.shared.history = 0) (h : Performs r retry effects) :
    (s.shared.history ++ effects).Pairwise
      (fun e e' => ∀ id, callsOf id e = true → sendsOf id e' = false) := by
  refine List.pairwise_append.mpr ⟨hs.ordered, h.ordered, fun e he e' he' id hc => ?_⟩
  by_contra hsent
  have hid := h.sends id e' he' (by simpa using hsent)
  subst hid
  exact List.countP_eq_zero.mp hcalls e he hc

theorem due_eq_zero {id : ℕ} {r : PoolRequest} (h : r.id ≠ id) : due id r = 0 := by
  simp [due, h]

theorem dueWorker_eq_zero {id : ℕ} {w : Worker State} (h : ∀ r ∈ w.pc.requests, r.id ≠ id) :
    dueWorker id w = 0 := by
  unfold dueWorker duePc
  split
  · rename_i r hpc
    exact due_eq_zero (h r (by simp [hpc, Pc.requests]))
  · rename_i r success hpc
    exact due_eq_zero (h r (by simp [hpc, Pc.requests]))
  · rename_i r hpc
    exact due_eq_zero (h r (by simp [hpc, Pc.requests]))
  · rfl

theorem queue_due_eq_zero {id : ℕ} {queue : List PoolRequest} (h : ∀ r ∈ queue, r.id ≠ id) :
    (queue.map (due id)).sum = 0 := by
  apply List.sum_eq_zero
  intro x hx
  obtain ⟨r, hr, rfl⟩ := List.mem_map.mp hx
  exact due_eq_zero (h r hr)

theorem promised_of_callback {id : ℕ} {p : RequestPool} (h : hasCallback id p = true) :
    promised id p = 1 := if_pos h

theorem gone_iff (hs : Inv s) {id : ℕ} (hc : hasCallback id s.shared = true) :
    ¬ Queued id s ∧ ¬ Held id s ↔ calls id s.shared.history = 1 ∧ ¬ Held id s := by
  have hsum : promised id s.shared = dueOrDone id s.shared + ∑ j, dueWorker id (s.threads j) :=
    hs.balanced id
  rw [promised_of_callback hc, dueOrDone] at hsum
  refine and_congr_left (fun hheld => ⟨fun hqueued => ?_, ?_⟩)
  · have hqueue : (s.shared.queue.map (due id)).sum = 0 :=
      queue_due_eq_zero (fun r hr he => hqueued ⟨r, hr, he⟩)
    have hthreads : ∑ j, dueWorker id (s.threads j) = 0 :=
      Finset.sum_eq_zero (fun j _ => dueWorker_eq_zero (fun r hr he => hheld ⟨j, r, hr, he⟩))
    omega
  · rintro hcalls ⟨r, hr, rfl⟩
    have hdue := due_of_registered (hs.queue r hr)
    rw [promised_of_callback hc] at hdue
    have hle : due r.id r ≤ (s.shared.queue.map (due r.id)).sum :=
      List.le_sum_of_mem (List.mem_map_of_mem hr)
    omega

theorem oneCallback_of_inv (s : TcpSystem n) (hs : Inv s) : OneCallback s where
  atMostOnce id hc := by
    have hsum : promised id s.shared = dueOrDone id s.shared + ∑ j, dueWorker id (s.threads j) :=
      hs.balanced id
    rw [promised_of_callback hc, dueOrDone] at hsum
    omega
  gone id hc := gone_iff hs hc
  notSentAgain id l l' e hl hc e' he' := by
    have hordered := hs.ordered
    rw [hl, List.pairwise_append] at hordered
    exact List.rel_of_pairwise_cons hordered.2.1 he' id hc

theorem inv_update (hs : Inv s) {t : RequestPool} {m : Worker State}
    (haccepted : t.accepted = s.shared.accepted)
    (hdue : ∀ id, dueOrDone id s.shared + dueWorker id (s.threads i) = dueOrDone id t + dueWorker id m)
    (hqueue : ∀ r ∈ t.queue, Registered s.shared r) (hm : ∀ r ∈ m.pc.requests, Registered s.shared r)
    (hordered : t.history.Pairwise (fun e e' => ∀ id, callsOf id e = true → sendsOf id e' = false)) :
    Inv ⟨t, Function.update s.threads i m⟩ where
  balanced id := by
    have hpromised : promised id t = promised id s.shared := by
      rw [promised, promised, haccepted]
    rw [balanced_update (hs.balanced id), hpromised]
    have := hdue id
    omega
  queue r hr := by
    rw [Registered, haccepted]
    exact hqueue r hr
  threads j r hr := by
    rw [Registered, haccepted]
    exact forall_update (P := fun w : Worker State => ∀ r ∈ w.pc.requests, Registered s.shared r)
      hs.threads i hm j r hr
  ordered := hordered

theorem registered_same {p : RequestPool} {r r' : PoolRequest} (h : SameRequest r r')
    (hr : Registered p r) : Registered p r' := by
  rw [Registered, h.id, h.callback]
  exact hr

theorem due_same {r r' : PoolRequest} (h : SameRequest r r') (id : ℕ) : due id r' = due id r := by
  rw [due, due, h.id, h.callback]

theorem inv_taken (hs : Inv s) {r : PoolRequest} {queue : List PoolRequest} {t : RequestPool} {m : Worker State}
    (queued : s.shared.queue = r :: queue) (hidle : (s.threads i).pc = .waiting)
    (haccepted : t.accepted = s.shared.accepted) (hqueue : t.queue = queue) (hhistory : t.history = s.shared.history)
    (hrequests : m.pc.requests = [r]) (hdue : ∀ id, dueWorker id m = due id r) :
    Inv ⟨t, Function.update s.threads i m⟩ := by
  have hregistered := hs.queue
  rw [queued] at hregistered
  refine inv_update hs haccepted (fun id => ?_) (fun r' hr' => ?_) (fun r' hr' => ?_) (hhistory ▸ hs.ordered)
  · rw [hdue, dueOrDone, dueOrDone, queued, hqueue, hhistory, dueWorker, hidle]
    simp [duePc]
    omega
  · exact hregistered r' (List.mem_cons_of_mem _ (hqueue ▸ hr'))
  · rw [hrequests, List.mem_singleton] at hr'
    rw [hr']
    exact hregistered r List.mem_cons_self

theorem inv_performed (hs : Inv s) {r r' : PoolRequest} {retry : Bool} {effects : List Effect} {m : Worker State}
    (hmem : r ∈ (s.threads i).pc.requests) (hold : ∀ id, dueWorker id (s.threads i) = due id r)
    (hsame : SameRequest r r') (hperforms : Performs r retry effects) (hrequests : m.pc.requests = [r'])
    (hnew : ∀ id, dueWorker id m = if retry then due id r else 0) :
    Inv ⟨{ s.shared with history := s.shared.history ++ effects }, Function.update s.threads i m⟩ := by
  have hcalls := not_called hs hmem (hold r.id)
  refine inv_update hs rfl (fun id => ?_) hs.queue (fun x hx => ?_) (ordered_append hs hcalls hperforms)
  · have heffects := hperforms.calls id
    change _ = (s.shared.queue.map (due id)).sum + calls id (s.shared.history ++ effects) + dueWorker id m
    rw [calls_append, heffects, hold, hnew, dueOrDone]
    cases retry with
    | true => simp
    | false => simp [Nat.add_assoc]
  · rw [hrequests, List.mem_singleton] at hx
    rw [hx]
    exact registered_same hsame (hs.threads i r hmem)

variable {maxConnections updateFrequency : ℕ}

theorem inv_act (hs : Inv s) {a : Work (requestHandlerTcp maxConnections updateFrequency).Outcome}
    {t : RequestPool} {m : Worker (requestHandlerTcp maxConnections updateFrequency).State}
    (h : Acts (requestHandlerTcp maxConnections updateFrequency) s.shared (s.threads i) a t m) :
    Inv ⟨t, Function.update s.threads i m⟩ := by
  cases h with
  | take pc queued => exact inv_taken hs queued pc rfl rfl rfl rfl (fun _ => rfl)
  | takeLate pc queued => exact inv_taken hs queued pc rfl rfl rfl rfl (fun _ => rfl)
  | @process o r pc =>
    have hsame := processRequestUnlocked_same updateFrequency r (s.threads i).handler o
    have hperforms := performs_exit (processRequestUnlocked_exit updateFrequency r (s.threads i).handler o)
    refine inv_performed hs (by simp [pc, Pc.requests]) (by simp [dueWorker, duePc, pc]) hsame hperforms rfl ?_
    intro id
    rw [← due_same hsame id]
    change duePc id (.processed _ _ (processRequestUnlocked updateFrequency (s.threads i).handler r o).retry) = _
    cases (processRequestUnlocked updateFrequency (s.threads i).handler r o).retry <;> rfl
  | @timeOut r pc =>
    exact inv_performed hs (by simp [pc, Pc.requests]) (by simp [dueWorker, duePc, pc])
      (processRequestCallback_same _ r _) (performs_timeout r) rfl (fun _ => rfl)
  | @putBack r success pc =>
    have hmem : r ∈ (s.threads i).pc.requests := by simp [pc, Pc.requests]
    refine inv_update hs rfl (fun id => ?_) (fun r' hr' => ?_) (by rintro _ ⟨⟩) hs.ordered
    · simp [dueOrDone, dueWorker, duePc, pc, due]
      omega
    · obtain rfl | hr' := List.mem_cons.mp hr'
      · exact hs.threads i r hmem
      · exact hs.queue r' hr'
  | @finish r success pc =>
    refine inv_update hs rfl (fun id => ?_) hs.queue (by rintro _ ⟨⟩) hs.ordered
    simp [dueOrDone, dueWorker, duePc, pc]
  | @drop r pc =>
    refine inv_update hs rfl (fun id => ?_) hs.queue (by rintro _ ⟨⟩) hs.ordered
    simp [dueWorker, duePc, pc]

theorem due_numbered (id : ℕ) (accepted rs : List Submission) :
    ((numbered accepted.length rs).map (due id)).sum + owed id accepted = owed id (accepted ++ rs) := by
  induction rs generalizing accepted with
  | nil => simp [numbered]
  | cons r rs ih =>
    have hrest := ih (accepted ++ [r])
    rw [List.length_append, List.length_singleton, List.append_assoc, List.singleton_append] at hrest
    rw [numbered, List.map_cons, List.sum_cons, ← hrest]
    have hone : due id ⟨r, accepted.length, r.request, 0⟩ + owed id accepted =
        owed id (accepted ++ [r]) := by
      unfold owed
      by_cases hlt : id < accepted.length
      · rw [due_eq_zero (Nat.ne_of_gt hlt), List.getElem?_append_left hlt, Nat.zero_add]
      · rw [List.getElem?_eq_none (Nat.le_of_not_lt hlt), List.getElem?_append_right (Nat.le_of_not_lt hlt)]
        by_cases heq : id = accepted.length
        · subst heq
          simp [due]
        · have hgt : 1 ≤ id - accepted.length := by omega
          rw [due_eq_zero (Ne.symm heq), List.getElem?_eq_none (by simpa using hgt), Nat.zero_add]
    omega

theorem registered_append {p : RequestPool} {r : PoolRequest} (h : Registered p r) (rs : List Submission) :
    (p.accepted ++ rs)[r.id]?.map (fun q => q.callback) = some r.callback := by
  obtain ⟨q, hq, hc⟩ := Option.map_eq_some_iff.mp h
  have hlt := (List.getElem?_eq_some_iff.mp hq).1
  rw [List.getElem?_append_left hlt, hq, Option.map_some, hc]

theorem registered_numbered (accepted rs : List Submission) :
    ∀ r ∈ numbered accepted.length rs,
      (accepted ++ rs)[r.id]?.map (fun q => q.callback) = some r.callback := by
  induction rs generalizing accepted with
  | nil =>
    intro r hr
    cases hr
  | cons q rs ih =>
    intro r hr
    rw [numbered, List.mem_cons] at hr
    obtain rfl | hr := hr
    · simp
    · have hrest := ih (accepted ++ [q]) r (by simpa using hr)
      simpa using hrest

theorem inv_order (hs : Inv s) {e : Order} {t : RequestPool} (h : Orders s.shared e t) :
    Inv { s with shared := t } := by
  cases h with
  | leave limits accepted => exact ⟨hs.balanced, hs.queue, hs.threads, hs.ordered⟩
  | @accept rs topPriority accepted sizes =>
    obtain ⟨queue, he, hperm⟩ := enqueueAll_eq s.shared rs topPriority
    rw [he]
    refine ⟨fun id => ?_, fun r hr => ?_, fun i r hr => registered_append (hs.threads i r hr) rs, hs.ordered⟩
    · rw [balanced_shared (hs.balanced id)]
      have hnew := due_numbered id s.shared.accepted rs
      have hqueue : (queue.map (due id)).sum = (s.shared.queue.map (due id)).sum +
          ((numbered s.shared.accepted.length rs).map (due id)).sum := by
        rw [(hperm.map _).sum_eq, List.map_append, List.sum_append]
      simp only [promised, dueOrDone, hqueue]
      omega
    · obtain hr | hr := List.mem_append.mp (hperm.mem_iff.mp hr)
      · exact registered_append (hs.queue r hr) rs
      · exact registered_numbered _ rs r hr

theorem inv_step (s : TcpSystem n) (e : TcpEvent n) (t : TcpSystem n) (hs : Inv s)
    (ht : tcpStep maxConnections updateFrequency s e = some t) : Inv t := by
  cases e with
  | thread i a =>
    obtain ⟨⟨p, m⟩, hx, rfl⟩ := Option.map_eq_some_iff.mp ht
    exact inv_act hs (acts_of_act hx)
  | world e =>
    obtain ⟨p, hx, rfl⟩ := Option.map_eq_some_iff.mp ht
    exact inv_order hs (orders_of_order hx)

/-- In every run of the pool each accepted request has its callback called once. -/
theorem one_callback (n maxConnections updateFrequency : ℕ) (limits : RequestPoolLimits)
    (events : List (TcpEvent n)) :
    Always (tcpStep maxConnections updateFrequency) OneCallback (tcpStart n limits) events := by
  refine always_of_step oneCallback_of_inv inv_step _ _ ⟨fun id => ?_, ?_, ?_, List.Pairwise.nil⟩
  · simp [Interleaving.Balanced, tcpStart, create, promised, owed, dueOrDone, calls, dueWorker, duePc]
  · rintro _ ⟨⟩
  · rintro _ _ ⟨⟩

end Asapo.Producer.Callbacks
