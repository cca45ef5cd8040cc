import Asapo.Producer.Callbacks
import Asapo.Transition

namespace Asapo.Producer.SendOrder

open Interleaving Transition RequestPool RequestHandlerTcp Callbacks History

def calledId : Effect → Option ℕ
  | .called id _ _ => some id
  | .sent _ _ => none

def callOrder (history : List Effect) : List ℕ := history.filterMap calledId

def callbacks (accepted : List Submission) (m : ℕ) : List ℕ :=
  (List.range m).filter (fun id => accepted[id]?.any (fun r => r.callback))

def pending : Pc → List PoolRequest
  | .processing r | .processed r _ true | .timingOut r => [r]
  | _ => []

/-- A request is sent when the callbacks of all requests from before have been called. -/
def SentInTurn (accepted : List Submission) (before : List Effect) (e : Effect) : Prop :=
  ∀ id uri, e = .sent id uri → id < accepted.length ∧ callOrder before = callbacks accepted id

/-- The accepted requests are those that are finished, in the order of their callbacks, and
those that are still to be finished, in the order of the queue. Nothing is sent of a request as
long as one from before is not finished. -/
structure Ordered (accepted : List Submission) (history : List Effect) (todo : List PoolRequest) : Prop where
  finished : ∃ m, List.range accepted.length = List.range m ++ todo.map PoolRequest.id ∧
    callOrder history = callbacks accepted m
  sent : Justified (SentInTurn accepted) history
  first : ∀ id uri, Effect.sent id uri ∈ history → ∀ r ∈ todo, id ≤ r.id
  registered : ∀ r ∈ todo, accepted[r.id]?.map (fun q => q.callback) = some r.callback

def onlyThread : Fin 1 := ⟨0, Nat.one_pos⟩

def unfinished (s : TcpSystem 1) : List PoolRequest := pending (s.threads onlyThread).pc ++ s.shared.queue

def InOrder (s : TcpSystem 1) : Prop := Ordered s.shared.accepted s.shared.history (unfinished s)

def addOrLimit (p : RequestPool) : Submission ⊕ RequestPoolLimits → Option RequestPool
  | .inl r => p.order (.addRequest r false)
  | .inr limits => p.order (.setLimits limits)

variable {accepted : List Submission} {history effects : List Effect} {todo : List PoolRequest}
  {r r' : PoolRequest} {retry : Bool}

section Effects

theorem count_callOrder (id : ℕ) (history : List Effect) : (callOrder history).count id = calls id history := by
  rw [callOrder, List.count, List.countP_filterMap]
  refine List.countP_congr (fun e _ => ?_)
  cases e <;> simp [calledId, callsOf]

theorem callOrder_append (l l' : List Effect) : callOrder (l ++ l') = callOrder l ++ callOrder l' :=
  List.filterMap_append

theorem callOrder_performs (h : Performs r retry effects) :
    callOrder effects = if retry = false ∧ r.callback = true then [r.id] else [] := by
  have hcount : ∀ id, (callOrder effects).count id = if retry then 0 else due id r :=
    fun id => (count_callOrder id effects).trans (h.calls id)
  split
  · rename_i hc
    refine List.perm_singleton.mp (List.perm_iff_count.mpr (fun id => ?_))
    rw [hcount, hc.1, List.count_singleton]
    simp [due, hc.2]
  · rename_i hc
    refine List.perm_nil.mp (List.perm_iff_count.mpr (fun id => ?_))
    rw [hcount, List.count_nil]
    cases retry with
    | true => rfl
    | false =>
      have hcallback : r.callback = false := by simpa using hc
      simp [due, hcallback]

theorem callOrder_before_sent (h : Performs r retry effects) {before after : List Effect} {id : ℕ} {uri : Text}
    (heffects : effects = before ++ .sent id uri :: after) : id = r.id ∧ callOrder before = [] := by
  have hid : id = r.id := h.sends id (.sent id uri) (by simp [heffects]) (by simp [sendsOf])
  refine ⟨hid, List.filterMap_eq_nil_iff.mpr (fun e he => ?_)⟩
  cases e with
  | sent id' uri' => rfl
  | called id' payload err =>
    have hordered := h.ordered
    rw [heffects, List.pairwise_append] at hordered
    have hsent := hordered.2.2 _ he (.sent id uri) List.mem_cons_self id' (by simp [callsOf])
    -- The handler calls no callback of another request.
    have hone : 0 < calls id' effects := by
      refine List.countP_pos_iff.mpr ⟨.called id' payload err, ?_, by simp [callsOf]⟩
      rw [heffects]
      exact List.mem_append_left _ he
    rw [h.calls] at hone
    have hsame : r.id = id' := by
      by_contra hne
      simp [due_eq_zero hne] at hone
    simp [sendsOf, hid, hsame] at hsent

end Effects

section Range

theorem head_of_range {n m a : ℕ} {l : List ℕ} (h : List.range n = List.range m ++ a :: l) :
    a = m ∧ ∀ b ∈ l, m ≤ b := by
  have hm : (List.range n)[m]? = some a := by
    rw [h, List.getElem?_append_right (by simp), List.length_range, Nat.sub_self]
    rfl
  obtain ⟨hlt, ha⟩ := List.getElem?_eq_some_iff.mp hm
  rw [List.getElem_range] at ha
  subst ha
  refine ⟨rfl, fun b hb => ?_⟩
  have hsorted : (List.range n).Pairwise (· < ·) := List.pairwise_lt_range
  rw [h, List.pairwise_append] at hsorted
  exact Nat.le_of_lt (List.rel_of_pairwise_cons hsorted.2.1 hb)

theorem callbacks_succ (accepted : List Submission) (m : ℕ) :
    callbacks accepted (m + 1) =
      callbacks accepted m ++ if accepted[m]?.any (fun r => r.callback) then [m] else [] := by
  rw [callbacks, List.range_succ, List.filter_append, callbacks, List.filter_singleton, Bool.cond_eq_ite]

theorem callbacks_append {m : ℕ} (h : m ≤ accepted.length) (rs : List Submission) :
    callbacks (accepted ++ rs) m = callbacks accepted m := by
  refine List.filter_congr (fun id hid => ?_)
  rw [List.getElem?_append_left (Nat.lt_of_lt_of_le (List.mem_range.mp hid) h)]

end Range

section Steps

theorem Ordered.sent_append (h : Ordered accepted history (r :: todo)) (hperforms : Performs r retry effects) :
    Justified (SentInTurn accepted) (history ++ effects) := by
  obtain ⟨m, hrange, hcalls⟩ := h.finished
  refine justified_append h.sent (fun before e after heffects id uri he => ?_)
  subst he
  obtain ⟨rfl, hnone⟩ := callOrder_before_sent hperforms heffects
  obtain ⟨q, hq, -⟩ := Option.map_eq_some_iff.mp (h.registered r List.mem_cons_self)
  refine ⟨(List.getElem?_eq_some_iff.mp hq).1, ?_⟩
  rw [callOrder_append, hnone, List.append_nil, hcalls, (head_of_range hrange).1]

theorem Ordered.first_append (h : Ordered accepted history (r :: todo)) (hperforms : Performs r retry effects)
    (id : ℕ) (uri : Text) (hsent : .sent id uri ∈ history ++ effects) : ∀ q ∈ r :: todo, id ≤ q.id := by
  intro q hq
  obtain hold | hnew := List.mem_append.mp hsent
  · exact h.first id uri hold q hq
  · obtain ⟨m, hrange, -⟩ := h.finished
    obtain ⟨hid, hlater⟩ := head_of_range hrange
    rw [hperforms.sends id _ hnew (by simp [sendsOf])]
    obtain rfl | hq := List.mem_cons.mp hq
    · exact le_rfl
    · rw [hid]
      exact hlater q.id (List.mem_map_of_mem hq)

theorem Ordered.retried (h : Ordered accepted history (r :: todo)) (hperforms : Performs r true effects) :
    Ordered accepted (history ++ effects) (r :: todo) where
  finished := by
    obtain ⟨m, hrange, hcalls⟩ := h.finished
    refine ⟨m, hrange, ?_⟩
    rw [callOrder_append, callOrder_performs hperforms, if_neg (by simp), List.append_nil, hcalls]
  sent := h.sent_append hperforms
  first := h.first_append hperforms
  registered := h.registered

theorem Ordered.finishFirst (h : Ordered accepted history (r :: todo)) (hperforms : Performs r false effects) :
    Ordered accepted (history ++ effects) todo where
  finished := by
    obtain ⟨m, hrange, hcalls⟩ := h.finished
    obtain ⟨hid, -⟩ := head_of_range hrange
    refine ⟨m + 1, ?_, ?_⟩
    · rw [hrange, List.map_cons, hid, List.range_succ, List.append_assoc]
      rfl
    · have hcallback : accepted[m]?.any (fun q => q.callback) = r.callback := by
        obtain ⟨q, hq, hc⟩ := Option.map_eq_some_iff.mp (h.registered r List.mem_cons_self)
        rw [← hid, hq, Option.any_some, hc]
      rw [callOrder_append, callOrder_performs hperforms, hcalls, callbacks_succ, hcallback, hid]
      simp
  sent := h.sent_append hperforms
  first id uri hsent q hq := h.first_append hperforms id uri hsent q (List.mem_cons_of_mem r hq)
  registered q hq := h.registered q (List.mem_cons_of_mem r hq)

theorem Ordered.same (h : Ordered accepted history (r :: todo)) (hsame : SameRequest r r') :
    Ordered accepted history (r' :: todo) where
  finished := by
    obtain ⟨m, hrange, hcalls⟩ := h.finished
    refine ⟨m, ?_, hcalls⟩
    rw [hrange, List.map_cons, List.map_cons, hsame.id]
  sent := h.sent
  first id uri hsent q hq := by
    obtain rfl | hq := List.mem_cons.mp hq
    · rw [hsame.id]
      exact h.first id uri hsent r List.mem_cons_self
    · exact h.first id uri hsent q (List.mem_cons_of_mem r hq)
  registered q hq := by
    obtain rfl | hq := List.mem_cons.mp hq
    · rw [hsame.id, hsame.callback]
      exact h.registered r List.mem_cons_self
    · exact h.registered q (List.mem_cons_of_mem r hq)

theorem Ordered.add (h : Ordered accepted history todo) (q : Submission) :
    Ordered (accepted ++ [q]) history (todo ++ [⟨q, accepted.length, q.request, 0⟩]) where
  finished := by
    obtain ⟨m, hrange, hcalls⟩ := h.finished
    have hm : m ≤ accepted.length := by
      have hlength := congrArg List.length hrange
      simp only [List.length_append, List.length_range] at hlength
      omega
    refine ⟨m, ?_, by rw [hcalls, callbacks_append hm]⟩
    rw [List.length_append, List.length_singleton, List.range_succ, hrange, List.map_append, List.append_assoc]
    rfl
  sent := by
    refine h.sent.mono (fun before e hsent id uri he => ?_)
    obtain ⟨hlt, hcalls⟩ := hsent id uri he
    refine ⟨by rw [List.length_append]; omega, ?_⟩
    rw [hcalls, callbacks_append (Nat.le_of_lt hlt)]
  first id uri hsent x hx := by
    obtain hx | hx := List.mem_append.mp hx
    · exact h.first id uri hsent x hx
    · obtain ⟨before, after, hsplit⟩ := List.append_of_mem hsent
      rw [List.mem_singleton.mp hx]
      exact Nat.le_of_lt (h.sent before _ after hsplit id uri rfl).1
  registered x hx := by
    obtain hx | hx := List.mem_append.mp hx
    · obtain ⟨q', hq', hc⟩ := Option.map_eq_some_iff.mp (h.registered x hx)
      rw [List.getElem?_append_left (List.getElem?_eq_some_iff.mp hq').1, hq', Option.map_some, hc]
    · rw [List.mem_singleton.mp hx]
      simp

variable {maxConnections updateFrequency : ℕ} {p t : RequestPool}
  {w m : Worker (requestHandlerTcp maxConnections updateFrequency).State}
  {a : Work (requestHandlerTcp maxConnections updateFrequency).Outcome}

theorem ordered_process {o : Circumstances} (hs : Ordered p.accepted p.history (pending w.pc ++ p.queue))
    (hpc : w.pc = .processing r) :
    Ordered p.accepted (p.history ++ (processRequestUnlocked updateFrequency w.handler r o).effects)
      (pending (.processed (processRequestUnlocked updateFrequency w.handler r o).request
        (processRequestUnlocked updateFrequency w.handler r o).success
        (processRequestUnlocked updateFrequency w.handler r o).retry) ++ p.queue) := by
  rw [hpc] at hs
  have hsame := processRequestUnlocked_same updateFrequency r w.handler o
  have hperforms := performs_exit (processRequestUnlocked_exit updateFrequency r w.handler o)
  generalize processRequestUnlocked updateFrequency w.handler r o = res at hsame hperforms ⊢
  cases hretry : res.retry with
  | true =>
    rw [hretry] at hperforms
    exact Ordered.same (Ordered.retried hs hperforms) hsame
  | false =>
    rw [hretry] at hperforms
    exact Ordered.finishFirst hs hperforms

theorem ordered_act (hs : Ordered p.accepted p.history (pending w.pc ++ p.queue))
    (h : Acts (requestHandlerTcp maxConnections updateFrequency) p w a t m) :
    Ordered t.accepted t.history (pending m.pc ++ t.queue) := by
  cases h with
  | take pc queued =>
    rw [pc, queued] at hs
    exact hs
  | takeLate pc queued =>
    rw [pc, queued] at hs
    exact hs
  | process pc => exact ordered_process hs pc
  | timeOut pc =>
    rw [pc] at hs
    exact Ordered.finishFirst hs (performs_timeout _)
  | putBack pc =>
    rw [pc] at hs
    exact Ordered.same hs ⟨rfl, rfl, rfl⟩
  | finish pc =>
    rw [pc] at hs
    exact hs
  | drop pc =>
    rw [pc] at hs
    exact hs

theorem ordered_addOrLimit {x : Submission ⊕ RequestPoolLimits} {pc : Pc}
    (hs : Ordered p.accepted p.history (pending pc ++ p.queue)) (h : addOrLimit p x = some t) :
    Ordered t.accepted t.history (pending pc ++ t.queue) := by
  cases x with
  | inr limits =>
    cases h
    exact hs
  | inl r =>
    rw [addOrLimit, order] at h
    split at h <;> cases h
    unfold addRequest
    cases p.canAddRequest r.request false with
    | some err => exact hs
    | none =>
      have hadd := hs.add r
      rw [List.append_assoc] at hadd
      exact hadd

/-- With one thread and without a higher priority, the callbacks are called in the order in which
the requests were accepted, and nothing is sent of a request before all earlier ones are finished. -/
theorem sends_in_order (maxConnections updateFrequency : ℕ) (limits : RequestPoolLimits)
    (es : List (Event (Work Circumstances) (Submission ⊕ RequestPoolLimits) 1)) :
    Always (step (act (requestHandlerTcp maxConnections updateFrequency)) addOrLimit) InOrder
      (tcpStart 1 limits) es := by
  refine always_of_step (fun _ hs => hs) (fun s e t hs h => ?_) _ es ?_
  · cases e with
    | thread i a =>
      obtain ⟨⟨p, m⟩, hact, rfl⟩ := Option.map_eq_some_iff.mp h
      rw [Subsingleton.elim i onlyThread] at hact ⊢
      have hnext := ordered_act hs (acts_of_act hact)
      change Ordered p.accepted p.history (pending (Function.update s.threads onlyThread m onlyThread).pc ++ p.queue)
      rwa [Function.update_self]
    | world x =>
      obtain ⟨p, hx, rfl⟩ := Option.map_eq_some_iff.mp h
      exact ordered_addOrLimit hs hx
  · exact ⟨⟨0, rfl, rfl⟩, justified_nil, by rintro _ _ ⟨⟩, by rintro _ ⟨⟩⟩

end Steps

end Asapo.Producer.SendOrder
