import Asapo.Interleaving
import Asapo.Producer.HandlerExits

namespace Asapo.Producer.ConnectionLimit

open Interleaving Transition RequestPool RequestHandlerTcp

/-- The thread is between `PrepareProcessingRequestLocked` and `TearDownProcessingRequestLocked`. -/
def prepared : Pc → Bool
  | .processing _ | .processed _ _ _ => true
  | _ => false

def connection (w : Worker State) : ℕ := if w.handler.connected then 1 else 0

def counted (w : Worker State) : ℕ := if w.handler.connected || prepared w.pc then 1 else 0

/-- The shared counter is the number of handlers that are connected or are processing a
request, and there are no more connections than allowed. -/
structure Limited {n : ℕ} (maxConnections : ℕ) (s : TcpSystem n) : Prop where
  counter : Balanced (fun p => p.sharedCounter) (fun _ => 0) counted s
  limit : ∑ i, connection (s.threads i) ≤ maxConnections

/-- A connected handler can look up the size of the file of its request, if it needs it. -/
def FileFound (_ : RequestPool) (w : Worker State) : Work Circumstances → Prop
  | .process o =>
    match w.pc with
    | .processing r =>
      w.handler.connected = true ∧ r.request.dataFromFile = true ∧ r.request.header.dataSize = 0 →
        o.file.toOption.isSome = true
    | _ => True
  | _ => True

instance (p : RequestPool) (w : Worker State) : ∀ a, Decidable (FileFound p w a)
  | .process o =>
    match h : w.pc with
    | .processing r =>
      decidable_of_iff (w.handler.connected = true ∧ r.request.dataFromFile = true ∧
        r.request.header.dataSize = 0 → o.file.toOption.isSome = true) (by simp [FileFound, h])
    | .waiting => .isTrue (by simp [FileFound, h])
    | .processed _ _ _ => .isTrue (by simp [FileFound, h])
    | .timingOut _ => .isTrue (by simp [FileFound, h])
    | .timedOut _ => .isTrue (by simp [FileFound, h])
  | .take _ | .timeOut | .finish => .isTrue trivial

/-- A connected handler has a list of receivers, and a request counts as processed successfully
exactly if the handler is still connected. -/
structure Follows (w : Worker State) : Prop where
  list : w.handler.connected = true → w.handler.receiversList ≠ []
  success : ∀ r success retry, w.pc = .processed r success retry → w.handler.connected = success

theorem rebalance_connected {updateFrequency : ℕ} {d : Discovery} {s : State}
    (h : (rebalance updateFrequency d s).connected = true) :
    s.connected = true ∧ (rebalance updateFrequency d s).receiversList = s.receiversList := by
  unfold rebalance at h ⊢
  split
  · rename_i hc
    rw [if_pos hc] at h
    exact ⟨hc.1, of_decide_eq_true h⟩
  · rename_i hc
    rw [if_neg hc] at h
    exact ⟨h, rfl⟩

theorem missing_needed {file : Except Error Bytes} {q : ProducerRequest} {err : Error}
    (h : updateDataSizeFromFileIfNeeded file q = .error err) :
    q.dataFromFile = true ∧ q.header.dataSize = 0 ∧ file.toOption.isSome = false := by
  unfold updateDataSizeFromFileIfNeeded at h
  split at h
  · cases h
  · rename_i hneeded
    simp only [Bool.not_eq_true, Bool.or_eq_false_iff, Bool.not_eq_false', decide_eq_false_iff_not,
      Nat.not_lt, Nat.le_zero] at hneeded
    split at h
    · exact ⟨hneeded.1, hneeded.2, rfl⟩
    · cases h

/-- The result of a handler says whether it is connected, unless the file of the request is
missing. -/
theorem follows_exit {updateFrequency : ℕ} {r : PoolRequest} {s : State} {o : Circumstances}
    {res : HandlerResult State} (hs : s.connected = true → s.receiversList ≠ [])
    (hfile : s.connected = true ∧ r.request.dataFromFile = true ∧ r.request.header.dataSize = 0 →
      o.file.toOption.isSome = true)
    (h : Exit updateFrequency r s o res) :
    (res.state.connected = true → res.state.receiversList ≠ []) ∧ res.state.connected = res.success := by
  cases h with
  | missing file =>
    obtain ⟨hfrom, hsize, hmissing⟩ := missing_needed file
    refine ⟨hs, ?_⟩
    by_contra hc
    have hfound := hfile ⟨by simpa using hc, hfrom, hsize⟩
    rw [hmissing] at hfound
    cases hfound
  | loop file exit =>
    cases exit with
    | @exhausted s' l list connected sent =>
      have hdis : s'.connected = false := by
        by_contra hc
        obtain ⟨hnil, hcon⟩ := connected (by simpa using hc)
        obtain ⟨hold, hlist⟩ := rebalance_connected hcon
        exact hs hold (hlist ▸ hnil)
      exact ⟨fun hc => by simp [hdis] at hc, hdis⟩
    | givenBack list connected tried sent => exact ⟨fun _ => list ▸ tried, connected⟩

variable {n maxConnections updateFrequency : ℕ}

structure Inv (maxConnections : ℕ) (s : TcpSystem n) : Prop where
  counter : Balanced (fun p => p.sharedCounter) (fun _ => 0) counted s
  limit : s.shared.sharedCounter ≤ maxConnections
  threads : ∀ i, Follows (s.threads i)

theorem limited_of_inv (s : TcpSystem n) (h : Inv maxConnections s) : Limited maxConnections s where
  counter := h.counter
  limit := by
    have hsum : s.shared.sharedCounter = 0 + ∑ i, counted (s.threads i) := h.counter
    have hle : ∑ i, connection (s.threads i) ≤ ∑ i, counted (s.threads i) := by
      apply Finset.sum_le_sum
      intro i _
      unfold connection counted
      cases (s.threads i).handler.connected <;> simp
    have := h.limit
    omega

theorem inv_update {s : TcpSystem n} (hs : Inv maxConnections s) (i : Fin n) {t : RequestPool}
    {m : Worker State}
    (hcounter : t.sharedCounter + counted (s.threads i) = s.shared.sharedCounter + counted m)
    (hlimit : t.sharedCounter ≤ maxConnections) (hm : Follows m) :
    Inv maxConnections ⟨t, Function.update s.threads i m⟩ where
  counter := (balanced_update hs.counter i t m).mpr (by omega)
  limit := hlimit
  threads := forall_update hs.threads i hm

theorem counted_le {s : TcpSystem n} (hs : Inv maxConnections s) (i : Fin n) :
    counted (s.threads i) ≤ s.shared.sharedCounter := by
  have hle := weight_le_sum counted s.threads i
  have hsum : s.shared.sharedCounter = 0 + ∑ i, counted (s.threads i) := hs.counter
  omega

theorem tearDown_counted (updateFrequency : ℕ) {s : TcpSystem n} (hs : Inv maxConnections s) {i : Fin n}
    {r : PoolRequest} {success retry : Bool} (pc : (s.threads i).pc = .processed r success retry) :
    (requestHandlerTcp maxConnections updateFrequency).tearDownProcessingRequestLocked success
        s.shared.sharedCounter + counted (s.threads i) =
      s.shared.sharedCounter + counted { s.threads i with pc := .waiting } ∧
    (requestHandlerTcp maxConnections updateFrequency).tearDownProcessingRequestLocked success
      s.shared.sharedCounter ≤ maxConnections := by
  have hlimit := hs.limit
  have hle := counted_le hs i
  have hsuccess := (hs.threads i).success r success retry pc
  have hone : counted (s.threads i) = 1 := by simp [counted, pc, prepared]
  cases success with
  | true =>
    refine ⟨?_, by simpa [requestHandlerTcp] using hlimit⟩
    simp [requestHandlerTcp, counted, hsuccess]
  | false =>
    have hpos : 0 < s.shared.sharedCounter := by omega
    have hafter : counted { s.threads i with pc := .waiting } = 0 := by simp [counted, hsuccess, prepared]
    simp only [requestHandlerTcp, hpos, hone, hafter, Bool.not_false, Bool.true_and, decide_true, if_true]
    omega

theorem inv_moved {s : TcpSystem n} (hs : Inv maxConnections s) {i : Fin n} {t : RequestPool} {pc : Pc}
    (hcounter : t.sharedCounter = s.shared.sharedCounter) (hbefore : prepared (s.threads i).pc = false)
    (hafter : prepared pc = false) :
    Inv maxConnections ⟨t, Function.update s.threads i { s.threads i with pc := pc }⟩ := by
  apply inv_update hs
  · simp [counted, hcounter, hbefore, hafter]
  · rw [hcounter]
    exact hs.limit
  · refine ⟨(hs.threads i).list, ?_⟩
    rintro r success retry rfl
    cases hafter

theorem inv_act {s : TcpSystem n} (hs : Inv maxConnections s) {i : Fin n}
    {a : Work (requestHandlerTcp maxConnections updateFrequency).Outcome} {t : RequestPool}
    {m : Worker (requestHandlerTcp maxConnections updateFrequency).State}
    (hfile : FileFound s.shared (s.threads i) a)
    (h : Acts (requestHandlerTcp maxConnections updateFrequency) s.shared (s.threads i) a t m) :
    Inv maxConnections ⟨t, Function.update s.threads i m⟩ := by
  have hfollows := hs.threads i
  have hlimit := hs.limit
  cases h with
  | @take d r queue pc queued ready inTime =>
    cases hc : (s.threads i).handler.connected with
    | true =>
      apply inv_update hs
      · simp [counted, requestHandlerTcp, hc, prepared]
      · simpa [requestHandlerTcp, hc] using hlimit
      · exact ⟨by simpa [requestHandlerTcp, hc] using hfollows.list, by rintro _ _ _ ⟨⟩⟩
    | false =>
      have hfree : s.shared.sharedCounter < maxConnections := by
        simpa [requestHandlerTcp, hc] using ready
      apply inv_update hs
      · simp [counted, requestHandlerTcp, hc, pc, prepared]
      · have hnext : s.shared.sharedCounter + 1 ≤ maxConnections := hfree
        simpa [requestHandlerTcp, hc] using hnext
      · exact ⟨by simp [requestHandlerTcp, hc, updateReceiversList], by rintro _ _ _ ⟨⟩⟩
  | takeLate pc queued late => exact inv_moved hs rfl (by rw [pc]; rfl) rfl
  | @process o r pc =>
    unfold FileFound at hfile
    rw [pc] at hfile
    obtain ⟨hlist, hsuccess⟩ := follows_exit hfollows.list hfile
      (processRequestUnlocked_exit updateFrequency r (s.threads i).handler o)
    apply inv_update hs
    · simp [counted, pc, prepared]
    · exact hlimit
    · refine ⟨hlist, fun r success retry hpc => ?_⟩
      cases hpc
      exact hsuccess
  | timeOut pc => exact inv_moved hs rfl (by rw [pc]; rfl) rfl
  | @putBack r success pc =>
    have hdone := tearDown_counted updateFrequency hs pc
    exact inv_update hs i hdone.1 hdone.2 ⟨hfollows.list, by rintro _ _ _ ⟨⟩⟩
  | @finish r success pc =>
    have hdone := tearDown_counted updateFrequency hs pc
    exact inv_update hs i hdone.1 hdone.2 ⟨hfollows.list, by rintro _ _ _ ⟨⟩⟩
  | drop pc => exact inv_moved hs rfl (by rw [pc]; rfl) rfl

theorem inv_order {s : TcpSystem n} (hs : Inv maxConnections s) {e : Order} {t : RequestPool}
    (h : Orders s.shared e t) : Inv maxConnections { s with shared := t } := by
  have hcounter : t.sharedCounter = s.shared.sharedCounter := by
    cases h with
    | leave => rfl
    | @accept rs topPriority =>
      obtain ⟨queue, he, -⟩ := enqueueAll_eq s.shared rs topPriority
      rw [he]
  exact ⟨(balanced_shared hs.counter t).mpr (by omega), hcounter ▸ hs.limit, hs.threads⟩

theorem inv_step (s : TcpSystem n) (e : TcpEvent n) (t : TcpSystem n) (hs : Inv maxConnections s)
    (hc : OnThreads FileFound s e) (ht : tcpStep maxConnections updateFrequency s e = some t) :
    Inv maxConnections t := by
  cases e with
  | thread i a =>
    obtain ⟨⟨p, m⟩, hx, rfl⟩ := Option.map_eq_some_iff.mp ht
    exact inv_act hs hc (acts_of_act hx)
  | world e =>
    obtain ⟨p, hx, rfl⟩ := Option.map_eq_some_iff.mp ht
    exact inv_order hs (orders_of_order hx)

/-- The connections are counted right, and there are not too many of them, in every run in
which no connected handler misses the file of a request. -/
theorem connections_limited (n maxConnections updateFrequency : ℕ) (limits : RequestPoolLimits)
    (events : List (TcpEvent n))
    (h : Along (tcpStep maxConnections updateFrequency) (OnThreads FileFound) (tcpStart n limits) events) :
    Always (tcpStep maxConnections updateFrequency) (Limited maxConnections) (tcpStart n limits) events := by
  refine always_of_along limited_of_inv inv_step _ _ ?_ h
  refine ⟨?_, Nat.zero_le _, fun _ => ⟨?_, ?_⟩⟩
  · simp [Interleaving.Balanced, tcpStart, create, counted, prepared]
  · exact fun hc => Bool.noConfusion hc
  · rintro _ _ _ ⟨⟩

section Runs

def header (dataSize : ℕ) : GenericRequestHeader :=
  ⟨.transferData, 1, dataSize, 0, ![9, 0, 0], text "a", text "stream", text "v0.5"⟩

def memoryRequest : Submission := ⟨⟨header 10, some (fun _ => 0), [], none⟩, true, 0, 0⟩

def fileRequest : Submission := ⟨⟨header 0, none, [], some []⟩, true, 0, 0⟩

def accepting (file : Except Error Bytes) : Circumstances where
  file
  discovery := ⟨0, [text "receiver"]⟩
  rounds _ := ⟨none, .ok ⟨.authorize, .noError, []⟩, .ok ⟨.transferData, .noError, []⟩⟩

def processes {n : ℕ} (r : Submission) (i : Fin n) (file : Except Error Bytes) : List (TcpEvent n) :=
  [.world (.addRequest r false), .thread i (.take ⟨0, [text "receiver"]⟩),
    .thread i (.process (accepting file)), .thread i .finish]

end Runs

theorem connections_limited_files_found :
    Always (tcpStep 1 0) (Limited 1) (tcpStart 2 ⟨0, 0⟩)
      (processes memoryRequest 0 (.ok []) ++ processes fileRequest 0 (.ok [1, 2])) :=
  connections_limited 2 1 0 _ _ (by decide +kernel)

theorem too_many_connections :
    ¬ ∀ (n maxConnections updateFrequency : ℕ) (limits : RequestPoolLimits) (events : List (TcpEvent n)),
      Always (tcpStep maxConnections updateFrequency) (Limited maxConnections) (tcpStart n limits) events := by
  intro h
  have hrun : (exec (tcpStep 1 0) (tcpStart 2 ⟨0, 0⟩)
      (processes memoryRequest 0 (.ok []) ++
        processes fileRequest 0 (.error (IOErrorTemplates.fileNotFound.generate "")) ++
        processes memoryRequest 1 (.ok []))).any (fun t =>
      connection (t.threads 0) = 1 ∧ connection (t.threads 1) = 1) = true := by decide +kernel
  obtain ⟨t, ht, hx⟩ := (Option.any_eq_true _ _).mp hrun
  obtain ⟨h₀, h₁⟩ := of_decide_eq_true hx
  have hlimit := (always_exec _ t _ (h 2 1 0 _ _) ht).limit
  rw [Fin.sum_univ_two, h₀, h₁] at hlimit
  omega

end Asapo.Producer.ConnectionLimit
