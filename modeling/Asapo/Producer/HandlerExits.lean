import Asapo.Producer.RequestHandlers

namespace Asapo.Producer

/-- The same request, whatever a handler has done to it. -/
structure SameRequest (r r' : PoolRequest) : Prop where
  id : r'.id = r.id
  callback : r'.callback = r.callback
  admitted : r'.admitted = r.admitted

namespace RequestHandlerTcp

variable {r : PoolRequest} {s : State}

theorem processRequestCallback_same (err : Option Error) (r : PoolRequest) (response : Text) :
    SameRequest r (processRequestCallback err r response).1 := by
  unfold processRequestCallback
  split <;> exact ⟨rfl, rfl, rfl⟩

/-- The ways out of the loop over the receivers: all of them have been tried, or the request is
given back. It counts as sent exactly if the connection is still there. -/
inductive LoopExit (r : PoolRequest) (s : State) (uris : List Text) : HandlerResult State → Prop
  | exhausted {s' l} (list : s'.receiversList = s.receiversList)
      (connected : s'.connected = true → uris = [] ∧ s.connected = true)
      (sent : ∀ e ∈ l, ∃ uri, e = .sent r.id uri) :
      LoopExit r s uris ⟨s', r, l, false, true⟩
  | givenBack {s' l err response success} (list : s'.receiversList = s.receiversList)
      (connected : s'.connected = success) (tried : uris ≠ [])
      (sent : ∀ e ∈ l, ∃ uri, e = .sent r.id uri) :
      LoopExit r s uris ⟨s', (processRequestCallback err r response).1,
        l ++ (processRequestCallback err r response).2, success, false⟩

theorem sendToReceiver_cases (round : Round) (hs : s.connected = true) :
    (∃ s', sendToReceiver s r round = (s', none) ∧ s'.connected = false ∧
      s'.receiversList = s.receiversList) ∨
    ∃ s' err response success, sendToReceiver s r round = (s', some (giveBack s' r err response success)) ∧
      s'.connected = success ∧ s'.receiversList = s.receiversList := by
  unfold sendToReceiver
  generalize trySendToReceiver round = x
  obtain ⟨err, response⟩ := x
  dsimp only
  cases hfail : err.isSome && ProducerErrorTemplates.serverWarning.differs err with
  | true =>
    have hd : (processErrorFromReceiver err).disconnect = true := hfail
    rw [if_pos hd]
    by_cases hr : (processErrorFromReceiver err).retry
    · rw [if_pos hr]
      exact .inl ⟨_, rfl, rfl, rfl⟩
    · rw [if_neg hr, if_pos rfl]
      exact .inr ⟨_, err, response, false, rfl, rfl, rfl⟩
  | false =>
    have hd : ¬ (processErrorFromReceiver err).disconnect = true := by
      rw [processErrorFromReceiver, hfail]
      simp
    have hr : ¬ (processErrorFromReceiver err).retry = true := by
      cases err with
      | none => simp [processErrorFromReceiver, serverError]
      | some err => simp_all [processErrorFromReceiver, serverError]
    rw [if_neg hd, if_neg hr, if_neg Bool.false_ne_true]
    exact .inr ⟨s, err, response, true, rfl, hs, rfl⟩

theorem LoopExit.sentFirst {uris : List Text} {s₀ : State} {uri : Text} {res : HandlerResult State}
    (h : LoopExit r s uris res) (hlist : s.receiversList = s₀.receiversList) (hs : s.connected = false) :
    LoopExit r s₀ (uri :: uris) { res with effects := .sent r.id uri :: res.effects } := by
  cases h with
  | exhausted list connected sent =>
    refine .exhausted (list.trans hlist) (fun hc => ?_) ?_
    · rw [hs] at connected
      exact absurd (connected hc).2 (by simp)
    · rintro e (- | ⟨_, he⟩)
      · exact ⟨uri, rfl⟩
      · exact sent e he
  | @givenBack s' l err response success list connected tried sent =>
    refine .givenBack (l := .sent r.id uri :: l) (list.trans hlist) connected (by simp) ?_
    rintro e (- | ⟨_, he⟩)
    · exact ⟨uri, rfl⟩
    · exact sent e he

theorem sendToOneOfTheReceivers_exit (uris : List Text) (rounds : ℕ → Round) (s : State) :
    LoopExit r s uris (sendToOneOfTheReceivers r uris rounds s) := by
  induction uris generalizing rounds s with
  | nil => exact .exhausted rfl (fun hs => ⟨rfl, hs⟩) nofun
  | cons uri uris ih =>
    rw [sendToOneOfTheReceivers]
    split
    · rename_i err hc
      have hs : s.connected = false := by
        by_contra hs
        simp [hs] at hc
      by_cases hi : immediateCallbackAfterError err
      · rw [if_pos hi]
        exact .givenBack (l := []) rfl hs (by simp) nofun
      · rw [if_neg hi]
        have hrest := ih (fun i => rounds (i + 1)) s
        generalize sendToOneOfTheReceivers r uris (fun i => rounds (i + 1)) s = res at hrest ⊢
        cases hrest with
        | exhausted list connected sent =>
          exact .exhausted list (fun hc => absurd (connected hc).2 (by simp [hs])) sent
        | givenBack list connected tried sent => exact .givenBack list connected (by simp) sent
    · obtain ⟨s', hx, hs', hl⟩ | ⟨s', err, response, success, hx, hs', hl⟩ :=
        sendToReceiver_cases (r := r) (s := { s with connected := true }) (rounds 0) rfl
      · simp only [hx, Option.getD_none]
        exact (ih _ s').sentFirst hl hs'
      · simp only [hx, Option.getD_some]
        exact .givenBack (l := [.sent r.id uri]) hl hs' (by simp)
          (fun e he => ⟨uri, List.mem_singleton.mp he⟩)

theorem LoopExit.same {uris : List Text} {res : HandlerResult State} (h : LoopExit r s uris res) :
    SameRequest r res.request := by
  cases h with
  | exhausted => exact ⟨rfl, rfl, rfl⟩
  | givenBack => exact processRequestCallback_same _ _ _

inductive Exit (updateFrequency : ℕ) (r : PoolRequest) (s : State) (o : Circumstances) :
    HandlerResult State → Prop
  | missing {err} (file : updateDataSizeFromFileIfNeeded o.file r.request = .error err) :
      Exit updateFrequency r s o
        ⟨s, r, if r.callback then [.called r.id ⟨r.request.header, none, []⟩ (some err)] else [],
          false, false⟩
  | loop {request res} (file : updateDataSizeFromFileIfNeeded o.file r.request = .ok request)
      (exit : LoopExit { r with request } (rebalance updateFrequency o.discovery s)
        (rebalance updateFrequency o.discovery s).receiversList res) :
      Exit updateFrequency r s o res

theorem processRequestUnlocked_exit (updateFrequency : ℕ) (r : PoolRequest) (s : State)
    (o : Circumstances) :
    Exit updateFrequency r s o (processRequestUnlocked updateFrequency s r o) := by
  unfold processRequestUnlocked
  split
  · rename_i err hfile
    exact .missing hfile
  · rename_i request hfile
    exact .loop hfile (sendToOneOfTheReceivers_exit _ _ _)

theorem processRequestUnlocked_same (updateFrequency : ℕ) (r : PoolRequest) (s : State)
    (o : Circumstances) : SameRequest r (processRequestUnlocked updateFrequency s r o).request := by
  have hexit := processRequestUnlocked_exit updateFrequency r s o
  generalize processRequestUnlocked updateFrequency s r o = res at hexit
  cases hexit with
  | missing => exact ⟨rfl, rfl, rfl⟩
  | loop file exit => exact ⟨exit.same.id, exit.same.callback, exit.same.admitted⟩

end RequestHandlerTcp

namespace RequestHandlerFilesystem

theorem processRequestUnlocked_same (r : PoolRequest) (o : Circumstances) :
    SameRequest r (processRequestUnlocked r o).request := by
  unfold processRequestUnlocked
  split
  · exact ⟨rfl, rfl, rfl⟩
  · rename_i request _
    have hsame := RequestHandlerTcp.processRequestCallback_same o.write { r with request } []
    exact ⟨hsame.id, hsame.callback, hsame.admitted⟩

end RequestHandlerFilesystem

end Asapo.Producer
