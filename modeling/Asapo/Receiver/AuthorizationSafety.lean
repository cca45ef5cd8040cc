import Asapo.Receiver.Authorization
import Asapo.Receiver.WorldFrames
import Asapo.Transition

namespace Asapo.Receiver

open AuthorizationClient History Transition

section Answers

variable {α β : Type} {data data' : AuthorizationCache}

theorem bind_ok {x : ExceptT Error (StateM AuthorizationCache) α}
    {f : α → ExceptT Error (StateM AuthorizationCache) β} {y : β}
    (h : (x >>= f).run data = (.ok y, data')) :
    ∃ a d, x.run data = (.ok a, d) ∧ (f a).run d = (.ok y, data') := by
  cases hx : x.run data with
  | mk r d =>
    rw [ExceptT.run_bind] at h
    simp only [bind, StateT.bind, hx] at h
    cases r with
    | error e => cases h
    | ok a => exact ⟨a, d, rfl, h⟩

theorem lift_ok {x : Except Error α} {a : α}
    (h : (liftM x : ExceptT Error (StateM AuthorizationCache) α).run data = (.ok a, data')) :
    x = .ok a ∧ data' = data := by
  cases x <;> cases h
  exact ⟨rfl, rfl⟩

theorem modify_ok {f : AuthorizationCache → AuthorizationCache} {a : PUnit}
    (h : (modify f : ExceptT Error (StateM AuthorizationCache) PUnit).run data = (.ok a, data')) :
    data' = f data := by
  cases h
  rfl

theorem field_ok {x : Except Error α} {f : α → AuthorizationCache → AuthorizationCache}
    {k : ExceptT Error (StateM AuthorizationCache) β} {y : β}
    (h : (do let a ← x; modify (f a); k : ExceptT Error (StateM AuthorizationCache) β).run data =
      (.ok y, data')) :
    ∃ a, x = .ok a ∧ k.run (f a data) = (.ok y, data') := by
  obtain ⟨a, d, hl, hr⟩ := bind_ok h
  obtain ⟨hx, rfl⟩ := lift_ok hl
  obtain ⟨u, e, hm, hk⟩ := bind_ok hr
  cases modify_ok hm
  exact ⟨a, hx, hk⟩

/-- An answer names all the data and allows to write data of their type. -/
structure Confirms (answer : JsonStringParser) (data : AuthorizationData) : Prop where
  beamtimeId : answer.getString "beamtimeId" = .ok data.beamtimeId
  dataSource : answer.getString "dataSource" = .ok data.dataSource
  offlinePath : answer.getString "corePath" = .ok data.offlinePath
  onlinePath : answer.getString "beamline-path" = .ok data.onlinePath
  beamline : answer.getString "beamline" = .ok data.beamline
  sourceType : ∃ stype, answer.getString "source-type" = .ok stype ∧
    getSourceTypeFromString stype = .ok data.sourceType
  access : ∃ types, answer.getArrayString "access-types" = .ok types ∧
    requiredAccess data.sourceType ∈ types

theorem confirms_of_parse {response : JsonStringParser} {types : List Text}
    (h : (parseServerResponse response).run data = (.ok types, data'))
    (ha : requiredAccess data'.sourceType ∈ types) :
    Confirms response data'.toAuthorizationData ∧ data'.sourceCredentials = data.sourceCredentials := by
  unfold parseServerResponse at h
  obtain ⟨beamtimeId, hb, h₁⟩ := field_ok h
  obtain ⟨dataSource, hd, h₂⟩ := field_ok h₁
  obtain ⟨offlinePath, hoff, h₃⟩ := field_ok h₂
  obtain ⟨onlinePath, hon, h₄⟩ := field_ok h₃
  obtain ⟨stype, d, hs, h₅⟩ := bind_ok h₄
  obtain ⟨hs', rfl⟩ := lift_ok hs
  obtain ⟨accessTypes, d, ht, h₆⟩ := bind_ok h₅
  obtain ⟨ht', rfl⟩ := lift_ok ht
  obtain ⟨sourceType, hst, h₇⟩ := field_ok h₆
  obtain ⟨beamline, hbl, h₈⟩ := field_ok h₇
  cases h₈
  exact ⟨⟨hb, hd, hoff, hon, hbl, ⟨stype, hs', hst⟩, ⟨types, ht', ha⟩⟩, rfl⟩

end Answers

section Histories

def Event.answer? : Event → Option JsonStringParser
  | .confirmed _ answer => some answer
  | _ => none

def firstAnswer (history : List Event) : Option JsonStringParser := history.findSome? Event.answer?

/-- The data come from an answer that the server gave during the check that is just
over, or before the check and less than the interval ago. -/
inductive Backed (intervalMs : ℕ) (data : AuthorizationData) : List Event → Prop
  | during (early : List Event) (checked received : ℕ) (answer : JsonStringParser)
      (confirms : Confirms answer data) :
      Backed intervalMs data (early ++ [.checked checked, .confirmed received answer])
  | before (early : List Event) (checked received : ℕ) (answer : JsonStringParser)
      (mem : .confirmed received answer ∈ early) (recent : checked < received + intervalMs * 1000000)
      (confirms : Confirms answer data) : Backed intervalMs data (early ++ [.checked checked])

/-- The data belong to the beamtime of the first successful authorization, and an answer
stands behind them. -/
structure Covered (intervalMs : ℕ) (data : AuthorizationData) (before : List Event) : Prop where
  beamtime : ∃ answer, firstAnswer before = some answer ∧ answer.getString "beamtimeId" = .ok data.beamtimeId
  backed : Backed intervalMs data before

/-- Nothing happens after a failed authorization, and the data of a request that is admitted
are covered. -/
def Event.Secure (intervalMs : ℕ) (before : List Event) (e : Event) : Prop :=
  .failed ∉ before ∧ ∀ r, e = .admitted r → Covered intervalMs r.authorization before

theorem firstAnswer_concat_of_some {history : List Event} {answer : JsonStringParser} (e : Event)
    (h : firstAnswer history = some answer) : firstAnswer (history ++ [e]) = some answer := by
  simp [firstAnswer, List.findSome?_append, show history.findSome? Event.answer? = some answer from h]

theorem firstAnswer_concat_of_none {history : List Event} (e : Event)
    (h : firstAnswer history = none) : firstAnswer (history ++ [e]) = e.answer? := by
  simp [firstAnswer, List.findSome?_append, show history.findSome? Event.answer? = none from h]

end Histories

section Sessions

variable {σ : Type} {server : AuthorizationServer σ} {originUri : Text} {intervalMs : ℕ}
  {s t : Session σ} {err : Option Error}

/-- The server does not accept empty credentials. -/
def AuthorizationServer.RejectsEmpty (server : AuthorizationServer σ) : Prop :=
  ∀ originUri w response, (server.post (getRequestString originUri []) w).1 ≠ .ok (.ok, response)

inductive Authorized (s t : Session σ) : Option Error → Prop
  | refused (err : Error) (cache : t.cache = s.cache) (history : t.history = s.history) :
      Authorized s t (some err)
  | confirmed (time : ℕ) (answer : JsonStringParser) (nonempty : s.cache.sourceCredentials ≠ [])
      (credentials : t.cache.sourceCredentials = s.cache.sourceCredentials)
      (lastUpdate : t.cache.lastUpdate = time)
      (history : t.history = s.history ++ [.confirmed time answer])
      (confirms : Confirms answer t.cache.toAuthorizationData) : Authorized s t none

theorem update_cases {response : JsonStringParser} (hne : s.cache.sourceCredentials ≠ [])
    (h : updateDataFromServerResponse server response s = (err, t)) : Authorized s t err := by
  unfold updateDataFromServerResponse at h
  extract_lets oldData at h
  split at h
  · cases h
    exact .refused _ rfl rfl
  · rename_i types data hp
    split at h
    · cases h
      exact .refused _ rfl rfl
    · rename_i ha
      cases h
      have hmem : requiredAccess data.sourceType ∈ types := by
        unfold checkAccessType at ha
        split at ha
        · rename_i hc
          exact List.contains_iff_mem.mp hc
        · cases ha
      obtain ⟨hc, hcr⟩ := confirms_of_parse hp hmem
      exact .confirmed _ response hne hcr rfl rfl hc

theorem authorize_cases (hserver : server.RejectsEmpty) (h : authorize server originUri s = (err, t)) :
    Authorized s t err := by
  unfold authorize doServerRequest Session.call at h
  generalize hp : server.post (getRequestString originUri s.cache.sourceCredentials) s.outside = r at h
  obtain ⟨answer, w⟩ := r
  cases answer with
  | error e =>
    cases h
    exact .refused _ rfl rfl
  | ok answered =>
    obtain ⟨code, response⟩ := answered
    by_cases hcode : code = .ok
    · subst hcode
      have hne : s.cache.sourceCredentials ≠ [] := by
        intro he
        rw [he] at hp
        exact hserver originUri s.outside response (congrArg Prod.fst hp)
      simp only [ne_eq, not_true_eq_false, ↓reduceIte] at h
      have hu := update_cases (s := { s with outside := w }) hne h
      cases hu with
      | refused e hc hh => exact .refused e hc hh
      | confirmed time answer hn hc hl hh hcf => exact .confirmed time answer hn hc hl hh hcf
    · simp only [ne_eq, hcode, not_false_eq_true, ↓reduceIte] at h
      cases h
      exact .refused _ rfl rfl

structure Running (intervalMs : ℕ) (history : List Event) : Prop where
  running : .failed ∉ history
  secure : Justified (Event.Secure intervalMs) history

theorem Running.note {history : List Event} {e : Event} (h : Running intervalMs history)
    (hf : e ≠ .failed) (ha : e.Secure intervalMs history) : Running intervalMs (history ++ [e]) := by
  refine ⟨?_, justified_concat.mpr ⟨h.secure, ha⟩⟩
  simp only [List.mem_append, List.mem_singleton, not_or]
  exact ⟨h.running, hf.symm⟩

theorem Running.checked {history : List Event} (h : Running intervalMs history) (time : ℕ) :
    Running intervalMs (history ++ [.checked time]) := by
  refine h.note (by simp) ⟨h.running, ?_⟩
  rintro r ⟨⟩

theorem Running.confirmed {history : List Event} (h : Running intervalMs history) (time : ℕ)
    (answer : JsonStringParser) : Running intervalMs (history ++ [.confirmed time answer]) := by
  refine h.note (by simp) ⟨h.running, ?_⟩
  rintro r ⟨⟩

theorem Running.failed {history : List Event} (h : Running intervalMs history) :
    Justified (Event.Secure intervalMs) (history ++ [.failed]) := by
  refine justified_concat.mpr ⟨h.secure, h.running, ?_⟩
  rintro r ⟨⟩

/-- The cache of an open connection holds the data of the last answer, for the beamtime
of the first one. Without credentials there was no answer. -/
structure Sound (intervalMs : ℕ) (s : Session σ) : Prop extends Running intervalMs s.history where
  unauthorized : s.cache.sourceCredentials = [] → firstAnswer s.history = none
  beamtime : s.cache.sourceCredentials ≠ [] → ∃ answer, firstAnswer s.history = some answer ∧
    answer.getString "beamtimeId" = .ok s.cache.beamtimeId
  confirmed : s.cache.sourceCredentials ≠ [] → ∃ answer,
    .confirmed s.cache.lastUpdate answer ∈ s.history ∧ Confirms answer s.cache.toAuthorizationData

theorem initial_cases {r : Request} (hserver : server.RejectsEmpty) (hs : Sound intervalMs s)
    (h : RequestHandlerInitialAuthorization.processRequest server originUri r s = (err, t)) :
    Running intervalMs t.history ∧ (err = none → Sound intervalMs t) := by
  unfold RequestHandlerInitialAuthorization.processRequest at h
  split at h
  · cases h
    exact ⟨hs.toRunning, by rintro ⟨⟩⟩
  split at h
  · cases h
    exact ⟨hs.toRunning, by rintro ⟨⟩⟩
  rename_i hc
  have hnone := hs.unauthorized (not_not.mp hc)
  cases authorize_cases hserver h with
  | refused e hcache hh => exact ⟨hh ▸ hs.toRunning, by rintro ⟨⟩⟩
  | confirmed time answer hne hcr hl hh hcf =>
    have hrun : Running intervalMs t.history := hh ▸ hs.toRunning.confirmed time answer
    have hfirst : firstAnswer t.history = some answer := hh ▸ firstAnswer_concat_of_none _ hnone
    refine ⟨hrun, fun _ => ⟨hrun, fun he => absurd (hcr ▸ he) hne, fun _ => ⟨answer, hfirst, hcf.beamtimeId⟩,
      fun _ => ⟨answer, ?_, hcf⟩⟩⟩
    simp [hh, hl]

open RequestHandlerSecondaryAuthorization

theorem reauthorize_cases (hserver : server.RejectsEmpty) (hs : Sound intervalMs s)
    (h : processReAuthorization server originUri s = (err, t)) :
    Running intervalMs t.history ∧
      (err = none → Sound intervalMs t ∧ ∃ time answer, t.history = s.history ++ [.confirmed time answer] ∧
        Confirms answer t.cache.toAuthorizationData) := by
  unfold processReAuthorization at h
  extract_lets old at h
  split at h
  rename_i e u hu
  have ha := authorize_cases hserver hu
  split at h
  · cases h
    refine ⟨?_, by rintro ⟨⟩⟩
    cases ha with
    | refused e hcache hh => exact hh ▸ hs.toRunning
    | confirmed time answer hne hcr hl hh hcf => exact hh ▸ hs.toRunning.confirmed time answer
  · rename_i hcond
    cases h
    cases ha with
    | refused e hcache hh => exact ⟨hh ▸ hs.toRunning, by rintro ⟨⟩⟩
    | confirmed time answer hne hcr hl hh hcf =>
      have hrun : Running intervalMs t.history := hh ▸ hs.toRunning.confirmed time answer
      have hsame : s.cache.beamtimeId = t.cache.beamtimeId := by
        simpa [old] using hcond
      obtain ⟨first, hfirst, hb⟩ := hs.beamtime hne
      refine ⟨hrun, fun _ => ⟨⟨hrun, fun he => absurd (hcr ▸ he) hne, fun _ => ⟨first, ?_, hsame ▸ hb⟩,
        fun _ => ⟨answer, by simp [hh, hl], hcf⟩⟩, time, answer, hh, hcf⟩⟩
      exact hh ▸ firstAnswer_concat_of_some _ hfirst

theorem needReauthorize_cases (hs : Sound intervalMs s) {needed : Bool}
    (h : needReauthorize server intervalMs s = (needed, t)) :
    Sound intervalMs t ∧ t.cache = s.cache ∧ ∃ time, t.history = s.history ++ [.checked time] ∧
      (needed = false → time < s.cache.lastUpdate + intervalMs * 1000000) := by
  unfold needReauthorize at h
  split at h
  rename_i time u hu
  cases hu
  cases h
  refine ⟨⟨hs.toRunning.checked _, fun he => ?_, fun hne => ?_, fun hne => ?_⟩, rfl, _, rfl, fun hn => ?_⟩
  · exact firstAnswer_concat_of_none _ (hs.unauthorized he)
  · obtain ⟨answer, hf, hb⟩ := hs.beamtime hne
    exact ⟨answer, firstAnswer_concat_of_some _ hf, hb⟩
  · obtain ⟨answer, hm, hc⟩ := hs.confirmed hne
    exact ⟨answer, List.mem_append_left _ hm, hc⟩
  · have hlt := Nat.lt_mul_of_div_lt (not_le.mp (of_decide_eq_false hn)) (by decide)
    dsimp only at hlt ⊢
    omega

theorem Sound.admit (hs : Sound intervalMs s) (hne : s.cache.sourceCredentials ≠ []) (r : Request)
    (hb : Backed intervalMs s.cache.toAuthorizationData s.history) :
    Sound intervalMs (s.note (.admitted { r with authorization := s.cache.toAuthorizationData })) := by
  obtain ⟨first, hfirst, hbeam⟩ := hs.beamtime hne
  refine ⟨hs.toRunning.note (by simp) ⟨hs.running, ?_⟩, fun he => absurd he hne, fun _ => ?_, fun _ => ?_⟩
  · rintro _ ⟨⟩
    exact ⟨⟨first, hfirst, hbeam⟩, hb⟩
  · exact ⟨first, firstAnswer_concat_of_some _ hfirst, hbeam⟩
  · obtain ⟨answer, hm, hc⟩ := hs.confirmed hne
    exact ⟨answer, List.mem_append_left _ hm, hc⟩

theorem secondary_cases {r : Request} {x : Except Error AuthorizationData} (hserver : server.RejectsEmpty)
    (hs : Sound intervalMs s) (h : authorized server originUri intervalMs r s = (x, t)) :
    Running intervalMs t.history ∧ ∀ data, x = .ok data →
      Sound intervalMs (t.note (.admitted { r with authorization := data })) := by
  unfold authorized at h
  split at h
  · cases h
    exact ⟨hs.toRunning, by rintro _ ⟨⟩⟩
  rename_i hcheck
  have hne : s.cache.sourceCredentials ≠ [] := by
    unfold checkRequest at hcheck
    split at hcheck
    · cases hcheck
    · split at hcheck
      · cases hcheck
      · assumption
  unfold reauthorizeIfNeeded at h
  cases hn : needReauthorize server intervalMs s with
  | mk needed u =>
    obtain ⟨hu, hcache, time, hhist, hrecent⟩ := needReauthorize_cases hs hn
    rw [← hcache] at hne
    cases needed with
    | false =>
      -- the last answer is recent
      simp only [hn] at h
      cases h
      refine ⟨hu.toRunning, ?_⟩
      rintro _ ⟨⟩
      refine hu.admit hne r ?_
      obtain ⟨answer, hm, hc⟩ := hs.confirmed (hcache ▸ hne)
      rw [hhist]
      exact .before s.history time s.cache.lastUpdate answer hm (hrecent rfl) (hcache ▸ hc)
    | true =>
      simp only [hn] at h
      cases hp : processReAuthorization server originUri u with
      | mk e v =>
        obtain ⟨hrun, hok⟩ := reauthorize_cases hserver hu hp
        rw [hp] at h
        cases e with
        | some e =>
          cases h
          exact ⟨hrun, by rintro _ ⟨⟩⟩
        | none =>
          cases h
          refine ⟨hrun, ?_⟩
          rintro _ ⟨⟩
          obtain ⟨hv, received, answer, hv', hc⟩ := hok rfl
          refine hv.admit (fun he => ?_) r ?_
          · have := hv.unauthorized he
            simp [hv', firstAnswer, List.findSome?_append, Event.answer?] at this
          · rw [hv', hhist, List.append_assoc]
            exact .during s.history time received answer hc

end Sessions

section Connections

variable {σ : Type} {server : AuthorizationServer σ} {originUri : Text} {intervalMs : ℕ}
  {b : Backend σ} {thresholdMb rounds : ℕ}

def Session.own (s : Session σ) : AuthorizationCache × List Event := (s.cache, s.history)

theorem leaves_own : (sessionBackend server originUri intervalMs b).Leaves Session.own := by
  constructor <;> intros <;> rfl

theorem Sound.of_own {s t : Session σ} (h : Sound intervalMs s) (ho : t.own = s.own) :
    Sound intervalMs t := by
  obtain ⟨hc, hh⟩ := Prod.ext_iff.mp ho
  change t.cache = s.cache at hc
  change t.history = s.history at hh
  exact ⟨hh ▸ h.toRunning, by rw [hc, hh]; exact h.unauthorized, by rw [hc, hh]; exact h.beamtime,
    by rw [hc, hh]; exact h.confirmed⟩

def Kept (intervalMs : ℕ) (err : Option Error) (s : Session σ) : Prop :=
  Justified (Event.Secure intervalMs) s.history ∧ (err = none → Sound intervalMs s)

theorem Kept.of_own {err e : Option Error} {s t : Session σ} (h : Kept intervalMs err s)
    (ho : t.own = s.own) (he : e = none → err = none) : Kept intervalMs e t := by
  have hh : t.history = s.history := congrArg Prod.snd ho
  exact ⟨hh ▸ h.1, fun hn => (h.2 (he hn)).of_own ho⟩

theorem kept_initial {s t : Served (Session σ)} {err : Option Error} (hserver : server.RejectsEmpty)
    (hs : Sound intervalMs s.world)
    (h : s.call ((sessionBackend server originUri intervalMs b).initialAuthorize s.request) = (err, t)) :
    Kept intervalMs err t.world := by
  cases hp : RequestHandlerInitialAuthorization.processRequest server originUri s.request s.world with
  | mk e u =>
    obtain ⟨hrun, hok⟩ := initial_cases hserver hs hp
    simp only [Served.call, sessionBackend, hp] at h
    cases e with
    | some e =>
      cases h
      exact ⟨hrun.failed, by rintro ⟨⟩⟩
    | none =>
      cases h
      exact ⟨hrun.secure, fun _ => hok rfl⟩

theorem kept_secondary {s t : Served (Session σ)} {err : Option Error}
    (hserver : server.RejectsEmpty) (hs : Sound intervalMs s.world)
    (h : RequestHandlerSecondaryAuthorization.processRequest
      (sessionBackend server originUri intervalMs b) s = (err, t)) : Kept intervalMs err t.world := by
  cases ha : RequestHandlerSecondaryAuthorization.authorized server originUri intervalMs s.request s.world with
  | mk x u =>
    obtain ⟨hrun, hok⟩ := secondary_cases hserver hs ha
    simp only [RequestHandlerSecondaryAuthorization.processRequest, sessionBackend, Served.call, ha] at h
    cases x with
    | error e =>
      cases h
      exact ⟨hrun.failed, by rintro ⟨⟩⟩
    | ok data =>
      cases h
      exact ⟨(hok data rfl).secure, fun _ => hok data rfl⟩

theorem admitted_request {s t : Served (Session σ)}
    (h : RequestHandlerSecondaryAuthorization.processRequest
      (sessionBackend server originUri intervalMs b) s = (none, t)) :
    ∃ before, t.world.history = before ++ [.admitted t.request] := by
  cases ha : RequestHandlerSecondaryAuthorization.authorized server originUri intervalMs s.request s.world with
  | mk x u =>
    simp only [RequestHandlerSecondaryAuthorization.processRequest, sessionBackend, Served.call, ha] at h
    cases x with
    | error e => cases h
    | ok data =>
      cases h
      exact ⟨u.history, rfl⟩

theorem kept_chain {handlers : List Handler} {header : GenericRequestHeader} {s t : Served (Session σ)}
    {err : Option Error} (hserver : server.RejectsEmpty)
    (hc : RequestFactory.addHandlersToRequest thresholdMb header = .ok handlers)
    (hs : Sound intervalMs s.world)
    (h : handle (sessionBackend server originUri intervalMs b) rounds handlers s = some (err, t)) :
    Kept intervalMs err t.world := by
  obtain ⟨-, rfl⟩ | ⟨-, rest, rfl, hrest⟩ := chain_cases hc
  · obtain ⟨e, rfl, hm⟩ | ⟨u, hm, h⟩ := handle_cons_cases h
    · have ho := (left_receiveMetaData leaves_own (Option.some.inj hm)).world
      exact ⟨(hs.of_own ho).secure, by rintro ⟨⟩⟩
    · have hu := hs.of_own ((left_receiveMetaData leaves_own (Option.some.inj hm)).world)
      obtain ⟨e, rfl, hi⟩ | ⟨v, hi, h⟩ := handle_cons_cases h
      · exact kept_initial hserver hu (Option.some.inj hi)
      · cases h
        exact kept_initial hserver hu (Option.some.inj hi)
  · obtain ⟨e, rfl, ha⟩ | ⟨u, ha, h⟩ := handle_cons_cases h
    · exact kept_secondary hserver hs (Option.some.inj ha)
    · have hu := kept_secondary hserver hs (Option.some.inj ha)
      exact hu.of_own (left_handle leaves_own hrest h).world (fun _ => rfl)

theorem next_cases {α : Type} {a : Backend σ} {K : σ → α} {input rest : Bytes} {w w' : σ}
    {x : Except Error (GenericRequestHeader × List Handler)} (ha : a.Leaves K)
    (h : RequestsDispatcher.getNextRequest a thresholdMb input w = (x, rest, w')) :
    K w' = K w ∧ ∀ header handlers, x = .ok (header, handlers) →
      RequestFactory.addHandlersToRequest thresholdMb header = .ok handlers := by
  unfold RequestsDispatcher.getNextRequest at h
  split at h <;> rename_i hr <;> obtain ⟨hk, -⟩ := backend_receive_cases (b := a.silent) ha.keeps hr
  · cases h
    exact ⟨hk, by rintro _ _ ⟨⟩⟩
  · rename_i bytes _ _
    cases hh : RequestFactory.addHandlersToRequest thresholdMb (.ofBytes bytes) with
    | error e =>
      rw [hh] at h
      cases h
      exact ⟨hk, by rintro _ _ ⟨⟩⟩
    | ok handlers =>
      rw [hh] at h
      cases h
      refine ⟨hk, ?_⟩
      rintro _ _ ⟨⟩
      exact hh

theorem kept_processRequest {handlers : List Handler} {header : GenericRequestHeader}
    {s t : Served (Session σ)} {err : Option Error} (hserver : server.RejectsEmpty)
    (hc : RequestFactory.addHandlersToRequest thresholdMb header = .ok handlers)
    (hs : Sound intervalMs s.world)
    (h : RequestsDispatcher.processRequest (sessionBackend server originUri intervalMs b) rounds handlers s =
      some (err, t)) : Kept intervalMs err t.world := by
  obtain ⟨⟨e, u⟩, hu, ht⟩ := Option.map_eq_some_iff.mp h
  simp only [Prod.mk.injEq] at ht
  obtain ⟨he, rfl⟩ := ht
  refine (kept_chain hserver hc hs hu).of_own rfl (fun hn => ?_)
  subst hn
  cases e with
  | none => rfl
  | some e => cases he

theorem kept_listenOnce {input rest : Bytes} {s t : Session σ} {err : Option Error}
    (hserver : server.RejectsEmpty) (hs : Sound intervalMs s)
    (h : Connection.listenOnce (sessionBackend server originUri intervalMs b) thresholdMb rounds input s =
      some (err, rest, t)) : Kept intervalMs err t := by
  unfold Connection.listenOnce at h
  split at h <;> rename_i hn <;> obtain ⟨ho, hok⟩ := next_cases leaves_own hn
  · cases h
    exact ⟨(hs.of_own ho).secure, by rintro ⟨⟩⟩
  · obtain ⟨⟨e, v⟩, hv, hres⟩ := Option.map_eq_some_iff.mp h
    cases hres
    exact kept_processRequest hserver (hok _ _ rfl) (hs.of_own ho) hv

theorem exec_closed {c : Connection σ} (hc : c.closed = true) (more : List ℕ) :
    exec (Connection.listen server originUri intervalMs b thresholdMb) c more = some c := by
  induction more with
  | nil => rfl
  | cons rounds more ih => simpa [exec, Connection.listen, hc] using ih

/-- The handler has a request whose data are covered by what has happened before it was
admitted. -/
def Carries (intervalMs : ℕ) (t : Served (Session σ)) : Prop :=
  ∃ before r, t.world.history = before ++ [.admitted r] ∧ Covered intervalMs t.request.authorization before

/-- The requests that were admitted are covered, and behind an authorization that failed there
is no other request. Of the next request, which is not the one for the authorization, every
handler behind the secondary authorization has the request with data that are covered. -/
structure Connection.Safe (server : AuthorizationServer σ) (originUri : Text) (intervalMs : ℕ)
    (b : Backend σ) (thresholdMb : ℕ) (c : Connection σ) : Prop where
  secure : Justified (Event.Secure intervalMs) c.session.history
  stopped : .failed ∈ c.session.history → ∀ more,
    exec (listen server originUri intervalMs b thresholdMb) c more = some c
  carried : c.closed = false → ∀ rounds header handlers input session y t,
    RequestsDispatcher.getNextRequest (sessionBackend server originUri intervalMs b) thresholdMb c.input
        c.session = (.ok (header, handlers), input, session) →
      header.opCode ≠ .authorize → y ≠ .secondaryAuthorize →
      Executed (sessionBackend server originUri intervalMs b) rounds handlers
        ⟨Request.ofHeader header, input, session⟩ y t → Carries intervalMs t

def Connection.Inv (intervalMs : ℕ) (c : Connection σ) : Prop :=
  Justified (Event.Secure intervalMs) c.session.history ∧ (c.closed = false → Sound intervalMs c.session)

theorem inv_listen (hserver : server.RejectsEmpty) {c d : Connection σ} (hc : c.Inv intervalMs)
    (h : c.listen server originUri intervalMs b thresholdMb rounds = some d) : d.Inv intervalMs := by
  unfold Connection.listen at h
  split at h
  · cases h
    exact hc
  · rename_i hopen
    obtain ⟨⟨err, rest, t⟩, hl, hd⟩ := Option.map_eq_some_iff.mp h
    cases hd
    have hk := kept_listenOnce hserver (hc.2 (Bool.eq_false_iff.mpr hopen)) hl
    exact ⟨hk.1, fun he => hk.2 (by simpa using he)⟩

theorem carries_secondary {s t : Served (Session σ)} (hserver : server.RejectsEmpty)
    (hs : Sound intervalMs s.world)
    (h : RequestHandlerSecondaryAuthorization.processRequest
      (sessionBackend server originUri intervalMs b) s = (none, t)) : Carries intervalMs t := by
  obtain ⟨before, hhistory⟩ := admitted_request h
  have hsecure := (kept_secondary hserver hs h).1
  rw [hhistory] at hsecure
  exact ⟨before, t.request, hhistory, (justified_concat.mp hsecure).2.2 _ rfl⟩

theorem carries_executed {handlers : List Handler} {header : GenericRequestHeader} {y : Handler}
    {s t : Served (Session σ)} (hserver : server.RejectsEmpty)
    (hc : RequestFactory.addHandlersToRequest thresholdMb header = .ok handlers)
    (hop : header.opCode ≠ .authorize) (hs : Sound intervalMs s.world) (hy : y ≠ .secondaryAuthorize)
    (h : Executed (sessionBackend server originUri intervalMs b) rounds handlers s y t) :
    Carries intervalMs t := by
  obtain ⟨hauthorize, -⟩ | ⟨-, rest, rfl, hrest⟩ := chain_cases hc
  · exact absurd hauthorize hop
  · cases h with
    | here => exact absurd rfl hy
    | @behind _ _ _ _ u _ passed later =>
      obtain ⟨before, r, hhistory, hcovered⟩ := carries_secondary hserver hs (Option.some.inj passed)
      -- the handlers behind the authorization change neither the history nor the data
      have hleft := left_executed leaves_own hrest later
      have hsame : t.world.history = u.world.history := congrArg Prod.snd hleft.world
      exact ⟨before, r, hsame.trans hhistory, hleft.authorization.symm ▸ hcovered⟩

theorem safe_of_inv (hserver : server.RejectsEmpty) (c : Connection σ) (hc : c.Inv intervalMs) :
    c.Safe server originUri intervalMs b thresholdMb := by
  refine ⟨hc.1, fun hf => exec_closed ?_, fun hopen rounds header handlers input session y t hnext hop hy h => ?_⟩
  · by_contra hopen
    exact (hc.2 (Bool.eq_false_iff.mpr hopen)).running hf
  · obtain ⟨ho, hok⟩ := next_cases leaves_own hnext
    exact carries_executed hserver (hok header handlers rfl) hop ((hc.2 hopen).of_own ho) hy h

theorem sound_accepted (intervalMs clock : ℕ) (w : σ) :
    Sound intervalMs (⟨.empty, clock, [], w⟩ : Session σ) where
  running := by simp
  secure := justified_nil
  unauthorized _ := rfl
  beamtime h := absurd rfl h
  confirmed h := absurd rfl h

theorem connection_safe (server : AuthorizationServer σ) (hserver : server.RejectsEmpty)
    (originUri : Text) (intervalMs : ℕ) (b : Backend σ) (thresholdMb : ℕ) (input : Bytes) (clock : ℕ) (w : σ)
    (rounds : List ℕ) :
    Always (Connection.listen server originUri intervalMs b thresholdMb)
      (Connection.Safe server originUri intervalMs b thresholdMb) (.accepted input clock w) rounds := by
  apply always_of_step (safe_of_inv hserver)
  · exact fun c rounds d hc h => inv_listen hserver hc h
  · exact ⟨justified_nil, fun _ => sound_accepted intervalMs clock w⟩

def oneBeamtime : AuthorizationServer Unit where
  post request w :=
    (.ok (if (request.drop (text "\x7b\"SourceCredentials\":\"").length).head? = some '"' then .unauthorized
      else .ok,
      ⟨fun name => .ok (text (if name = "source-type" then "raw" else name)), fun _ => .ok [text "writeraw"]⟩), w)
  elapsed w := (1, w)

theorem oneBeamtime_rejectsEmpty : oneBeamtime.RejectsEmpty := by
  intro originUri w response
  have hdrop : ((getRequestString originUri []).drop (text "\x7b\"SourceCredentials\":\"").length).head? =
      some '"' := by
    rw [getRequestString, List.append_nil, List.append_assoc, List.append_assoc, List.drop_left]
    rfl
  simp only [oneBeamtime, hdrop, ↓reduceIte, ne_eq, Except.ok.injEq, Prod.mk.injEq, reduceCtorEq, false_and,
    not_false_eq_true]

def twoRequests : Bytes :=
  GenericRequestHeader.toBytes ⟨.authorize, 0, 0, 1, fun _ => 0, [], [], receiverApiVersion⟩ ++ [65] ++
    GenericRequestHeader.toBytes ⟨.lastStream, 0, 0, 0, fun _ => 0, [], [], receiverApiVersion⟩

def Event.admits : Event → Bool
  | .admitted _ => true
  | _ => false

theorem connection_safe_question :
    (exec (Connection.listen oneBeamtime [] 1 (.calm Unit) 0) (.accepted twoRequests 0 ()) [0, 0]).any
        (fun c => c.session.history.any Event.admits) = true ∧
      Always (Connection.listen oneBeamtime [] 1 (.calm Unit) 0)
        (Connection.Safe oneBeamtime [] 1 (.calm Unit) 0) (.accepted twoRequests 0 ()) [0, 0] :=
  ⟨by decide +kernel, connection_safe oneBeamtime oneBeamtime_rejectsEmpty [] 1 (.calm Unit) 0 twoRequests 0 () _⟩

end Connections

end Asapo.Receiver
