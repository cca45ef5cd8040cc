import Asapo.Consumer.TcpConsumerClient
import Asapo.Transition

namespace Asapo.Consumer.PoolEntries

open Transition Network

structure GetDataCall where
  info : MessageMeta
  connected : Except Error SocketDescriptor
  sent : Option Error
  reconnected : Except Error SocketDescriptor
  resent : Option Error
  response : Except Error ResponseCode
  allocationFault : Bool
  received : Option Error

def tidyUp (sd : SocketDescriptor) : List CleanUp → Network → Network
  | [], s => s
  | .release :: rest, s => tidyUp sd rest (s.releaseConnection sd)
  | .close :: rest, s => tidyUp sd rest (s.closeSocket sd)

def sendGetDataRequest (sd : SocketDescriptor) (sent : Option Error) (s : Network) : Network × Option Error :=
  match sent with
  | none => (s, none)
  | some err => (tidyUp sd [.release, .close] s, some err)

def reconnectAndResendGetDataRequest (c : GetDataCall) (sd : SocketDescriptor) (s : Network) :
    Option (Network × Except Error SocketDescriptor) :=
  (s.reconnect sd c.reconnected).map (fun res =>
    match res with
    | (s, .error err) => (s, .error err)
    | (s, .ok sd) =>
      match sendGetDataRequest sd c.resent s with
      | (s, some err) => (s, .error err)
      | (s, none) => (s, .ok sd))

def receiveResponce (c : GetDataCall) (sd : SocketDescriptor) (s : Network) : Network × Option Error :=
  match c.response with
  | .error err => (tidyUp sd [.close, .release] s, some err)
  | .ok code =>
    match convertRdsResponseToError code with
    | none => (s, none)
    | some err => (tidyUp sd (Call.responseCleanUp code) s, some err)

def receiveData (c : GetDataCall) (sd : SocketDescriptor) (s : Network) : Network × Option Error :=
  if c.allocationFault then
    (tidyUp sd [.release] s, some (GeneralErrorTemplates.memoryAllocationError.generate ""))
  else
    match c.received with
    | none => (tidyUp sd [.release] s, none)
    | some err => (tidyUp sd [.release, .close] s, some err)

def receive (c : GetDataCall) (sd : SocketDescriptor) (s : Network) : Network × Option Error :=
  match receiveResponce c sd s with
  | (s, some err) => (s, some err)
  | (s, none) => receiveData c sd s

def behindResend (c : GetDataCall) : Network × Except Error SocketDescriptor → Network × Option Error
  | (s, .error err) => (s, some err)
  | (s, .ok sd) => receive c sd s

def query (c : GetDataCall) (sd : SocketDescriptor) (tryReconnect : Bool) (s : Network) :
    Option (Network × Option Error) :=
  match sendGetDataRequest sd c.sent s with
  | (s, none) => some (receive c sd s)
  | (s, some err) =>
    if tryReconnect then
      (reconnectAndResendGetDataRequest c sd s).map (behindResend c)
    else some (s, some err)

/-- The system does not connect to a descriptor that is open, so that not every call is possible. -/
def getData (c : GetDataCall) (s : Network) : Option (Network × Option Error) :=
  (s.getFreeConnection c.info.source c.connected).bind (fun res =>
    match res with
    | (s, .error err) => some (s, some err)
    | (s, .ok (sd, reused)) => query c sd reused s)

def call (s : Network) (c : GetDataCall) : Option Network := (getData c s).map Prod.fst

/-- Every connection of the pool is free and open, and every open descriptor is in the pool. -/
structure Clean (s : Network) : Prop where
  free : ∀ c ∈ s.connections, c.inUse = false
  opened : ∀ c ∈ s.connections, s.peers c.sd ≠ none
  pooled : ∀ sd, s.peers sd ≠ none → ∃ c ∈ s.connections, c.sd = sd

def KeepsConnection (c : GetDataCall) : Prop :=
  c.response = .ok (.inl .noData) ∨
    c.response = .ok (.inl .noError) ∧ (c.allocationFault = true ∨ c.received = none)

def DropsConnection (c : GetDataCall) : Prop :=
  (∃ err, c.response = .error err) ∨ c.response = .ok (.inl .notSupported) ∨
    c.response = .ok (.inl .wrongRequest) ∨
    c.response = .ok (.inl .noError) ∧ c.allocationFault = false ∧ c.received ≠ none

/-- A connection of the pool is kept, and one that was made again is closed. -/
def Harmless (s : Network) (c : GetDataCall) : Prop :=
  if (takeFree c.info.source s.connections).isSome then
    c.sent = none ∧ KeepsConnection c ∨
      c.sent ≠ none ∧ ((∃ err, c.reconnected = .error err) ∨ c.resent ≠ none ∨ DropsConnection c)
  else (∃ err, c.connected = .error err) ∨ c.sent = none ∧ KeepsConnection c

structure Tidy (s : Network) : Prop extends Clean s where
  distinct : (s.connections.map TcpConnectionInfo.sd).Nodup

structure Taken (sd : SocketDescriptor) (s : Network) : Prop where
  released : Tidy (s.releaseConnection sd)
  used : ∃ c ∈ s.connections, c.sd = sd ∧ c.inUse = true

structure Loose (sd : SocketDescriptor) (s : Network) : Prop where
  closed : Tidy (s.closeSocket sd)
  opened : s.peers sd ≠ none
  missing : ∀ c ∈ s.connections, c.sd ≠ sd

structure Decides (P : Prop) (s : Network) : Prop where
  tidy : P → Tidy s
  spoiled : ¬ P → ¬ Clean s

variable {s t : Network} {c : GetDataCall} {sd : SocketDescriptor} {todo : List CleanUp} {P Q : Prop}

theorem Decides.congr (h : Decides P s) (hpq : P ↔ Q) : Decides Q s :=
  ⟨fun hq => h.tidy (hpq.mpr hq), fun hq => h.spoiled (fun hp => hq (hpq.mp hp))⟩

section TidyUp

theorem sd_release (sd : SocketDescriptor) (c : TcpConnectionInfo) : (release sd c).sd = c.sd := by
  unfold release
  split <;> rfl

theorem sds_tidyUp (sd : SocketDescriptor) (todo : List CleanUp) (s : Network) :
    (tidyUp sd todo s).connections.map TcpConnectionInfo.sd = s.connections.map TcpConnectionInfo.sd := by
  induction todo generalizing s with
  | nil => rfl
  | cons step todo ih =>
    cases step with
    | close => exact ih (s.closeSocket sd)
    | release =>
      refine (ih (s.releaseConnection sd)).trans ?_
      rw [releaseConnection, List.map_map]
      exact List.map_congr_left (fun c _ => sd_release sd c)

theorem peers_tidyUp (sd : SocketDescriptor) (todo : List CleanUp) (s : Network) :
    (tidyUp sd todo s).peers = if .close ∈ todo then Function.update s.peers sd none else s.peers := by
  induction todo generalizing s with
  | nil => rfl
  | cons step todo ih =>
    cases step with
    | release =>
      rw [tidyUp, ih]
      simp [releaseConnection]
    | close =>
      rw [tidyUp, ih, if_pos List.mem_cons_self, closeSocket]
      split <;> simp

theorem tidyUp_of_missing (h : ∀ c ∈ s.connections, c.sd ≠ sd) (todo : List CleanUp) :
    tidyUp sd todo s = if .close ∈ todo then s.closeSocket sd else s := by
  have hconnections : (tidyUp sd todo s).connections = s.connections := by
    induction todo generalizing s with
    | nil => rfl
    | cons step todo ih =>
      cases step with
      | close => exact ih (s := s.closeSocket sd) h
      | release =>
        have hsame : s.releaseConnection sd = s := by
          rw [releaseConnection]
          congr 1
          conv_rhs => rw [← List.map_id s.connections]
          exact List.map_congr_left (fun c hc => if_neg (Ne.symm (h c hc)))
        rw [tidyUp, hsame]
        exact ih h
  have hpeers := peers_tidyUp sd todo s
  generalize tidyUp sd todo s = t at hconnections hpeers
  obtain ⟨connections, peers⟩ := t
  cases hconnections
  split at hpeers
  · rename_i hclose
    cases hpeers
    rw [if_pos hclose]
    rfl
  · rename_i hclose
    cases hpeers
    rw [if_neg hclose]

theorem Taken.spoiled_of_close (h : Taken sd s) (hclose : .close ∈ todo) : ¬ Clean (tidyUp sd todo s) := by
  intro hclean
  obtain ⟨c, hc, rfl, -⟩ := h.used
  have hmem : c.sd ∈ (tidyUp c.sd todo s).connections.map TcpConnectionInfo.sd := by
    rw [sds_tidyUp]
    exact List.mem_map_of_mem hc
  obtain ⟨c', hc', hsd⟩ := List.mem_map.mp hmem
  refine hclean.opened c' hc' ?_
  rw [hsd, peers_tidyUp, if_pos hclose, Function.update_self]

theorem Taken.not_clean (h : Taken sd s) : ¬ Clean s := by
  intro hclean
  obtain ⟨c, hc, -, huse⟩ := h.used
  rw [hclean.free c hc] at huse
  cases huse

theorem Loose.tidy_of_close (h : Loose sd s) (hclose : .close ∈ todo) : Tidy (tidyUp sd todo s) := by
  rw [tidyUp_of_missing h.missing, if_pos hclose]
  exact h.closed

theorem Loose.spoiled (h : Loose sd s) (hclose : .close ∉ todo) : ¬ Clean (tidyUp sd todo s) := by
  rw [tidyUp_of_missing h.missing, if_neg hclose]
  intro hclean
  obtain ⟨c, hc, hsd⟩ := hclean.pooled sd h.opened
  exact h.missing c hc hsd

end TidyUp

section Receive

def behindSending (c : GetDataCall) : List CleanUp :=
  match c.response with
  | .error _ => [.close, .release]
  | .ok code =>
    match convertRdsResponseToError code with
    | some _ => Call.responseCleanUp code
    | none =>
      if c.allocationFault then [.release]
      else
        match c.received with
        | none => [.release]
        | some _ => [.release, .close]

theorem receive_fst (c : GetDataCall) (sd : SocketDescriptor) (s : Network) :
    (receive c sd s).1 = tidyUp sd (behindSending c) s := by
  unfold receive receiveResponce behindSending receiveData
  cases c.response with
  | error err => rfl
  | ok code =>
    dsimp only
    cases convertRdsResponseToError code with
    | some err => rfl
    | none =>
      dsimp only
      cases c.allocationFault with
      | true => rfl
      | false => cases c.received <;> rfl

theorem behindSending_cases (c : GetDataCall) :
    behindSending c = [] ∧ ¬ KeepsConnection c ∧ ¬ DropsConnection c ∨
      behindSending c = [.release] ∧ KeepsConnection c ∧ ¬ DropsConnection c ∨
      .close ∈ behindSending c ∧ ¬ KeepsConnection c ∧ DropsConnection c := by
  unfold behindSending KeepsConnection DropsConnection
  cases c.response with
  | error err => simp
  | ok code =>
    rcases code with code | code
    · cases code <;> simp [convertRdsResponseToError, Call.responseCleanUp]
      cases c.allocationFault <;> cases c.received <;> simp
    · simp [convertRdsResponseToError, Call.responseCleanUp]

theorem Taken.receive (h : Taken sd s) : Decides (KeepsConnection c) (receive c sd s).1 := by
  rw [receive_fst]
  obtain ⟨htodo, hkeeps, -⟩ | ⟨htodo, hkeeps, -⟩ | ⟨htodo, hkeeps, -⟩ := behindSending_cases c
  · rw [htodo]
    exact ⟨fun hk => absurd hk hkeeps, fun _ => h.not_clean⟩
  · rw [htodo]
    exact ⟨fun _ => h.released, fun hk => absurd hkeeps hk⟩
  · exact ⟨fun hk => absurd hk hkeeps, fun _ => h.spoiled_of_close htodo⟩

theorem Loose.receive (h : Loose sd s) : Decides (DropsConnection c) (receive c sd s).1 := by
  rw [receive_fst]
  obtain ⟨htodo, -, hdrops⟩ | ⟨htodo, -, hdrops⟩ | ⟨htodo, -, hdrops⟩ := behindSending_cases c
  · rw [htodo]
    exact ⟨fun hd => absurd hd hdrops, fun _ => h.spoiled (by decide)⟩
  · rw [htodo]
    exact ⟨fun hd => absurd hd hdrops, fun _ => h.spoiled (by decide)⟩
  · exact ⟨fun _ => h.tidy_of_close htodo, fun hd => absurd hdrops hd⟩

end Receive

section Connect

theorem release_of_free {c : TcpConnectionInfo} (h : c.inUse = false) : release sd c = c := by
  unfold release
  split
  · rw [← h]
  · rfl

theorem map_release_of_free {cs : List TcpConnectionInfo} (h : ∀ c ∈ cs, c.inUse = false) :
    cs.map (release sd) = cs := by
  conv_rhs => rw [← List.map_id cs]
  exact List.map_congr_left (fun c hc => release_of_free (h c hc))

theorem taken_of_takeFree {source : Text} {connections : List TcpConnectionInfo} (hs : Tidy s)
    (h : takeFree source s.connections = some (sd, connections)) :
    Taken sd { s with connections } := by
  obtain ⟨l, r, hsplit, rfl⟩ := takeFree_split h
  refine ⟨?_, ⟨source, sd, true⟩, by simp, rfl, rfl⟩
  -- A free connection is not changed by a release, so this gives the pool from before.
  have hfree := hs.free
  rw [hsplit] at hfree
  have hback : releaseConnection { s with connections := l ++ ⟨source, sd, true⟩ :: r } sd = s := by
    rw [releaseConnection, List.map_append, List.map_cons,
      map_release_of_free (fun c hc => hfree c (by simp [hc])),
      map_release_of_free (fun c hc => hfree c (by simp [hc]))]
    simp only [release, if_true]
    rw [← hsplit]
  rw [hback]
  exact hs

theorem Tidy.missing (hs : Tidy s) (hclosed : s.peers sd = none) : ∀ c ∈ s.connections, c.sd ≠ sd := by
  rintro c hc rfl
  exact hs.opened c hc hclosed

theorem Tidy.append (hs : Tidy s) (source : Text) (hclosed : s.peers sd = none) :
    Tidy ⟨s.connections ++ [⟨source, sd, false⟩], Function.update s.peers sd (some source)⟩ where
  free c hc := by
    obtain hc | hc := List.mem_append.mp hc
    · exact hs.free c hc
    · cases List.mem_singleton.mp hc
      rfl
  opened c hc := by
    dsimp only
    obtain hc | hc := List.mem_append.mp hc
    · rw [Function.update_of_ne (hs.missing hclosed c hc)]
      exact hs.opened c hc
    · cases List.mem_singleton.mp hc
      simp
  pooled other hopen := by
    dsimp only at hopen ⊢
    obtain rfl | hne := eq_or_ne other sd
    · exact ⟨⟨source, other, false⟩, by simp, rfl⟩
    · rw [Function.update_of_ne hne] at hopen
      obtain ⟨c, hc, hsd⟩ := hs.pooled other hopen
      exact ⟨c, List.mem_append_left _ hc, hsd⟩
  distinct := by
    rw [List.map_append, List.nodup_append]
    refine ⟨hs.distinct, by simp, ?_⟩
    simpa using hs.missing hclosed

theorem taken_of_connect (hs : Tidy s) (source : Text) (hclosed : s.peers sd = none) :
    Taken sd ⟨s.connections ++ [⟨source, sd, true⟩], Function.update s.peers sd (some source)⟩ := by
  refine ⟨?_, ⟨source, sd, true⟩, by simp, rfl, rfl⟩
  have hreleased : (s.connections ++ [TcpConnectionInfo.mk source sd true]).map (release sd) =
      s.connections ++ [⟨source, sd, false⟩] := by
    rw [List.map_append, map_release_of_free hs.free]
    simp [release]
  rw [releaseConnection, hreleased]
  exact hs.append source hclosed

theorem getFreeConnection_cases {source : Text} {connected : Except Error SocketDescriptor}
    {res : Except Error (SocketDescriptor × Bool)} (hs : Tidy s)
    (h : s.getFreeConnection source connected = some (t, res)) :
    (takeFree source s.connections).isSome = true ∧ (∃ sd, res = .ok (sd, true) ∧ Taken sd t) ∨
      (takeFree source s.connections).isSome = false ∧
        ((∃ err, connected = .error err ∧ res = .error err ∧ t = s) ∨
          ∃ sd, connected = .ok sd ∧ res = .ok (sd, false) ∧ Taken sd t) := by
  unfold Network.getFreeConnection at h
  cases htake : takeFree source s.connections with
  | some taken =>
    rw [htake] at h
    cases h
    exact .inl ⟨rfl, taken.1, rfl, taken_of_takeFree hs htake⟩
  | none =>
    rw [htake] at h
    refine .inr ⟨rfl, ?_⟩
    obtain ⟨⟨t', sd⟩, hconnect, h⟩ := Option.map_eq_some_iff.mp h
    cases connected with
    | error err =>
      cases hconnect
      cases h
      exact .inl ⟨err, rfl, rfl, rfl⟩
    | ok sd =>
      rw [Network.connect] at hconnect
      split at hconnect <;> cases hconnect
      rename_i hclosed
      cases h
      exact .inr ⟨sd, rfl, rfl, taken_of_connect hs source hclosed⟩

theorem mem_eraseP_sd {c : TcpConnectionInfo} {cs : List TcpConnectionInfo}
    (hd : (cs.map TcpConnectionInfo.sd).Nodup) :
    c ∈ cs.eraseP (fun c => c.sd = sd) ↔ c ∈ cs ∧ c.sd ≠ sd := by
  induction cs with
  | nil => simp
  | cons x cs ih =>
    rw [List.map_cons, List.nodup_cons] at hd
    by_cases hx : x.sd = sd
    · rw [List.eraseP_cons_of_pos (by simpa using hx), List.mem_cons]
      constructor
      · intro hc
        refine ⟨.inr hc, fun hsd => hd.1 ?_⟩
        rw [hx, ← hsd]
        exact List.mem_map_of_mem hc
      · rintro ⟨rfl | hc, hsd⟩
        · exact absurd hx hsd
        · exact hc
    · rw [List.eraseP_cons_of_neg (by simpa using hx), List.mem_cons, List.mem_cons, ih hd.2]
      constructor
      · rintro (rfl | ⟨hc, hsd⟩)
        · exact ⟨.inl rfl, hx⟩
        · exact ⟨.inr hc, hsd⟩
      · rintro ⟨rfl | hc, hsd⟩
        · exact .inl rfl
        · exact .inr ⟨hc, hsd⟩

theorem Tidy.erase (hs : Tidy s) (sd : SocketDescriptor) :
    Tidy ⟨s.connections.eraseP (fun c => c.sd = sd), Function.update s.peers sd none⟩ where
  free c hc := hs.free c ((mem_eraseP_sd hs.distinct).mp hc).1
  opened c hc := by
    obtain ⟨hc, hsd⟩ := (mem_eraseP_sd hs.distinct).mp hc
    dsimp only
    rw [Function.update_of_ne hsd]
    exact hs.opened c hc
  pooled other hopen := by
    dsimp only at hopen ⊢
    obtain rfl | hne := eq_or_ne other sd
    · exact absurd (Function.update_self ..) hopen
    · rw [Function.update_of_ne hne] at hopen
      obtain ⟨c, hc, rfl⟩ := hs.pooled other hopen
      exact ⟨c, (mem_eraseP_sd hs.distinct).mpr ⟨hc, hne⟩, rfl⟩
  distinct := hs.distinct.sublist (List.eraseP_sublist.map _)

theorem Tidy.loose (hs : Tidy s) (source : Text) (hclosed : s.peers sd = none) :
    Loose sd { s with peers := Function.update s.peers sd (some source) } where
  closed := by
    rw [closeSocket, Function.update_idem, ← hclosed, Function.update_eq_self]
    exact hs
  opened := by simp
  missing := hs.missing hclosed

theorem Taken.reconnect {reconnected res : Except Error SocketDescriptor} (h : Taken sd s)
    (hr : (tidyUp sd [.release, .close] s).reconnect sd reconnected = some (t, res)) :
    (∃ err, reconnected = .error err ∧ res = .error err ∧ Tidy t) ∨
      ∃ new, reconnected = .ok new ∧ res = .ok new ∧ Loose new t := by
  change ((s.releaseConnection sd).closeSocket sd).reconnect sd reconnected = some (t, res) at hr
  have htidy := h.released.erase sd
  have hsome : ((s.releaseConnection sd).connections.find? (fun c => c.sd = sd)).isSome = true := by
    obtain ⟨c, hc, hsd, -⟩ := h.used
    refine List.find?_isSome.mpr ⟨release sd c, List.mem_map_of_mem hc, ?_⟩
    simpa [sd_release] using hsd
  obtain ⟨c, hfind⟩ := Option.isSome_iff_exists.mp hsome
  have hfind' : ((s.releaseConnection sd).closeSocket sd).connections.find? (fun c => c.sd = sd) = some c :=
    hfind
  rw [Network.reconnect, hfind'] at hr
  obtain ⟨⟨t', new⟩, hconnect, hr⟩ := Option.map_eq_some_iff.mp hr
  cases reconnected with
  | error err =>
    cases hconnect
    cases hr
    exact .inl ⟨err, rfl, rfl, htidy⟩
  | ok new =>
    rw [Network.connect] at hconnect
    split at hconnect <;> cases hconnect
    rename_i hclosed
    cases hr
    exact .inr ⟨new, rfl, rfl, htidy.loose c.uri hclosed⟩

end Connect

section Run

def InOrder (c : GetDataCall) (tryReconnect : Bool) : Prop :=
  c.sent = none ∧ KeepsConnection c ∨
    tryReconnect = true ∧ c.sent ≠ none ∧
      ((∃ err, c.reconnected = .error err) ∨ c.resent ≠ none ∨ DropsConnection c)

theorem Taken.reconnectAndResend {res : Except Error SocketDescriptor} (h : Taken sd s)
    (hr : reconnectAndResendGetDataRequest c sd (tidyUp sd [.release, .close] s) = some (t, res)) :
    (∃ err, res = .error err) ∧ ((∃ err, c.reconnected = .error err) ∨ c.resent ≠ none) ∧ Tidy t ∨
      ∃ new, res = .ok new ∧ c.reconnected = .ok new ∧ c.resent = none ∧ Loose new t := by
  obtain ⟨⟨t', res'⟩, hconnect, hr⟩ := Option.map_eq_some_iff.mp hr
  obtain ⟨err, hc, rfl, htidy⟩ | ⟨new, hc, rfl, hloose⟩ := h.reconnect hconnect
  · cases hr
    exact .inl ⟨⟨err, rfl⟩, .inl ⟨err, hc⟩, htidy⟩
  · cases hresent : c.resent with
    | none =>
      simp only [sendGetDataRequest, hresent] at hr
      cases hr
      exact .inr ⟨new, rfl, hc, rfl, hloose⟩
    | some err =>
      simp only [sendGetDataRequest, hresent] at hr
      cases hr
      exact .inl ⟨⟨err, rfl⟩, .inr (Option.some_ne_none err), hloose.tidy_of_close (by decide)⟩

theorem Taken.query {tryReconnect : Bool} {err : Option Error} (h : Taken sd s)
    (hq : query c sd tryReconnect s = some (t, err)) : Decides (InOrder c tryReconnect) t := by
  cases hsent : c.sent with
  | none =>
    simp only [PoolEntries.query, sendGetDataRequest, hsent, Option.some.injEq] at hq
    have ht := h.receive (c := c)
    rw [hq] at ht
    exact ht.congr (by simp [InOrder, hsent])
  | some fault =>
    simp only [PoolEntries.query, sendGetDataRequest, hsent] at hq
    cases tryReconnect with
    | false =>
      cases hq
      refine ⟨fun hc => ?_, fun _ => h.spoiled_of_close (by decide)⟩
      simp [InOrder, hsent] at hc
    | true =>
      obtain ⟨⟨t', res⟩, hresend, hq⟩ := Option.map_eq_some_iff.mp hq
      obtain ⟨⟨err, rfl⟩, hc, htidy⟩ | ⟨new, rfl, hc, hresent, hloose⟩ := h.reconnectAndResend hresend
      · cases hq
        refine ⟨fun _ => htidy, fun hn => absurd ?_ hn⟩
        exact .inr ⟨rfl, hsent ▸ Option.some_ne_none fault, hc.imp_right .inl⟩
      · have ht := hloose.receive (c := c)
        rw [show PoolEntries.receive c new t' = (t, err) from hq] at ht
        exact ht.congr (by simp [InOrder, hsent, hc, hresent])

theorem decides_call (hs : Tidy s) (h : call s c = some t) : Decides (Harmless s c) t := by
  obtain ⟨⟨t, err⟩, hdata, rfl⟩ := Option.map_eq_some_iff.mp h
  obtain ⟨⟨u, res⟩, hpool, hquery⟩ := Option.bind_eq_some_iff.mp hdata
  obtain ⟨hfree, sd, rfl, htaken⟩ | ⟨hfree, hnew⟩ := getFreeConnection_cases hs hpool
  · exact (htaken.query hquery).congr (by simp [InOrder, Harmless, hfree])
  · obtain ⟨err, hc, rfl, rfl⟩ | ⟨sd, hc, rfl, htaken⟩ := hnew
    · cases hquery
      exact ⟨fun _ => hs, fun hn => absurd (by simp [Harmless, hfree, hc]) hn⟩
    · exact (htaken.query hquery).congr (by simp [InOrder, Harmless, hfree, hc])

/-- No entry of the pool is leaked or dead between the calls of a run, exactly if every call
fails in a way that is cleaned up behind. -/
theorem pool_clean_iff (s : {s : Network // Tidy s}) (calls : List GetDataCall) :
    Always call Clean s.1 calls ↔ Along call Harmless s.1 calls :=
  always_iff_along (fun _ (hs : Tidy _) => hs.toClean)
    (fun _ _ _ hs hc hcall => (decides_call hs hcall).tidy hc)
    (fun _ _ _ hs hc hcall => (decides_call hs hcall).spoiled hc) s.1 calls s.2

def firstCall (response : Except Error ResponseCode) : GetDataCall where
  info := { MessageMeta.empty with source := text "receiver:8400" }
  connected := .ok 3
  sent := none
  reconnected := .ok 3
  resent := none
  response := response
  allocationFault := false
  received := none

/-- An answer with a code that the `switch` does not have leaves the connection in use. A
connection that is closed for the answer stays in the pool. -/
theorem answer_spoils_pool :
    ¬ Always call Clean ⟨[], fun _ => none⟩ [firstCall (.ok (.inl .internalServerError))] ∧
      ¬ Always call Clean ⟨[], fun _ => none⟩ [firstCall (.ok (.inl .wrongRequest))] := by
  constructor
  · intro h
    have hclean : Clean _ := h.2 _ rfl
    have hfree := hclean.free _ List.mem_cons_self
    cases hfree
  · intro h
    have hclean : Clean _ := h.2 _ rfl
    exact hclean.opened _ List.mem_cons_self rfl

end Run

section Steps

def Ends (p : Network × Call) (res : Network × Option Error) : Prop :=
  Reaches (fun p a => Call.step p.1 p.2 a) p (res.1, .returned res.2)

variable {res : Network × Option Error} {info : MessageMeta} {err : Option Error}

theorem Ends.step {call call' : Call} (a : Step) (h : Call.step s call a = some (t, call'))
    (hq : Ends (t, call') res) : Ends (s, call) res := Reaches.head a h hq

theorem ends_returned (s : Network) (err : Option Error) : Ends (s, .returned err) (s, err) :=
  Reaches.refl _

theorem ends_cleanUp {tryReconnect : Bool} (todo : List CleanUp)
    (h : Ends (tidyUp sd todo s, Call.cleanUpWith info sd err tryReconnect []) res) :
    Ends (s, Call.cleanUpWith info sd err tryReconnect todo) res := by
  induction todo generalizing s with
  | nil => exact h
  | cons todo rest ih =>
    cases todo with
    | release => exact .step .release rfl (ih h)
    | close => exact .step (.close false) rfl (ih h)

theorem ends_tidyUp (todo : List CleanUp) :
    Ends (s, Call.cleanUpWith info sd err false todo) (tidyUp sd todo s, err) :=
  ends_cleanUp todo (ends_returned (tidyUp sd todo s) err)

theorem ends_receiveData : Ends (s, .allocate info sd) (receiveData c sd s) := by
  unfold receiveData
  cases c.allocationFault with
  | true => exact .step (.allocate true) rfl (ends_tidyUp _)
  | false =>
    refine .step (.allocate false) rfl ?_
    cases c.received with
    | none => exact .step (.receiveData none) rfl (ends_tidyUp _)
    | some err => exact .step (.receiveData (some err)) rfl (ends_tidyUp _)

theorem ends_receive : Ends (s, .receiveResponse info sd) (receive c sd s) := by
  unfold receive receiveResponce
  cases c.response with
  | error err => exact .step (.receiveResponse (.error err)) rfl (ends_tidyUp _)
  | ok code =>
    refine .step (.receiveResponse (.ok code)) rfl ?_
    dsimp only [Call.behindResponse]
    cases convertRdsResponseToError code with
    | some err => exact ends_tidyUp _
    | none => exact ends_receiveData

theorem ends_resend {sent : Network × Except Error SocketDescriptor}
    (h : reconnectAndResendGetDataRequest c sd s = some sent) :
    Ends (s, .reconnect info sd) (behindResend c sent) := by
  obtain ⟨⟨t, connected⟩, hconnect, rfl⟩ := Option.map_eq_some_iff.mp h
  cases connected with
  | error err =>
    exact .step (.pool c.reconnected) (by rw [Call.step, hconnect]; rfl) (ends_returned t (some err))
  | ok new =>
    refine .step (.pool c.reconnected) (by rw [Call.step, hconnect]; rfl) ?_
    dsimp only [sendGetDataRequest]
    cases c.resent with
    | none => exact .step (.send none) rfl ends_receive
    | some err => exact .step (.send (some err)) rfl (ends_tidyUp _)

theorem ends_query {tryReconnect : Bool} (h : query c sd tryReconnect s = some res) :
    Ends (s, .sendGetDataRequest info sd tryReconnect) res := by
  cases hsent : c.sent with
  | none =>
    simp only [query, sendGetDataRequest, hsent, Option.some.injEq] at h
    cases h
    exact .step (.send none) rfl ends_receive
  | some err =>
    refine .step (.send (some err)) rfl ?_
    simp only [query, sendGetDataRequest, hsent] at h
    cases tryReconnect with
    | false =>
      cases h
      exact ends_tidyUp _
    | true =>
      obtain ⟨sent, hresend, rfl⟩ := Option.map_eq_some_iff.mp h
      exact ends_cleanUp [.release, .close] (ends_resend hresend)

/-- The calls are those of the client, where none runs beside another one and no socket fails to
close. -/
theorem ends_getData (last : Option Error) (h : getData c s = some res) :
    Ends (s, .returned last) res := by
  refine .step (.getData c.info) rfl ?_
  obtain ⟨⟨t, connected⟩, hpool, h⟩ := Option.bind_eq_some_iff.mp h
  obtain err | ⟨sd, reused⟩ := connected
  · cases h
    exact .step (.pool c.connected) (by rw [Call.step, hpool]; rfl) (ends_returned t (some err))
  · exact .step (.pool c.connected) (by rw [Call.step, hpool]; rfl) (ends_query h)

end Steps

end Asapo.Consumer.PoolEntries
