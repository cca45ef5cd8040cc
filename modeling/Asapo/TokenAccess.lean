import Asapo.Authorizer.Revocation

namespace Asapo.TokenAccess

open Authorizer Interleaving Transition

/-- What a token with a right signature contains. The time is in seconds, and 0 if there is none. -/
structure JwtClaims extends TokenClaim where
  expiresAt : ℕ
  deriving DecidableEq, Repr

/-- The parser of signed tokens at a time in seconds, and the setting of the broker in
milliseconds. The library looks at the signature and at the times in a token. Of the times it
is assumed that an expired token is refused. -/
structure Config where
  parseWithClaims : ℕ → Text → Option JwtClaims
  tokenCacheUpdateIntervalMs : Option ℤ
  sameContent : ∀ now now' token claims claims', parseWithClaims now token = some claims →
    parseWithClaims now' token = some claims' → claims = claims'
  notExpired : ∀ now token claims, parseWithClaims now token = some claims →
    claims.expiresAt = 0 ∨ now ≤ claims.expiresAt

def kDefaultTokenCacheUpdateIntervalMs : ℤ := 60000

def Config.getTokenCacheUpdateInterval (config : Config) : ℤ :=
  config.tokenCacheUpdateIntervalMs.getD kDefaultTokenCacheUpdateIntervalMs

def checkAndGetContent (config : Config) (now : ℕ) (token : Text) : Except Text JwtClaims :=
  if token = [] then .error (text "wrong or expired JWT token")
  else
    match config.parseWithClaims (now / 1000) token with
    | none => .error (text "wrong or expired JWT token")
    | some claims => .ok claims

structure Token where
  sub : Text
  accessTypes : List Text
  deriving DecidableEq, Repr

/-- The claims of a token with the times at which the authorizer has parsed it and has read the
list of revoked tokens. -/
structure Introspection where
  jwt : Text
  claims : JwtClaims
  parsedAt : ℕ
  readAt : ℕ
  deriving DecidableEq, Repr

def Introspection.token (x : Introspection) : Token := ⟨x.claims.subject, x.claims.accessTypes⟩

/-- The introspection that a token comes from is only there to be talked about. -/
structure CachedToken where
  token : Token
  lastUpdate : ℕ
  source : Introspection
  deriving DecidableEq, Repr

structure Request where
  token : Text
  beamtime : Text
  op : Text
  deriving DecidableEq, Repr

structure AuthError where
  statusCode : Option ℕ
  message : Text
  deriving DecidableEq, Repr

/-- What `authorize` has accepted: the token as it was cached, and when its age was looked at. -/
structure Grant where
  cached : CachedToken
  authorizedAt : ℕ
  deriving DecidableEq, Repr

structure Performed where
  request : Request
  grant : Grant
  performedAt : ℕ
  deriving DecidableEq, Repr

/-- The store of the authorizer and the cache of the broker. The successful introspections, the
revocations that have returned and the requests that were passed on to the database are listed
in the order of time. -/
structure Service where
  store : TokenStore
  now : ℕ
  cachedTokens : Text → Option CachedToken
  introspections : List Introspection
  revocations : List (Text × ℕ)
  performed : List Performed

/-- What a handler of a request to the broker, and the one of the authorizer that it waits for,
are doing. -/
inductive Handler where
  | idle
  | getCachedToken (r : Request)
  | compareAge (r : Request) (cached : CachedToken)
  | checkAndGetContent (r : Request)
  | getRevokedTokenIds (r : Request) (claims : JwtClaims) (parsedAt : ℕ)
  | checkTokenRevoked (r : Request) (x : Introspection) (tokens : Except Text (List Text))
  | doRequest (r : Request) (x : Introspection)
  | cacheToken (r : Request) (x : Introspection)
  | checkToken (r : Request) (grant : Grant)
  | processRequestInDb (r : Request) (grant : Grant)
  | answered (status : ℕ) (message : Text)
  deriving DecidableEq

inductive Reply where
  | failed (err : Text)
  | status (code : ℕ) (status body : Text)
  deriving DecidableEq, Repr

def replyError : Reply → AuthError
  | .failed err => ⟨none, err⟩
  | .status code status body =>
    if code = 401 then ⟨some 401, text "authorizer rejected to authorize: " ++ body⟩
    else if code = 503 then ⟨some 503, text "authorizer service unavailable: " ++ body⟩
    else ⟨none, text "authorizer returned " ++ status ++ text ": " ++ body⟩

def writeAuthAnswer (err : AuthError) : Handler := .answered (err.statusCode.getD 503) err.message

def rejected (err : Text) : Handler := writeAuthAnswer (replyError (.status 401 (text "401 Unauthorized") err))

def subjectFromBeamtime (bt : Text) : Text := text "bt_" ++ bt

def checkSubject (subject beamtimeId : Text) : Option AuthError :=
  if subject ≠ subjectFromBeamtime beamtimeId then some ⟨some 401, text "wrong token subject"⟩ else none

def checkAccessType (accessTypes : List Text) (needWriteAccess : Bool) : Option AuthError :=
  if needWriteAccess ∧ ¬ accessTypes.contains (text "write") then some ⟨some 401, text "wrong token access type"⟩
  else if ¬ accessTypes.contains (text "read") then some ⟨some 401, text "wrong token access type"⟩
  else none

def needWriteAccess (op : Text) : Bool := op = text "delete_stream"

def checkRights (r : Request) (token : Token) : Option AuthError :=
  (checkSubject token.sub r.beamtime).or (checkAccessType token.accessTypes (needWriteAccess r.op))

inductive HandlerAction where
  | receive (r : Request)
  | proceed
  | fail (reply : Reply)
  deriving DecidableEq

def Handler.Waiting : Handler → Bool
  | .checkAndGetContent _ | .getRevokedTokenIds _ _ _ | .checkTokenRevoked _ _ _ | .doRequest _ _ => true
  | _ => false

/-- `processRequest` of the broker with `verifyUserToken` of the authorizer, one critical
section, look at the clock or message at a time. -/
def Handler.proceed (config : Config) (s : Service) : Handler → Option (Service × Handler)
  | .getCachedToken r =>
    if r.token = [] then
      some (s, writeAuthAnswer ⟨some 400, text "cannot extract token from request"⟩)
    else
      match s.cachedTokens r.token with
      | none => some (s, .checkAndGetContent r)
      | some cached => some (s, .compareAge r cached)
  | .compareAge r cached =>
    if (s.now : ℤ) - cached.lastUpdate < config.getTokenCacheUpdateInterval then
      some (s, .checkToken r ⟨cached, s.now⟩)
    else some (s, .checkAndGetContent r)
  | .checkAndGetContent r =>
    match TokenAccess.checkAndGetContent config s.now r.token with
    | .error err => some (s, rejected err)
    | .ok claims => some (s, .getRevokedTokenIds r claims s.now)
  | .getRevokedTokenIds r claims parsedAt =>
    some (s, .checkTokenRevoked r ⟨r.token, claims, parsedAt, s.now⟩
      (Authorizer.getRevokedTokenIds s.store.revokedTokenList))
  | .checkTokenRevoked r x tokens =>
    match Authorizer.checkTokenRevoked (isTokenRevoked x.claims.id tokens) with
    | some err => some (s, rejected err)
    | none => some ({ s with introspections := s.introspections ++ [x] }, .doRequest r x)
  | .doRequest r x => some (s, .cacheToken r x)
  | .cacheToken r x =>
    let cached : CachedToken := ⟨x.token, s.now, x⟩
    some ({ s with cachedTokens := Function.update s.cachedTokens r.token (some cached) },
      .checkToken r ⟨cached, s.now⟩)
  | .checkToken r grant =>
    match checkRights r grant.cached.token with
    | some err => some (s, writeAuthAnswer err)
    | none => some (s, .processRequestInDb r grant)
  | .processRequestInDb r grant =>
    some ({ s with performed := s.performed ++ [⟨r, grant, s.now⟩] }, .idle)
  | .idle | .answered _ _ => none

def Handler.step (config : Config) (s : Service) (h : Handler) : HandlerAction → Option (Service × Handler)
  | .receive r =>
    match h with
    | .idle | .answered _ _ => some (s, .getCachedToken r)
    | _ => none
  | .proceed => h.proceed config s
  | .fail reply => if h.Waiting then some (s, writeAuthAnswer (replyError reply)) else none

inductive Thread where
  | client (c : Client)
  | handler (h : Handler)

inductive Action where
  | client (a : Authorizer.Action)
  | handler (a : HandlerAction)
  deriving DecidableEq

/-- The store after a step of its own. A revocation that has returned is listed with the time. -/
def Service.withStore (s : Service) (store : TokenStore) : Service :=
  { s with
    store := store
    revocations := s.revocations ++ (store.returned.drop s.store.returned.length).map (fun id => (id, s.now)) }

def step (config : Config) (s : Service) : Thread → Action → Option (Service × Thread)
  | .client c, .client a => (Client.step s.store c a).map (fun x => (s.withStore x.1, .client x.2))
  | .handler h, .handler a => (h.step config s a).map (fun x => (x.1, .handler x.2))
  | _, _ => none

inductive World where
  | tick (ms : ℕ)
  | store (e : Outside)
  deriving DecidableEq

def world (s : Service) : World → Option Service
  | .tick ms => some { s with now := s.now + ms }
  | .store e => (outside s.store e).map s.withStore

abbrev State (n : ℕ) := System Service Thread n

abbrev next {n : ℕ} (config : Config) (s : State n) (e : Event Action World n) : Option (State n) :=
  Interleaving.step (step config) world s e

def start (n : ℕ) (db : TokenDatabase) (polling : Bool) (clients : Fin n → Bool) : State n :=
  ⟨⟨⟨db, ⟨[], none⟩, if polling then .read else .stopped, []⟩, 0, fun _ => none, [], [], []⟩,
    fun i => if clients i then .client (.returned none) else .handler .idle⟩

variable {config : Config} {s t : Service}

/-- The token was genuine and not expired when the authorizer parsed it. -/
structure Sound (config : Config) (s : Service) (x : Introspection) : Prop where
  parsed : config.parseWithClaims (x.parsedAt / 1000) x.jwt = some x.claims
  order : x.parsedAt ≤ x.readAt
  past : x.readAt ≤ s.now

structure Origin (s : Service) (jwt : Text) (c : CachedToken) : Prop where
  source : c.source ∈ s.introspections
  jwt : c.source.jwt = jwt
  token : c.token = c.source.token
  order : c.source.readAt ≤ c.lastUpdate
  past : c.lastUpdate ≤ s.now

structure Accepted (config : Config) (s : Service) (jwt : Text) (g : Grant) : Prop where
  origin : Origin s jwt g.cached
  order : g.cached.lastUpdate ≤ g.authorizedAt
  fresh : g.authorizedAt ≤ g.cached.lastUpdate + config.getTokenCacheUpdateInterval.toNat
  past : g.authorizedAt ≤ s.now

structure Consistent (config : Config) (s : Service) : Prop where
  introspections : ∀ x ∈ s.introspections, Sound config s x
  cache : ∀ jwt c, s.cachedTokens jwt = some c → Origin s jwt c
  performed : ∀ p ∈ s.performed, Accepted config s p.request.token p.grant ∧
    p.grant.authorizedAt ≤ p.performedAt ∧ checkRights p.request p.grant.cached.token = none

def Knows (config : Config) (s : Service) : Handler → Prop
  | .compareAge r cached => Origin s r.token cached
  | .getRevokedTokenIds r claims parsedAt =>
      config.parseWithClaims (parsedAt / 1000) r.token = some claims ∧ parsedAt ≤ s.now
  | .checkTokenRevoked r x _ => Sound config s x ∧ x.jwt = r.token
  | .doRequest r x | .cacheToken r x => x ∈ s.introspections ∧ x.jwt = r.token
  | .checkToken r grant => Accepted config s r.token grant
  | .processRequestInDb r grant => Accepted config s r.token grant ∧ checkRights r grant.cached.token = none
  | _ => True

def ThreadKnows (config : Config) (s : Service) : Thread → Prop
  | .client _ => True
  | .handler h => Knows config s h

/-- Time goes on, and what was introspected stays so. -/
structure Later (s t : Service) : Prop where
  now : s.now ≤ t.now
  introspections : s.introspections ⊆ t.introspections

theorem Sound.later {x : Introspection} (h : Sound config s x) (hl : Later s t) : Sound config t x :=
  { h with past := h.past.trans hl.now }

theorem Origin.later {jwt : Text} {c : CachedToken} (h : Origin s jwt c) (hl : Later s t) : Origin t jwt c :=
  { h with source := hl.introspections h.source, past := h.past.trans hl.now }

theorem Accepted.later {jwt : Text} {g : Grant} (h : Accepted config s jwt g) (hl : Later s t) :
    Accepted config t jwt g :=
  { h with origin := h.origin.later hl, past := h.past.trans hl.now }

theorem Knows.later {h : Handler} (hk : Knows config s h) (hl : Later s t) : Knows config t h := by
  cases h with
  | compareAge r cached => exact Origin.later hk hl
  | getRevokedTokenIds r claims parsedAt => exact ⟨hk.1, hk.2.trans hl.now⟩
  | checkTokenRevoked r x tokens => exact ⟨hk.1.later hl, hk.2⟩
  | doRequest r x | cacheToken r x => exact ⟨hl.introspections hk.1, hk.2⟩
  | checkToken r grant => exact Accepted.later hk hl
  | processRequestInDb r grant => exact ⟨hk.1.later hl, hk.2⟩
  | _ => trivial

theorem ThreadKnows.later {l : Thread} (hk : ThreadKnows config s l) (hl : Later s t) :
    ThreadKnows config t l := by
  cases l with
  | client c => trivial
  | handler h => exact Knows.later hk hl

theorem Consistent.later (h : Consistent config s) (hl : Later s t)
    (hx : ∀ x ∈ t.introspections, x ∈ s.introspections ∨ Sound config t x)
    (hc : t.cachedTokens = s.cachedTokens) (hp : t.performed = s.performed) : Consistent config t where
  introspections := fun x hmem => (hx x hmem).elim (fun hold => (h.introspections x hold).later hl) id
  cache := fun jwt c hcached => (h.cache jwt c (hc ▸ hcached)).later hl
  performed := fun p hmem => by
    obtain ⟨ha, hrest⟩ := h.performed p (hp ▸ hmem)
    exact ⟨ha.later hl, hrest⟩

theorem Later.refl (s : Service) : Later s s := ⟨Nat.le_refl _, List.Subset.refl _⟩

theorem checkAndGetContent_ok {now : ℕ} {token : Text} {claims : JwtClaims}
    (h : checkAndGetContent config now token = .ok claims) :
    config.parseWithClaims (now / 1000) token = some claims := by
  unfold checkAndGetContent at h
  split at h
  · cases h
  · split at h <;> cases h
    assumption

structure Kept (config : Config) (s t : Service) (h' : Handler) : Prop where
  later : Later s t
  consistent : Consistent config t
  knows : Knows config t h'
  store : t.store = s.store
  now : t.now = s.now
  revocations : t.revocations = s.revocations

theorem kept_same {h' : Handler} (hs : Consistent config s) (hk : Knows config s h') : Kept config s s h' :=
  ⟨.refl s, hs, hk, rfl, rfl, rfl⟩

theorem kept_introspected {r : Request} {x : Introspection} (hs : Consistent config s)
    (hx : Sound config s x) (hr : x.jwt = r.token) :
    Kept config s { s with introspections := s.introspections ++ [x] } (.doRequest r x) := by
  have hl : Later s { s with introspections := s.introspections ++ [x] } :=
    ⟨Nat.le_refl _, List.subset_append_left _ _⟩
  refine ⟨hl, hs.later hl (fun y hy => ?_) rfl rfl, ⟨List.mem_append_right _ (by simp), hr⟩, rfl, rfl, rfl⟩
  obtain hy | hy := List.mem_append.mp hy
  · exact .inl hy
  · exact .inr (List.mem_singleton.mp hy ▸ hx.later hl)

theorem kept_cached {r : Request} {x : Introspection} (hs : Consistent config s)
    (hx : x ∈ s.introspections) (hr : x.jwt = r.token) :
    Kept config s
      { s with cachedTokens := Function.update s.cachedTokens r.token (some ⟨x.token, s.now, x⟩) }
      (.checkToken r ⟨⟨x.token, s.now, x⟩, s.now⟩) := by
  have horigin : Origin s r.token ⟨x.token, s.now, x⟩ :=
    ⟨hx, hr, rfl, (hs.introspections x hx).past, Nat.le_refl _⟩
  have hl : Later s { s with cachedTokens := Function.update s.cachedTokens r.token (some ⟨x.token, s.now, x⟩) } :=
    ⟨Nat.le_refl _, List.Subset.refl _⟩
  refine ⟨hl, ⟨fun y hy => (hs.introspections y hy).later hl, ?_, ?_⟩, ?_, rfl, rfl, rfl⟩
  · intro jwt c hcached
    by_cases hj : jwt = r.token
    · subst hj
      dsimp only at hcached
      rw [Function.update_self] at hcached
      cases hcached
      exact horigin.later hl
    · dsimp only at hcached
      rw [Function.update_of_ne hj] at hcached
      exact (hs.cache jwt c hcached).later hl
  · exact fun p hp => ⟨(hs.performed p hp).1.later hl, (hs.performed p hp).2⟩
  · exact ⟨horigin.later hl, Nat.le_refl _, Nat.le_add_right _ _, Nat.le_refl _⟩

theorem kept_performed {r : Request} {grant : Grant} (hs : Consistent config s)
    (ha : Accepted config s r.token grant) (hc : checkRights r grant.cached.token = none) :
    Kept config s { s with performed := s.performed ++ [⟨r, grant, s.now⟩] } .idle := by
  have hl : Later s { s with performed := s.performed ++ [⟨r, grant, s.now⟩] } :=
    ⟨Nat.le_refl _, List.Subset.refl _⟩
  refine ⟨hl, ⟨fun y hy => (hs.introspections y hy).later hl,
    fun jwt c hcached => (hs.cache jwt c hcached).later hl, ?_⟩, trivial, rfl, rfl, rfl⟩
  intro p hp
  obtain hp | hp := List.mem_append.mp hp
  · exact ⟨(hs.performed p hp).1.later hl, (hs.performed p hp).2⟩
  · rw [List.mem_singleton.mp hp]
    exact ⟨ha.later hl, ha.past, hc⟩

theorem kept_proceed {h h' : Handler} (hs : Consistent config s) (hk : Knows config s h)
    (hstep : h.proceed config s = some (t, h')) : Kept config s t h' := by
  cases h with
  | idle | answered status message => cases hstep
  | getCachedToken r =>
    rw [Handler.proceed] at hstep
    split at hstep
    · cases hstep
      exact kept_same hs trivial
    · split at hstep <;> rename_i hcached <;> cases hstep
      · exact kept_same hs trivial
      · exact kept_same hs (hs.cache _ _ hcached)
  | compareAge r cached =>
    have horigin : Origin s r.token cached := hk
    rw [Handler.proceed] at hstep
    split at hstep <;> rename_i hage <;> cases hstep
    · refine kept_same hs ⟨horigin, horigin.past, ?_, Nat.le_refl _⟩
      dsimp only
      omega
    · exact kept_same hs trivial
  | checkAndGetContent r =>
    rw [Handler.proceed] at hstep
    split at hstep <;> rename_i hcontent <;> cases hstep
    · exact kept_same hs trivial
    · exact kept_same hs ⟨checkAndGetContent_ok hcontent, Nat.le_refl _⟩
  | getRevokedTokenIds r claims parsedAt =>
    obtain ⟨hparse, hpast⟩ := hk
    cases hstep
    exact kept_same hs ⟨⟨hparse, hpast, Nat.le_refl _⟩, rfl⟩
  | checkTokenRevoked r x tokens =>
    obtain ⟨hsound, hjwt⟩ := hk
    rw [Handler.proceed] at hstep
    split at hstep <;> cases hstep
    · exact kept_same hs trivial
    · exact kept_introspected hs hsound hjwt
  | doRequest r x =>
    cases hstep
    exact kept_same hs hk
  | cacheToken r x =>
    cases hstep
    exact kept_cached hs hk.1 hk.2
  | checkToken r grant =>
    rw [Handler.proceed] at hstep
    split at hstep <;> rename_i hrights <;> cases hstep
    · exact kept_same hs trivial
    · exact kept_same hs ⟨hk, hrights⟩
  | processRequestInDb r grant =>
    cases hstep
    exact kept_performed hs hk.1 hk.2

theorem kept_handler {h h' : Handler} {a : HandlerAction} (hs : Consistent config s)
    (hk : Knows config s h) (hstep : h.step config s a = some (t, h')) : Kept config s t h' := by
  cases a with
  | receive r =>
    cases h <;> cases hstep <;> exact kept_same hs trivial
  | proceed => exact kept_proceed hs hk hstep
  | fail reply =>
    obtain ⟨-, hstep⟩ := Option.ite_none_right_eq_some.mp hstep
    cases hstep
    exact kept_same hs trivial

theorem later_withStore (s : Service) (store : TokenStore) : Later s (s.withStore store) :=
  ⟨Nat.le_refl _, List.Subset.refl _⟩

theorem consistent_withStore (hs : Consistent config s) (store : TokenStore) :
    Consistent config (s.withStore store) :=
  hs.later (later_withStore s store) (fun _ hx => .inl hx) rfl rfl

theorem keeps (config : Config) :
    Keeps (step config) world (fun _ _ _ => True) (Consistent config) (ThreadKnows config) where
  own := by
    intro s l a t m hs hk _ hstep
    cases l <;> cases a <;> try cases hstep
    · obtain ⟨x, -, he⟩ := Option.map_eq_some_iff.mp hstep
      cases he
      exact ⟨consistent_withStore hs x.1, trivial⟩
    · obtain ⟨⟨t', h'⟩, hx, he⟩ := Option.map_eq_some_iff.mp hstep
      cases he
      have hkept := kept_handler hs hk hx
      exact ⟨hkept.consistent, hkept.knows⟩
  other := by
    intro s l k a t m hs hl hk _ hstep
    cases l <;> cases a <;> try cases hstep
    · obtain ⟨x, -, he⟩ := Option.map_eq_some_iff.mp hstep
      cases he
      exact hk.later (later_withStore s x.1)
    · obtain ⟨⟨t', h'⟩, hx, he⟩ := Option.map_eq_some_iff.mp hstep
      cases he
      exact hk.later (kept_handler hs hl hx).later
  world := by
    intro s e t hs hstep
    cases e with
    | tick ms =>
      cases hstep
      have hl : Later s { s with now := s.now + ms } := ⟨Nat.le_add_right _ _, List.Subset.refl _⟩
      exact ⟨hs.later hl (fun _ hx => .inl hx) rfl rfl, fun k hk => hk.later hl⟩
    | store e =>
      obtain ⟨store, -, rfl⟩ := Option.map_eq_some_iff.mp hstep
      exact ⟨consistent_withStore hs store, fun k hk => hk.later (later_withStore s store)⟩

theorem holds_step {n : ℕ} (s : State n) (e : Event Action World n) (t : State n)
    (hs : Holds (Consistent config) (ThreadKnows config) s) (ht : next config s e = some t) :
    Holds (Consistent config) (ThreadKnows config) t :=
  (keeps config).step s e t hs (by cases e <;> trivial) ht

theorem holds_start (n : ℕ) (db : TokenDatabase) (polling : Bool) (clients : Fin n → Bool) :
    Holds (Consistent config) (ThreadKnows config) (start n db polling clients) where
  shared := ⟨by simp [start], by simp [start], by simp [start]⟩
  threads := fun i => by
    cases hc : clients i <;> simp [start, hc, ThreadKnows, Knows]

/-- A request is performed with the rights that its token gives to its beamtime, and the token
was genuine, not expired and not listed as revoked when the authorizer looked at it. -/
structure Authorized (config : Config) (p : Performed) : Prop where
  parsed : config.parseWithClaims (p.grant.cached.source.parsedAt / 1000) p.request.token =
    some p.grant.cached.source.claims
  subject : p.grant.cached.source.claims.subject = subjectFromBeamtime p.request.beamtime
  read : text "read" ∈ p.grant.cached.source.claims.accessTypes
  write : p.request.op = text "delete_stream" → text "write" ∈ p.grant.cached.source.claims.accessTypes
  valid : p.grant.cached.source.claims.expiresAt = 0 ∨
    p.grant.cached.source.parsedAt / 1000 ≤ p.grant.cached.source.claims.expiresAt
  parsedFirst : p.grant.cached.source.parsedAt ≤ p.grant.cached.source.readAt
  cachedThen : p.grant.cached.source.readAt ≤ p.grant.cached.lastUpdate
  authorizedThen : p.grant.cached.lastUpdate ≤ p.grant.authorizedAt
  fresh : p.grant.authorizedAt ≤ p.grant.cached.lastUpdate + config.getTokenCacheUpdateInterval.toNat
  performedThen : p.grant.authorizedAt ≤ p.performedAt

theorem checkRights_eq_none {r : Request} {token : Token} (h : checkRights r token = none) :
    token.sub = subjectFromBeamtime r.beamtime ∧ text "read" ∈ token.accessTypes ∧
      (r.op = text "delete_stream" → text "write" ∈ token.accessTypes) := by
  obtain ⟨hsubject, haccess⟩ := Option.or_eq_none_iff.mp h
  unfold checkSubject at hsubject
  unfold checkAccessType needWriteAccess at haccess
  split at hsubject
  · cases hsubject
  · rename_i hsub
    split at haccess
    · cases haccess
    · rename_i hwrite
      split at haccess
      · cases haccess
      · rename_i hread
        refine ⟨not_not.mp hsub, List.contains_iff_mem.mp (not_not.mp hread), fun hop => ?_⟩
        by_contra hno
        exact hwrite ⟨decide_eq_true hop, fun h => hno (List.contains_iff_mem.mp h)⟩

theorem Consistent.authorized (h : Consistent config s) {p : Performed} (hp : p ∈ s.performed) :
    Authorized config p := by
  obtain ⟨ha, hthen, hrights⟩ := h.performed p hp
  have ho := ha.origin
  have hsound := h.introspections _ ho.source
  rw [ho.token] at hrights
  obtain ⟨hsub, hread, hwrite⟩ := checkRights_eq_none hrights
  exact {
    parsed := ho.jwt ▸ hsound.parsed
    subject := hsub
    read := hread
    write := hwrite
    valid := config.notExpired _ _ _ hsound.parsed
    parsedFirst := hsound.order
    cachedThen := ho.order
    authorizedThen := ha.order
    fresh := ha.fresh
    performedThen := hthen }

/-- However requests, revocations, updates of the list and failures interleave, the broker passes
only such requests on to the database that are authorized by a fresh enough introspection. -/
theorem performed_authorized (config : Config) (n : ℕ) (db : TokenDatabase) (polling : Bool)
    (clients : Fin n → Bool) (events : List (Event Action World n)) :
    Always (next config) (fun s => ∀ p ∈ s.shared.performed, Authorized config p)
      (start n db polling clients) events :=
  always_of_step (fun _ hs p hp => hs.shared.authorized (p := p) hp) holds_step _ events
    (holds_start n db polling clients)

/-- The list of revoked tokens was read before a revocation of the token returned. -/
def ReadBefore (s : Service) (x : Introspection) : Prop :=
  ∀ y ∈ s.revocations, y.1 = x.claims.id → x.readAt ≤ y.2

structure Recorded (s : Service) : Prop where
  returned : ∀ y ∈ s.revocations, y.1 ∈ s.store.returned
  listed : Revocation.Listed s.store
  readBefore : ∀ x ∈ s.introspections, ReadBefore s x

def InTime (s : Service) : Thread → Prop
  | .handler (.checkTokenRevoked _ x tokens) => isTokenRevoked x.claims.id tokens = (false, none) → ReadBefore s x
  | _ => True

def ReadAll (returned : List Text) : Poller → Prop
  | .setTokens tokens => ∀ id ∈ returned, tokens.contains id = true
  | _ => True

instance (returned : List Text) (p : Poller) : Decidable (ReadAll returned p) :=
  match p with
  | .setTokens tokens => inferInstanceAs (Decidable (∀ id ∈ returned, tokens.contains id = true))
  | .read => isTrue trivial
  | .setError _ => isTrue trivial
  | .wait => isTrue trivial
  | .stopped => isTrue trivial

/-- When the loop replaces the list, it has read the tokens that were revoked. -/
def ListCurrent {n : ℕ} (s : State n) : Event Action World n → Prop
  | .world (.store (.poll _)) => ReadAll s.shared.store.returned s.shared.store.poller
  | _ => True

instance {n : ℕ} (s : State n) (e : Event Action World n) : Decidable (ListCurrent s e) :=
  match e with
  | .world (.store (.poll _)) => inferInstanceAs (Decidable (ReadAll _ _))
  | .world (.store .stop) => isTrue trivial
  | .world (.store (.addToken _)) => isTrue trivial
  | .world (.store (.revokedElsewhere _)) => isTrue trivial
  | .world (.tick _) => isTrue trivial
  | .thread _ _ => isTrue trivial

structure StoreKept (s t : TokenStore) : Prop where
  returned : s.returned ⊆ t.returned
  listed : Revocation.Listed t

theorem readBefore_withStore {x : Introspection} (h : ReadBefore s x) (hpast : x.readAt ≤ s.now)
    (store : TokenStore) : ReadBefore (s.withStore store) x := by
  intro y hy hid
  obtain hy | hy := List.mem_append.mp hy
  · exact h y hy hid
  · obtain ⟨id, -, rfl⟩ := List.mem_map.mp hy
    exact hpast

theorem recorded_withStore {store : TokenStore} (hc : Consistent config s) (h : Recorded s)
    (hk : StoreKept s.store store) : Recorded (s.withStore store) where
  returned := by
    intro y hy
    obtain hy | hy := List.mem_append.mp hy
    · exact hk.returned (h.returned y hy)
    · obtain ⟨id, hid, rfl⟩ := List.mem_map.mp hy
      exact List.mem_of_mem_drop hid
  listed := hk.listed
  readBefore := fun x hx =>
    readBefore_withStore (h.readBefore x hx) (hc.introspections x hx).past store

theorem inTime_withStore {l : Thread} (hk : ThreadKnows config s l) (h : InTime s l) (store : TokenStore) :
    InTime (s.withStore store) l := by
  cases l with
  | client c => trivial
  | handler h' =>
    cases h' with
    | checkTokenRevoked r x tokens =>
      exact fun hok => readBefore_withStore (h hok) hk.1.past store
    | _ => trivial

theorem readBefore_of_list (h : Recorded s) {x : Introspection}
    (hok : isTokenRevoked x.claims.id (Authorizer.getRevokedTokenIds s.store.revokedTokenList) = (false, none)) :
    ReadBefore s x := by
  intro y hy hid
  exact absurd hok (h.listed _ (hid ▸ h.returned y hy))

theorem inTime_of_revocations {l : Thread} (h : InTime s l) (hr : t.revocations = s.revocations) :
    InTime t l := by
  cases l with
  | client c => trivial
  | handler h' =>
    cases h' with
    | checkTokenRevoked r x tokens =>
      intro hok y hy
      exact h hok y (hr ▸ hy)
    | _ => trivial

theorem inTime_handler {h h' : Handler} {a : HandlerAction} (hr : Recorded s) (hi : InTime s (.handler h))
    (hstep : h.step config s a = some (t, h')) :
    (∀ x ∈ t.introspections, x ∈ s.introspections ∨ ReadBefore s x) ∧ InTime s (.handler h') := by
  have hsame : ∀ x ∈ s.introspections, x ∈ s.introspections ∨ ReadBefore s x := fun x hx => .inl hx
  cases a with
  | receive r => cases h <;> cases hstep <;> exact ⟨hsame, trivial⟩
  | fail reply =>
    obtain ⟨-, hstep⟩ := Option.ite_none_right_eq_some.mp hstep
    cases hstep
    exact ⟨hsame, trivial⟩
  | proceed =>
    cases h with
    | idle | answered status message => cases hstep
    | getCachedToken r =>
      rw [Handler.step, Handler.proceed] at hstep
      split at hstep
      · cases hstep
        exact ⟨hsame, trivial⟩
      · split at hstep <;> cases hstep <;> exact ⟨hsame, trivial⟩
    | compareAge r cached | checkAndGetContent r | checkToken r grant =>
      rw [Handler.step, Handler.proceed] at hstep
      split at hstep <;> cases hstep <;> exact ⟨hsame, trivial⟩
    | getRevokedTokenIds r claims parsedAt =>
      cases hstep
      exact ⟨hsame, fun hok => readBefore_of_list hr hok⟩
    | checkTokenRevoked r x tokens =>
      rw [Handler.step, Handler.proceed] at hstep
      split at hstep <;> rename_i hcheck <;> cases hstep
      · exact ⟨hsame, trivial⟩
      · refine ⟨fun y hy => ?_, trivial⟩
        obtain hy | hy := List.mem_append.mp hy
        · exact .inl hy
        · exact .inr (List.mem_singleton.mp hy ▸ hi (checkTokenRevoked_eq_none.mp hcheck))
    | doRequest r x | cacheToken r x | processRequestInDb r grant =>
      cases hstep
      exact ⟨hsame, trivial⟩

theorem storeKept_client {c c' : Client} {a : Authorizer.Action} {store : TokenStore} (h : Recorded s)
    (hstep : Client.step s.store c a = some (store, c')) : StoreKept s.store store :=
  have hmoved := Revocation.moved_step hstep
  ⟨hmoved.returned, hmoved.listed h.listed⟩

theorem storeKept_outside {e : Outside} {store : TokenStore} (h : Recorded s)
    (hc : ∀ fault, e = .poll fault → ∀ tokens, s.store.poller = .setTokens tokens →
      ∀ id ∈ s.store.returned, id ∈ tokens)
    (hstep : outside s.store e = some store) : StoreKept s.store store := by
  cases e with
  | poll fault =>
    obtain ⟨hlisted, hreturned⟩ := Revocation.listed_poll h.listed (hc fault rfl) hstep
    exact ⟨hreturned ▸ List.Subset.refl _, hlisted⟩
  | stop | addToken record | revokedElsewhere tokenId =>
    obtain ⟨hlist, hreturned⟩ := Revocation.outside_eq (by rintro _ ⟨⟩) hstep
    refine ⟨hreturned ▸ List.Subset.refl _, fun id hid => ?_⟩
    rw [Revocation.answerNow, hlist]
    exact h.listed id (hreturned ▸ hid)

structure Inv (config : Config) {n : ℕ} (s : State n) : Prop where
  holds : Holds (Consistent config) (ThreadKnows config) s
  recorded : Recorded s.shared
  inTime : ∀ i, InTime s.shared (s.threads i)

theorem inv_step {n : ℕ} (s : State n) (e : Event Action World n) (t : State n) (h : Inv config s)
    (hc : ListCurrent s e) (ht : next config s e = some t) : Inv config t := by
  have hholds := holds_step s e t h.holds ht
  cases e with
  | thread i a =>
    obtain ⟨⟨t', m⟩, hx, rfl⟩ := Option.map_eq_some_iff.mp ht
    cases hl : s.threads i <;> rw [hl] at hx <;> cases a <;> try cases hx
    · obtain ⟨x, hstep, he⟩ := Option.map_eq_some_iff.mp hx
      cases he
      refine ⟨hholds, recorded_withStore h.holds.shared h.recorded (storeKept_client h.recorded hstep), ?_⟩
      exact forall_update (fun j => inTime_withStore (h.holds.threads j) (h.inTime j) x.1) i trivial
    · obtain ⟨⟨u, h'⟩, hstep, he⟩ := Option.map_eq_some_iff.mp hx
      cases he
      have hknows := h.holds.threads i
      have hin := h.inTime i
      rw [hl] at hknows hin
      have hkept := kept_handler h.holds.shared hknows hstep
      obtain ⟨hnew, hown⟩ := inTime_handler h.recorded hin hstep
      have hread : ∀ x, ReadBefore s.shared x → ReadBefore u x := fun x hb y hy => hb y (hkept.revocations ▸ hy)
      refine ⟨hholds, ⟨?_, ?_, ?_⟩, ?_⟩
      · rw [hkept.revocations, hkept.store]
        exact h.recorded.returned
      · exact hkept.store ▸ h.recorded.listed
      · exact fun x hx => hread x ((hnew x hx).elim (h.recorded.readBefore x) id)
      · exact forall_update (fun j => inTime_of_revocations (h.inTime j) hkept.revocations) i
          (inTime_of_revocations hown hkept.revocations)
  | world e =>
    obtain ⟨t', hx, rfl⟩ := Option.map_eq_some_iff.mp ht
    cases e with
    | tick ms =>
      cases hx
      exact ⟨hholds, ⟨h.recorded.returned, h.recorded.listed, h.recorded.readBefore⟩,
        fun j => inTime_of_revocations (h.inTime j) rfl⟩
    | store e =>
      obtain ⟨store, hstep, rfl⟩ := Option.map_eq_some_iff.mp hx
      have hkept : StoreKept s.shared.store store := by
        refine storeKept_outside h.recorded (fun fault he tokens hpoller => ?_) hstep
        subst he
        change ReadAll s.shared.store.returned s.shared.store.poller at hc
        rw [hpoller] at hc
        exact fun id hid => List.contains_iff_mem.mp (hc id hid)
      exact ⟨hholds, recorded_withStore h.holds.shared h.recorded hkept,
        fun j => inTime_withStore (h.holds.threads j) (h.inTime j) store⟩

theorem inv_start (n : ℕ) (db : TokenDatabase) (polling : Bool) (clients : Fin n → Bool) :
    Inv config (start n db polling clients) where
  holds := holds_start n db polling clients
  recorded := ⟨by simp [start], by rintro _ ⟨⟩, by simp [start]⟩
  inTime := fun i => by
    cases hc : clients i <;> simp [start, hc, InTime]

/-- A revoked token stops to work: if the loop never replaces the list by one that lacks a
revoked token, no request is authorized later than the interval of the cache, and the time
that the introspection took to get back to the broker, after the revocation has returned. -/
theorem revoked_token_stops (config : Config) (n : ℕ) (db : TokenDatabase) (polling : Bool)
    (clients : Fin n → Bool) (events : List (Event Action World n))
    (hs : Along (next config) ListCurrent (start n db polling clients) events) :
    Always (next config) (fun s => ∀ p ∈ s.shared.performed, ∀ now claims,
        config.parseWithClaims now p.request.token = some claims →
      ∀ revokedAt, (claims.id, revokedAt) ∈ s.shared.revocations →
        p.grant.authorizedAt ≤ revokedAt + (p.grant.cached.lastUpdate - p.grant.cached.source.readAt) +
          config.getTokenCacheUpdateInterval.toNat)
      (start n db polling clients) events := by
  refine always_of_along (fun s h p hp now claims hclaims revokedAt hrevoked => ?_) inv_step _ events
    (inv_start n db polling clients) hs
  have hauth := h.holds.shared.authorized hp
  have hsource := (h.holds.shared.performed p hp).1.origin.source
  have hid : claims.id = p.grant.cached.source.claims.id := by
    rw [config.sameContent _ _ _ _ _ hclaims hauth.parsed]
  have hread := h.recorded.readBefore _ hsource _ hrevoked hid
  have hfresh := hauth.fresh
  have horder := hauth.cachedThen
  dsimp only at hread
  omega

def oneToken : Config where
  parseWithClaims _ jwt :=
    if jwt = text "jwt" then some ⟨⟨text "id", text "bt_1", [text "read"]⟩, 0⟩ else none
  tokenCacheUpdateIntervalMs := some 100
  sameContent _ _ _ _ _ h h' := Option.some.inj (h.symm.trans h')
  notExpired now token claims h := by
    split at h <;> cases h
    exact .inl rfl

def readRequest : Request := ⟨text "jwt", text "1", text "next"⟩

def handled (i : Fin 2) (k : ℕ) : List (Event Action World 2) := List.replicate k (.thread i (.handler .proceed))

/-- The answer of the authorizer takes 5 milliseconds, the token is revoked after 10, and the
cached token is used after 104 and not any more after 105 milliseconds. -/
def revokingEvents (i j : Fin 2) : List (Event Action World 2) :=
  List.flatten [
    [.world (.store (.poll none)), .world (.store (.poll none)), .thread i (.handler (.receive readRequest))],
    handled i 4, [.world (.tick 5)], handled i 4,
    [.world (.tick 5), .thread j (.client (.revokeToken (text "jwt") []))],
    List.replicate 4 (.thread j (.client (.proceed none))),
    [.world (.tick 94), .thread i (.handler (.receive readRequest))], handled i 4,
    [.world (.tick 1), .thread i (.handler (.receive readRequest))], handled i 5]

def revokingStart (j : Fin 2) : State 2 := start 2 ⟨[⟨text "id", text "jwt", false⟩], []⟩ true (fun i => i = j)

theorem revoked_token_stops_cached :
    Along (next oneToken) ListCurrent (revokingStart 1) (revokingEvents 0 1) ∧
    ∃ s, exec (next oneToken) (revokingStart 1) (revokingEvents 0 1) = some s ∧
      s.shared.revocations = [(text "id", 10)] ∧ s.shared.performed.map (fun p => p.grant.authorizedAt) = [5, 104] ∧
      ∀ p ∈ s.shared.performed, ∀ now claims, oneToken.parseWithClaims now p.request.token = some claims →
        ∀ revokedAt, (claims.id, revokedAt) ∈ s.shared.revocations →
          p.grant.authorizedAt ≤ revokedAt + (p.grant.cached.lastUpdate - p.grant.cached.source.readAt) + 100 := by
  have hs : Along (next oneToken) ListCurrent (revokingStart 1) (revokingEvents 0 1) := by decide +kernel
  have hend : (exec (next oneToken) (revokingStart 1) (revokingEvents 0 1)).any (fun s =>
      decide (s.shared.revocations = [(text "id", 10)] ∧
        s.shared.performed.map (fun p => p.grant.authorizedAt) = [5, 104])) = true := by decide +kernel
  obtain ⟨s, he, hdone⟩ := Option.any_eq_true _ _ |>.mp hend
  obtain ⟨hrevoked, hperformed⟩ := of_decide_eq_true hdone
  have hrun := revoked_token_stops oneToken 2 ⟨[⟨text "id", text "jwt", false⟩], []⟩ true (fun i => i = 1)
    (revokingEvents 0 1) hs
  exact ⟨hs, s, he, hrevoked, hperformed, always_exec _ s _ hrun he⟩

end Asapo.TokenAccess
