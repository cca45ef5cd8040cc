import Asapo.Authorizer.TokenStore
import Asapo.Interleaving

namespace Asapo.Authorizer.Revocation

open Interleaving Transition

variable {n : ℕ}

abbrev State (n : ℕ) := System TokenStore Client n

abbrev next (s : State n) (e : Event Action Outside n) : Option (State n) :=
  Interleaving.step Client.step outside s e

/-- The store after `Init`, with any contents of the database. The loop is not started if
the interval of its updates is 0. -/
def start (n : ℕ) (db : TokenDatabase) (polling : Bool) : State n :=
  ⟨⟨db, ⟨[], none⟩, if polling then .read else .stopped, []⟩, fun _ => .returned none⟩

def answerNow (s : TokenStore) (tokenId : Text) : Bool × Option Text :=
  isTokenRevoked tokenId (getRevokedTokenIds s.revokedTokenList)

/-- After a token was revoked, no call answers that it is not. -/
def Refused (s : State n) : Prop :=
  ∀ i tokenId answer, s.threads i = .answered tokenId true answer → answer ≠ (false, none)

/-- The same, also for the calls that are made now. -/
structure Monotone (s : State n) : Prop where
  now : ∀ tokenId ∈ s.shared.returned, answerNow s.shared tokenId ≠ (false, none)
  refused : Refused s

/-- When the loop replaces the list, the tokens that were revoked are among those it has read. -/
def UpToDate (s : State n) : Event Action Outside n → Prop
  | .world (.poll _) =>
    match s.shared.poller with
    | .setTokens tokens => ∀ tokenId ∈ s.shared.returned, tokenId ∈ tokens
    | _ => True
  | _ => True

/-- No token is appended to the list between the request of the loop and the replacement of
the list. -/
def Undisturbed (s : State n) : Event Action Outside n → Prop
  | .thread i (.proceed _) =>
    match s.shared.poller, s.threads i with
    | .setTokens _, .append _ => False
    | _, _ => True
  | _ => True

variable {s t : TokenStore} {c m : Client} {a : Action}

theorem answerNow_ne_iff {tokenId : Text} :
    answerNow s tokenId ≠ (false, none) ↔
      s.revokedTokenList.lastError ≠ none ∨ tokenId ∈ s.revokedTokenList.tokens := by
  unfold answerNow getRevokedTokenIds
  cases s.revokedTokenList.lastError <;> simp [isTokenRevoked]

theorem subset_processRequest {α : Type} {op : TokenDatabase → Except Text (TokenDatabase × α)}
    (hop : ∀ db db' answer, op db = .ok (db', answer) → db.revokedTokens ⊆ db'.revokedTokens)
    (fault : Option Fault) (db : TokenDatabase) :
    db.revokedTokens ⊆ (processRequest op fault db).1.revokedTokens := by
  unfold processRequest
  split
  · exact List.Subset.refl _
  · rename_i hok
    exact hop _ _ _ hok
  · exact List.Subset.refl _
  · rename_i hok
    exact hop _ _ _ hok
  · exact List.Subset.refl _

theorem processRequest_ok {α : Type} {op : TokenDatabase → Except Text (TokenDatabase × α)}
    {fault : Option Fault} {db : TokenDatabase} {answer : α} (h : (processRequest op fault db).2 = .ok answer) :
    op db = .ok ((processRequest op fault db).1, answer) := by
  unfold processRequest at h ⊢
  split at h <;> cases h
  rename_i hok
  exact hok

theorem subset_readRecord (token id : Text) (db db' : TokenDatabase) (record : TokenRecord)
    (h : readRecord token id db = .ok (db', record)) : db.revokedTokens ⊆ db'.revokedTokens := by
  unfold readRecord at h
  split at h <;> cases h
  exact List.Subset.refl _

theorem subset_updateTokenStatus (record : TokenRecord) (db db' : TokenDatabase) (found : TokenRecord)
    (h : updateTokenStatus record db = .ok (db', found)) : db.revokedTokens ⊆ db'.revokedTokens := by
  unfold updateTokenStatus at h
  split at h <;> cases h
  exact List.Subset.refl _

theorem updateRevokedTokensList_ok {tokenId : Text} {db db' : TokenDatabase} {u : Unit}
    (h : updateRevokedTokensList tokenId db = .ok (db', u)) :
    db'.revokedTokens = db.revokedTokens ++ [tokenId] := by
  unfold updateRevokedTokensList at h
  split at h <;> cases h
  rfl

theorem subset_updateRevokedTokensList (tokenId : Text) (db db' : TokenDatabase) (u : Unit)
    (h : updateRevokedTokensList tokenId db = .ok (db', u)) : db.revokedTokens ⊆ db'.revokedTokens := by
  rw [updateRevokedTokensList_ok h]
  exact List.subset_append_left _ _

def Early : Client → Prop
  | .returned _ | .findToken _ _ | .updateTokenStatus _ | .updateRevokedTokensList _ => True
  | _ => False

inductive Moved (s : TokenStore) (c : Client) : TokenStore → Client → Prop
  | early (db : TokenDatabase) (m : Client) (hdb : s.db.revokedTokens ⊆ db.revokedTokens) (hm : Early m) :
    Moved s c { s with db := db } m
  | stored (db : TokenDatabase) (record : TokenRecord) (hdb : s.db.revokedTokens ⊆ db.revokedTokens)
    (hid : record.id ∈ db.revokedTokens) : Moved s c { s with db := db } (.append record)
  | appended (record : TokenRecord) (hc : c = .append record) :
    Moved s c
      { s with
        revokedTokenList := ⟨s.revokedTokenList.tokens ++ [record.id], s.revokedTokenList.lastError⟩
        returned := s.returned ++ [record.id] }
      (.returned (some (.ok record)))
  | asked (tokenId : Text) : Moved s c s (.getRevokedTokenIds tokenId (tokenId ∈ s.returned))
  | got (tokenId : Text) (late : Bool) (hc : c = .getRevokedTokenIds tokenId late) :
    Moved s c s (.stringInSlice tokenId late (getRevokedTokenIds s.revokedTokenList))
  | answered (tokenId : Text) (late : Bool) (tokens : Except Text (List Text))
    (hc : c = .stringInSlice tokenId late tokens) :
    Moved s c s (.answered tokenId late (isTokenRevoked tokenId tokens))

theorem moved_behind {α : Type} {next : α → Client} {x : TokenDatabase × Except Text α}
    (hdb : s.db.revokedTokens ⊆ x.1.revokedTokens)
    (hnext : ∀ answer, x.2 = .ok answer → Moved s c { s with db := x.1 } (next answer))
    (h : some (Client.behind s next x) = some (t, m)) : Moved s c t m := by
  obtain ⟨db, _ | answer⟩ := x
  · cases h
    exact .early db _ hdb trivial
  · cases h
    exact hnext answer rfl

theorem moved_step (h : Client.step s c a = some (t, m)) : Moved s c t m := by
  cases a with
  | revokeToken token id =>
    obtain ⟨-, h⟩ := Option.ite_none_right_eq_some.mp h
    cases h
    exact .early s.db _ (List.Subset.refl _) trivial
  | isTokenRevoked tokenId =>
    obtain ⟨-, h⟩ := Option.ite_none_right_eq_some.mp h
    cases h
    exact .asked tokenId
  | proceed fault =>
    cases c with
    | returned answer | answered tokenId late answer => cases h
    | findToken token id =>
      have hdb := subset_processRequest (subset_readRecord token id) fault s.db
      refine moved_behind hdb (fun record _ => .early _ _ hdb ?_) h
      split <;> trivial
    | updateTokenStatus record =>
      have hdb := subset_processRequest (subset_updateTokenStatus record) fault s.db
      exact moved_behind hdb (fun found _ => .early _ (.updateRevokedTokensList found) hdb trivial) h
    | updateRevokedTokensList record =>
      have hdb := subset_processRequest (subset_updateRevokedTokensList record.id) fault s.db
      refine moved_behind hdb (fun u hok => .stored _ record hdb ?_) h
      rw [updateRevokedTokensList_ok (processRequest_ok hok)]
      exact List.mem_append_right _ List.mem_cons_self
    | append record =>
      cases h
      exact .appended record rfl
    | getRevokedTokenIds tokenId late =>
      cases h
      exact .got tokenId late rfl
    | stringInSlice tokenId late tokens =>
      cases h
      exact .answered tokenId late tokens rfl

def Warned (s : TokenStore) : Client → Prop
  | .getRevokedTokenIds tokenId late => late = true → tokenId ∈ s.returned
  | .stringInSlice tokenId late tokens => late = true → isTokenRevoked tokenId tokens ≠ (false, none)
  | .answered _ late answer => late = true → answer ≠ (false, none)
  | _ => True

def Listed (s : TokenStore) : Prop := ∀ tokenId ∈ s.returned, answerNow s tokenId ≠ (false, none)

theorem Warned.mono (hreturned : s.returned ⊆ t.returned) (h : Warned s c) : Warned t c := by
  cases c with
  | getRevokedTokenIds tokenId late => exact fun hlate => hreturned (h hlate)
  | _ => exact h

theorem Early.warned (h : Early c) : Warned s c := by
  cases c with
  | returned answer | findToken token id | updateTokenStatus record | updateRevokedTokensList record => trivial
  | append record | getRevokedTokenIds tokenId late | stringInSlice tokenId late tokens
  | answered tokenId late answer => exact h.elim

theorem Moved.returned (h : Moved s c t m) : s.returned ⊆ t.returned := by
  cases h with
  | appended record hc => exact List.subset_append_left _ _
  | _ => exact List.Subset.refl _

theorem Moved.listed (h : Moved s c t m) (hs : Listed s) : Listed t := by
  cases h with
  | appended record hc =>
    intro tokenId hid
    rw [answerNow_ne_iff]
    obtain hid | hid := List.mem_append.mp hid
    · exact (answerNow_ne_iff.mp (hs tokenId hid)).imp_right (List.mem_append_left _)
    · exact .inr (List.mem_append_right _ hid)
  | _ => exact hs

theorem Moved.warned (h : Moved s c t m) (hs : Listed s) (hc : Warned s c) : Warned t m := by
  cases h with
  | early db m hdb hm => exact hm.warned
  | stored db record hdb hid => trivial
  | appended record happend => trivial
  | asked tokenId => exact of_decide_eq_true
  | got tokenId late hget =>
    subst hget
    exact fun hlate => hs tokenId (hc hlate)
  | answered tokenId late tokens hin =>
    subst hin
    exact hc

theorem listed_poll {fault : Option Fault} (hs : Listed s)
    (hc : ∀ tokens, s.poller = .setTokens tokens → ∀ tokenId ∈ s.returned, tokenId ∈ tokens)
    (h : loopGetRevokedTokens s fault = some t) : Listed t ∧ t.returned = s.returned := by
  unfold loopGetRevokedTokens at h
  split at h
  · split at h <;> cases h <;> exact ⟨hs, rfl⟩
  · cases h
    exact ⟨fun tokenId _ => answerNow_ne_iff.mpr (.inl (by simp)), rfl⟩
  · rename_i tokens hpoller
    cases h
    exact ⟨fun tokenId hid => answerNow_ne_iff.mpr (.inr (hc tokens hpoller tokenId hid)), rfl⟩
  · cases h
    exact ⟨hs, rfl⟩
  · cases h

theorem outside_eq {e : Outside} (he : ∀ fault, e ≠ .poll fault) (h : outside s e = some t) :
    t.revokedTokenList = s.revokedTokenList ∧ t.returned = s.returned := by
  cases e with
  | poll fault => exact absurd rfl (he fault)
  | stop =>
    obtain ⟨-, h⟩ := Option.ite_none_right_eq_some.mp h
    cases h
    exact ⟨rfl, rfl⟩
  | addToken record =>
    obtain ⟨-, h⟩ := Option.ite_none_left_eq_some.mp h
    cases h
    exact ⟨rfl, rfl⟩
  | revokedElsewhere tokenId =>
    unfold outside at h
    dsimp only at h
    split at h <;> cases h
    exact ⟨rfl, rfl⟩

theorem holds_step (u : State n) (e : Event Action Outside n) (v : State n) (hu : Holds Listed Warned u)
    (hc : UpToDate u e) (h : next u e = some v) : Holds Listed Warned v := by
  cases e with
  | thread i a =>
    obtain ⟨⟨t, m⟩, hstep, rfl⟩ := Option.map_eq_some_iff.mp h
    have hmoved := moved_step hstep
    refine ⟨hmoved.listed hu.shared, ?_⟩
    exact forall_update (fun j => (hu.threads j).mono hmoved.returned) i
      (hmoved.warned hu.shared (hu.threads i))
  | world e =>
    obtain ⟨t, hstep, rfl⟩ := Option.map_eq_some_iff.mp h
    obtain ⟨hlisted, hreturned⟩ : Listed t ∧ t.returned = u.shared.returned := by
      cases e with
      | poll fault =>
        refine listed_poll hu.shared (fun tokens hpoller => ?_) hstep
        simpa only [UpToDate, hpoller] using hc
      | stop | addToken record | revokedElsewhere tokenId =>
        obtain ⟨hlist, hreturned⟩ := outside_eq (by rintro _ ⟨⟩) hstep
        refine ⟨?_, hreturned⟩
        intro tokenId hid
        rw [answerNow, hlist]
        exact hu.shared tokenId (hreturned ▸ hid)
    exact ⟨hlisted, fun j => (hu.threads j).mono (by rw [hreturned]; exact List.Subset.refl _)⟩

theorem Monotone.of_holds {u : State n} (h : Holds Listed Warned u) : Monotone u := by
  refine ⟨h.shared, fun i tokenId answer hi => ?_⟩
  have hwarned := h.threads i
  rw [hi] at hwarned
  exact hwarned rfl

theorem Monotone.no_access {u : State n} (h : Monotone u) {claim : TokenClaim}
    (hid : claim.id ∈ u.shared.returned) (subjectExpect : Text) (accessTypes : List Text) :
    checkToken (.ok claim) (answerNow u.shared claim.id) subjectExpect ≠ .ok accessTypes :=
  fun hok => h.now claim.id hid (checkToken_ok hok)

theorem not_monotone_of_not_upToDate (u : State n) (e : Event Action Outside n) (v : State n)
    (hc : ¬ UpToDate u e) (h : next u e = some v) : ¬ Monotone v := by
  intro hv
  cases e with
  | thread i a => exact hc trivial
  | world e =>
    cases e with
    | poll fault =>
      obtain ⟨t, hstep, rfl⟩ := Option.map_eq_some_iff.mp h
      cases hpoller : u.shared.poller with
      | setTokens tokens =>
        refine hc ?_
        simp only [UpToDate, hpoller]
        intro tokenId hid
        simp only [outside, loopGetRevokedTokens, hpoller, Option.some.injEq] at hstep
        subst hstep
        simpa using answerNow_ne_iff.mp (hv.now tokenId hid)
      | _ => exact hc (by simp [UpToDate, hpoller])
    | stop | addToken record | revokedElsewhere tokenId => exact hc trivial

theorem holds_start (db : TokenDatabase) (polling : Bool) : Holds Listed Warned (start n db polling) :=
  ⟨by rintro _ ⟨⟩, fun _ => trivial⟩

/-- Revocation is monotone in a run, precisely when every list that the loop has read is
still up to date at the time of the replacement. -/
theorem revocation_monotone_iff (n : ℕ) (db : TokenDatabase) (polling : Bool)
    (es : List (Event Action Outside n)) :
    Always next Monotone (start n db polling) es ↔ Along next UpToDate (start n db polling) es :=
  always_iff_along (fun _ => Monotone.of_holds) holds_step
    (fun u e v _ => not_monotone_of_not_upToDate u e v) _ es (holds_start db polling)

def accepted : Client → Bool
  | .answered _ true answer => decide (answer = (false, none))
  | _ => false

theorem revoked_token_accepted :
    ¬ ∀ (n : ℕ) (db : TokenDatabase) (polling : Bool) (es : List (Event Action Outside n)),
      Always next Refused (start n db polling) es := by
  intro h
  have hrun : (exec next (start 1 ⟨[⟨text "id", text "token", false⟩], []⟩ true)
      [.world (.poll none), .thread 0 (.revokeToken (text "token") []), .thread 0 (.proceed none),
        .thread 0 (.proceed none), .thread 0 (.proceed none), .thread 0 (.proceed none), .world (.poll none),
        .thread 0 (.isTokenRevoked (text "id")), .thread 0 (.proceed none), .thread 0 (.proceed none)]).any
      (fun u => accepted (u.threads 0)) = true := by
    decide +kernel
  obtain ⟨u, hexec, hu⟩ := (Option.any_eq_true _ _).mp hrun
  unfold accepted at hu
  split at hu
  · rename_i tokenId answer hthread
    exact always_exec _ u _ (h 1 _ true _) hexec 0 tokenId answer hthread (of_decide_eq_true hu)
  · cases hu

structure Known (s : TokenStore) : Prop where
  stored : s.returned ⊆ s.db.revokedTokens
  read : ∀ tokens, s.poller = .setTokens tokens → s.returned ⊆ tokens

def Stored (s : TokenStore) (c : Client) : Prop := ∀ record, c = .append record → record.id ∈ s.db.revokedTokens

theorem Moved.db (h : Moved s c t m) : s.db.revokedTokens ⊆ t.db.revokedTokens := by
  cases h with
  | early db m hdb hm => exact hdb
  | stored db record hdb hid => exact hdb
  | _ => exact List.Subset.refl _

theorem Moved.storedBefore (h : Moved s c t m) : Stored t m := by
  rintro record rfl
  cases h with
  | early db m hdb hm => exact hm.elim
  | stored db record hdb hid => exact hid

theorem Moved.known (h : Moved s c t m) (hs : Known s) (hc : Stored s c)
    (hquiet : ∀ tokens record, s.poller = .setTokens tokens → c ≠ .append record) : Known t := by
  cases h with
  | early db m hdb hm => exact ⟨List.Subset.trans hs.stored hdb, hs.read⟩
  | stored db record hdb hid => exact ⟨List.Subset.trans hs.stored hdb, hs.read⟩
  | appended record happend =>
    refine ⟨List.append_subset.mpr ⟨hs.stored, List.cons_subset.mpr ⟨hc record happend, List.nil_subset _⟩⟩, ?_⟩
    intro tokens htokens
    exact absurd happend (hquiet tokens record htokens)
  | _ => exact hs

theorem known_outside {e : Outside} (hs : Known s) (h : outside s e = some t) :
    Known t ∧ s.db.revokedTokens ⊆ t.db.revokedTokens := by
  cases e with
  | poll fault =>
    unfold outside loopGetRevokedTokens at h
    dsimp only at h
    split at h
    · have hdb : s.db.revokedTokens ⊆ (processRequest readRecords fault s.db).1.revokedTokens :=
        subset_processRequest (by rintro _ _ _ ⟨⟩; exact List.Subset.refl _) fault s.db
      split at h <;> rename_i hread <;> cases h <;> rw [hread] at hdb
      · exact ⟨⟨List.Subset.trans hs.stored hdb, by rintro _ ⟨⟩⟩, hdb⟩
      · refine ⟨⟨List.Subset.trans hs.stored hdb, ?_⟩, hdb⟩
        rintro tokens ⟨⟩
        have hok := Except.ok.inj (processRequest_ok (congrArg Prod.snd hread))
        rw [← (Prod.mk.inj hok).2]
        exact hs.stored
    all_goals
      cases h
      try exact ⟨⟨hs.stored, by rintro _ ⟨⟩⟩, List.Subset.refl _⟩
  | stop =>
    obtain ⟨-, h⟩ := Option.ite_none_right_eq_some.mp h
    cases h
    exact ⟨⟨hs.stored, by rintro _ ⟨⟩⟩, List.Subset.refl _⟩
  | addToken record =>
    obtain ⟨-, h⟩ := Option.ite_none_left_eq_some.mp h
    cases h
    exact ⟨⟨hs.stored, hs.read⟩, List.Subset.refl _⟩
  | revokedElsewhere tokenId =>
    unfold outside at h
    dsimp only at h
    split at h <;> cases h
    rename_i hok
    have hdb := subset_updateRevokedTokensList _ _ _ _ hok
    exact ⟨⟨List.Subset.trans hs.stored hdb, hs.read⟩, hdb⟩

theorem known_step (u : State n) (e : Event Action Outside n) (v : State n) (hu : Holds Known Stored u)
    (hc : Undisturbed u e) (h : next u e = some v) : Holds Known Stored v := by
  cases e with
  | thread i a =>
    obtain ⟨⟨t, m⟩, hstep, rfl⟩ := Option.map_eq_some_iff.mp h
    have hmoved := moved_step hstep
    refine ⟨hmoved.known hu.shared (hu.threads i) (fun tokens record hpoller hi => ?_), ?_⟩
    · cases a with
      | proceed fault =>
        simp only [Undisturbed, hpoller, hi] at hc
      | revokeToken token id | isTokenRevoked tokenId =>
        rw [hi, Client.step] at hstep
        exact (Option.ite_none_right_eq_some.mp hstep).1
    · exact forall_update (fun j record hj => hmoved.db (hu.threads j record hj)) i hmoved.storedBefore
  | world e =>
    obtain ⟨t, hstep, rfl⟩ := Option.map_eq_some_iff.mp h
    obtain ⟨hknown, hdb⟩ := known_outside hu.shared hstep
    exact ⟨hknown, fun j record hj => hdb (hu.threads j record hj)⟩

/-- Revocation is monotone if no token is appended while the loop is about to replace the list. -/
theorem monotone_of_undisturbed (db : TokenDatabase) (polling : Bool) (es : List (Event Action Outside n))
    (h : Along next Undisturbed (start n db polling) es) :
    Always next Monotone (start n db polling) es := by
  have hknown : Holds Known Stored (start n db polling) := by
    refine ⟨⟨by rintro _ ⟨⟩, by rintro _ _ _ ⟨⟩⟩, fun _ _ => by rintro ⟨⟩⟩
  have hupToDate : Along next UpToDate (start n db polling) es := by
    refine along_of_along (fun u e hu _ => ?_) known_step _ es hknown h
    cases e with
    | thread i a => trivial
    | world e =>
      cases e with
      | poll fault =>
        cases hpoller : u.shared.poller with
        | setTokens tokens =>
          simp only [UpToDate, hpoller]
          exact fun tokenId hid => hu.shared.read tokens hpoller hid
        | _ => simp [UpToDate, hpoller]
      | stop | addToken record | revokedElsewhere tokenId => trivial
  exact always_of_along (fun _ => Monotone.of_holds) holds_step _ es (holds_start db polling) hupToDate

end Asapo.Authorizer.Revocation
