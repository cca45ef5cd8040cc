import Asapo.Authorizer.Revocation

namespace Asapo.Authorizer.Recovery

open Transition Revocation

/-- A call of `RevokeToken`, with the errors of its requests to the database. A request
with an error has no effect. -/
structure RevokeCall where
  token : Text
  id : Text
  findFault : Option Text
  updateFault : Option Text
  listFault : Option Text
  deriving DecidableEq, Repr

def listToken (c : RevokeCall) (record : TokenRecord) (db : TokenDatabase) : TokenDatabase × Except Text TokenRecord :=
  match processRequest (updateRevokedTokensList record.id) (c.listFault.map .lost) db with
  | (db, .error err) => (db, .error err)
  | (db, .ok _) => (db, .ok record)

def markToken (c : RevokeCall) (record : TokenRecord) (db : TokenDatabase) : TokenDatabase × Except Text TokenRecord :=
  match processRequest (updateTokenStatus record) (c.updateFault.map .lost) db with
  | (db, .error err) => (db, .error err)
  | (db, .ok record) => listToken c record db

def revokeToken (c : RevokeCall) (db : TokenDatabase) : TokenDatabase × Except Text TokenRecord :=
  match processRequest (readRecord c.token c.id) (c.findFault.map .lost) db with
  | (db, .error err) => (db, .error err)
  | (db, .ok record) =>
    if record.revoked then (db, .error (text "token already revoked")) else markToken c record db

def call (db : TokenDatabase) (c : RevokeCall) : Option TokenDatabase := some (revokeToken c db).1

def mark (id : Text) (db : TokenDatabase) : TokenDatabase :=
  { db with tokens := db.tokens.map (fun r => if r.id = id then { r with revoked := true } else r) }

def undisturbed (token id : Text) : RevokeCall := ⟨token, id, none, none, none⟩

/-- Some later call for a token, whose requests are answered, succeeds and lists the token. -/
def Recoverable (db : TokenDatabase) (record : TokenRecord) : Prop :=
  ∃ calls db' token id answer, exec call db calls = some db' ∧
    (revokeToken (undisturbed token id) db').2 = .ok answer ∧ answer.id = record.id ∧
    record.id ∈ (revokeToken (undisturbed token id) db').1.revokedTokens

/-- Each token that is marked is listed, or can still be. -/
def Recovers (db : TokenDatabase) : Prop :=
  ∀ record ∈ db.tokens, record.revoked = true → record.id ∈ db.revokedTokens ∨ Recoverable db record

structure Consistent (db : TokenDatabase) : Prop where
  ids : (db.tokens.map TokenRecord.id).Nodup
  listed : ∀ record ∈ db.tokens, record.revoked = true → record.id ∈ db.revokedTokens

/-- The call marks a token that is not listed, and the request that lists it has an error. -/
def Interrupted (db : TokenDatabase) (c : RevokeCall) : Prop :=
  ∃ record, readRecord c.token c.id db = .ok (db, record) ∧ c.findFault = none ∧ record.revoked = false ∧
    c.updateFault = none ∧ c.listFault ≠ none ∧ record.id ∉ db.revokedTokens

variable {db db' : TokenDatabase} {c : RevokeCall} {record answer : TokenRecord}

section Requests

variable {α : Type} {op : TokenDatabase → Except Text (TokenDatabase × α)} {a : α} {err : Text}

theorem processRequest_lost (op : TokenDatabase → Except Text (TokenDatabase × α)) (err : Text)
    (db : TokenDatabase) : processRequest op (Option.map .lost (some err)) db = (db, .error err) := rfl

theorem processRequest_answered (h : op db = .ok (db', a)) :
    processRequest op (Option.map .lost none) db = (db', .ok a) := by
  simp only [processRequest, Option.map_none, h]

theorem processRequest_refused (h : op db = .error err) :
    processRequest op (Option.map .lost none) db = (db, .error err) := by
  simp only [processRequest, Option.map_none, h]

end Requests

theorem readRecord_ok {token id : Text} (h : readRecord token id db = .ok (db', record)) :
    db' = db ∧ record ∈ db.tokens := by
  unfold readRecord at h
  split at h <;> cases h
  rename_i hfind
  exact ⟨rfl, List.mem_of_find?_eq_some hfind⟩

theorem updateTokenStatus_of_mem (h : record ∈ db.tokens) :
    ∃ answer, updateTokenStatus record db = .ok (mark record.id db, answer) ∧ answer.id = record.id := by
  unfold updateTokenStatus
  cases hfind : db.tokens.find? (fun r => r.id = record.id) with
  | none => exact absurd (decide_eq_true rfl) (List.find?_eq_none.mp hfind record h)
  | some found =>
    have hid : found.id = record.id := by simpa using List.find?_some hfind
    exact ⟨_, rfl, hid⟩

inductive Outcome (c : RevokeCall) (db : TokenDatabase) : TokenDatabase × Except Text TokenRecord → Prop
  | unchanged (err : Text) (hc : ¬ Interrupted db c) : Outcome c db (db, .error err)
  | marked (record : TokenRecord) (err : Text) (hmem : record ∈ db.tokens) (hrevoked : record.revoked = false)
      (hlist : record.id ∈ db.revokedTokens ∨ Interrupted db c) : Outcome c db (mark record.id db, .error err)
  | listed (record answer : TokenRecord) (hmem : record ∈ db.tokens) (hrevoked : record.revoked = false)
      (hanswer : answer.id = record.id) (hc : ¬ Interrupted db c) :
      Outcome c db ({ mark record.id db with revokedTokens := db.revokedTokens ++ [record.id] }, .ok answer)

theorem outcome_listToken (hread : readRecord c.token c.id db = .ok (db, record)) (hfind : c.findFault = none)
    (hrevoked : record.revoked = false) (hupdate : c.updateFault = none) (hid : answer.id = record.id) :
    Outcome c db (listToken c answer (mark record.id db)) := by
  obtain ⟨-, hmem⟩ := readRecord_ok hread
  rw [listToken, hid]
  by_cases hin : record.id ∈ db.revokedTokens
  · cases c.listFault with
    | some err =>
      rw [processRequest_lost]
      exact .marked record err hmem hrevoked (.inl hin)
    | none =>
      rw [processRequest_refused (if_pos hin)]
      exact .marked record _ hmem hrevoked (.inl hin)
  · cases hlist : c.listFault with
    | some err =>
      rw [processRequest_lost]
      exact .marked record err hmem hrevoked (.inr ⟨record, hread, hfind, hrevoked, hupdate, by simp [hlist], hin⟩)
    | none =>
      rw [processRequest_answered (if_neg hin)]
      refine .listed record answer hmem hrevoked hid ?_
      rintro ⟨-, -, -, -, -, hfault, -⟩
      exact hfault hlist

theorem outcome_markToken (hread : readRecord c.token c.id db = .ok (db, record)) (hfind : c.findFault = none)
    (hrevoked : record.revoked = false) : Outcome c db (markToken c record db) := by
  rw [markToken]
  cases hupdate : c.updateFault with
  | some err =>
    rw [processRequest_lost]
    refine .unchanged err ?_
    rintro ⟨-, -, -, -, hnone, -⟩
    rw [hupdate] at hnone
    cases hnone
  | none =>
    obtain ⟨answer, hmark, hid⟩ := updateTokenStatus_of_mem (readRecord_ok hread).2
    rw [processRequest_answered hmark]
    exact outcome_listToken hread hfind hrevoked hupdate hid

theorem outcome_revokeToken (c : RevokeCall) (db : TokenDatabase) : Outcome c db (revokeToken c db) := by
  unfold revokeToken
  cases hfind : c.findFault with
  | some err =>
    rw [processRequest_lost]
    refine .unchanged err ?_
    rintro ⟨-, -, hnone, -⟩
    rw [hfind] at hnone
    cases hnone
  | none =>
    cases hread : readRecord c.token c.id db with
    | error err =>
      rw [processRequest_refused hread]
      refine .unchanged err ?_
      rintro ⟨record, hok, -⟩
      rw [hread] at hok
      cases hok
    | ok found =>
      obtain ⟨db', record⟩ := found
      obtain ⟨rfl, -⟩ := readRecord_ok hread
      rw [processRequest_answered hread]
      dsimp only
      cases hrevoked : record.revoked with
      | true =>
        refine .unchanged _ ?_
        rintro ⟨r, hr, -, hfree, -⟩
        cases hread.symm.trans hr
        rw [hrevoked] at hfree
        cases hfree
      | false => exact outcome_markToken hread hfind hrevoked

theorem ids_mark (id : Text) (db : TokenDatabase) :
    (mark id db).tokens.map TokenRecord.id = db.tokens.map TokenRecord.id := by
  rw [mark, List.map_map]
  refine List.map_congr_left (fun r _ => ?_)
  dsimp only [Function.comp]
  split <;> rfl

theorem mem_mark {id : Text} (h : record ∈ db.tokens) (hrevoked : record.revoked = true) :
    record ∈ (mark id db).tokens := by
  refine List.mem_map.mpr ⟨record, h, ?_⟩
  split
  · rw [← hrevoked]
  · rfl

theorem of_mem_mark {id : Text} (h : record ∈ (mark id db).tokens) : record ∈ db.tokens ∨ record.id = id := by
  obtain ⟨r, hr, rfl⟩ := List.mem_map.mp h
  split
  · rename_i hid
    exact .inr hid
  · exact .inl hr

section Outcomes

variable {res : TokenDatabase × Except Text TokenRecord}

theorem Outcome.ids (h : Outcome c db res) : res.1.tokens.map TokenRecord.id = db.tokens.map TokenRecord.id := by
  cases h with
  | unchanged => rfl
  | marked record => exact ids_mark _ _
  | listed record => exact ids_mark _ _

theorem Outcome.mem (h : Outcome c db res) (hmem : record ∈ db.tokens) (hrevoked : record.revoked = true) :
    record ∈ res.1.tokens := by
  cases h with
  | unchanged => exact hmem
  | marked => exact mem_mark hmem hrevoked
  | listed => exact mem_mark hmem hrevoked

theorem Outcome.not_listed (h : Outcome c db res) (hids : (db.tokens.map TokenRecord.id).Nodup)
    (hmem : record ∈ db.tokens) (hrevoked : record.revoked = true) (hnot : record.id ∉ db.revokedTokens) :
    record.id ∉ res.1.revokedTokens := by
  cases h with
  | unchanged => exact hnot
  | marked => exact hnot
  | listed found answer hfound hfree hanswer =>
    intro hin
    obtain hin | hin := List.mem_append.mp hin
    · exact hnot hin
    · have hsame := List.inj_on_of_nodup_map hids hmem hfound (List.mem_singleton.mp hin)
      rw [hsame, hfree] at hrevoked
      cases hrevoked

theorem Outcome.consistent (h : Outcome c db res) (hdb : Consistent db) (hc : ¬ Interrupted db c) :
    Consistent res.1 := by
  refine ⟨h.ids ▸ hdb.ids, ?_⟩
  cases h with
  | unchanged => exact hdb.listed
  | marked found err hfound hfree hlist =>
    intro record hrecord hrevoked
    obtain hold | hid := of_mem_mark hrecord
    · exact hdb.listed record hold hrevoked
    · obtain hin | hinterrupted := hlist
      · exact hid ▸ hin
      · exact absurd hinterrupted hc
  | listed found answer hfound hfree hanswer =>
    intro record hrecord hrevoked
    obtain hold | hid := of_mem_mark hrecord
    · exact List.mem_append_left _ (hdb.listed record hold hrevoked)
    · exact List.mem_append_right _ (List.mem_singleton.mpr hid)

end Outcomes

theorem not_listed_exec {calls : List RevokeCall} (hids : (db.tokens.map TokenRecord.id).Nodup)
    (hmem : record ∈ db.tokens) (hrevoked : record.revoked = true) (hnot : record.id ∉ db.revokedTokens)
    (hexec : exec call db calls = some db') :
    (db'.tokens.map TokenRecord.id).Nodup ∧ record ∈ db'.tokens ∧ record.id ∉ db'.revokedTokens := by
  induction calls generalizing db with
  | nil =>
    cases hexec
    exact ⟨hids, hmem, hnot⟩
  | cons c calls ih =>
    have hout := outcome_revokeToken c db
    exact ih (hout.ids ▸ hids) (hout.mem hmem hrevoked) (hout.not_listed hids hmem hrevoked hnot) hexec

theorem not_recoverable (hids : (db.tokens.map TokenRecord.id).Nodup) (hmem : record ∈ db.tokens)
    (hrevoked : record.revoked = true) (hnot : record.id ∉ db.revokedTokens) : ¬ Recoverable db record := by
  rintro ⟨calls, db', token, id, answer, hexec, -, -, hin⟩
  obtain ⟨hids', hmem', hnot'⟩ := not_listed_exec hids hmem hrevoked hnot hexec
  exact (outcome_revokeToken _ db').not_listed hids' hmem' hrevoked hnot' hin

theorem Consistent.recovers (h : Consistent db) : Recovers db :=
  fun record hmem hrevoked => .inl (h.listed record hmem hrevoked)

theorem not_recovers_of_interrupted (hdb : Consistent db) (hc : Interrupted db c) :
    ¬ Recovers (revokeToken c db).1 := by
  obtain ⟨record, hread, hfind, hfree, hupdate, hlist, hnot⟩ := hc
  obtain ⟨-, hmem⟩ := readRecord_ok hread
  obtain ⟨answer, hmark, hid⟩ := updateTokenStatus_of_mem hmem
  obtain ⟨err, hlist⟩ := Option.ne_none_iff_exists'.mp hlist
  have hdb' : (revokeToken c db).1 = mark record.id db := by
    unfold revokeToken
    rw [hfind, processRequest_answered hread]
    dsimp only
    rw [hfree, if_neg (by decide), markToken, hupdate, processRequest_answered hmark]
    dsimp only
    rw [listToken, hlist, processRequest_lost]
  have hmarked : { record with revoked := true } ∈ (mark record.id db).tokens :=
    List.mem_map.mpr ⟨record, hmem, if_pos rfl⟩
  rw [hdb']
  intro hrecovers
  obtain hin | hlater := hrecovers _ hmarked rfl
  · exact hnot hin
  · exact not_recoverable (ids_mark record.id db ▸ hdb.ids) hmarked rfl hnot hlater

/-- Behind every call the tokens that are marked are listed or can still be, precisely when
no call is interrupted between the two. -/
theorem revocation_recovers_iff (db : { db : TokenDatabase // Consistent db }) (calls : List RevokeCall) :
    Always call Recovers db.1 calls ↔ Along call (fun db c => ¬ Interrupted db c) db.1 calls := by
  refine always_iff_along (fun _ => Consistent.recovers) ?_ ?_ db.1 calls db.2
  · rintro db c _ hdb hc ⟨⟩
    exact (outcome_revokeToken c db).consistent hdb hc
  · rintro db c _ hdb hc ⟨⟩
    exact not_recovers_of_interrupted hdb (not_not.mp hc)

def lostListing : RevokeCall := ⟨text "token", [], none, none, some (text "connection lost")⟩

def oneToken : TokenDatabase := ⟨[⟨text "1", text "token", false⟩], []⟩

theorem marked_token_never_listed :
    Consistent oneToken ∧
      ∃ db, call oneToken lostListing = some db ∧ ¬ Recovers db ∧
        ∀ calls db', exec call db calls = some db' → text "1" ∉ db'.revokedTokens := by
  have hstart : Consistent oneToken := by
    refine ⟨by decide, ?_⟩
    intro record hmem hrevoked
    rw [List.mem_singleton.mp hmem] at hrevoked
    cases hrevoked
  have hinterrupted : Interrupted oneToken lostListing :=
    ⟨⟨text "1", text "token", false⟩, by decide, rfl, rfl, rfl, by decide, by decide⟩
  refine ⟨hstart, _, rfl, not_recovers_of_interrupted hstart hinterrupted, ?_⟩
  intro calls db' hexec
  have hmarked : (revokeToken lostListing oneToken).1 = ⟨[⟨text "1", text "token", true⟩], []⟩ := by decide
  have hmem : (⟨text "1", text "token", true⟩ : TokenRecord) ∈ (revokeToken lostListing oneToken).1.tokens := by
    rw [hmarked]
    exact List.mem_cons_self
  exact (not_listed_exec (by decide) hmem rfl (by decide) hexec).2.2

section Steps

def Ends (p : TokenStore × Client) (res : TokenDatabase × Except Text TokenRecord) : Prop :=
  ∃ t, Reaches (fun p action => Client.step p.1 p.2 action) p (t, .returned (some res.2)) ∧ t.db = res.1

theorem Ends.step {p q : TokenStore × Client} {res : TokenDatabase × Except Text TokenRecord} (action : Action)
    (h : Client.step p.1 p.2 action = some q) (hq : Ends q res) : Ends p res := by
  obtain ⟨t, hrun, hdb⟩ := hq
  exact ⟨t, hrun.head action h, hdb⟩

theorem Ends.returned (s : TokenStore) (res : Except Text TokenRecord) :
    Ends (s, .returned (some res)) (s.db, res) := ⟨s, Reaches.refl _, rfl⟩

theorem ends_listToken (s : TokenStore) (record : TokenRecord) (c : RevokeCall) :
    Ends (s, .updateRevokedTokensList record) (listToken c record s.db) := by
  have hstep : Client.step s (.updateRevokedTokensList record) (.proceed (c.listFault.map .lost)) =
      some (Client.behind s (fun _ => .append record)
        (processRequest (updateRevokedTokensList record.id) (c.listFault.map .lost) s.db)) := rfl
  unfold listToken
  rcases hlist : processRequest (updateRevokedTokensList record.id) (c.listFault.map .lost) s.db with ⟨db, err | u⟩
  · rw [hlist] at hstep
    exact .step _ hstep (.returned _ _)
  · rw [hlist] at hstep
    exact .step _ hstep (.step (.proceed none) rfl (.returned _ _))

theorem ends_markToken (s : TokenStore) (record : TokenRecord) (c : RevokeCall) :
    Ends (s, .updateTokenStatus record) (markToken c record s.db) := by
  have hstep : Client.step s (.updateTokenStatus record) (.proceed (c.updateFault.map .lost)) =
      some (Client.behind s .updateRevokedTokensList
        (processRequest (updateTokenStatus record) (c.updateFault.map .lost) s.db)) := rfl
  unfold markToken
  rcases hmark : processRequest (updateTokenStatus record) (c.updateFault.map .lost) s.db with ⟨db, err | marked⟩
  · rw [hmark] at hstep
    exact .step _ hstep (.returned _ _)
  · rw [hmark] at hstep
    exact .step _ hstep (ends_listToken { s with db := db } marked c)

/-- A call in one piece is what a client does step by step. -/
theorem ends_revokeToken (s : TokenStore) (a : Option (Except Text TokenRecord)) (c : RevokeCall) :
    Ends (s, .returned a) (revokeToken c s.db) := by
  refine .step (q := (s, .findToken c.token c.id)) (.revokeToken c.token c.id) rfl ?_
  have hstep : Client.step s (.findToken c.token c.id) (.proceed (c.findFault.map .lost)) =
      some (Client.behind s
        (fun record =>
          if record.revoked then .returned (some (.error (text "token already revoked")))
          else .updateTokenStatus record)
        (processRequest (readRecord c.token c.id) (c.findFault.map .lost) s.db)) := rfl
  unfold revokeToken
  rcases hfind : processRequest (readRecord c.token c.id) (c.findFault.map .lost) s.db with ⟨db, err | record⟩
  · rw [hfind] at hstep
    exact .step _ hstep (.returned _ _)
  · rw [hfind] at hstep
    refine .step _ hstep ?_
    rw [Client.behind]
    dsimp only
    by_cases hrevoked : record.revoked = true
    · rw [if_pos hrevoked, if_pos hrevoked]
      exact .returned { s with db := db } _
    · rw [if_neg hrevoked, if_neg hrevoked]
      exact ends_markToken { s with db := db } record c

end Steps

end Asapo.Authorizer.Recovery
