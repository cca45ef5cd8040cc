import Asapo.Common.DataStructs

namespace Asapo.Authorizer

structure TokenRecord where
  id : Text
  token : Text
  revoked : Bool
  deriving DecidableEq, Repr

structure TokenDatabase where
  tokens : List TokenRecord
  revokedTokens : List Text
  deriving DecidableEq, Repr

structure RevokedTokenList where
  tokens : List Text
  lastError : Option Text
  deriving DecidableEq, Repr

inductive Poller where
  | read
  | setError (err : Text)
  | setTokens (tokens : List Text)
  | wait
  | stopped
  deriving DecidableEq, Repr

/-- What the calls share. The ids of the tokens that `RevokeToken` has returned successfully
for are only there to be talked about. -/
structure TokenStore where
  db : TokenDatabase
  revokedTokenList : RevokedTokenList
  poller : Poller
  returned : List Text
  deriving DecidableEq, Repr

/-- A request can fail without an effect, or only its answer can be lost. -/
inductive Fault where
  | lost (err : Text)
  | unanswered (err : Text)
  deriving DecidableEq, Repr

def processRequest {α : Type} (op : TokenDatabase → Except Text (TokenDatabase × α)) (fault : Option Fault)
    (db : TokenDatabase) : TokenDatabase × Except Text α :=
  match fault, op db with
  | some (.lost err), _ => (db, .error err)
  | some (.unanswered err), .ok (db', _) => (db', .error err)
  | some (.unanswered err), .error _ => (db, .error err)
  | none, .ok (db', answer) => (db', .ok answer)
  | none, .error err => (db, .error err)

def readRecord (token id : Text) (db : TokenDatabase) : Except Text (TokenDatabase × TokenRecord) :=
  match db.tokens.find? (fun record => if token ≠ [] then record.token = token else record.id = id) with
  | none => .error (text "mongo: no documents in result")
  | some record => .ok (db, record)

def updateTokenStatus (record : TokenRecord) (db : TokenDatabase) : Except Text (TokenDatabase × TokenRecord) :=
  match db.tokens.find? (fun r => r.id = record.id) with
  | none => .error (text "mongo: no documents in result")
  | some found =>
    .ok ({ db with tokens := db.tokens.map (fun r => if r.id = record.id then { r with revoked := true } else r) },
      { found with revoked := true })

def updateRevokedTokensList (tokenId : Text) (db : TokenDatabase) : Except Text (TokenDatabase × Unit) :=
  if tokenId ∈ db.revokedTokens then .error (text "duplicate key")
  else .ok ({ db with revokedTokens := db.revokedTokens ++ [tokenId] }, ())

def readRecords (db : TokenDatabase) : Except Text (TokenDatabase × List Text) := .ok (db, db.revokedTokens)

def getRevokedTokenIds (list : RevokedTokenList) : Except Text (List Text) :=
  match list.lastError with
  | some err => .error err
  | none => .ok list.tokens

def isTokenRevoked (tokenId : Text) : Except Text (List Text) → Bool × Option Text
  | .error err => (true, some err)
  | .ok tokens => (tokenId ∈ tokens, none)

/-- What a client of the store is doing. A call of `IsTokenRevoked` carries whether
`RevokeToken` had returned successfully for the id when the call started. -/
inductive Client where
  | returned (answer : Option (Except Text TokenRecord))
  | findToken (token id : Text)
  | updateTokenStatus (record : TokenRecord)
  | updateRevokedTokensList (record : TokenRecord)
  | append (record : TokenRecord)
  | getRevokedTokenIds (tokenId : Text) (late : Bool)
  | stringInSlice (tokenId : Text) (late : Bool) (tokens : Except Text (List Text))
  | answered (tokenId : Text) (late : Bool) (answer : Bool × Option Text)

def Client.Free : Client → Prop
  | .returned _ | .answered _ _ _ => True
  | _ => False

instance : ∀ c : Client, Decidable c.Free
  | .returned _ | .answered _ _ _ => .isTrue trivial
  | .findToken _ _ | .updateTokenStatus _ | .updateRevokedTokensList _ | .append _ | .getRevokedTokenIds _ _
  | .stringInSlice _ _ _ => .isFalse not_false

inductive Action where
  | revokeToken (token id : Text)
  | isTokenRevoked (tokenId : Text)
  | proceed (fault : Option Fault)
  deriving DecidableEq, Repr

def Client.behind {α : Type} (s : TokenStore) (next : α → Client) :
    TokenDatabase × Except Text α → TokenStore × Client
  | (db, .error err) => ({ s with db := db }, .returned (some (.error err)))
  | (db, .ok answer) => ({ s with db := db }, next answer)

/-- The calls of `RevokeToken` and `IsTokenRevoked`, one database request or one critical
section at a time. -/
def Client.step (s : TokenStore) (c : Client) (a : Action) : Option (TokenStore × Client) :=
  match a with
  | .revokeToken token id => if c.Free then some (s, .findToken token id) else none
  | .isTokenRevoked tokenId =>
    if c.Free then some (s, .getRevokedTokenIds tokenId (tokenId ∈ s.returned)) else none
  | .proceed fault =>
    match c with
    | .returned _ | .answered _ _ _ => none
    | .findToken token id =>
      some (behind s
        (fun record =>
          if record.revoked then .returned (some (.error (text "token already revoked")))
          else .updateTokenStatus record)
        (processRequest (readRecord token id) fault s.db))
    | .updateTokenStatus record =>
      some (behind s .updateRevokedTokensList (processRequest (Authorizer.updateTokenStatus record) fault s.db))
    | .updateRevokedTokensList record =>
      some (behind s (fun _ => .append record)
        (processRequest (Authorizer.updateRevokedTokensList record.id) fault s.db))
    | .append record =>
      some ({ s with
          revokedTokenList := { s.revokedTokenList with tokens := s.revokedTokenList.tokens ++ [record.id] }
          returned := s.returned ++ [record.id] },
        .returned (some (.ok record)))
    | .getRevokedTokenIds tokenId late =>
      some (s, .stringInSlice tokenId late (Authorizer.getRevokedTokenIds s.revokedTokenList))
    | .stringInSlice tokenId late tokens =>
      some (s, .answered tokenId late (Authorizer.isTokenRevoked tokenId tokens))

/-- What else happens: a step of the polling loop, its end, and other clients of the
database. -/
inductive Outside where
  | poll (fault : Option Fault)
  | stop
  | addToken (record : TokenRecord)
  | revokedElsewhere (tokenId : Text)
  deriving DecidableEq, Repr

def loopGetRevokedTokens (s : TokenStore) (fault : Option Fault) : Option TokenStore :=
  match s.poller with
  | .read =>
    match processRequest readRecords fault s.db with
    | (db, .error err) => some { s with db := db, poller := .setError err }
    | (db, .ok res) => some { s with db := db, poller := .setTokens res }
  | .setError err => some { s with revokedTokenList := ⟨[], some err⟩, poller := .wait }
  | .setTokens tokens => some { s with revokedTokenList := ⟨tokens, none⟩, poller := .wait }
  | .wait => some { s with poller := .read }
  | .stopped => none

def outside (s : TokenStore) : Outside → Option TokenStore
  | .poll fault => loopGetRevokedTokens s fault
  | .stop => if s.poller = .wait then some { s with poller := .stopped } else none
  | .addToken record =>
    if record.id ∈ s.db.tokens.map TokenRecord.id then none
    else some { s with db := { s.db with tokens := s.db.tokens ++ [record] } }
  | .revokedElsewhere tokenId =>
    match updateRevokedTokensList tokenId s.db with
    | .error _ => none
    | .ok (db, _) => some { s with db := db }

def checkTokenRevoked : Bool × Option Text → Option Text
  | (_, some err) => some err
  | (true, none) => some (text "token was revoked")
  | (false, none) => none

theorem checkTokenRevoked_eq_none {answer : Bool × Option Text} :
    checkTokenRevoked answer = none ↔ answer = (false, none) := by
  obtain ⟨_ | _, _ | err⟩ := answer <;> simp [checkTokenRevoked]

structure TokenClaim where
  id : Text
  subject : Text
  accessTypes : List Text
  deriving DecidableEq, Repr

def checkToken (content : Except Text TokenClaim) (answer : Bool × Option Text) (subjectExpect : Text) :
    Except Text (List Text) :=
  match content with
  | .error err => .error err
  | .ok claim =>
    match checkTokenRevoked answer with
    | some err => .error err
    | none =>
      if claim.accessTypes.length = 0 then .error (text "missing access types")
      else if claim.subject ≠ subjectExpect then .error (text "wrong token for " ++ subjectExpect)
      else .ok claim.accessTypes

theorem checkToken_ok {content : Except Text TokenClaim} {answer : Bool × Option Text}
    {subjectExpect : Text} {accessTypes : List Text}
    (h : checkToken content answer subjectExpect = .ok accessTypes) : answer = (false, none) := by
  unfold checkToken at h
  split at h
  · cases h
  · split at h
    · cases h
    · rename_i hnone
      exact checkTokenRevoked_eq_none.mp hnone

end Asapo.Authorizer
