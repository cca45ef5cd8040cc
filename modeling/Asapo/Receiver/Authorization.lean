import Asapo.Receiver.HandlerFrames
import Asapo.Transition

namespace Asapo.Receiver

inductive HttpCode where
  | ok
  | unauthorized
  | other (code : ℕ)
  deriving DecidableEq, Repr

/-- What the JSON parser finds in the text of an answer under a name. The text may be
malformed, and then every search fails. -/
structure JsonStringParser where
  getString : String → Except Error Text
  getArrayString : String → Except Error (List Text)

/-- `AuthorizationData` with the fields that stay in the receiver: the time of the last
answer, in nanoseconds, and the credentials of the producer. -/
structure AuthorizationCache extends AuthorizationData where
  lastUpdate : ℕ
  sourceCredentials : Text
  deriving DecidableEq, Repr

def AuthorizationCache.empty : AuthorizationCache := ⟨⟨[], [], [], [], [], .processed⟩, 0, []⟩

inductive Event where
  /-- The time was compared with that of the last answer. -/
  | checked (time : ℕ)
  /-- An answer of the server was accepted at that time. -/
  | confirmed (time : ℕ) (answer : JsonStringParser)
  /-- An authorization handler has returned an error. -/
  | failed
  /-- The handlers after the authorization get the request. -/
  | admitted (request : Request)

/-- What the authorization handlers of one connection share. Nothing in the receiver
reads the history. -/
structure Session (σ : Type) where
  cache : AuthorizationCache
  clock : ℕ
  history : List Event
  outside : σ

/-- The world as the authorization handlers see it: the answers of the server, and the
time that has passed since the clock was read last. -/
structure AuthorizationServer (σ : Type) where
  post : Text → σ → Except Error (HttpCode × JsonStringParser) × σ
  elapsed : σ → ℕ × σ

variable {σ : Type}

namespace Session

def note (s : Session σ) (e : Event) : Session σ := { s with history := s.history ++ [e] }

def call {α : Type} (s : Session σ) (op : σ → α × σ) : α × Session σ :=
  ((op s.outside).1, { s with outside := (op s.outside).2 })

/-- `system_clock::now`, on a clock that does not go back. -/
def now (server : AuthorizationServer σ) (s : Session σ) : ℕ × Session σ :=
  match s.call server.elapsed with
  | (d, s) => (s.clock + d, { s with clock := s.clock + d })

end Session

namespace AuthorizationClient

def getRequestString (originUri sourceCredentials : Text) : Text :=
  text "\x7b\"SourceCredentials\":\"" ++ sourceCredentials ++ text "\",\"OriginHost\":\"" ++ originUri ++
    text "\"\x7d"

def errorFromCause (err : Error) : Error :=
  (ReceiverErrorTemplates.internalServerError.generate "cannot authorize request").setCause err

def errorFromCode (code : HttpCode) : Error :=
  if code ≠ .unauthorized then ReceiverErrorTemplates.internalServerError.generate ""
  else ReceiverErrorTemplates.authorizationFailure.generate ""

def requiredAccess : SourceType → Text
  | .processed => text "write"
  | .raw => text "writeraw"

def checkAccessType (sourceType : SourceType) (accessTypes : List Text) : Option Error :=
  if accessTypes.contains (requiredAccess sourceType) then none
  else some (ReceiverErrorTemplates.authorizationFailure.generate "wrong access types")

def getSourceTypeFromString (stype : Text) : Except Error SourceType :=
  if stype = text "raw" then .ok .raw
  else if stype = text "processed" then .ok .processed
  else .error (GeneralErrorTemplates.simpleError.generate
    ("cannot parse/wrong source type: " ++ String.ofList stype))

/-- `ParseServerResponse`. The fields are set one after the other, up to the first error. -/
def parseServerResponse (response : JsonStringParser) :
    ExceptT Error (StateM AuthorizationCache) (List Text) := do
  let beamtimeId ← response.getString "beamtimeId"
  modify ({ · with beamtimeId := beamtimeId })
  let dataSource ← response.getString "dataSource"
  modify ({ · with dataSource := dataSource })
  let offlinePath ← response.getString "corePath"
  modify ({ · with offlinePath := offlinePath })
  let onlinePath ← response.getString "beamline-path"
  modify ({ · with onlinePath := onlinePath })
  let stype ← response.getString "source-type"
  let accessTypes ← response.getArrayString "access-types"
  let sourceType ← getSourceTypeFromString stype
  modify ({ · with sourceType := sourceType })
  let beamline ← response.getString "beamline"
  modify ({ · with beamline := beamline })
  return accessTypes

variable (server : AuthorizationServer σ)

def doServerRequest (request : Text) (s : Session σ) : Except Error JsonStringParser × Session σ :=
  match s.call (server.post request) with
  | (.error err, s) => (.error (errorFromCause err), s)
  | (.ok (code, response), s) =>
    if code ≠ .ok then (.error (errorFromCode code), s) else (.ok response, s)

def updateDataFromServerResponse (response : JsonStringParser) (s : Session σ) :
    Option Error × Session σ :=
  let oldData := s.cache
  match (parseServerResponse response).run s.cache with
  -- the fields that were set before the error are taken back
  | (.error err, _) => (some (errorFromCause err), { s with cache := oldData })
  | (.ok accessTypes, data) =>
    match checkAccessType data.sourceType accessTypes with
    | some err => (some err, { s with cache := oldData })
    | none =>
      match s.now server with
      | (time, s) =>
        (none, { s with cache := { data with lastUpdate := time } }.note (.confirmed time response))

def authorize (originUri : Text) (s : Session σ) : Option Error × Session σ :=
  match doServerRequest server (getRequestString originUri s.cache.sourceCredentials) s with
  | (.error err, s) => (some err, s)
  | (.ok response, s) => updateDataFromServerResponse server response s

end AuthorizationClient

def receiverApiVersion : Text := text "v0.5"

def RequestHandlerAuthorize.checkVersion (r : Request) : Option Error :=
  if versionToNumber r.header.apiVersion > versionToNumber receiverApiVersion then
    some (ReceiverErrorTemplates.unsupportedClient.generate "")
  else none

open RequestHandlerAuthorize AuthorizationClient

section Handlers

variable (server : AuthorizationServer σ) (originUri : Text) (intervalMs : ℕ)

def RequestHandlerInitialAuthorization.processRequest (r : Request) (s : Session σ) :
    Option Error × Session σ :=
  match checkVersion r with
  | some err => (some err, s)
  | none =>
    if s.cache.sourceCredentials ≠ [] then
      (some (ReceiverErrorTemplates.authorizationFailure.generate "already authorized"), s)
    else authorize server originUri { s with cache := { s.cache with sourceCredentials := r.metadata } }

namespace RequestHandlerSecondaryAuthorization

def checkRequest (r : Request) (s : Session σ) : Option Error :=
  match checkVersion r with
  | some err => some err
  | none =>
    if s.cache.sourceCredentials = [] then
      some (ReceiverErrorTemplates.authorizationFailure.generate "not authorized")
    else none

def needReauthorize (s : Session σ) : Bool × Session σ :=
  match s.now server with
  | (time, s) => (decide (intervalMs ≤ (time - s.cache.lastUpdate) / 1000000), s.note (.checked time))

def invalidateAuthCache (s : Session σ) : Session σ :=
  { s with cache := { s.cache with sourceCredentials := [] } }

def processReAuthorization (s : Session σ) : Option Error × Session σ :=
  let oldBeamtimeId := s.cache.beamtimeId
  match authorize server originUri s with
  | (err, s) =>
    if ReceiverErrorTemplates.authorizationFailure.equals err ||
        (err.isNone && oldBeamtimeId ≠ s.cache.beamtimeId) then
      (some (ReceiverErrorTemplates.reAuthorizationFailure.generate ""), invalidateAuthCache s)
    else (err, s)

def reauthorizeIfNeeded (s : Session σ) : Option Error × Session σ :=
  match needReauthorize server intervalMs s with
  | (false, s) => (none, s)
  | (true, s) => processReAuthorization server originUri s

def authorized (r : Request) (s : Session σ) : Except Error AuthorizationData × Session σ :=
  match checkRequest r s with
  | some err => (.error err, s)
  | none =>
    match reauthorizeIfNeeded server originUri intervalMs s with
    | (some err, s) => (.error err, s)
    | (none, s) => (.ok s.cache.toAuthorizationData, s)

end RequestHandlerSecondaryAuthorization

/-- The operations of a connection: the authorization handlers are those of the source,
and everything else happens outside of the session. -/
def sessionBackend (b : Backend σ) : Backend (Session σ) where
  receiveFault n s := s.call (b.receiveFault n)
  send response s := s.call (b.send response)
  initialAuthorize r s :=
    match RequestHandlerInitialAuthorization.processRequest server originUri r s with
    | (some err, s) => (some err, s.note .failed)
    | (none, s) => (none, s)
  secondaryAuthorize r s :=
    match RequestHandlerSecondaryAuthorization.authorized server originUri intervalMs r s with
    | (.error err, s) => (.error err, s.note .failed)
    | (.ok data, s) => (.ok data, s.note (.admitted { r with authorization := data }))
  prepareDataBuffer n s := s.call (b.prepareDataBuffer n)
  unlockDataBuffer n s := { s with outside := b.unlockDataBuffer n s.outside }
  openFile root fname overwrite s := s.call (b.openFile root fname overwrite)
  allocateArray n s := s.call (b.allocateArray n)
  writeFile bytes s := s.call (b.writeFile bytes)
  closeFile s := s.call b.closeFile
  connectToDb r s := s.call (b.connectToDb r)
  getRecordFromDb r s := s.call (b.getRecordFromDb r)
  insertRecordToDb r s := s.call (b.insertRecordToDb r)
  insertMeta r s := s.call (b.insertMeta r)
  getStreamInfo r s := s.call (b.getStreamInfo r)
  getLastStream s := s.call b.getLastStream
  getMetaFromDb r s := s.call (b.getMetaFromDb r)
  deleteStream stream s := s.call (b.deleteStream stream)

structure Connection (σ : Type) where
  closed : Bool
  input : Bytes
  session : Session σ

namespace Connection

def accepted (input : Bytes) (clock : ℕ) (w : σ) : Connection σ :=
  ⟨false, input, ⟨.empty, clock, [], w⟩⟩

/-- The next round of `Listen`. After an error the loop is left, and nothing is read any
more. A request whose file takes more rounds than given has no outcome. -/
def listen (b : Backend σ) (thresholdMb : ℕ) (c : Connection σ) (rounds : ℕ) : Option (Connection σ) :=
  if c.closed then some c
  else
    (listenOnce (sessionBackend server originUri intervalMs b) thresholdMb rounds c.input c.session).map
      (fun (err, input, session) => ⟨err.isSome, input, session⟩)

end Connection

end Handlers

end Asapo.Receiver
