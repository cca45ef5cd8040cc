import Asapo.Broker.Encoding
import Asapo.Common.EncodingJson
import Asapo.Common.Http

namespace Asapo.Broker.Routing

open Http EncodingJson

inductive Key where
  | apiver
  | beamtime
  | datasource
  | stream
  | groupid
  | id
  deriving DecidableEq, Repr

inductive Handler where
  | routeGetNext
  | routeGetSize
  | routeGetStreams
  | routeDeleteStream
  | routeGetLast
  | routeGetGroupedLast
  | routeGetLastAck
  | routeGetNacks
  | routeGetByID
  | routeGetMeta
  | routeCreateGroupID
  | routeQueryMessages
  | routeResetCounter
  | routeMessageOp
  | routeGetHealth
  deriving DecidableEq, Repr

inductive Segment where
  | literal (s : Bytes)
  | param (k : Key)

structure Route where
  method : Method
  pattern : List Segment
  handler : Handler

def ofStream (rest : List Segment) : List Segment :=
  [.param .apiver, .literal (bytes "beamtime"), .param .beamtime, .param .datasource, .param .stream] ++ rest

def listRoutes : List Route :=
  [⟨.get, ofStream [.param .groupid, .literal (bytes "next")], .routeGetNext⟩,
    ⟨.get, ofStream [.literal (bytes "size")], .routeGetSize⟩,
    ⟨.get, ofStream [.literal (bytes "streams")], .routeGetStreams⟩,
    ⟨.post, ofStream [.literal (bytes "delete")], .routeDeleteStream⟩,
    ⟨.get, ofStream [.literal (bytes "0"), .literal (bytes "last")], .routeGetLast⟩,
    ⟨.get, ofStream [.param .groupid, .literal (bytes "groupedlast")], .routeGetGroupedLast⟩,
    ⟨.get, ofStream [.param .groupid, .literal (bytes "lastack")], .routeGetLastAck⟩,
    ⟨.get, ofStream [.param .groupid, .literal (bytes "nacks")], .routeGetNacks⟩,
    ⟨.get, ofStream [.literal (bytes "0"), .param .id], .routeGetByID⟩,
    ⟨.get, ofStream [.literal (bytes "0"), .literal (bytes "meta"), .param .id], .routeGetMeta⟩,
    ⟨.post, [.param .apiver, .literal (bytes "creategroup")], .routeCreateGroupID⟩,
    ⟨.post, ofStream [.literal (bytes "0"), .literal (bytes "querymessages")], .routeQueryMessages⟩,
    ⟨.post, ofStream [.param .groupid, .literal (bytes "resetcounter")], .routeResetCounter⟩,
    ⟨.post, ofStream [.param .groupid, .param .id], .routeMessageOp⟩,
    ⟨.get, [.literal (bytes "health")], .routeGetHealth⟩]

section Router

abbrev slash : UInt8 := '/'.toUInt8

def path (segments : List Bytes) : Bytes := segments.flatMap (slash :: ·)

/-- A segment of escaped bytes that a path keeps when it is cleaned. -/
structure Sent (s : Bytes) : Prop where
  ne_nil : s ≠ []
  ne_dot : s ≠ bytes "."
  ne_dots : s ≠ bytes ".."
  alphabet : ∀ b ∈ s, unreserved b = true ∨ b = PercentEncoding.percent

def values : List Segment → List Bytes → Option (List (Key × Bytes))
  | [], [] => some []
  | .literal s :: pattern, x :: segments => if s = x then values pattern segments else none
  | .param k :: pattern, x :: segments => (values pattern segments).map ((k, x) :: ·)
  | _, _ => none

def firstMatch (method : Method) (segments : List Bytes) : Option (Handler × List (Key × Bytes)) :=
  listRoutes.findSome? (fun r =>
    if r.method = method then (values r.pattern segments).map (fun vars => (r.handler, vars)) else none)

/-- The router that `NewRouter` makes of the routes. The documentation of the library says that
with `UseEncodedPath` the path is compared as it was sent, that the first route answers which
has the method and the path, and that a variable stands for everything up to the next slash. -/
structure Router where
  route : Method → Bytes → Option (Handler × List (Key × Bytes))
  first : ∀ method segments found, (∀ s ∈ segments, Sent s) → firstMatch method segments = some found →
    route method (path segments) = some found

end Router

structure HttpRequest where
  vars : List (Key × Bytes)
  query : List (Bytes × Bytes)
  body : Bytes
  deriving DecidableEq, Repr

namespace HttpRequest

def var (r : HttpRequest) (key : Key) : Option Bytes := (r.vars.find? (fun p => p.1 = key)).map Prod.snd

def value (r : HttpRequest) (key : String) : Bytes := UrlQuery.get r.query (bytes key)

end HttpRequest

structure MessageOp where
  id : ℤ
  op : Text
  params : List (Text × JsonText.Value)
  deriving DecidableEq

/-- The last parameter of a request to the database. That of an operation on a message is what
is read from its text. -/
inductive ExtraParam where
  | plain (s : Bytes)
  | messageOp (op : MessageOp)
  deriving DecidableEq

structure DatabaseRequest where
  names : ByteString.Request
  op : Text
  datasetOp : Bool
  minDatasetSize : ℤ
  extraParam : ExtraParam
  deriving DecidableEq

inductive Answer where
  /-- The router has no route for the request and answers itself. -/
  | notRouted
  | badRequest
  | unsupportedMediaType
  | newGroup
  | health
  /-- The request is authorized with that token, and then performed. -/
  | perform (token : Bytes) (request : DatabaseRequest)
  deriving DecidableEq

section Versions

def parseVersion (ver : Bytes) : Option ℤ :=
  let ver := textOfBytes ver
  let ver := if ver.head? = some 'v' then ver.tail else ver
  match ver.splitOn '.' with
  | [major, minor] => (atoi major).bind (fun maj => (atoi minor).map (fun min => int64 (int64 (maj * 1000) + min)))
  | _ => none

def brokerApiVersion : Bytes := bytes "v0.5"

def precheckApiVersion (r : HttpRequest) : Option Answer :=
  match (r.var .apiver).bind parseVersion with
  | none => some .badRequest
  | some ver => if ver > (parseVersion brokerApiVersion).getD 0 then some .unsupportedMediaType else none

end Versions

section Parameters

def valueTrue (r : HttpRequest) (key : String) : Bool := r.value key = bytes "true"

def valueInt (r : HttpRequest) (key : String) : ℤ := (atoi (textOfBytes (r.value key))).getD 0

def datasetRequested (r : HttpRequest) : Bool × ℤ := (valueTrue r "dataset", valueInt r "minsize")

def readFromMapUnescaped (key : Key) (r : HttpRequest) : Option Bytes := (r.var key).bind PercentEncoding.decode

def extractRequestParameters (r : HttpRequest) (needGroupID : Bool) : Option ByteString.Request := do
  let dbName ← r.var .beamtime
  let datasource ← readFromMapUnescaped .datasource r
  let stream ← readFromMapUnescaped .stream r
  let groupId ← if needGroupID then readFromMapUnescaped .groupid r else some []
  return ⟨dbName, datasource, stream, groupId⟩

def orZero (s : Bytes) : Bytes := if s.length = 0 then bytes "0" else s

def extractResend (r : HttpRequest) : Bytes :=
  if (r.value "resend_nacks").length ≠ 0 then r.value "delay_ms" ++ bytes "_" ++ r.value "resend_attempts" else []

def extractLimits (r : HttpRequest) : Bytes × Bytes := (orZero (r.value "from"), orZero (r.value "to"))

def extractRequestParametersValue (r : HttpRequest) : Bytes := orZero (r.value "value")

def encodeTwoStrings (first second : Bytes) : Bytes := number first.length ++ bytes "/" ++ first ++ second

end Parameters

def processRequest (r : HttpRequest) (op : Text) (extraParam : ExtraParam) (needGroupID : Bool) : Answer :=
  match precheckApiVersion r with
  | some refused => refused
  | none =>
    match extractRequestParameters r needGroupID with
    | none => .badRequest
    | some names =>
      -- the token is missing
      if (r.value "token").length = 0 then .badRequest
      else
        let (yes, minSize) := datasetRequested r
        .perform (r.value "token") ⟨names, op, yes, if yes then minSize else 0, extraParam⟩

section Bodies

variable (floats : Floats)

/-- A member of the object is read into the field of its name. The parameters are a map, and
what is in it already stays there. -/
def MessageOp.read (m : MessageOp) (x : Text × JsonText.Value) : Option MessageOp :=
  if sameName x.1 (text "Id") then (intoInt m.id x.2).map (fun id => { m with id })
  else if sameName x.1 (text "Op") then (intoString m.op x.2).map (fun op => { m with op })
  else if sameName x.1 (text "Params") then
    match x.2 with
    | .null => some { m with params := [] }
    | .object members => (throughMembers floats members).map (fun ms => { m with params := asMap (m.params ++ ms) })
    | _ => none
  else some m

def unmarshalMessageOp (body : Bytes) : Option MessageOp :=
  match JsonText.parse .characters (characters body) with
  | some .null => some ⟨0, [], []⟩
  | some (.object members) => members.foldlM (MessageOp.read floats) ⟨0, [], []⟩
  | _ => none

end Bodies

def routeMessageOp (floats : Floats) (r : HttpRequest) : Answer :=
  match r.var .id with
  | none => .badRequest
  | some idStr =>
    match atoi (textOfBytes idStr) with
    | none => .badRequest
    | some id =>
      match unmarshalMessageOp floats r.body with
      | none => .badRequest
      | some op => processRequest r op.op (.messageOp { op with id }) true

def handle (floats : Floats) (r : HttpRequest) : Handler → Answer
  | .routeGetNext => processRequest r (text "next") (.plain (extractResend r)) true
  | .routeGetSize => processRequest r (text "size") (.plain (r.value "incomplete")) false
  | .routeGetStreams =>
    processRequest r (text "streams") (.plain (encodeTwoStrings (r.value "from") (r.value "filter"))) false
  | .routeDeleteStream => processRequest r (text "delete_stream") (.plain r.body) false
  | .routeGetLast => processRequest r (text "last") (.plain (bytes "0")) false
  | .routeGetGroupedLast => processRequest r (text "groupedlast") (.plain []) true
  | .routeGetLastAck => processRequest r (text "lastack") (.plain []) true
  | .routeGetNacks =>
    processRequest r (text "nacks") (.plain ((extractLimits r).1 ++ bytes "_" ++ (extractLimits r).2)) true
  | .routeGetByID =>
    match r.var .id with
    | none => .badRequest
    | some id => processRequest r (text "id") (.plain id) false
  | .routeGetMeta =>
    match r.var .id with
    | none => .badRequest
    | some id => processRequest r (text "meta") (.plain id) false
  | .routeCreateGroupID => (precheckApiVersion r).getD .newGroup
  | .routeQueryMessages => processRequest r (text "querymessages") (.plain r.body) false
  | .routeResetCounter => processRequest r (text "resetcounter") (.plain (extractRequestParametersValue r)) true
  | .routeMessageOp => routeMessageOp floats r
  | .routeGetHealth => .health

def serveHTTP (router : Router) (floats : Floats) (m : Message) : Answer :=
  let path := m.target.takeWhile (· ≠ '?'.toUInt8)
  let query := (m.target.dropWhile (· ≠ '?'.toUInt8)).tail
  match router.route m.method path with
  | some (handler, vars) => handle floats ⟨vars, UrlQuery.parseQuery query, m.body⟩ handler
  | none => .notRouted

inductive Operation where
  | getNextRecord (resend : Option (ℤ × ℤ))
  | getRecordByID (id : ℤ)
  | getLastRecord
  | getLastRecordInGroup
  | resetCounter (value : ℤ)
  | getSize (incomplete : Option Bool)
  | getMeta (ofStream : Bool)
  | queryMessages (query : Bytes)
  | getStreams (first status : Text)
  | ackRecord (id : ℤ)
  | negAckRecord (id delayMs : ℤ)
  | nacks (first last : ℤ)
  | lastAck
  | deleteStream (options : DeleteStreamOptions)
  deriving DecidableEq, Repr

def readDelay (params : List (Text × JsonText.Value)) : Option ℤ :=
  params.foldlM (fun delay x => if sameName x.1 (text "DelayMs") then intoInt delay x.2 else some delay) 0

def readOptions (body : Bytes) : Option DeleteStreamOptions :=
  match JsonText.parse .characters (characters body) with
  | some (.object members) =>
    (members.foldlM (fun (o : Option Bool × Option Bool) x =>
      if sameName x.1 (text "ErrorOnNotExist") then (intoBool x.2).map (·, o.2)
      else if sameName x.1 (text "DeleteMeta") then (intoBool x.2).map (o.1, ·)
      else some o) (none, none)).bind (fun o =>
        o.1.bind (fun errorOnNotExist => o.2.map (fun deleteMeta => ⟨deleteMeta, errorOnNotExist⟩)))
  | _ => none

def sizeFilter (s : Bytes) : Option Bool :=
  if s = bytes "false" then some false else if s = bytes "true" then some true else none

def metaType (s : Bytes) : Option Bool :=
  if s = bytes "0" then some false else if s = bytes "1" then some true else none

/-- The operation with a plain parameter that `ProcessRequest` calls, if it does not refuse
the parameter. -/
def plainOperation (op : Text) (s : Bytes) : Option Operation :=
  if op = text "next" then
    if s = [] then some (.getNextRecord none)
    else (extractsTwoIntsFromString (textOfBytes s)).map (fun p => .getNextRecord (some p))
  else if op = text "id" then (atoi (textOfBytes s)).map .getRecordByID
  else if op = text "last" then some .getLastRecord
  else if op = text "groupedlast" then some .getLastRecordInGroup
  else if op = text "resetcounter" then (atoi (textOfBytes s)).map .resetCounter
  else if op = text "size" then some (.getSize (sizeFilter s))
  else if op = text "meta" then (metaType s).map .getMeta
  else if op = text "querymessages" then some (.queryMessages s)
  else if op = text "streams" then
    match StreamFilter.getStreamsParamsFromRequest (textOfBytes s) with
    | some (.ok (first, status)) => some (.getStreams first status)
    | _ => none
  else if op = text "nacks" then (extractsTwoIntsFromString (textOfBytes s)).map (fun p => .nacks p.1 p.2)
  else if op = text "lastack" then some .lastAck
  else if op = text "delete_stream" then (readOptions s).map .deleteStream
  else none

def messageOperation (op : MessageOp) : Option Operation :=
  if op.op = text "ackmessage" then some (.ackRecord op.id)
  else if op.op = text "negackmessage" then (readDelay op.params).map (.negAckRecord op.id)
  -- these do not read their parameter
  else if op.op = text "last" then some .getLastRecord
  else if op.op = text "groupedlast" then some .getLastRecordInGroup
  else if op.op = text "size" then some (.getSize none)
  else if op.op = text "lastack" then some .lastAck
  else none

def DatabaseRequest.operation (r : DatabaseRequest) : Option Operation :=
  match r.extraParam with
  | .plain s => plainOperation r.op s
  | .messageOp op => messageOperation op

end Asapo.Broker.Routing
