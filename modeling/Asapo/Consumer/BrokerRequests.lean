import Asapo.Common.Http
import Asapo.Consumer.ServiceRequests

namespace Asapo.Consumer.BrokerRequests

open Http ConsumerErrorTemplates

variable (curl : Escape)

structure Settings where
  beamtimeId : Bytes
  dataSource : Bytes
  userToken : Bytes
  resend : Bool
  delayMs : ℕ
  resendAttempts : ℕ
  deriving DecidableEq, Repr

structure RequestInfo where
  api : Bytes
  extraParams : Bytes
  post : Bool
  body : Bytes
  deriving DecidableEq, Repr

inductive GetMessageServerOperation where
  | getNext
  | getLast
  | getLastInGroup
  deriving DecidableEq, Repr

inductive StreamFilter where
  | allStreams
  | finishedStreams
  | unfinishedStreams
  deriving DecidableEq, Repr

def opToUriCmd : GetMessageServerOperation → Bytes
  | .getNext => bytes "next"
  | .getLastInGroup => bytes "groupedlast"
  | .getLast => bytes "last"

def filterToString : StreamFilter → Bytes
  | .allStreams => bytes "all"
  | .finishedStreams => bytes "finished"
  | .unfinishedStreams => bytes "unfinished"

def brokerVersion : Bytes := bytes "v0.5"

def brokerApiUri (c : Settings) (stream group suffix : Bytes) : Bytes :=
  let streamEncoded := curl.escape stream
  let groupEncoded := if group.length > 0 then curl.escape group else []
  let uri := bytes "/" ++ brokerVersion ++ bytes "/beamtime/" ++ c.beamtimeId ++ bytes "/" ++
    curl.escape c.dataSource ++ bytes "/" ++ streamEncoded
  let uri := if groupEncoded.length > 0 then uri ++ bytes "/" ++ groupEncoded else uri
  if suffix.length > 0 then uri ++ bytes "/" ++ suffix else uri

def datasetParams : Option ℕ → Bytes
  | none => []
  | some minSize => bytes "&dataset=true" ++ (bytes "&minsize=" ++ number minSize)

def emptyStream : Error := wrongInput.generate "empty stream"

def getRecordFromServer (c : Settings) (groupId stream : Bytes) (op : GetMessageServerOperation)
    (dataset : Option ℕ) : Except Error RequestInfo :=
  if stream = [] then .error emptyStream
  else
    let resend := if op = .getNext ∧ c.resend = true then
      bytes "&resend_nacks=true" ++ (bytes "&delay_ms=" ++ number c.delayMs ++
        (bytes "&resend_attempts=" ++ number c.resendAttempts)) else []
    .ok ⟨brokerApiUri curl c stream [] [] ++ bytes "/" ++ curl.escape groupId ++ bytes "/" ++ opToUriCmd op,
      datasetParams dataset ++ resend, false, []⟩

def getRecordFromServerById (c : Settings) (id : ℕ) (groupId stream : Bytes) (dataset : Option ℕ) :
    Except Error RequestInfo :=
  if stream = [] then .error emptyStream
  else .ok ⟨brokerApiUri curl c stream groupId (number id), datasetParams dataset, false, []⟩

/-- A call of the consumer. Those for messages and for datasets differ in the size only. -/
inductive Call where
  | getNext (groupId stream : Bytes) (dataset : Option ℕ)
  | getLastInGroup (groupId stream : Bytes) (dataset : Option ℕ)
  | getLast (stream : Bytes) (dataset : Option ℕ)
  | getById (id : ℕ) (stream : Bytes) (dataset : Option ℕ)
  | setLastReadMarker (groupId : Bytes) (value : ℕ) (stream : Bytes)
  | getCurrentSize (stream : Bytes)
  | getCurrentDatasetCount (stream : Bytes) (includeIncomplete : Bool)
  | getBeamtimeMeta
  | getStreamMeta (stream : Bytes)
  | queryMessages (query stream : Bytes)
  | getStreamList (first : Bytes) (filter : StreamFilter)
  | acknowledge (groupId : Bytes) (id : ℕ) (stream : Bytes)
  | negativeAcknowledge (groupId : Bytes) (id delayMs : ℕ) (stream : Bytes)
  | getUnacknowledgedMessages (groupId : Bytes) (fromId toId : ℕ) (stream : Bytes)
  | getLastAcknowledgedMessage (groupId stream : Bytes)
  | deleteStream (stream : Bytes) (options : DeleteStreamOptions)
  deriving DecidableEq, Repr

def boolean (b : Bool) : Bytes := if b then bytes "true" else bytes "false"

def optionsJson (o : DeleteStreamOptions) : Bytes :=
  bytes "\x7b\"ErrorOnNotExist\":" ++ boolean o.errorOnNotExist ++ bytes ",\"DeleteMeta\":" ++
    boolean o.deleteMeta ++ bytes "\x7d"

def request (c : Settings) : Call → Except Error RequestInfo
  | .getNext groupId stream dataset => getRecordFromServer curl c groupId stream .getNext dataset
  | .getLastInGroup groupId stream dataset => getRecordFromServer curl c groupId stream .getLastInGroup dataset
  | .getLast stream dataset => getRecordFromServer curl c (bytes "0") stream .getLast dataset
  | .getById id stream dataset =>
    if id = 0 then .error (wrongInput.generate "id should be positive")
    else getRecordFromServerById curl c id (bytes "0") stream dataset
  | .setLastReadMarker groupId value stream =>
    .ok ⟨brokerApiUri curl c stream groupId (bytes "resetcounter"), bytes "&value=" ++ number value, true, []⟩
  | .getCurrentSize stream => .ok ⟨brokerApiUri curl c stream [] (bytes "size"), [], false, []⟩
  | .getCurrentDatasetCount stream includeIncomplete =>
    .ok ⟨brokerApiUri curl c stream [] (bytes "size"), bytes "&incomplete=" ++ boolean includeIncomplete, false, []⟩
  | .getBeamtimeMeta => .ok ⟨brokerApiUri curl c (bytes "default") (bytes "0") (bytes "meta/0"), [], false, []⟩
  | .getStreamMeta stream => .ok ⟨brokerApiUri curl c stream (bytes "0") (bytes "meta/1"), [], false, []⟩
  | .queryMessages query stream =>
    if stream = [] then .error emptyStream
    else .ok ⟨brokerApiUri curl c stream (bytes "0") (bytes "querymessages"), [], true, query⟩
  | .getStreamList first filter =>
    .ok ⟨brokerApiUri curl c (bytes "0") [] (bytes "streams"),
      (if first = [] then [] else bytes "&from=" ++ curl.escape first) ++ (bytes "&filter=" ++ filterToString filter),
      false, []⟩
  | .acknowledge groupId id stream =>
    if stream = [] then .error emptyStream
    else .ok ⟨brokerApiUri curl c stream groupId (number id), [], true, bytes "\x7b\"Op\":\"ackmessage\"\x7d"⟩
  | .negativeAcknowledge groupId id delayMs stream =>
    if stream = [] then .error emptyStream
    else .ok ⟨brokerApiUri curl c stream groupId (number id), [], true,
      bytes "\x7b\"Op\":\"negackmessage\",\"Params\":\x7b\"DelayMs\":" ++ number delayMs ++ bytes "\x7d\x7d"⟩
  | .getUnacknowledgedMessages groupId fromId toId stream =>
    if stream = [] then .error emptyStream
    else .ok ⟨brokerApiUri curl c stream groupId (bytes "nacks"),
      bytes "&from=" ++ number fromId ++ (bytes "&to=" ++ number toId), false, []⟩
  | .getLastAcknowledgedMessage groupId stream =>
    if stream = [] then .error emptyStream
    else .ok ⟨brokerApiUri curl c stream groupId (bytes "lastack"), [], false, []⟩
  | .deleteStream stream options =>
    .ok ⟨brokerApiUri curl c stream [] (bytes "delete"), [], true, optionsJson options⟩

/-- The token is put behind the path, and the parameters of the request behind it. -/
def RequestInfo.message (c : Settings) (ri : RequestInfo) : Message :=
  ⟨if ri.post then .post else .get, ri.api ++ bytes "?token=" ++ c.userToken ++ ri.extraParams, ri.body⟩

end Asapo.Consumer.BrokerRequests
