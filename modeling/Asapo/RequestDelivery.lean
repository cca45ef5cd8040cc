import Asapo.Common.RecordJson
import Asapo.RequestRouting

namespace Asapo.RequestDelivery

open Http EncodingJson Consumer.BrokerRequests Broker.Routing RequestRouting

variable {curl : Escape} {router : Router} {floats : Floats}

section Calls

def stream : Call → Bytes
  | .getNext _ stream _ => stream
  | .getLastInGroup _ stream _ => stream
  | .getLast stream _ => stream
  | .getById _ stream _ => stream
  | .setLastReadMarker _ _ stream => stream
  | .getCurrentSize stream => stream
  | .getCurrentDatasetCount stream _ => stream
  | .getBeamtimeMeta => bytes "default"
  | .getStreamMeta stream => stream
  | .queryMessages _ stream => stream
  | .getStreamList _ _ => bytes "0"
  | .acknowledge _ _ stream => stream
  | .negativeAcknowledge _ _ _ stream => stream
  | .getUnacknowledgedMessages _ _ _ stream => stream
  | .getLastAcknowledgedMessage _ stream => stream
  | .deleteStream stream _ => stream

def dataset : Call → Option ℕ
  | .getNext _ _ dataset => dataset
  | .getLastInGroup _ _ dataset => dataset
  | .getLast _ dataset => dataset
  | .getById _ _ dataset => dataset
  | _ => none

def numbers (c : Settings) : Call → List ℕ
  | .getNext _ _ dataset => dataset.toList ++ (if c.resend then [c.delayMs, c.resendAttempts] else [])
  | .getLastInGroup _ _ dataset => dataset.toList
  | .getLast _ dataset => dataset.toList
  | .getById id _ dataset => id :: dataset.toList
  | .setLastReadMarker _ value _ => [value]
  | .getStreamList first _ => [first.length]
  | .acknowledge _ id _ => [id]
  | .negativeAcknowledge _ id _ _ => [id]
  | .getUnacknowledgedMessages _ fromId toId _ => [fromId, toId]
  | _ => []

def operation (c : Settings) : Call → Operation
  | .getNext _ _ _ => .getNextRecord (if c.resend then some (c.delayMs, c.resendAttempts) else none)
  | .getLastInGroup _ _ _ => .getLastRecordInGroup
  | .getLast _ _ => .getLastRecord
  | .getById id _ _ => .getRecordByID id
  | .setLastReadMarker _ value _ => .resetCounter value
  | .getCurrentSize _ => .getSize none
  | .getCurrentDatasetCount _ includeIncomplete => .getSize (some includeIncomplete)
  | .getBeamtimeMeta => .getMeta false
  | .getStreamMeta _ => .getMeta true
  | .queryMessages query _ => .queryMessages query
  | .getStreamList first filter => .getStreams (textOfBytes first) (textOfBytes (filterToString filter))
  | .acknowledge _ id _ => .ackRecord id
  | .negativeAcknowledge _ id delayMs _ => .negAckRecord id delayMs
  | .getUnacknowledgedMessages _ fromId toId _ => .nacks fromId toId
  | .getLastAcknowledgedMessage _ _ => .lastAck
  | .deleteStream _ options => .deleteStream options

/-- The broker performs the operation on the stream and for the group. -/
def Reaches (router : Router) (floats : Floats) (c : Settings) (ri : RequestInfo) (stream group : Bytes)
    (dataset : Option ℕ) (o : Operation) : Prop :=
  ∃ r : DatabaseRequest, serveHTTP router floats (ri.message c) = .perform c.userToken r ∧
    r.names = ⟨c.beamtimeId, c.dataSource, stream, group⟩ ∧
    (r.datasetOp, r.minDatasetSize) = requested dataset ∧ r.operation = some o

end Calls

section Parameters

variable {m n : ℕ} {xs : List (Bytes × Bytes)}

end Parameters

section Served

variable {c : Settings} {stream group query first y : Bytes} {rest : List Bytes} {extra : List (Key × Bytes)}
  {xs : List (Bytes × Bytes)} {body : Bytes} {post : Bool} {handler : Handler} {dataset : Option ℕ} {o : Operation}
  {op : Text} {param : ExtraParam}

abbrev info (curl : Escape) (c : Settings) (stream : Bytes) (rest : List Bytes) (xs : List (Bytes × Bytes))
    (post : Bool) (body : Bytes) : RequestInfo :=
  ⟨path (segments curl c stream rest), params curl xs, post, body⟩

end Served

section Bodies

open JsonText RecordJson

end Bodies

section Reached

variable {c : Settings} {stream group query first : Bytes} {dataset : Option ℕ} {n fromId toId delayMs : ℕ}

def kind (ofStream : Bool) : Bytes := if ofStream then bytes "1" else bytes "0"

end Reached

section Libraries

open PercentEncoding

end Libraries

def sample : Settings := ⟨bytes "11001", bytes "pilatus 1", bytes "a.b.c", true, 500, 3⟩

end Asapo.RequestDelivery
