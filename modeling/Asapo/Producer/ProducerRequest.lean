import Asapo.Common.DataStructs
import Asapo.Common.Error
import Asapo.Common.RequestHeader
import Asapo.Memory

namespace Asapo.Producer

/-- A request in the queue of the producer. The data is the memory behind the pointer, the
file is the content of the file that the path names. -/
structure ProducerRequest where
  header : GenericRequestHeader
  data : Option (ℕ → UInt8)
  metadata : Bytes
  file : Option Bytes

namespace ProducerRequest

def needSend (r : ProducerRequest) : Bool :=
  if r.header.opCode = .transferData ∨ r.header.opCode = .transferDatasetData then
    hasFlag r.header.ingestMode IngestModeFlags.transferData
  else true

def needSendMetaData (r : ProducerRequest) : Bool := r.header.metaSize > 0

def dataFromFile (r : ProducerRequest) : Bool := r.data.isNone && r.file.isSome && r.needSend

def updateDataSizeFromFileIfNeeded (r : ProducerRequest) : ProducerRequest :=
  if r.dataFromFile ∧ r.header.dataSize = 0 then
    { r with header := { r.header with dataSize := (r.file.getD []).length } }
  else r

end ProducerRequest

/-- The loop of `SystemIO::SendFile`. Each round sends a whole buffer as far as the file
goes; behind the end of the file the rounds send nothing and go on. -/
def sendFileLoop (bufSize length : ℕ) : ℕ → ℕ → Bytes → Option Bytes
  | rounds, totalBytesSent, file =>
    if totalBytesSent < length then
      match rounds with
      | 0 => none
      | rounds + 1 =>
        (sendFileLoop bufSize length rounds (totalBytesSent + (file.take bufSize).length)
          (file.drop bufSize)).map (fun rest => file.take bufSize ++ rest)
    else some []

def sendFile (rounds : ℕ) (file : Bytes) (length : ℕ) : Option Bytes :=
  sendFileLoop (min length kReadWriteBufSize) length rounds 0 file

namespace RequestHandlerTcp

def sentData (rounds : ℕ) (r : ProducerRequest) : Option Bytes :=
  if r.needSend then
    if r.dataFromFile then sendFile rounds (r.file.getD []) r.header.dataSize
    else some (Memory.slice (r.data.getD (fun _ => 0)) 0 r.header.dataSize)
  else some []

def sentMetaData (r : ProducerRequest) : Bytes :=
  if r.needSendMetaData then r.metadata.take r.header.metaSize else []

/-- The bytes of `SendRequestContent`, or nothing if it does not come to an end. -/
def sendRequestContent (rounds : ℕ) (r : ProducerRequest) : Option Bytes :=
  (sentData rounds r).map (fun data => r.header.toBytes ++ sentMetaData r ++ data)

end RequestHandlerTcp

structure MessageHeader where
  messageId : ℕ
  dataSize : ℕ
  fileName : Text
  userMetadata : Bytes
  datasetSubstream : ℕ
  datasetSize : ℕ
  autoId : Bool
  deriving DecidableEq, Repr

namespace ProducerImpl

def wrongInput (message : String) : Option Error := some (ProducerErrorTemplates.wrongInput.generate message)

def checkIngestMode (ingestMode : ℕ) : Option Error :=
  let transferData := hasFlag ingestMode IngestModeFlags.transferData
  let transferMetaDataOnly := hasFlag ingestMode IngestModeFlags.transferMetaDataOnly
  let storeInFilesystem := hasFlag ingestMode IngestModeFlags.storeInFilesystem
  let store := hasFlag ingestMode (IngestModeFlags.storeInDatabase ||| IngestModeFlags.storeInFilesystem)
  if transferData && transferMetaDataOnly then wrongInput "wrong ingest mode"
  else if !transferData && !transferMetaDataOnly then wrongInput "wrong ingest mode"
  else if transferData && !store then wrongInput "wrong ingest mode"
  else if transferMetaDataOnly && storeInFilesystem then wrongInput "wrong ingest mode"
  else none

def checkFileNameInRequest (m : MessageHeader) : Option Error :=
  if m.fileName.length > kMaxMessageSize then wrongInput "too long filename"
  else if m.fileName = [] then wrongInput "empty filename"
  else none

def checkDatasetInRequest (m : MessageHeader) : Option Error :=
  if m.datasetSubstream = 0 then none
  else if m.datasetSize = 0 then wrongInput "dataset dimensions"
  else if m.autoId then wrongInput "auto id mode not implemented for datasets"
  else none

def checkMessageIdInRequest (m : MessageHeader) : Option Error :=
  if m.autoId then
    if m.messageId ≠ 0 then wrongInput "message id should be 0 for auto id mode" else none
  else if m.messageId = 0 then wrongInput "message id should be positive"
  else none

def checkProducerRequest (m : MessageHeader) (ingestMode : ℕ) (stream : Text) : Option Error :=
  if stream = [] then wrongInput "stream empty"
  else ((checkFileNameInRequest m).or (checkDatasetInRequest m)).or
    ((checkMessageIdInRequest m).or (checkIngestMode ingestMode))

def receiverVersion : Text := text "v0.5"

/-- The numbers in `custom_data` that are not set keep what was in the memory. -/
def header (opCode : Opcode) (dataId dataSize metaSize : ℕ) (custom : Fin 3 → ℕ) (message stream : Text) :
    GenericRequestHeader :=
  ⟨opCode, dataId, dataSize, metaSize, custom, message.take kMaxMessageSize, stream.take kMaxMessageSize,
    receiverVersion⟩

def generateNextSendRequest (m : MessageHeader) (stream : Text) (ingestMode : ℕ) (unset : Fin 3 → ℕ) :
    GenericRequestHeader :=
  if m.datasetSubstream ≠ 0 then
    header .transferDatasetData m.messageId m.dataSize m.userMetadata.length
      ![ingestMode, m.datasetSubstream, m.datasetSize] m.fileName stream
  else
    header .transferData m.messageId m.dataSize m.userMetadata.length
      ![ingestMode, unset kPosDataSetId, unset kPosDataSetSize] m.fileName stream

def checkData (ingestMode : ℕ) (m : MessageHeader) (data : Option (ℕ → UInt8)) : Option Error :=
  if hasFlag ingestMode IngestModeFlags.transferData then
    if data.isNone then wrongInput "need data for this ingest mode"
    else if m.dataSize = 0 then wrongInput "zero data size"
    else none
  else none

def sendMessage (m : MessageHeader) (stream : Text) (data : Option (ℕ → UInt8)) (file : Option Bytes)
    (ingestMode : ℕ) (unset : Fin 3 → ℕ) : Except Error ProducerRequest :=
  match checkProducerRequest m ingestMode stream with
  | some err => .error err
  | none => .ok ⟨generateNextSendRequest m stream ingestMode unset, data, m.userMetadata, file⟩

end ProducerImpl

/-- The calls of the producer that send something to a receiver, and the authorization at
the start of a connection. -/
inductive Call where
  | send (m : MessageHeader) (data : Option (ℕ → UInt8)) (ingestMode : ℕ) (stream : Text)
  | sendFile (m : MessageHeader) (file : Bytes) (ingestMode : ℕ) (stream : Text)
  | sendStreamFinishedFlag (stream : Text) (lastId : ℕ) (nextStream : Text)
  | sendMeta (metadata : Bytes) (mode : ℕ) (stream : Text)
  | getStreamInfo (stream : Text)
  | getLastStream
  | deleteStream (stream : Text) (options : ℕ)
  | getMeta (stream : Text)
  | authorize (sourceCredentials : Bytes)

namespace Call

open ProducerImpl

def request (unset : Fin 3 → ℕ) : Call → Except Error ProducerRequest
  | .send m data ingestMode stream =>
    match checkData ingestMode m data with
    | some err => .error err
    | none => sendMessage m stream data none ingestMode unset
  | .sendFile m file ingestMode stream => sendMessage m stream none (some file) ingestMode unset
  | .sendStreamFinishedFlag stream lastId nextStream =>
    let next := if nextStream = [] then text "asapo_no_next" else nextStream
    let metadata := text "\x7b\"next_stream\":\"" ++ next ++ text "\"\x7d"
    sendMessage ⟨(lastId + 1) % 2 ^ 64, 0, text "asapo_finish_stream", bytesOfText metadata, 0, 0, false⟩
      stream none none IngestModeFlags.transferMetaDataOnly unset
  | .sendMeta metadata mode stream =>
    .ok ⟨header .transferMetaData 0 metadata.length 0
      ![IngestModeFlags.transferData ||| IngestModeFlags.storeInDatabase, mode, unset kPosDataSetSize]
      (if stream = [] then text "beamtime_global.meta" else stream ++ text ".meta") stream,
      some (fun i => (metadata.takeWhile (· ≠ 0)).getD i 0), [], none⟩
  | .getStreamInfo stream =>
    if stream = [] then .error (ProducerErrorTemplates.wrongInput.generate "stream empty")
    else .ok ⟨header .streamInfo 0 0 0 unset [] stream, none, [], none⟩
  | .getLastStream => .ok ⟨header .lastStream 0 0 0 unset [] [], none, [], none⟩
  | .deleteStream stream options =>
    .ok ⟨header .deleteStream 0 0 0 ![options, unset kPosDataSetId, unset kPosDataSetSize] [] stream, none, [], none⟩
  | .getMeta stream => .ok ⟨header .getMeta 0 0 0 unset [] stream, none, [], none⟩
  | .authorize sourceCredentials =>
    .ok ⟨{ header .authorize 0 0 sourceCredentials.length unset [] [] with apiVersion := text "v0.0" },
      none, sourceCredentials, none⟩

end Call

end Asapo.Producer
