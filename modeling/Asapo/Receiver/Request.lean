import Asapo.Common.Error
import Asapo.Common.Networking

namespace Asapo.Receiver

inductive ResponseMessageType where
  | warning
  | info
  deriving DecidableEq, Repr

inductive SourceType where
  | processed
  | raw
  deriving DecidableEq, Repr

/-- The fields that `SetRequestFields` copies from the authorization cache. -/
structure AuthorizationData where
  beamtimeId : Text
  beamline : Text
  dataSource : Text
  offlinePath : Text
  onlinePath : Text
  sourceType : SourceType
  deriving DecidableEq, Repr

structure Request where
  header : GenericRequestHeader
  authorization : AuthorizationData
  data : Bytes
  metadata : Text
  slotId : ℕ
  alreadyProcessed : Bool
  responseMessage : Text
  responseMessageType : ResponseMessageType
  deriving DecidableEq

namespace Request

def ofHeader (h : GenericRequestHeader) : Request :=
  ⟨h, ⟨[], [], [], [], [], .processed⟩, [], [], 0, false, [], .info⟩

def getFileName (r : Request) : Text := r.header.message.map (fun c => if c = '\\' then '/' else c)

def setResponseMessage (r : Request) (message : String) (type : ResponseMessageType) : Request :=
  { r with responseMessage := message.toList, responseMessageType := type }

end Request

def RequestHandlerReceiveData.needReceiveData (h : GenericRequestHeader) : Bool :=
  h.dataSize > 0 && hasFlag h.ingestMode IngestModeFlags.transferData

inductive Handler where
  | secondaryAuthorize
  | receiveMetaData
  | receiveData
  | fileWrite
  | fileReceive
  | dbWrite
  | dbMetaWrite
  | initialAuthorize
  | dbStreamInfo
  | deleteStream
  | dbLastStream
  | dbGetMeta
  deriving DecidableEq, Repr

namespace RequestFactory

def needFileWriteHandler (h : GenericRequestHeader) : Bool :=
  hasFlag h.ingestMode IngestModeFlags.storeInFilesystem

def needDbHandler (h : GenericRequestHeader) : Bool :=
  hasFlag h.ingestMode IngestModeFlags.storeInDatabase ||
    h.ingestMode = IngestModeFlags.transferMetaDataOnly

def receiveDirectToFile (thresholdMb : ℕ) (h : GenericRequestHeader) : Bool :=
  h.dataSize > (thresholdMb * 1024 * 1024) % 2 ^ 64

def addReceiveViaBufferHandlers (h : GenericRequestHeader) : List Handler :=
  if needFileWriteHandler h then [.receiveData, .fileWrite] else [.receiveData]

def addReceiveDirectToFileHandler (h : GenericRequestHeader) : Except Error (List Handler) :=
  if hasFlag h.ingestMode IngestModeFlags.storeInFilesystem then .ok [.fileReceive]
  else .error (ReceiverErrorTemplates.badRequest.generate
    "ingest mode should include kStoreInFilesystem for large files ")

def addReceiveWriteHandlers (thresholdMb : ℕ) (h : GenericRequestHeader) :
    Except Error (List Handler) :=
  if receiveDirectToFile thresholdMb h then addReceiveDirectToFileHandler h
  else .ok (addReceiveViaBufferHandlers h)

def dbHandlers (h : GenericRequestHeader) : List Handler := if needDbHandler h then [.dbWrite] else []

def addHandlersToRequest (thresholdMb : ℕ) (h : GenericRequestHeader) : Except Error (List Handler) :=
  match h.opCode with
  | .transferData | .transferDatasetData =>
    (addReceiveWriteHandlers thresholdMb h).map
      (fun write => [.secondaryAuthorize, .receiveMetaData] ++ write ++ dbHandlers h)
  | .transferMetaData =>
    if needDbHandler h then .ok [.secondaryAuthorize, .receiveData, .dbMetaWrite]
    else .error (ReceiverErrorTemplates.internalServerError.generate
      "reciever does not support writing to database")
  | .authorize => .ok [.receiveMetaData, .initialAuthorize]
  | .streamInfo => .ok [.secondaryAuthorize, .dbStreamInfo]
  | .deleteStream => .ok [.secondaryAuthorize, .deleteStream]
  | .lastStream => .ok [.secondaryAuthorize, .dbLastStream]
  | .getMeta => .ok [.secondaryAuthorize, .dbGetMeta]
  | .unknownOp | .getBufferData | .other _ =>
    .error (ReceiverErrorTemplates.invalidOpCode.generate "")

end RequestFactory

end Asapo.Receiver
