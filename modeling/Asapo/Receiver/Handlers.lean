import Asapo.Common.DataStructs
import Asapo.Common.RequestHeader
import Asapo.Receiver.Request

namespace Asapo.Receiver

/-- Why a handler is not connected to its database: the server was not found, or the
client reports an error. -/
inductive ConnectFault where
  | discovery (message : String)
  | connect (err : Error)
  deriving DecidableEq, Repr

/-- What the handlers of a connection do with the world outside of the request: the
operating system, the authorization service, the data cache and the database. Every
operation may answer in any way and change the state of the world. -/
structure Backend (σ : Type) where
  /-- A transfer of that many bytes fails after some of them. -/
  receiveFault : ℕ → σ → Option (ℕ × Error) × σ
  send : GenericNetworkResponse → σ → Option Error × σ
  initialAuthorize : Request → σ → Option Error × σ
  secondaryAuthorize : Request → σ → Except Error AuthorizationData × σ
  /-- `PrepareDataBufferAndLockIfNeeded`, with the id of the slot. -/
  prepareDataBuffer : ℕ → σ → Except Error ℕ × σ
  unlockDataBuffer : ℕ → σ → σ
  /-- `OpenWithCreateFolders` with the root folder, the file name and the overwrite flag. -/
  openFile : Text → Text → Bool → σ → Option Error × σ
  allocateArray : ℕ → σ → Option Error × σ
  writeFile : Bytes → σ → Option Error × σ
  closeFile : σ → Option Error × σ
  connectToDb : Request → σ → Option ConnectFault × σ
  getRecordFromDb : Request → σ → Except Error MessageMeta × σ
  insertRecordToDb : Request → σ → Option Error × σ
  insertMeta : Request → σ → Option Error × σ
  getStreamInfo : Request → σ → Except Error Text × σ
  getLastStream : σ → Except Error Text × σ
  getMetaFromDb : Request → σ → Except Error Text × σ
  deleteStream : Text → σ → Option Error × σ

def Backend.calm (σ : Type) : Backend σ where
  receiveFault _ w := (none, w)
  send _ w := (none, w)
  initialAuthorize _ w := (none, w)
  secondaryAuthorize _ w := (.ok ⟨[], [], [], [], [], .processed⟩, w)
  prepareDataBuffer _ w := (.ok 1, w)
  unlockDataBuffer _ w := w
  openFile _ _ _ w := (none, w)
  allocateArray _ w := (none, w)
  writeFile _ w := (none, w)
  closeFile w := (none, w)
  connectToDb _ w := (none, w)
  getRecordFromDb _ w := (.ok MessageMeta.empty, w)
  insertRecordToDb _ w := (none, w)
  insertMeta _ w := (none, w)
  getStreamInfo _ w := (.ok [], w)
  getLastStream w := (.ok [], w)
  getMetaFromDb _ w := (.ok [], w)
  deleteStream _ w := (none, w)

/-- `SystemIO::Receive` on a socket with that input, behind which the connection is closed. -/
def Backend.receive {σ : Type} (b : Backend σ) (length : ℕ) (input : Bytes) (w : σ) :
    (Bytes × Option Error) × Bytes × σ :=
  match b.receiveFault length w with
  | (some (count, err), w) =>
    ((input.take (min count length), some err), input.drop (min count length), w)
  | (none, w) =>
    if length ≤ input.length then ((input.take length, none), input.drop length, w)
    else ((input, some (GeneralErrorTemplates.endOfFile.generate "")), [], w)

/-- A request in the middle of its handlers, with the bytes that the producer still sends
on the socket. -/
structure Served (σ : Type) where
  request : Request
  input : Bytes
  world : σ

variable {σ : Type}

namespace Served

def call {α : Type} (s : Served σ) (op : σ → α × σ) : α × Served σ :=
  ((op s.world).1, { s with world := (op s.world).2 })

def receive (b : Backend σ) (length : ℕ) (s : Served σ) : (Bytes × Option Error) × Served σ :=
  match b.receive length s.input s.world with
  | (received, input, w) => (received, { s with input := input, world := w })

end Served

namespace RequestHandlerReceiveMetaData

def processRequest (b : Backend σ) (s : Served σ) : Option Error × Served σ :=
  if s.request.header.metaSize = 0 then (none, s)
  else
    match s.receive b s.request.header.metaSize with
    | ((_, some err), s) =>
      (some ((ReceiverErrorTemplates.processingError.generate "cannot receive metadata").setCause err), s)
    | ((bytes, none), s) =>
      (none, { s with request := { s.request with metadata := textOfBytes bytes } })

end RequestHandlerReceiveMetaData

namespace RequestHandlerReceiveData

def processRequest (b : Backend σ) (s : Served σ) : Option Error × Served σ :=
  if needReceiveData s.request.header then
    match s.call (b.prepareDataBuffer s.request.header.dataSize) with
    | (.error err, s) => (some err, s)
    | (.ok slotId, s) =>
      let (received, s) := s.receive b s.request.header.dataSize
      let s := { s with
        request := { s.request with data := received.1, slotId := slotId }
        world := b.unlockDataBuffer slotId s.world }
      (received.2.map
        (fun err => (ReceiverErrorTemplates.processingError.generate "cannot receive data").setCause err), s)
  else (none, s)

end RequestHandlerReceiveData

namespace FileProcessor

def checkFileNameIsAbsolute (fname : Text) : Option Error :=
  if ['.', '.'] <:+: fname then
    some (ReceiverErrorTemplates.badRequest.generate
      ("cannot use relative path in path name " ++ String.ofList fname))
  else none

def getStringFromSourceType : SourceType → Text
  | .raw => text "raw"
  | .processed => text "processed"

def checkFileFolderCorrespondsToRequestSourceType (r : Request) (fname : Text) : Option Error :=
  if '/' ∈ fname then
    let folderByType := getStringFromSourceType r.authorization.sourceType
    if fname.takeWhile (· ≠ '/') = folderByType then none
    else some (ReceiverErrorTemplates.badRequest.generate
      ("file " ++ String.ofList fname ++ " is not in " ++ String.ofList folderByType ++ " folder"))
  else some (ReceiverErrorTemplates.badRequest.generate
    ("cannot extract root folder from file path " ++ String.ofList fname))

def getRootFolderFromRequest (r : Request) : Except Error Text :=
  let rawToOffline := hasFlag r.header.ingestMode IngestModeFlags.writeRawDataToOffline
  if r.authorization.sourceType = .processed ∨ rawToOffline then .ok r.authorization.offlinePath
  else if r.authorization.onlinePath = [] then
    .error (ReceiverErrorTemplates.badRequest.generate "online path not available")
  else .ok r.authorization.onlinePath

def getRootFolder (r : Request) : Except Error Text :=
  match checkFileNameIsAbsolute r.getFileName with
  | some err => .error err
  | none =>
    match checkFileFolderCorrespondsToRequestSourceType r r.getFileName with
    | some err => .error err
    | none => getRootFolderFromRequest r

end FileProcessor

namespace WriteFileProcessor

/-- `WriteDataToFile` opens, writes and closes; the error of the close is returned. -/
def writeDataToFile (b : Backend σ) (root fname : Text) (data : Bytes) (overwrite : Bool) (s : Served σ) :
    Option Error × Served σ :=
  match s.call (b.openFile root fname overwrite) with
  | (some err, s) => (some err, s)
  | (none, s) =>
    match s.call (b.writeFile data) with
    | (some err, s) => (some err, s)
    | (none, s) => s.call b.closeFile

def processFile (b : Backend σ) (overwrite : Bool) (s : Served σ) : Option Error × Served σ :=
  if s.request.header.dataSize = 0 then
    (some (ReceiverErrorTemplates.badRequest.generate "wrong file size"), s)
  else
    match FileProcessor.getRootFolder s.request with
    | .error err => (some err, s)
    | .ok root => writeDataToFile b root s.request.getFileName s.request.data overwrite s

end WriteFileProcessor

namespace ReceiveFileProcessor

/-- The loop of `ReceiveDataToFile`, for a number of rounds. The end of the input is not
an error there, and the loop goes on without it; a loop that does not end has no result. -/
def receiveLoop (b : Backend σ) (bufSize length : ℕ) :
    ℕ → ℕ → Served σ → Option (Option Error × Served σ)
  | rounds, totalBytesWritten, s =>
    if totalBytesWritten < length then
      match rounds with
      | 0 => none
      | rounds + 1 =>
        let ((bytes, err), s) := s.receive b (min bufSize (length - totalBytesWritten))
        if GeneralErrorTemplates.endOfFile.differs err then some (err, (s.call b.closeFile).2)
        else
          match s.call (b.writeFile bytes) with
          | (some err, s) => some (some err, (s.call b.closeFile).2)
          | (none, s) => receiveLoop b bufSize length rounds (totalBytesWritten + bytes.length) s
    else some (none, (s.call b.closeFile).2)

def receiveDataToFile (b : Backend σ) (rounds : ℕ) (root fname : Text) (length : ℕ) (overwrite : Bool)
    (s : Served σ) : Option (Option Error × Served σ) :=
  match s.call (b.openFile root fname overwrite) with
  | (some err, s) => some (some err, s)
  | (none, s) =>
    let bufSize := min length kReadWriteBufSize
    match s.call (b.allocateArray bufSize) with
    | (some err, s) => some (some err, s)
    | (none, s) => receiveLoop b bufSize length rounds 0 s

def processFile (b : Backend σ) (rounds : ℕ) (overwrite : Bool) (s : Served σ) :
    Option (Option Error × Served σ) :=
  match FileProcessor.getRootFolder s.request with
  | .error err => some (some err, s)
  | .ok root =>
    receiveDataToFile b rounds root s.request.getFileName s.request.header.dataSize overwrite s

end ReceiveFileProcessor

namespace RequestHandlerDb

def dbErrorToReceiverError : Option Error → Option Error
  | none => none
  | some err =>
    let template :=
      if DBErrorTemplates.wrongInput.equals (some err) || DBErrorTemplates.noRecord.equals (some err) ||
          DBErrorTemplates.jsonParseError.equals (some err) then ReceiverErrorTemplates.badRequest
      else ReceiverErrorTemplates.internalServerError
    some ((template.generate "error from database").setCause err)

def connectError : ConnectFault → Error
  | .discovery message => ReceiverErrorTemplates.internalServerError.generate message
  | .connect err => (dbErrorToReceiverError (some err)).getD err

/-- `RequestHandlerDb::ProcessRequest`, with which every database handler starts. -/
def processRequest (b : Backend σ) (s : Served σ) : Option Error × Served σ :=
  match s.call (b.connectToDb s.request) with
  | (fault, s) => (fault.map connectError, s)

end RequestHandlerDb

namespace RequestHandlerDbCheckRequest

open RequestHandlerDb

/-- An empty metadata text is stored as an empty object. -/
def storedMetaData (r : Request) : Text := if r.metadata = [] then text "\x7b\x7d" else r.metadata

def sameRequestInRecord (r : Request) (record : MessageMeta) : Bool :=
  r.header.dataSize = record.size && r.getFileName = record.name && storedMetaData r = record.metadata

def processRequest (b : Backend σ) (s : Served σ) : Option Error × Served σ :=
  match RequestHandlerDb.processRequest b s with
  | (some err, s) => (some err, s)
  | (none, s) =>
    match s.call (b.getRecordFromDb s.request) with
    | (.error err, s) =>
      (dbErrorToReceiverError (if DBErrorTemplates.noRecord.equals (some err) then none else some err), s)
    | (.ok record, s) =>
      if sameRequestInRecord s.request record then
        (some (ReceiverErrorTemplates.warningDuplicatedRequest.generate ""), s)
      else (some (ReceiverErrorTemplates.badRequest.generate "already have record with same id"), s)

end RequestHandlerDbCheckRequest

namespace RequestHandlerFileProcess

inductive Processor where
  | write
  | receive
  deriving DecidableEq, Repr

def processFile (b : Backend σ) (rounds : ℕ) (p : Processor) (overwrite : Bool) (s : Served σ) :
    Option (Option Error × Served σ) :=
  match p with
  | .write => some (WriteFileProcessor.processFile b overwrite s)
  | .receive => ReceiveFileProcessor.processFile b rounds overwrite s

def processFileExistSituation (b : Backend σ) (rounds : ℕ) (p : Processor) (s : Served σ) :
    Option (Option Error × Served σ) :=
  match RequestHandlerDbCheckRequest.processRequest b s with
  | (none, s) =>
    processFile b rounds p true
      { s with request := s.request.setResponseMessage "file has been overwritten" .warning }
  | (some err, s) =>
    if ReceiverErrorTemplates.warningDuplicatedRequest.equals (some err) then
      some (none, { s with
        request := { s.request with alreadyProcessed := true }.setResponseMessage
          "duplicated request, ignored" .warning })
    else some (some err, s)

def processRequest (b : Backend σ) (rounds : ℕ) (p : Processor) (s : Served σ) :
    Option (Option Error × Served σ) :=
  (processFile b rounds p false s).bind (fun (err, s) =>
    if IOErrorTemplates.fileAlreadyExists.equals err then processFileExistSituation b rounds p s
    else some (err, s))

end RequestHandlerFileProcess

namespace RequestHandlerDbWrite

open RequestHandlerDb

def processDuplicateRecordSituation (b : Backend σ) (s : Served σ) : Option Error × Served σ :=
  match RequestHandlerDbCheckRequest.processRequest b s with
  | (err, s) =>
    if ReceiverErrorTemplates.warningDuplicatedRequest.equals err then
      (none, { s with
        request := s.request.setResponseMessage
          ("ignoring duplicate record for id " ++ Nat.repr s.request.header.dataId) .warning })
    else (err, s)

def processRequest (b : Backend σ) (s : Served σ) : Option Error × Served σ :=
  if s.request.alreadyProcessed then (none, s)
  else
    match RequestHandlerDb.processRequest b s with
    | (some err, s) => (some err, s)
    | (none, s) =>
      match s.call (b.insertRecordToDb s.request) with
      | (err, s) =>
        if DBErrorTemplates.duplicateID.equals err then processDuplicateRecordSituation b s
        else (dbErrorToReceiverError err, s)

end RequestHandlerDbWrite

def withDb {α : Type} (b : Backend σ) (query : σ → α × σ) (answer : α → Request → Option Error × Request)
    (s : Served σ) : Option Error × Served σ :=
  match RequestHandlerDb.processRequest b s with
  | (some err, s) => (some err, s)
  | (none, s) =>
    match s.call query with
    | (a, s) => ((answer a s.request).1, { s with request := (answer a s.request).2 })

open RequestHandlerDb

def RequestHandlerDbMetaWrite.processRequest (b : Backend σ) (s : Served σ) : Option Error × Served σ :=
  withDb b (b.insertMeta s.request) (fun err r => (dbErrorToReceiverError err, r)) s

def infoFromDb : Except Error Text → Request → Option Error × Request
  | .error err, r => (dbErrorToReceiverError (some err), r)
  | .ok info, r => (none, { r with responseMessage := info, responseMessageType := .info })

def RequestHandlerDbStreamInfo.processRequest (b : Backend σ) (s : Served σ) : Option Error × Served σ :=
  withDb b (b.getStreamInfo s.request) infoFromDb s

def RequestHandlerDbLastStream.processRequest (b : Backend σ) (s : Served σ) : Option Error × Served σ :=
  withDb b b.getLastStream infoFromDb s

/-- Missing metadata is answered with an empty text. -/
def RequestHandlerDbGetMeta.processRequest (b : Backend σ) (s : Served σ) : Option Error × Served σ :=
  withDb b (b.getMetaFromDb s.request)
    (fun
      | .error err => if DBErrorTemplates.noRecord.equals (some err) then infoFromDb (.ok [])
        else infoFromDb (.error err)
      | .ok info => infoFromDb (.ok info)) s

def RequestHandlerDbDeleteStream.processRequest (b : Backend σ) (s : Served σ) : Option Error × Served σ :=
  -- the options are in the place of the ingest mode, the first number
  let options := DeleteStreamOptions.decode (s.request.header.customData kPosIngestMode)
  if options.deleteMeta then
    withDb b (b.deleteStream s.request.header.stream)
      (fun err r =>
        (if DBErrorTemplates.noRecord.equals err && !options.errorOnNotExist then none
          else dbErrorToReceiverError err, r)) s
  else RequestHandlerDb.processRequest b s

def RequestHandlerSecondaryAuthorization.processRequest (b : Backend σ) (s : Served σ) :
    Option Error × Served σ :=
  match s.call (b.secondaryAuthorize s.request) with
  | (.error err, s) => (some err, s)
  | (.ok data, s) => (none, { s with request := { s.request with authorization := data } })

def Handler.processRequest (b : Backend σ) (rounds : ℕ) (s : Served σ) :
    Handler → Option (Option Error × Served σ)
  | .secondaryAuthorize => some (RequestHandlerSecondaryAuthorization.processRequest b s)
  | .receiveMetaData => some (RequestHandlerReceiveMetaData.processRequest b s)
  | .receiveData => some (RequestHandlerReceiveData.processRequest b s)
  | .fileWrite => RequestHandlerFileProcess.processRequest b rounds .write s
  | .fileReceive => RequestHandlerFileProcess.processRequest b rounds .receive s
  | .dbWrite => some (RequestHandlerDbWrite.processRequest b s)
  | .dbMetaWrite => some (RequestHandlerDbMetaWrite.processRequest b s)
  | .initialAuthorize => some (s.call (b.initialAuthorize s.request))
  | .dbStreamInfo => some (RequestHandlerDbStreamInfo.processRequest b s)
  | .deleteStream => some (RequestHandlerDbDeleteStream.processRequest b s)
  | .dbLastStream => some (RequestHandlerDbLastStream.processRequest b s)
  | .dbGetMeta => some (RequestHandlerDbGetMeta.processRequest b s)

/-- `Request::Handle`: the handlers in their order, up to the first error. -/
def handle (b : Backend σ) (rounds : ℕ) : List Handler → Served σ → Option (Option Error × Served σ)
  | [], s => some (none, s)
  | h :: hs, s =>
    (h.processRequest b rounds s).bind (fun
      | (some err, s) => some (some err, s)
      | (none, s) => handle b rounds hs s)

namespace RequestsDispatcher

def getNetworkCodeFromError : Option Error → NetworkErrorCode
  | none => .noError
  | some err =>
    if ReceiverErrorTemplates.authorizationFailure.equals (some err) then .authorizationError
    else if ReceiverErrorTemplates.unsupportedClient.equals (some err) then .notSupported
    else if ReceiverErrorTemplates.reAuthorizationFailure.equals (some err) then .reauthorize
    else if ReceiverErrorTemplates.badRequest.equals (some err) then .wrongRequest
    else .internalServerError

/-- The response message of the request replaces the text of the error, and a warning
replaces its code. -/
def createResponseToRequest (r : Request) (err : Option Error) : GenericNetworkResponse :=
  let explained := (err.map (fun e => e.explain.toList)).getD []
  if r.responseMessage = [] then
    ⟨r.header.opCode, getNetworkCodeFromError err, explained.take kMaxMessageSize⟩
  else
    ⟨r.header.opCode,
      if r.responseMessageType = .warning then .warning else getNetworkCodeFromError err,
      r.responseMessage.take kMaxMessageSize⟩

def processRequest (b : Backend σ) (rounds : ℕ) (handlers : List Handler) (s : Served σ) :
    Option (Option Error × Served σ) :=
  (handle b rounds handlers s).map (fun (handleErr, s) =>
    let (sendErr, s) := s.call (b.send (createResponseToRequest s.request handleErr))
    (if handleErr.isSome then handleErr
      else sendErr.map (fun err =>
        (ReceiverErrorTemplates.processingError.generate "cannot send response").setCause err), s))

def getNextRequest (b : Backend σ) (thresholdMb : ℕ) (input : Bytes) (w : σ) :
    Except Error (GenericRequestHeader × List Handler) × Bytes × σ :=
  match b.receive GenericRequestHeader.size input w with
  | ((_, some err), input, w) =>
    (.error ((ReceiverErrorTemplates.processingError.generate "cannot get next request").setCause err),
      input, w)
  | ((bytes, none), input, w) =>
    ((RequestFactory.addHandlersToRequest thresholdMb (.ofBytes bytes)).map
      (fun handlers => (.ofBytes bytes, handlers)), input, w)

end RequestsDispatcher

/-- One round of `Connection::Listen`. After an error the connection is closed. -/
def Connection.listenOnce (b : Backend σ) (thresholdMb rounds : ℕ) (input : Bytes) (w : σ)
    : Option (Option Error × Bytes × σ) :=
  match RequestsDispatcher.getNextRequest b thresholdMb input w with
  | (.error err, input, w) => some (some err, input, w)
  | (.ok (header, handlers), input, w) =>
    (RequestsDispatcher.processRequest b rounds handlers ⟨Request.ofHeader header, input, w⟩).map
      (fun (err, s) => (err, s.input, s.world))

end Asapo.Receiver
