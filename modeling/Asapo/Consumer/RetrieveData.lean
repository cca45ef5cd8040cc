import Asapo.Consumer.ServiceRequests
import Asapo.Consumer.TcpConsumerClient
import Asapo.Interleaving

namespace Asapo.Consumer.ConsumerImpl

open Transition Interleaving ConsumerErrorTemplates

structure Config where
  sourcePath : Text
  hasFilesystem : Bool
  ftsVersion : Text

inductive NetworkConnectionType where
  | asapoTcp
  | fabric
  deriving DecidableEq, Repr

/-- What the threads have in common. A client that exists is not replaced, and its type is the
current connection type. -/
structure Shared where
  netClient : Option NetworkConnectionType
  netClientMutex : Bool
  shouldTryRdmaFirst : Bool
  currentFtsUri : Text
  folderToken : Text
  control : Control
  deriving DecidableEq, Repr

structure FabricTransfer where
  created : Option Error
  connected : Option Error
  registered : Option Error
  transferred : Option Error
  response : ResponseCode
  bytes : Bytes

/-- The data is only swapped behind the last check. -/
def FabricTransfer.getData (x : FabricTransfer) : Except Error Bytes :=
  match x.created <|> x.connected <|> x.registered <|> x.transferred <|>
      convertRdsResponseToError x.response with
  | some err => .error err
  | none => .ok x.bytes

structure TcpTransfer where
  connected : Option Error
  queried : Option Error
  allocationFault : Bool
  received : Except Error Bytes

/-- The data is only set if it was received. -/
def TcpTransfer.getData (x : TcpTransfer) : Except Error Bytes :=
  match x.connected <|> x.queried with
  | some err => .error err
  | none =>
    if x.allocationFault then .error (GeneralErrorTemplates.memoryAllocationError.generate "")
    else x.received

structure FileRead where
  size : Except Error ℕ
  opened : Option Error
  allocationFault : Bool
  read : Except Error Bytes
  closed : Option Error

/-- An error from before is not reset. -/
def FileRead.getMessageMeta (file : FileRead) (err : Option Error) : Except Error ℕ :=
  match file.size, err with
  | .error err, _ => .error err
  | .ok _, some err => .error err
  | .ok size, none => .ok size

def FileRead.readFile (file : FileRead) : Option Bytes × Option Error :=
  match file.opened with
  | some err => (none, some err)
  | none =>
    if file.allocationFault then (none, some (GeneralErrorTemplates.memoryAllocationError.generate ""))
    else
      match file.read with
      | .error err => (none, some err)
      | .ok bytes => (some bytes, file.closed)

def FileRead.getDataFromFile (file : FileRead) (fname : Text) (fsize : ℕ) (err : Option Error) :
    Option Bytes × ℕ × Option Error :=
  if fsize = 0 ∧ fname ≠ [] then
    match file.getMessageMeta err with
    | .error err => (none, fsize, some err)
    | .ok size => (file.readFile.1, size, file.readFile.2)
  else (file.readFile.1, fsize, file.readFile.2)

def fullName (basePath : Text) (info : MessageMeta) : Text :=
  (if basePath = [] then [] else basePath ++ text "/") ++ info.name

def createFileTransferRequest (c : Config) (token : Text) (info : MessageMeta) : RequestInfo where
  host := []
  api := text "/" ++ c.ftsVersion ++ text "/transfer"
  extraParams := []
  body := text "\x7b\"Folder\":\"" ++ c.sourcePath ++ text "\",\"FileName\":\"" ++ info.name ++ text "\"\x7d"
  cookie := text "Authorization=Bearer " ++ token
  outputMode := .array
  post := true

inductive Query where
  | cache (source : Text) (bufId size : ℕ)
  | file (name : Text)
  | fileTransfer (request : RequestInfo)
  deriving DecidableEq, Repr

/-- What the data pointer of the caller points to: what it did before the call, or what the call has set. -/
inductive MessageData where
  | untouched
  | set (query : Query) (bytes : Option Bytes)
  deriving DecidableEq, Repr

inductive BufferPc where
  | tryGetDataFromBuffer
  | createNetClient
  | locked
  | tryRdma
  | fabricClient
  | useFabric (err : Option Error)
  | noRdma
  | createTcpClient
  | getData (locked : Bool)
  deriving DecidableEq

inductive ServiceStep where
  | discover
  | askDiscovery
  | discovered (err : Option Error)
  | host
  | process
  deriving DecidableEq

inductive FtsOp where
  | size
  | data
  deriving DecidableEq

inductive TransferPc where
  | updateFolderToken (retry : Bool)
  | clearFolderToken (retry : Bool)
  | requestFolderToken (retry : Bool)
  | createRequest (op : FtsOp) (retry : Bool)
  | service (op : FtsOp) (retry : Bool) (request : RequestInfo) (loop : Loop ServiceStep) (r : Attempts)
  deriving DecidableEq

inductive Pc where
  | idle
  | returned (err : Option Error)
  | buffer (pc : BufferPc)
  | file (loop : Loop Unit) (r : Attempts)
  | transfer (pc : TransferPc)
  deriving DecidableEq

structure Thread where
  message : MessageMeta
  info : MessageMeta
  data : MessageData
  pc : Pc
  deriving DecidableEq

inductive Action where
  | retrieveData (info : Option MessageMeta) (data : Bool)
  | proceed
  | fabric (x : FabricTransfer)
  | tcp (x : TcpTransfer)
  | read (file : FileRead)
  | http (result : Except Error HttpAnswer) (allocated : Bool)
  | slept (ms : ℕ)

def Thread.cacheQuery (t : Thread) : Query := .cache t.info.source t.info.bufId t.info.size

def Thread.receive (t : Thread) : Except Error Bytes → Thread
  | .error _ => t
  | .ok bytes => { t with data := .set t.cacheQuery (some bytes) }

def fault : Except Error Bytes → Option Error
  | .error err => some err
  | .ok _ => none

def withoutBuffer (c : Config) (t : Thread) : Thread :=
  if c.hasFilesystem then { t with pc := .file .start ⟨0, none⟩ }
  else { t with pc := .transfer (.updateFolderToken false) }

def behindBuffer (c : Config) (t : Thread) : Option Error → Thread
  | none => { t with pc := .returned none }
  | some _ => withoutBuffer c { t with info := { t.info with bufId := 0 } }

def retrieveData (c : Config) (t : Thread) : Option MessageMeta → Bool → Thread
  | some info, true =>
    if info.bufId > 0 then ⟨info, info, .untouched, .buffer .tryGetDataFromBuffer⟩
    else withoutBuffer c ⟨info, info, .untouched, .idle⟩
  | _, _ => { t with pc := .returned (some (wrongInput.generate "pointers are empty")) }

/-- The mutex is given back together with the last thing that is done under it. A thread that
waits for it has no step. -/
def bufferStep (c : Config) (s : Shared) (t : Thread) : BufferPc → Action → Option (Shared × Thread)
  | .tryGetDataFromBuffer, .proceed =>
    if s.netClient.isSome then some (s, { t with pc := .buffer (.getData false) })
    else some (s, { t with pc := .buffer .createNetClient })
  | .createNetClient, .proceed =>
    if s.netClientMutex then none
    else some ({ s with netClientMutex := true }, { t with pc := .buffer .locked })
  | .locked, .proceed =>
    if s.netClient.isSome then some ({ s with netClientMutex := false }, behindBuffer c t none)
    else some (s, { t with pc := .buffer .tryRdma })
  | .tryRdma, .proceed =>
    if s.shouldTryRdmaFirst then some (s, { t with pc := .buffer .fabricClient })
    else some (s, { t with pc := .buffer .createTcpClient })
  | .fabricClient, .fabric x =>
    let err := fault x.getData
    if err = none ∨ RdsResponseErrorTemplates.noData.equals err then
      some (s, { t.receive x.getData with pc := .buffer (.useFabric err) })
    else some (s, { t with pc := .buffer .noRdma })
  | .useFabric err, .proceed =>
    some ({ s with netClient := some .fabric, netClientMutex := false }, behindBuffer c t err)
  | .noRdma, .proceed =>
    some ({ s with shouldTryRdmaFirst := false }, { t with pc := .buffer .createTcpClient })
  | .createTcpClient, .proceed =>
    some ({ s with netClient := some .asapoTcp }, { t with pc := .buffer (.getData true) })
  | .getData locked, .fabric x =>
    if s.netClient = some .fabric then
      some ({ s with netClientMutex := if locked then false else s.netClientMutex },
        behindBuffer c (t.receive x.getData) (fault x.getData))
    else none
  | .getData locked, .tcp x =>
    if s.netClient = some .asapoTcp then
      some ({ s with netClientMutex := if locked then false else s.netClientMutex },
        behindBuffer c (t.receive x.getData) (fault x.getData))
    else none
  | _, _ => none

def readFile (c : Config) (t : Thread) (r : Attempts) (file : FileRead) : Thread :=
  let name := fullName c.sourcePath t.info
  let out := file.getDataFromFile name t.info.size r.err
  let t := { t with info := { t.info with size := out.2.1 }, data := .set (.file name) out.1 }
  if out.2.2 = none then { t with pc := .returned none }
  else { t with pc := .file .sleep { r with err := out.2.2 } }

def fileStep (c : Config) (s : Shared) (t : Thread) (r : Attempts) :
    Loop Unit → Action → Option (Shared × Thread)
  | .attempt _, .read file => some (s, readFile c t r file)
  | .sleep, .slept ms => some (s, { t with pc := .file .test (r.slept ms) })
  | loop, .proceed =>
    (loop.next () s.control r).map (fun (control, out) =>
      ({ s with control := control },
        match out with
        | .inl (loop, r) => { t with pc := .file loop r }
        | .inr err => { t with pc := .returned (err.map (localIOError.generate "").setCause) }))
  | _, _ => none

def behindToken (t : Thread) (retry : Bool) : Thread :=
  { t with pc := .transfer (.createRequest (if t.info.size = 0 then .size else .data) retry) }

/-- What a request leads to. A token that may be too old is asked for once more. -/
def behindError (t : Thread) (retry : Bool) (err : Error) : Thread :=
  if wrongInput.equals (some err) ∧ ¬ retry then { t with pc := .transfer (.updateFolderToken true) }
  else { t with pc := .returned (some err) }

def behindService (t : Thread) (op : FtsOp) (retry : Bool) (request : RequestInfo) (err : Option Error)
    (output : Option Bytes) : Thread :=
  match err, op with
  | some err, _ => behindError t retry err
  | none, .size =>
    match (RapidJson.ofText ((output.map textOfBytes).getD [])).getUInt64 "file_size" with
    | .error err => behindError t retry err
    | .ok size =>
      { t with info := { t.info with size := size }, pc := .transfer (.createRequest .data retry) }
  | none, .data => { t with data := .set (.fileTransfer request) output, pc := .returned none }

def Thread.serve (t : Thread) (op : FtsOp) (retry : Bool) (request : RequestInfo) (loop : Loop ServiceStep)
    (r : Attempts) : Thread :=
  { t with pc := .transfer (.service op retry request loop r) }

/-- The answer to `Post`. Without one the address of the service is forgotten. -/
def processRequest (s : Shared) (t : Thread) (op : FtsOp) (retry : Bool) (request : RequestInfo) (r : Attempts)
    (answer : Except Error HttpAnswer) : Shared × Thread :=
  let s := { s with currentFtsUri := if answer.isOk then s.currentFtsUri else [] }
  match processRequestResponce answer with
  | none => (s, behindService t op retry request none (answer.toOption.map HttpAnswer.body))
  | some err =>
    if wrongInput.equals (some err) then (s, behindService t op retry request (some err) none)
    else (s, t.serve op retry request .sleep { r with err := some err })

def serviceStep (s : Shared) (t : Thread) (op : FtsOp) (retry : Bool) (request : RequestInfo) (r : Attempts) :
    Loop ServiceStep → Action → Option (Shared × Thread)
  | .attempt .discover, .proceed =>
    if s.currentFtsUri = [] then some (s, t.serve op retry request (.attempt .askDiscovery) r)
    else some (s, t.serve op retry request (.attempt .host) r)
  | .attempt .askDiscovery, .http result _ =>
    some ({ s with currentFtsUri := stringOutput result },
      t.serve op retry request (.attempt (.discovered (processRequestResponce result))) r)
  | .attempt (.discovered err), .proceed =>
    if err = none ∧ s.currentFtsUri ≠ [] then some (s, t.serve op retry request (.attempt .host) r)
    else
      some ({ s with currentFtsUri := [] },
        t.serve op retry request .sleep { r with err := some (processDiscoverServiceResult err) })
  | .attempt .host, .proceed =>
    some (s, t.serve op retry { request with host := s.currentFtsUri } (.attempt .process) r)
  | .attempt .process, .http result allocated =>
    some (processRequest s t op retry request r (processPostRequest request t.info.size allocated result))
  | .sleep, .slept ms => some (s, t.serve op retry request .test (r.slept ms))
  | loop, .proceed =>
    (loop.next .discover s.control r).map (fun (control, out) =>
      ({ s with control := control },
        match out with
        | .inl (loop, r) => t.serve op retry request loop r
        | .inr err => behindService t op retry request err none))
  | _, _ => none

def createRequest (c : Config) (token : Text) (info : MessageMeta) : FtsOp → RequestInfo
  | .size =>
    { createFileTransferRequest c token info with extraParams := text "&sizeonly=true", outputMode := .string }
  | .data => createFileTransferRequest c token info

def transferStep (c : Config) (s : Shared) (t : Thread) : TransferPc → Action → Option (Shared × Thread)
  | .updateFolderToken retry, .proceed =>
    if s.folderToken ≠ [] ∧ ¬ retry then some (s, behindToken t retry)
    else some (s, { t with pc := .transfer (.clearFolderToken retry) })
  | .clearFolderToken retry, .proceed =>
    some ({ s with folderToken := [] }, { t with pc := .transfer (.requestFolderToken retry) })
  | .requestFolderToken retry, .http result _ =>
    match processRequestResponce result with
    | some err => some (s, { t with pc := .returned (some err) })
    | none => some ({ s with folderToken := stringOutput result }, behindToken t retry)
  | .createRequest op retry, .proceed =>
    some (s, t.serve op retry (createRequest c s.folderToken t.info op) .start ⟨0, none⟩)
  | .service op retry request loop r, a => serviceStep s t op retry request r loop a
  | _, _ => none

def act (c : Config) (s : Shared) (t : Thread) (a : Action) : Option (Shared × Thread) :=
  match t.pc, a with
  | .idle, .retrieveData info data => some (s, retrieveData c t info data)
  | .returned _, .retrieveData info data => some (s, retrieveData c t info data)
  | .buffer pc, a => bufferStep c s t pc a
  | .file loop r, a => fileStep c s t r loop a
  | .transfer pc, a => transferStep c s t pc a
  | _, _ => none

inductive Setting where
  | interruptCurrentOperation
  | forceNoRdma
  | setTimeout (timeoutMs : ℕ)

def Setting.apply (s : Shared) : Setting → Option Shared
  | .interruptCurrentOperation => some { s with control := { s.control with interruptFlag := true } }
  | .forceNoRdma => some { s with shouldTryRdmaFirst := false }
  | .setTimeout timeoutMs => some { s with control := { s.control with timeoutMs := timeoutMs } }

def Asks (c : Config) (message : MessageMeta) : Query → Prop
  | .cache source bufId size => source = message.source ∧ bufId = message.bufId ∧ size = message.size
  | .file name => name = fullName c.sourcePath message
  | .fileTransfer request =>
    ∃ token host, request = { createFileTransferRequest c token message with host := host }

/-- The call has set the data of the caller to bytes that it has got for the message. -/
def Delivered (c : Config) (t : Thread) : Prop :=
  ∃ query bytes, t.data = .set query (some bytes) ∧ Asks c t.message query

/-- Every call that has returned without an error has set the data. -/
def Delivers {n : ℕ} (c : Config) (s : System Shared Thread n) : Prop :=
  ∀ i, (s.threads i).pc = .returned none → Delivered c (s.threads i)

/-- The thread has not seen a client without the mutex, and now sees one with it. -/
def Late (s : Shared) (t : Thread) : Prop := t.pc = .buffer .locked ∧ s.netClient.isSome = true

def BufferSound (c : Config) (t : Thread) : BufferPc → Prop
  | .useFabric err => err = none → Delivered c t
  | _ => t.data = .untouched

def TransferSound (c : Config) (t : Thread) : TransferPc → Prop
  | .service op _ request loop r => loop.Sound r ∧ (op = .data → Asks c t.message (.fileTransfer request))
  | _ => True

def Sound (c : Config) (t : Thread) : Prop :=
  match t.pc with
  | .idle => True
  | .returned err => err = none → Delivered c t
  | .buffer pc => t.info = t.message ∧ BufferSound c t pc
  | .file loop r => t.info.name = t.message.name ∧ loop.Sound r
  | .transfer pc => t.info.name = t.message.name ∧ TransferSound c t pc

def Pc.creates : Pc → Bool
  | .buffer .createNetClient => true
  | .buffer .locked => true
  | _ => false

structure Past (c : Config) (t : Thread) : Prop where
  sound : Sound c t
  free : t.pc.creates = false

section Sound

variable {c : Config} {s s' : Shared} {t t' : Thread} {a : Action}

theorem asks_createFileTransferRequest (token : Text) {info message : MessageMeta} (hname : info.name = message.name) :
    Asks c message (.fileTransfer (createFileTransferRequest c token info)) := by
  refine ⟨token, [], ?_⟩
  unfold createFileTransferRequest
  rw [hname]

theorem past_withoutBuffer (hname : t.info.name = t.message.name) : Past c (withoutBuffer c t) := by
  unfold withoutBuffer
  split
  · exact ⟨⟨hname, trivial⟩, rfl⟩
  · exact ⟨⟨hname, trivial⟩, rfl⟩

theorem past_behindBuffer {err : Option Error} (hname : t.info.name = t.message.name)
    (h : err = none → Delivered c t) : Past c (behindBuffer c t err) := by
  cases err with
  | none => exact ⟨h, rfl⟩
  | some err => exact past_withoutBuffer hname

theorem delivered_receive (hinfo : t.info = t.message) {res : Except Error Bytes} (h : fault res = none) :
    Delivered c (t.receive res) := by
  cases res with
  | error err => cases h
  | ok bytes =>
    refine ⟨t.cacheQuery, bytes, rfl, ?_⟩
    rw [Thread.cacheQuery, hinfo]
    exact ⟨rfl, rfl, rfl⟩

theorem receive_fields (t : Thread) (res : Except Error Bytes) :
    (t.receive res).info = t.info ∧ (t.receive res).message = t.message := by
  cases res <;> exact ⟨rfl, rfl⟩

theorem past_retrieveData (info : Option MessageMeta) (data : Bool) : Past c (retrieveData c t info data) := by
  unfold retrieveData
  split
  · split
    · exact ⟨⟨rfl, rfl⟩, rfl⟩
    · exact past_withoutBuffer rfl
  · exact ⟨by rintro ⟨⟩, rfl⟩

theorem past_received (hinfo : t.info = t.message) (res : Except Error Bytes) :
    Past c (behindBuffer c (t.receive res) (fault res)) := by
  obtain ⟨hi, hm⟩ := receive_fields t res
  exact past_behindBuffer (by rw [hi, hm, hinfo]) (delivered_receive hinfo)

theorem sound_bufferStep {pc : BufferPc} (hpc : t.pc = .buffer pc) (hs : Sound c t) (hlate : ¬ Late s t)
    (h : bufferStep c s t pc a = some (s', t')) : Sound c t' := by
  simp only [Sound, hpc] at hs
  obtain ⟨hinfo, hs⟩ := hs
  unfold bufferStep at h
  split at h
  · split at h <;> cases h <;> exact ⟨hinfo, hs⟩
  · split at h <;> cases h
    exact ⟨hinfo, hs⟩
  · split at h
    · rename_i hclient
      exact absurd ⟨hpc, hclient⟩ hlate
    · cases h
      exact ⟨hinfo, hs⟩
  · split at h <;> cases h <;> exact ⟨hinfo, hs⟩
  · dsimp only at h
    split at h
    · rename_i x _
      cases h
      obtain ⟨hi, hm⟩ := receive_fields t x.getData
      refine ⟨?_, delivered_receive hinfo⟩
      exact hi.trans (hinfo.trans hm.symm)
    · cases h
      exact ⟨hinfo, hs⟩
  · cases h
    exact (past_behindBuffer (by rw [hinfo]) hs).sound
  · cases h
    exact ⟨hinfo, hs⟩
  · cases h
    exact ⟨hinfo, hs⟩
  · split at h <;> cases h
    exact (past_received hinfo _).sound
  · split at h <;> cases h
    exact (past_received hinfo _).sound
  · cases h

theorem readFile_fst (file : FileRead) : file.readFile.2 = none → ∃ bytes, file.readFile.1 = some bytes := by
  unfold FileRead.readFile
  cases file.opened with
  | some err => rintro ⟨⟩
  | none =>
    cases file.allocationFault with
    | true => rintro ⟨⟩
    | false =>
      cases file.read with
      | error err => rintro ⟨⟩
      | ok bytes => exact fun _ => ⟨bytes, rfl⟩

theorem getDataFromFile_fst (file : FileRead) (fname : Text) (fsize : ℕ) (err : Option Error) :
    (file.getDataFromFile fname fsize err).2.2 = none →
      ∃ bytes, (file.getDataFromFile fname fsize err).1 = some bytes := by
  unfold FileRead.getDataFromFile
  split
  · cases file.getMessageMeta err with
    | error err => rintro ⟨⟩
    | ok size => exact readFile_fst file
  · exact readFile_fst file

theorem past_readFile {r : Attempts} (hname : t.info.name = t.message.name) (file : FileRead) :
    Past c (readFile c t r file) := by
  unfold readFile
  extract_lets name out t'
  split
  · rename_i hok
    obtain ⟨bytes, hbytes⟩ := getDataFromFile_fst file name t.info.size r.err hok
    refine ⟨fun _ => ⟨.file name, bytes, congrArg (MessageData.set (.file name)) hbytes, ?_⟩, rfl⟩
    change fullName c.sourcePath t.info = fullName c.sourcePath t.message
    rw [fullName, fullName, hname]
  · rename_i herr
    exact ⟨⟨hname, herr⟩, rfl⟩

theorem past_fileStep {loop : Loop Unit} {r : Attempts} (hpc : t.pc = .file loop r) (hs : Sound c t)
    (h : fileStep c s t r loop a = some (s', t')) : Past c t' ∧ s'.netClient = s.netClient := by
  simp only [Sound, hpc] at hs
  obtain ⟨hname, hs⟩ := hs
  unfold fileStep at h
  split at h
  · cases h
    exact ⟨past_readFile hname _, rfl⟩
  · cases h
    exact ⟨⟨⟨hname, Loop.sound_slept hs _⟩, rfl⟩, rfl⟩
  · obtain ⟨⟨control, out⟩, hnext, h⟩ := Option.map_eq_some_iff.mp h
    cases out with
    | inl next =>
      cases h
      exact ⟨⟨⟨hname, Loop.sound_next hs hnext⟩, rfl⟩, rfl⟩
    | inr err =>
      cases h
      refine ⟨⟨fun hnone => ?_, rfl⟩, rfl⟩
      exact absurd (Option.map_eq_none_iff.mp hnone) (Loop.fails_next hs hnext)
  · cases h

theorem past_behindToken (hname : t.info.name = t.message.name) (retry : Bool) :
    Past c (behindToken t retry) := ⟨⟨hname, trivial⟩, rfl⟩

theorem past_behindError (hname : t.info.name = t.message.name) (retry : Bool) (err : Error) :
    Past c (behindError t retry err) := by
  unfold behindError
  split
  · exact ⟨⟨hname, trivial⟩, rfl⟩
  · exact ⟨by rintro ⟨⟩, rfl⟩

theorem past_behindService {op : FtsOp} {request : RequestInfo} {err : Option Error} {output : Option Bytes}
    (hname : t.info.name = t.message.name) (hasks : op = .data → Asks c t.message (.fileTransfer request))
    (hout : err = none → ∃ bytes, output = some bytes) (retry : Bool) :
    Past c (behindService t op retry request err output) := by
  unfold behindService
  cases err with
  | some err => exact past_behindError hname retry err
  | none =>
    cases op with
    | size =>
      dsimp only
      split
      · exact past_behindError hname retry _
      · exact ⟨⟨hname, trivial⟩, rfl⟩
    | data =>
      obtain ⟨bytes, rfl⟩ := hout rfl
      exact ⟨fun _ => ⟨.fileTransfer request, bytes, rfl, hasks rfl⟩, rfl⟩

theorem past_serve {op : FtsOp} {retry : Bool} {request : RequestInfo} {loop : Loop ServiceStep} {r : Attempts}
    (hname : t.info.name = t.message.name) (hasks : op = .data → Asks c t.message (.fileTransfer request))
    (hloop : loop.Sound r) : Past c (t.serve op retry request loop r) :=
  ⟨⟨hname, hloop, hasks⟩, rfl⟩

theorem past_processRequest {op : FtsOp} {request : RequestInfo}
    (hname : t.info.name = t.message.name) (hasks : op = .data → Asks c t.message (.fileTransfer request))
    (s : Shared) (retry : Bool) (r : Attempts) (answer : Except Error HttpAnswer) :
    Past c (processRequest s t op retry request r answer).2 ∧
      (processRequest s t op retry request r answer).1.netClient = s.netClient := by
  unfold processRequest
  extract_lets s'
  cases hanswer : processRequestResponce answer with
  | none =>
    cases answer with
    | error err => cases hanswer
    | ok answer => exact ⟨past_behindService hname hasks (fun _ => ⟨answer.body, rfl⟩) retry, rfl⟩
  | some err =>
    dsimp only
    split
    · have hfails : some err = none → ∃ bytes, (none : Option Bytes) = some bytes := by rintro ⟨⟩
      exact ⟨past_behindService hname hasks hfails retry, rfl⟩
    · exact ⟨past_serve hname hasks (Option.some_ne_none err), rfl⟩

theorem past_serviceStep {op : FtsOp} {retry : Bool} {request : RequestInfo} {loop : Loop ServiceStep} {r : Attempts}
    (hname : t.info.name = t.message.name) (hasks : op = .data → Asks c t.message (.fileTransfer request))
    (hloop : loop.Sound r) (h : serviceStep s t op retry request r loop a = some (s', t')) :
    Past c t' ∧ s'.netClient = s.netClient := by
  unfold serviceStep at h
  split at h
  · split at h <;> cases h <;> exact ⟨past_serve hname hasks trivial, rfl⟩
  · cases h
    exact ⟨past_serve hname hasks trivial, rfl⟩
  · split at h <;> cases h
    · exact ⟨past_serve hname hasks trivial, rfl⟩
    · exact ⟨past_serve hname hasks (Option.some_ne_none _), rfl⟩
  · cases h
    refine ⟨past_serve hname (fun hop => ?_) trivial, rfl⟩
    obtain ⟨token, host, rfl⟩ := hasks hop
    exact ⟨token, s.currentFtsUri, rfl⟩
  · rename_i result allocated
    have hpast := past_processRequest hname hasks s retry r
      (processPostRequest request t.info.size allocated result)
    rwa [Option.some.inj h] at hpast
  · cases h
    exact ⟨past_serve hname hasks (Loop.sound_slept hloop _), rfl⟩
  · obtain ⟨⟨control, out⟩, hnext, h⟩ := Option.map_eq_some_iff.mp h
    cases out with
    | inl next =>
      cases h
      exact ⟨past_serve hname hasks (Loop.sound_next hloop hnext), rfl⟩
    | inr err =>
      cases h
      exact ⟨past_behindService hname hasks (fun hnone => absurd hnone (Loop.fails_next hloop hnext)) retry, rfl⟩
  · cases h

theorem past_transferStep {pc : TransferPc} (hpc : t.pc = .transfer pc) (hs : Sound c t)
    (h : transferStep c s t pc a = some (s', t')) : Past c t' ∧ s'.netClient = s.netClient := by
  simp only [Sound, hpc] at hs
  obtain ⟨hname, hs⟩ := hs
  unfold transferStep at h
  split at h
  · split at h <;> cases h
    · exact ⟨past_behindToken hname _, rfl⟩
    · exact ⟨⟨⟨hname, trivial⟩, rfl⟩, rfl⟩
  · cases h
    exact ⟨⟨⟨hname, trivial⟩, rfl⟩, rfl⟩
  · split at h <;> cases h
    · exact ⟨⟨by rintro ⟨⟩, rfl⟩, rfl⟩
    · exact ⟨past_behindToken hname _, rfl⟩
  · cases h
    refine ⟨past_serve hname (fun hop => ?_) trivial, rfl⟩
    rw [hop]
    exact asks_createFileTransferRequest s.folderToken hname
  · exact past_serviceStep hname hs.2 hs.1 h
  · cases h

theorem sound_act (hs : Sound c t) (hlate : ¬ Late s t) (h : act c s t a = some (s', t')) : Sound c t' := by
  unfold act at h
  split at h
  · cases h
    exact (past_retrieveData _ _).sound
  · cases h
    exact (past_retrieveData _ _).sound
  · rename_i hpc
    exact sound_bufferStep hpc hs hlate h
  · rename_i hpc
    exact (past_fileStep hpc hs h).1.sound
  · rename_i hpc
    exact (past_transferStep hpc hs h).1.sound
  · cases h

end Sound

section Run

variable {n : ℕ} (c : Config)

def Thread.idle : Thread := ⟨.empty, .empty, .untouched, .idle⟩

theorem keeps_sound : Keeps (act c) Setting.apply (fun s t _ => ¬ Late s t) (fun _ => True) (fun _ => Sound c) where
  own _ _ _ _ _ _ hs hlate h := ⟨trivial, sound_act hs hlate h⟩
  other _ _ _ _ _ _ _ _ hk _ _ := hk
  world _ _ _ _ _ := ⟨trivial, fun _ hk => hk⟩

variable {c}

theorem delivers_of_holds (s : System Shared Thread n) (hs : Holds (fun _ => True) (fun _ => Sound c) s) :
    Delivers c s := by
  intro i hpc
  have hsound := hs.threads i
  simp only [Sound, hpc] at hsound
  exact hsound trivial

theorem not_delivers_of_late {s s' : System Shared Thread n} (i : Fin n) (a : Action)
    (hs : Holds (fun _ => True) (fun _ => Sound c) s) (hlate : Late s.shared (s.threads i))
    (h : step (act c) Setting.apply s (.thread i a) = some s') : ¬ Delivers c s' := by
  obtain ⟨⟨shared, t'⟩, hact, rfl⟩ := Option.map_eq_some_iff.mp h
  obtain ⟨hpc, hclient⟩ := hlate
  have huntouched := hs.threads i
  simp only [Sound, hpc] at huntouched
  have hstep : bufferStep c s.shared (s.threads i) .locked a = some (shared, t') := by
    unfold act at hact
    rw [hpc] at hact
    exact hact
  cases a with
  | proceed =>
    rw [bufferStep, if_pos hclient] at hstep
    cases hstep
    intro hdelivers
    have hret := hdelivers i
    dsimp only at hret
    rw [Function.update_self] at hret
    obtain ⟨query, bytes, hset, -⟩ := hret rfl
    have hdata : (s.threads i).data = .untouched := huntouched.2
    rw [show (behindBuffer c (s.threads i) none).data = (s.threads i).data from rfl, hdata] at hset
    cases hset
  | _ => cases hstep

/-- A call that returns no error has set the data of its caller, in every interleaving of the
calls, exactly if no thread gets the mutex of the client behind the thread that creates it. -/
theorem retrieval_delivers_iff (c : Config) (n : ℕ) (s : Shared) (es : List (Event Action Setting n)) :
    Always (step (act c) Setting.apply) (Delivers c) ⟨s, fun _ => Thread.idle⟩ es ↔
      Along (step (act c) Setting.apply) (OnThreads (fun s t _ => ¬ Late s t)) ⟨s, fun _ => Thread.idle⟩ es := by
  refine always_iff_along delivers_of_holds (keeps_sound c).step ?_ _ es ⟨trivial, fun _ => trivial⟩
  intro s e s' hs hlate h
  cases e with
  | thread i a => exact not_delivers_of_late i a hs (not_not.mp hlate) h
  | world e => exact absurd trivial hlate

def Shared.new : Shared := ⟨none, false, true, [], [], ⟨false, 0⟩⟩

def bufferedMessage : MessageMeta := { MessageMeta.empty with name := text "file", bufId := 1, size := 1 }

def noFabric : FabricTransfer :=
  ⟨some (GeneralErrorTemplates.simpleError.generate "not supported"), none, none, none, .inl .noError, []⟩

/-- Two first calls both see that there is no client. The first one creates it and gets its data,
and the second one returns with neither an error nor data. -/
theorem second_call_without_data :
    ¬ Always (step (act ⟨[], true, []⟩) Setting.apply) (Delivers ⟨[], true, []⟩)
      (⟨Shared.new, fun _ => Thread.idle⟩ : System Shared Thread 2)
      [.thread 0 (.retrieveData (some bufferedMessage) true), .thread 1 (.retrieveData (some bufferedMessage) true),
        .thread 0 .proceed, .thread 1 .proceed,
        .thread 0 .proceed, .thread 0 .proceed, .thread 0 .proceed, .thread 0 (.fabric noFabric),
        .thread 0 .proceed, .thread 0 .proceed, .thread 0 (.tcp ⟨none, none, false, .ok [7]⟩),
        .thread 1 .proceed, .thread 1 .proceed] := by
  intro h
  have hstart := (((h.2 _ rfl).2 _ rfl).2 _ rfl).2 _ rfl
  have hfirst := ((((((hstart.2 _ rfl).2 _ rfl).2 _ rfl).2 _ rfl).2 _ rfl).2 _ rfl).2 _ rfl
  have hsecond := (hfirst.2 _ rfl).2 _ rfl
  obtain ⟨query, bytes, hset, -⟩ := hsecond 1 rfl
  cases hset

end Run

section Alone

variable {c : Config} {s s' : Shared} {t t' : Thread} {a : Action}

structure Follows (s : Shared) (t : Thread) (s' : Shared) (t' : Thread) : Prop where
  exists_of_exists : s.netClient.isSome = true → s'.netClient.isSome = true
  creates : t'.pc.creates = true → s'.netClient = s.netClient ∧ (s.netClient = none ∨ t.pc.creates = true)

theorem follows_of_free (ht : t'.pc.creates = false) (hs : s'.netClient = s.netClient) : Follows s t s' t' :=
  ⟨fun hclient => hs ▸ hclient, fun ht' => absurd (ht.symm.trans ht') Bool.false_ne_true⟩

theorem follows_of_client (hs : s'.netClient.isSome = true) (ht : t'.pc.creates = false) : Follows s t s' t' :=
  ⟨fun _ => hs, fun ht' => absurd (ht.symm.trans ht') Bool.false_ne_true⟩

theorem follows_bufferStep {pc : BufferPc} (hpc : t.pc = .buffer pc) (hs : Sound c t)
    (h : bufferStep c s t pc a = some (s', t')) : Follows s t s' t' := by
  simp only [Sound, hpc] at hs
  obtain ⟨hinfo, hs⟩ := hs
  unfold bufferStep at h
  split at h
  · split at h
    · cases h
      exact follows_of_free rfl rfl
    · rename_i hnone
      cases h
      exact ⟨id, fun _ => ⟨rfl, .inl (by simpa using hnone)⟩⟩
  · split at h <;> cases h
    exact ⟨id, fun _ => ⟨rfl, .inr (by rw [hpc]; rfl)⟩⟩
  · split at h <;> cases h <;> exact follows_of_free rfl rfl
  · split at h <;> cases h <;> exact follows_of_free rfl rfl
  · dsimp only at h
    split at h <;> cases h <;> exact follows_of_free rfl rfl
  · cases h
    exact follows_of_client rfl (past_behindBuffer (by rw [hinfo]) hs).free
  · cases h
    exact follows_of_free rfl rfl
  · cases h
    exact follows_of_client rfl rfl
  · split at h <;> cases h
    exact follows_of_free (past_received (c := c) hinfo _).free rfl
  · split at h <;> cases h
    exact follows_of_free (past_received (c := c) hinfo _).free rfl
  · cases h

theorem follows_act (hs : Sound c t) (h : act c s t a = some (s', t')) : Follows s t s' t' := by
  unfold act at h
  split at h
  · cases h
    exact follows_of_free (past_retrieveData (c := c) _ _).free rfl
  · cases h
    exact follows_of_free (past_retrieveData (c := c) _ _).free rfl
  · rename_i hpc
    exact follows_bufferStep hpc hs h
  · rename_i hpc
    obtain ⟨hpast, hclient⟩ := past_fileStep hpc hs h
    exact follows_of_free hpast.free hclient
  · rename_i hpc
    obtain ⟨hpast, hclient⟩ := past_transferStep hpc hs h
    exact follows_of_free hpast.free hclient
  · cases h

theorem netClient_apply {e : Setting} (h : Setting.apply s e = some s') : s'.netClient = s.netClient := by
  cases e <;> cases h <;> rfl

def Settled (s : Shared) (t : Thread) : Prop := s.netClient.isSome = true → t.pc.creates = false

theorem settled_act (hsound : Sound c t) (hs : Settled s t) (h : act c s t a = some (s', t')) : Settled s' t' := by
  intro hclient
  refine Bool.eq_false_iff.mpr (fun ht => ?_)
  obtain ⟨hsame, hnone | hcreates⟩ := (follows_act hsound h).creates ht
  · rw [hsame, hnone] at hclient
    cases hclient
  · rw [hsame] at hclient
    rw [hs hclient] at hcreates
    cases hcreates

theorem not_late_of_settled (hs : Settled s t) : ¬ Late s t := by
  rintro ⟨hpc, hclient⟩
  have hcreates := hs hclient
  rw [hpc] at hcreates
  cases hcreates

/-- Once there is a client, every call delivers. -/
theorem delivers_with_client {n : ℕ} (hclient : s.netClient.isSome = true) (es : List (Event Action Setting n)) :
    Always (step (act c) Setting.apply) (Delivers c) ⟨s, fun _ => Thread.idle⟩ es := by
  have hkeeps : Keeps (act c) Setting.apply (fun _ _ _ => True) (fun s => s.netClient.isSome = true)
      (fun s t => Sound c t ∧ Settled s t) := by
    refine ⟨fun s t a s' t' hs ht _ h => ?_, fun s t k a s' t' hs ht hk _ h => ?_, fun s e s' hs h => ?_⟩
    · exact ⟨(follows_act ht.1 h).exists_of_exists hs, sound_act ht.1 (not_late_of_settled ht.2) h,
        settled_act ht.1 ht.2 h⟩
    · exact ⟨hk.1, fun _ => hk.2 hs⟩
    · rw [netClient_apply h]
      exact ⟨hs, fun k hk => ⟨hk.1, fun _ => hk.2 hs⟩⟩
  refine always_of_step (fun u hu => ?_) (fun u e u' hu h => hkeeps.step u e u' hu ?_ h) _ es
    ⟨hclient, fun _ => ⟨trivial, fun _ => rfl⟩⟩
  · exact delivers_of_holds u ⟨trivial, fun i => (hu.threads i).1⟩
  · cases e <;> trivial

/-- A thread alone sees with the mutex what it has seen without it. -/
theorem delivers_alone (c : Config) (s : Shared) (es : List (Event Action Setting 1)) :
    Always (step (act c) Setting.apply) (Delivers c) ⟨s, fun _ => Thread.idle⟩ es := by
  refine always_of_step (fun u (hu : Holds (fun _ => True) (fun s t => Sound c t ∧ Settled s t) u) => ?_)
    (fun u e u' hu h => ?_) _ es ⟨trivial, fun _ => ⟨trivial, fun _ => rfl⟩⟩
  · exact delivers_of_holds u ⟨trivial, fun i => (hu.threads i).1⟩
  · cases e with
    | thread i a =>
      obtain ⟨⟨shared, t'⟩, hact, rfl⟩ := Option.map_eq_some_iff.mp h
      refine ⟨trivial, fun j => ?_⟩
      obtain ⟨hsound, hsettled⟩ := hu.threads i
      dsimp only
      rw [Subsingleton.elim j i, Function.update_self]
      exact ⟨sound_act hsound (not_late_of_settled hsettled) hact, settled_act hsound hsettled hact⟩
    | world e =>
      obtain ⟨shared, hset, rfl⟩ := Option.map_eq_some_iff.mp h
      refine ⟨trivial, fun j => ⟨(hu.threads j).1, fun hclient => (hu.threads j).2 ?_⟩⟩
      rwa [netClient_apply hset] at hclient

end Alone

end Asapo.Consumer.ConsumerImpl
