import Asapo.Producer.RequestPool
import Asapo.Producer.Response

namespace Asapo.Producer

namespace RequestHandlerTcp

structure State where
  connected : Bool
  receiversList : List Text
  lastReceiversUriUpdate : ℤ
  deriving DecidableEq, Repr

/-- What happens in one round of the loop over the receivers: to the new connection if one is
needed, to the authorization and to the request. -/
structure Round where
  connect : Option Error
  authorize : Except Error GenericNetworkResponse
  send : Except Error GenericNetworkResponse

/-- What happens while a request is processed: to the file of the request, in the discovery
service and with the receivers. -/
structure Circumstances where
  file : Except Error Bytes
  discovery : Discovery
  rounds : ℕ → Round

def received : Except Error GenericNetworkResponse → Option Error × Text
  | .error err => (some err, [])
  | .ok response => receiveResponse response

/-- A failed connection or authorization leaves the handler disconnected. -/
def connectToReceiver (round : Round) : Option Error :=
  round.connect.or (received round.authorize).1

def trySendToReceiver (round : Round) : Option Error × Text := received round.send

def immediateCallbackAfterError (err : Error) : Bool :=
  ProducerErrorTemplates.wrongInput.equals (some err) ||
    ProducerErrorTemplates.unsupportedClient.equals (some err)

def processRequestCallback (err : Option Error) (r : PoolRequest) (response : Text) :
    PoolRequest × List Effect :=
  if r.callback then
    ({ r with request := { r.request with data := none } },
      [.called r.id ⟨r.request.header, r.request.data, response⟩ err])
  else (r, [])

def giveBack (s : State) (r : PoolRequest) (err : Option Error) (response : Text) (success : Bool) :
    HandlerResult State :=
  let (r, effects) := processRequestCallback err r response
  ⟨s, r, effects, success, false⟩

/-- A round with a connection. Without a result the next receiver is tried. -/
def sendToReceiver (s : State) (r : PoolRequest) (round : Round) : State × Option (HandlerResult State) :=
  let (err, response) := trySendToReceiver round
  let s := if (processErrorFromReceiver err).disconnect then { s with connected := false } else s
  if (processErrorFromReceiver err).retry then (s, none)
  else
    let success := if err.isSome && ProducerErrorTemplates.serverWarning.differs err then false else true
    (s, some (giveBack s r err response success))

def sendToOneOfTheReceivers (r : PoolRequest) : List Text → (ℕ → Round) → State → HandlerResult State
  | [], _, s => ⟨s, r, [], false, true⟩
  | receiverUri :: uris, rounds, s =>
    match if s.connected then none else connectToReceiver (rounds 0) with
    | some err =>
      if immediateCallbackAfterError err then giveBack s r (some err) [] false
      else sendToOneOfTheReceivers r uris (fun i => rounds (i + 1)) s
    | none =>
      let (s, res) := sendToReceiver { s with connected := true } r (rounds 0)
      let res := res.getD (sendToOneOfTheReceivers r uris (fun i => rounds (i + 1)) s)
      { res with effects := .sent r.id receiverUri :: res.effects }

def updateDataSizeFromFileIfNeeded (file : Except Error Bytes) (r : ProducerRequest) :
    Except Error ProducerRequest :=
  if !r.dataFromFile || r.header.dataSize > 0 then .ok r
  else
    match file with
    | .error err => .error (ProducerErrorTemplates.localIOError.generate err.explain)
    | .ok content => .ok { r with file := some content }.updateDataSizeFromFileIfNeeded

def updateReceiversList (d : Discovery) (s : State) : State :=
  { s with receiversList := d.uris, lastReceiversUriUpdate := d.now }

/-- A connection is closed if it is time for a new list of receivers and the list has changed. -/
def rebalance (updateFrequency : ℕ) (d : Discovery) (s : State) : State :=
  if s.connected ∧ ((d.now - s.lastReceiversUriUpdate) % 2 ^ 64).toNat > updateFrequency then
    { updateReceiversList d s with connected := d.uris = s.receiversList }
  else s

def processRequestUnlocked (updateFrequency : ℕ) (s : State) (r : PoolRequest) (o : Circumstances) :
    HandlerResult State :=
  match updateDataSizeFromFileIfNeeded o.file r.request with
  | .error err =>
    ⟨s, r, if r.callback then [.called r.id ⟨r.request.header, none, []⟩ (some err)] else [], false, false⟩
  | .ok request =>
    let s := rebalance updateFrequency o.discovery s
    sendToOneOfTheReceivers { r with request } s.receiversList o.rounds s

def processRequestTimeoutUnlocked (r : PoolRequest) : PoolRequest × List Effect :=
  let errString := "request id:" ++ toString r.request.header.dataId ++ ", opcode: " ++
    toString r.request.header.opCode.code ++ " for " ++ String.ofList r.request.header.stream ++ " stream"
  processRequestCallback (some (ProducerErrorTemplates.timeout.generate errString)) r []

end RequestHandlerTcp

open RequestHandlerTcp in
def requestHandlerTcp (maxConnections updateFrequency : ℕ) : RequestHandler where
  State := State
  Outcome := Circumstances
  initial := ⟨false, [], 0⟩
  readyProcessRequest s ncurrentConnections := s.connected || ncurrentConnections < maxConnections
  prepareProcessingRequestLocked d s ncurrentConnections :=
    if s.connected then (s, ncurrentConnections)
    else (updateReceiversList d s, ncurrentConnections + 1)
  processRequestUnlocked := processRequestUnlocked updateFrequency
  tearDownProcessingRequestLocked success ncurrentConnections :=
    if !success && ncurrentConnections > 0 then ncurrentConnections - 1 else ncurrentConnections
  processRequestTimeoutUnlocked := processRequestTimeoutUnlocked

namespace RequestHandlerFilesystem

structure Circumstances where
  size : Except Error ℕ
  content : Except Error (ℕ → UInt8)
  write : Option Error

/-- The size is looked up if it is not known, and stays if the file cannot be read. -/
def getDataFromFile (r : ProducerRequest) (o : Circumstances) : ProducerRequest × Option Error :=
  match if r.header.dataSize = 0 then o.size.map (· % 2 ^ 64) else .ok r.header.dataSize with
  | .error err => ({ r with data := none }, some err)
  | .ok dataSize =>
    let header := { r.header with dataSize }
    match o.content with
    | .error err => ({ r with header, data := none }, some err)
    | .ok data => ({ r with header, data := some data }, none)

def processRequestUnlocked (r : PoolRequest) (o : Circumstances) : HandlerResult Unit :=
  match if r.request.dataFromFile then getDataFromFile r.request o else (r.request, none) with
  | (request, some _) => ⟨(), { r with request }, [], false, true⟩
  | (request, none) =>
    let (r, effects) := RequestHandlerTcp.processRequestCallback o.write { r with request } []
    ⟨(), r, effects, true, false⟩

end RequestHandlerFilesystem

def requestHandlerFilesystem : RequestHandler where
  State := Unit
  Outcome := RequestHandlerFilesystem.Circumstances
  initial := ()
  readyProcessRequest _ _ := true
  prepareProcessingRequestLocked _ s counter := (s, counter)
  processRequestUnlocked _ := RequestHandlerFilesystem.processRequestUnlocked
  tearDownProcessingRequestLocked _ counter := counter
  processRequestTimeoutUnlocked r := (r, [])

abbrev TcpSystem (n : ℕ) := Interleaving.System RequestPool (Worker RequestHandlerTcp.State) n

abbrev TcpEvent (n : ℕ) := Interleaving.Event (Work RequestHandlerTcp.Circumstances) Order n

abbrev tcpStep {n : ℕ} (maxConnections updateFrequency : ℕ) :
    TcpSystem n → TcpEvent n → Option (TcpSystem n) :=
  Interleaving.step (RequestPool.act (requestHandlerTcp maxConnections updateFrequency)) RequestPool.order

def tcpStart (n : ℕ) (limits : RequestPoolLimits) : TcpSystem n :=
  ⟨.create limits, fun _ => ⟨⟨false, [], 0⟩, .waiting⟩⟩

end Asapo.Producer
