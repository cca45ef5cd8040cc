import Asapo.Common.DataStructs
import Asapo.Consumer.TcpConnectionPool

namespace Asapo.Consumer

namespace RdsResponseErrorTemplates

def reauthorize : ErrorTemplate := ⟨1, "RDS response Reauthorize"⟩
def warning : ErrorTemplate := ⟨2, "RDS response Warning"⟩
def wrongRequest : ErrorTemplate := ⟨3, "RDS response WrongRequest"⟩
def notSupported : ErrorTemplate := ⟨4, "RDS unsupported client"⟩
def noData : ErrorTemplate := ⟨5, "RDS response NoData"⟩
def authorizationError : ErrorTemplate := ⟨6, "RDS response AuthorizationError"⟩
def internalServerError : ErrorTemplate := ⟨65535, "RDS response InternalServerError"⟩

end RdsResponseErrorTemplates

/-- An error code that a server answers with, or a number that is none. -/
abbrev ResponseCode := NetworkErrorCode ⊕ ℕ

open RdsResponseErrorTemplates in
def convertRdsResponseToError : ResponseCode → Option Error
  | .inl .noError => none
  | .inl .notSupported => some (notSupported.generate "")
  | .inl .reauthorize => some (reauthorize.generate "")
  | .inl .warning => some (warning.generate "")
  | .inl .wrongRequest => some (wrongRequest.generate "")
  | .inl .noData => some (noData.generate "")
  | .inl .authorizationError => some (authorizationError.generate "")
  | .inl .internalServerError => some (internalServerError.generate "")
  | .inr code =>
    some (GeneralErrorTemplates.simpleError.generate ("Unknown RDS response code " ++ toString code))

inductive CleanUp where
  | release
  | close
  deriving DecidableEq, Repr

inductive Call where
  | returned (err : Option Error)
  | getFreeConnection (info : MessageMeta)
  | sendGetDataRequest (info : MessageMeta) (sd : SocketDescriptor) (tryReconnect : Bool)
  | reconnect (info : MessageMeta) (sd : SocketDescriptor)
  | receiveResponse (info : MessageMeta) (sd : SocketDescriptor)
  | allocate (info : MessageMeta) (sd : SocketDescriptor)
  | receiveData (info : MessageMeta) (sd : SocketDescriptor)
  | cleanUp (info : MessageMeta) (sd : SocketDescriptor) (todo : CleanUp) (rest : List CleanUp)
      (err : Option Error) (tryReconnect : Bool)
  deriving DecidableEq

inductive Step where
  | getData (info : MessageMeta)
  | pool (connected : Except Error SocketDescriptor)
  | send (err : Option Error)
  | receiveResponse (answer : Except Error ResponseCode)
  | allocate (fault : Bool)
  | receiveData (err : Option Error)
  | release
  | close (fault : Bool)

namespace Call

def cleanUpWith (info : MessageMeta) (sd : SocketDescriptor) (err : Option Error) (tryReconnect : Bool) :
    List CleanUp → Call
  | todo :: rest => .cleanUp info sd todo rest err tryReconnect
  | [] => if tryReconnect then .reconnect info sd else .returned err

def responseCleanUp : ResponseCode → List CleanUp
  | .inl .notSupported => [.close, .release]
  | .inl .wrongRequest => [.close]
  | .inl .noData => [.release]
  | _ => []

def behindResponse (info : MessageMeta) (sd : SocketDescriptor) (code : ResponseCode) : Call :=
  match convertRdsResponseToError code with
  | none => .allocate info sd
  | some err => cleanUpWith info sd (some err) false (responseCleanUp code)

/-- A socket whose closing fails stays open. -/
def step (s : Network) : Call → Step → Option (Network × Call)
  | .returned _, .getData info => some (s, .getFreeConnection info)
  | .getFreeConnection info, .pool connected =>
    (s.getFreeConnection info.source connected).map (fun (s, res) =>
      match res with
      | .error err => (s, .returned (some err))
      | .ok (sd, reused) => (s, .sendGetDataRequest info sd reused))
  | .sendGetDataRequest info sd tryReconnect, .send err =>
    match err with
    | none => some (s, .receiveResponse info sd)
    | some err => some (s, cleanUpWith info sd (some err) tryReconnect [.release, .close])
  | .reconnect info sd, .pool connected =>
    (s.reconnect sd connected).map (fun (s, res) =>
      match res with
      | .error err => (s, .returned (some err))
      | .ok sd => (s, .sendGetDataRequest info sd false))
  | .receiveResponse info sd, .receiveResponse answer =>
    match answer with
    | .error err => some (s, cleanUpWith info sd (some err) false [.close, .release])
    | .ok code => some (s, behindResponse info sd code)
  | .allocate info sd, .allocate fault =>
    if fault then
      some (s, cleanUpWith info sd
        (some (GeneralErrorTemplates.memoryAllocationError.generate "")) false [.release])
    else some (s, .receiveData info sd)
  | .receiveData info sd, .receiveData err =>
    match err with
    | none => some (s, cleanUpWith info sd none false [.release])
    | some err => some (s, cleanUpWith info sd (some err) false [.release, .close])
  | .cleanUp info sd .release rest err tryReconnect, .release =>
    some (s.releaseConnection sd, cleanUpWith info sd err tryReconnect rest)
  | .cleanUp info sd .close rest err tryReconnect, .close fault =>
    some (if fault then s else s.closeSocket sd, cleanUpWith info sd err tryReconnect rest)
  | _, _ => none

def uses : Call → Option (Text × SocketDescriptor)
  | .sendGetDataRequest info sd _ => some (info.source, sd)
  | .receiveResponse info sd => some (info.source, sd)
  | .receiveData info sd => some (info.source, sd)
  | _ => none

end Call

end Asapo.Consumer
