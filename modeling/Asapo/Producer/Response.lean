import Asapo.Common.Error
import Asapo.Common.Networking

namespace Asapo.Producer.RequestHandlerTcp

def receiveResponse (r : GenericNetworkResponse) : Option Error × Text :=
  match r.errorCode with
  | .authorizationError => (some (ProducerErrorTemplates.wrongInput.generate ""), [])
  | .notSupported => (some (ProducerErrorTemplates.unsupportedClient.generate ""), [])
  | .wrongRequest => (some (ProducerErrorTemplates.wrongInput.generate ""), [])
  | .warning => (some (ProducerErrorTemplates.serverWarning.generate ""), [])
  | .reauthorize => (some (ProducerErrorTemplates.reAuthorizationNeeded.generate ""), [])
  | .noError => (none, r.message)
  | .noData | .internalServerError => (some (ProducerErrorTemplates.internalServerError.generate ""), [])

def serverError (err : Option Error) : Bool :=
  err.isSome && (ProducerErrorTemplates.wrongInput.differs err &&
    ProducerErrorTemplates.localIOError.differs err &&
    ProducerErrorTemplates.unsupportedClient.differs err &&
    ProducerErrorTemplates.serverWarning.differs err)

structure Processed where
  disconnect : Bool
  retry : Bool
  deriving DecidableEq, Repr

def processErrorFromReceiver (err : Option Error) : Processed :=
  ⟨err.isSome && ProducerErrorTemplates.serverWarning.differs err, serverError err⟩

/-- The end of a round of `SendToOneOfTheReceivers`: the next receiver is tried, or the
callback gets the error and the request counts as sent or not. -/
inductive Outcome where
  | nextReceiver
  | done (err : Option Error) (response : Text) (success : Bool)
  deriving DecidableEq, Repr

def finishRequest (r : GenericNetworkResponse) : Outcome :=
  let (err, response) := receiveResponse r
  if (processErrorFromReceiver err).retry then .nextReceiver
  else .done err response
    (if err.isSome && ProducerErrorTemplates.serverWarning.differs err then false else true)

/-- The producer takes the request as sent. -/
def TakenAsSent (r : GenericNetworkResponse) : Prop :=
  ∃ err response, finishRequest r = .done err response true

theorem takenAsSent_iff (r : GenericNetworkResponse) :
    TakenAsSent r ↔ r.errorCode = .noError ∨ r.errorCode = .warning := by
  unfold TakenAsSent finishRequest receiveResponse
  cases r.errorCode <;> simp [processErrorFromReceiver, serverError, ErrorTemplate.differs,
    ProducerErrorTemplates.wrongInput, ProducerErrorTemplates.unsupportedClient,
    ProducerErrorTemplates.serverWarning, ProducerErrorTemplates.reAuthorizationNeeded,
    ProducerErrorTemplates.internalServerError, ProducerErrorTemplates.localIOError,
    ErrorTemplate.generate]

end Asapo.Producer.RequestHandlerTcp
