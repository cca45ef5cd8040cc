import Asapo.Common.DataStructs
import Asapo.Common.JsonParser

namespace Asapo.Consumer

namespace ConsumerErrorTemplates

def noData : ErrorTemplate := ⟨0, "no data"⟩
def endOfStream : ErrorTemplate := ⟨1, "no data - end of stream"⟩
def streamFinished : ErrorTemplate := ⟨2, "stream finished"⟩
def unavailableService : ErrorTemplate := ⟨3, "service unavailable"⟩
def interruptedTransaction : ErrorTemplate := ⟨4, "server error"⟩
def localIOError : ErrorTemplate := ⟨5, "local i/o error"⟩
def wrongInput : ErrorTemplate := ⟨6, "wrong input"⟩
def partialData : ErrorTemplate := ⟨7, "partial data"⟩
def unsupportedClient : ErrorTemplate := ⟨8, "unsupported client version"⟩

end ConsumerErrorTemplates

namespace HttpErrorTemplates

def transferError : ErrorTemplate := ⟨0, "possible transfer error"⟩
def connectionError : ErrorTemplate := ⟨1, "connection error"⟩

end HttpErrorTemplates

namespace ConsumerImpl

open ConsumerErrorTemplates

inductive HttpCode where
  | ok
  | noContent
  | partialContent
  | badRequest
  | unauthorized
  | internalServerError
  | serviceUnavailable
  | notFound
  | conflict
  | unsupportedMediaType
  | other (code : ℕ)
  deriving DecidableEq, Repr

structure HttpAnswer where
  code : HttpCode
  body : Bytes
  deriving DecidableEq, Repr

inductive OutputDataMode where
  | string
  | array
  deriving DecidableEq, Repr

structure RequestInfo where
  host : Text
  api : Text
  extraParams : Text
  body : Text
  cookie : Text
  outputMode : OutputDataMode
  post : Bool
  deriving DecidableEq, Repr

def getNoDataResponseFromJson (json : Text) : Except Error ConsumerErrorData := do
  let parser := RapidJson.ofText json
  let id ← parser.getUInt64 "id"
  let idMax ← parser.getUInt64 "id_max"
  let nextStream ← parser.getString "next_stream"
  return ⟨id, idMax, nextStream⟩

def getPartialDataResponseFromJson (json : Text) : Except Error (ℕ × ℕ) := do
  let parser := RapidJson.ofText json
  let size ← parser.getUInt64 "size"
  let id ← parser.getUInt64 "_id"
  return (id, size)

def consumerErrorFromPartialDataResponse (response : Text) : Error :=
  match getPartialDataResponseFromJson response with
  | .error _ => interruptedTransaction.generate "malformed response"
  | .ok _ => partialData.generate ""

def generated : ConsumerError → Error
  | .streamFinished _ => streamFinished.generate ""
  | .endOfStream _ => endOfStream.generate ""
  | .noData _ => noData.generate ""
  | .partialData _ => partialData.generate ""
  | .interruptedTransaction => interruptedTransaction.generate ""
  | .unavailableService => unavailableService.generate ""
  | .wrongInput => wrongInput.generate ""

def consumerErrorFromNoDataResponse (response : Text) : Error :=
  if text "get_record_by_id" <:+: response then
    match getNoDataResponseFromJson response with
    | .error _ => interruptedTransaction.generate ("malformed response - " ++ String.ofList response)
    | .ok data => generated (noDataError data)
  else noData.generate ""

def consumerErrorFromHttpCode (response : Text) : HttpCode → Option Error
  | .ok => none
  | .noContent => none
  | .partialContent => some (consumerErrorFromPartialDataResponse response)
  | .badRequest => some (wrongInput.generate (String.ofList response))
  | .unauthorized => some (wrongInput.generate (String.ofList response))
  | .internalServerError => some (interruptedTransaction.generate (String.ofList response))
  | .serviceUnavailable => some (unavailableService.generate (String.ofList response))
  | .notFound => some (unavailableService.generate (String.ofList response))
  | .conflict => some (consumerErrorFromNoDataResponse response)
  | .unsupportedMediaType => some (unsupportedClient.generate (String.ofList response))
  | .other _ => some (interruptedTransaction.generate (String.ofList response))

def consumerErrorFromServerError (serverErr : Error) : Error :=
  if HttpErrorTemplates.transferError.equals (some serverErr) then interruptedTransaction.generate ""
  else unavailableService.generate ""

def processRequestResponce : Except Error HttpAnswer → Option Error
  | .error serverErr => some ((consumerErrorFromServerError serverErr).setCause serverErr)
  | .ok answer => consumerErrorFromHttpCode (cString (textOfBytes answer.body)) answer.code

def stringOutput : Except Error HttpAnswer → Text
  | .error _ => []
  | .ok answer => textOfBytes answer.body

/-- `Post` into an array that has room for the expected size and an error message. -/
def postArray (size : ℕ) (allocated : Bool) (result : Except Error HttpAnswer) : Except Error HttpAnswer :=
  if allocated then
    match result with
    | .error err => .error err
    | .ok answer =>
      if (size + 10000) % 2 ^ 64 < answer.body.length then .error (HttpErrorTemplates.transferError.generate "")
      else if answer.code = .ok ∧ size ≠ answer.body.length then
        .error (HttpErrorTemplates.transferError.generate
          ("received " ++ toString answer.body.length ++ ", expected " ++ toString size ++ "bytes"))
      else .ok answer
  else .error (GeneralErrorTemplates.memoryAllocationError.generate "")

def processPostRequest (request : RequestInfo) (size : ℕ) (allocated : Bool)
    (result : Except Error HttpAnswer) : Except Error HttpAnswer :=
  match request.outputMode with
  | .string => result
  | .array => postArray size allocated result

/-- The error of a service that could not be discovered. An answer without an address has no cause. -/
def processDiscoverServiceResult : Option Error → Error
  | none => unavailableService.generate ""
  | some err =>
    if unsupportedClient.equals (some err) then err else (unavailableService.generate "").setCause err

inductive Loop (A : Type) where
  | start
  | test
  | interrupted
  | attempt (a : A)
  | sleep
  deriving DecidableEq, Repr

structure Attempts where
  elapsedMs : ℕ
  err : Option Error
  deriving DecidableEq, Repr

structure Control where
  interruptFlag : Bool
  timeoutMs : ℕ
  deriving DecidableEq, Repr

/-- What the loops have in common: the next turn, or the error behind the loop. -/
def Loop.next {A : Type} (first : A) (s : Control) (r : Attempts) :
    Loop A → Option (Control × (Loop A × Attempts ⊕ Option Error))
  | .start => some ({ s with interruptFlag := false }, .inl (.test, ⟨0, none⟩))
  | .test => if r.elapsedMs ≤ s.timeoutMs then some (s, .inl (.interrupted, r)) else some (s, .inr r.err)
  | .interrupted =>
    if s.interruptFlag then
      some (s, .inr (some (interruptedTransaction.generate "interrupted by user request")))
    else some (s, .inl (.attempt first, r))
  | _ => none

def Attempts.slept (r : Attempts) (ms : ℕ) : Attempts := { r with elapsedMs := (r.elapsedMs + ms) % 2 ^ 64 }

/-- A loop that has not failed yet is in its first turn, so that it does not end without an error. -/
def Loop.Sound {A : Type} (r : Attempts) : Loop A → Prop
  | .test => r.err = none → r.elapsedMs = 0
  | .sleep => r.err ≠ none
  | _ => True

variable {A : Type} {first : A} {s s' : Control} {r r' : Attempts} {loop loop' : Loop A} {err : Option Error}

theorem Loop.sound_next (hsound : loop.Sound r) (h : loop.next first s r = some (s', .inl (loop', r'))) :
    loop'.Sound r' := by
  unfold Loop.next at h
  split at h
  · cases h
    exact fun _ => rfl
  · split at h <;> cases h
    trivial
  · split at h <;> cases h
    trivial
  · cases h

theorem Loop.fails_next (hsound : loop.Sound r) (h : loop.next first s r = some (s', .inr err)) : err ≠ none := by
  unfold Loop.next at h
  split at h
  · cases h
  · split at h <;> cases h
    rename_i htest
    intro hnone
    have hzero : r.elapsedMs = 0 := hsound hnone
    omega
  · split at h <;> cases h
    exact Option.some_ne_none _
  · cases h

theorem Loop.sound_slept (hsound : Loop.Sound r (.sleep : Loop A)) (ms : ℕ) :
    Loop.Sound (r.slept ms) (.test : Loop A) := fun hnone => absurd hnone hsound

end ConsumerImpl

end Asapo.Consumer
