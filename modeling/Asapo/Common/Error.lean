import Mathlib

namespace Asapo

/-- A generated error. Two error classes are compared through a cast, so that only
the number of the error type counts and not the class it belongs to. -/
structure Error where
  code : ℕ
  name : String
  message : String
  causedBy : String
  deriving DecidableEq, Repr

structure ErrorTemplate where
  code : ℕ
  name : String
  deriving DecidableEq, Repr

namespace ErrorTemplate

def generate (t : ErrorTemplate) (message : String) : Error := ⟨t.code, t.name, message, ""⟩

def equals (t : ErrorTemplate) : Option Error → Bool
  | none => false
  | some e => t.code = e.code

/-- The inequality of the source is false for a missing error as well. -/
def differs (t : ErrorTemplate) : Option Error → Bool
  | none => false
  | some e => t.code ≠ e.code

@[simp] theorem equals_none (t : ErrorTemplate) : t.equals none = false := rfl

@[simp] theorem equals_some (t : ErrorTemplate) (e : Error) :
    t.equals (some e) = true ↔ t.code = e.code := decide_eq_true_iff

@[simp] theorem generate_code (t : ErrorTemplate) (message : String) :
    (t.generate message).code = t.code := rfl

end ErrorTemplate

namespace Error

def explain (e : Error) : String :=
  "error: " ++ e.name ++ (if e.message = "" then "" else ", message: " ++ e.message) ++
    (if e.causedBy = "" then "" else ", caused by: " ++ e.causedBy)

def setCause (e cause : Error) : Error := { e with causedBy := cause.explain }

@[simp] theorem setCause_code (e cause : Error) : (e.setCause cause).code = e.code := rfl

end Error

namespace GeneralErrorTemplates

def memoryAllocationError : ErrorTemplate := ⟨0, "memory allocation"⟩
def endOfFile : ErrorTemplate := ⟨1, "end of file"⟩
def simpleError : ErrorTemplate := ⟨2, "unnamed error"⟩

end GeneralErrorTemplates

namespace IOErrorTemplates

def unknownIOError : ErrorTemplate := ⟨0, "unknown error"⟩
def resourceTemporarilyUnavailable : ErrorTemplate := ⟨2, "resource temporarily unavailable"⟩
def fileNotFound : ErrorTemplate := ⟨3, "no such file or directory"⟩
def permissionDenied : ErrorTemplate := ⟨5, "permission denied"⟩
def fileAlreadyExists : ErrorTemplate := ⟨12, "kFileAlreadyExists"⟩
def noSpaceLeft : ErrorTemplate := ⟨13, "kNoSpaceLeft"⟩

end IOErrorTemplates

namespace DBErrorTemplates

def jsonParseError : ErrorTemplate := ⟨0, "JSON parse error"⟩
def dbError : ErrorTemplate := ⟨1, "Unknown Error"⟩
def connectionError : ErrorTemplate := ⟨2, "Connection error"⟩
def notConnected : ErrorTemplate := ⟨3, "Not connected"⟩
def insertError : ErrorTemplate := ⟨4, "Insert error"⟩
def duplicateID : ErrorTemplate := ⟨5, "Duplicate ID"⟩
def noRecord : ErrorTemplate := ⟨9, "No record"⟩
def wrongInput : ErrorTemplate := ⟨10, "Wrong input"⟩

end DBErrorTemplates

namespace ReceiverErrorTemplates

def invalidOpCode : ErrorTemplate := ⟨0, "Invalid Opcode"⟩
def badRequest : ErrorTemplate := ⟨1, "Bad request"⟩
def authorizationFailure : ErrorTemplate := ⟨2, "authorization failure"⟩
def internalServerError : ErrorTemplate := ⟨3, "server error"⟩
def reAuthorizationFailure : ErrorTemplate := ⟨4, "reauthorization for auto beamtime failed"⟩
def warningDuplicatedRequest : ErrorTemplate := ⟨5, "Duplicated request, possible due to retry"⟩
def unsupportedClient : ErrorTemplate := ⟨6, "client version not supported"⟩
def processingError : ErrorTemplate := ⟨7, "processing error"⟩

end ReceiverErrorTemplates

namespace ProducerErrorTemplates

def internalServerError : ErrorTemplate := ⟨0, "Internal server error"⟩
def requestPoolIsFull : ErrorTemplate := ⟨1, "Cannot add request to poll - hit pool size limit"⟩
def localIOError : ErrorTemplate := ⟨2, "local i/o error"⟩
def wrongInput : ErrorTemplate := ⟨3, "wrong input"⟩
def serverWarning : ErrorTemplate := ⟨4, "server warning"⟩
def reAuthorizationNeeded : ErrorTemplate := ⟨5, "reauthorization needed"⟩
def unsupportedClient : ErrorTemplate := ⟨6, "cannot connect to asapo"⟩
def timeout : ErrorTemplate := ⟨7, "Timeout"⟩

end ProducerErrorTemplates

end Asapo
