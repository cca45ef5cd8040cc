import Asapo.Common.Error
import Asapo.Common.Networking
import Asapo.Transition

namespace Asapo.SystemIO

def kMaxTransferChunkSize : ℕ := 1024 * 1024 * 1024 * 2

/-- What the system makes of a call: it transfers up to some number of bytes, or fails with
an error. -/
inductive Outcome where
  | amount (k : ℕ)
  | failed (err : Error)

/-- Where a call of `SendFile` or `ReceiveDataToFile` is: in `Transfer` into the buffer, in
`Transfer` of the rest of a buffer with its size, or at its end. -/
inductive Phase where
  | reading (buffer : Bytes)
  | writing (rest : Bytes) (size : ℕ)
  | returned (err : Option Error)

structure State where
  source : Bytes
  sink : Bytes
  total : ℕ
  phase : Phase

section

variable (request : ℕ → ℕ) (length : ℕ)

def loop (s : State) : State :=
  if s.total < length then { s with phase := .reading [] } else { s with phase := .returned none }

def write (buffer : Bytes) (s : State) : State :=
  if buffer = [] then loop length s else { s with phase := .writing buffer buffer.length }

/-- The number of bytes that a call can read, which is zero at the end of the source only. -/
def readAmount (k room : ℕ) : ℕ := max 1 (min k (min kMaxTransferChunkSize room))

def readSome (buffer : Bytes) (k : ℕ) (s : State) : State :=
  if s.source = [] then write length buffer s
  else
    let n := readAmount k (request s.total - buffer.length)
    let buffer := buffer ++ s.source.take n
    let s := { s with source := s.source.drop n }
    if buffer.length < request s.total then { s with phase := .reading buffer } else write length buffer s

/-- An error in the first `Transfer`. The end of a file is ignored, and errors are told apart
by their codes. -/
def readError (buffer : Bytes) (err : Error) (s : State) : State :=
  if GeneralErrorTemplates.endOfFile.differs (some err) then { s with phase := .returned (some err) }
  else write length buffer s

def writeSome (rest : Bytes) (size k : ℕ) (s : State) : State :=
  if k = 0 then { s with phase := .returned (some (GeneralErrorTemplates.endOfFile.generate "")) }
  else
    let n := min k (min kMaxTransferChunkSize rest.length)
    let s := { s with sink := s.sink ++ rest.take n }
    if n < rest.length then { s with phase := .writing (rest.drop n) size }
    else loop length { s with total := s.total + size }

def step (o : Outcome) (s : State) : State :=
  match s.phase, o with
  | .reading buffer, .amount k => readSome request length buffer k s
  | .writing rest size, .amount k => writeSome length rest size k s
  | .reading buffer, .failed err =>
    if IOErrorTemplates.resourceTemporarilyUnavailable.equals (some err) then s else readError length buffer err s
  | .writing _ _, .failed err =>
    if IOErrorTemplates.resourceTemporarilyUnavailable.equals (some err) then s
    else { s with phase := .returned (some err) }
  | .returned _, _ => s

def start (setup : Option Error) (source : Bytes) : State :=
  match setup with
  | some err => ⟨source, [], 0, .returned (some err)⟩
  | none => loop length ⟨source, [], 0, .returned none⟩

end

def sendFileRequest (length : ℕ) (_ : ℕ) : ℕ := min length kReadWriteBufSize

def receiveRequest (length total : ℕ) : ℕ := min (min length kReadWriteBufSize) (length - total)

def sendFile (length : ℕ) (file : Bytes) (setup : Option Error) (outcomes : ℕ → Outcome) : ℕ → State :=
  Progress.states (step (sendFileRequest length) length) outcomes (start length setup file)

def receiveDataToFile (length : ℕ) (incoming : Bytes) (setup : Option Error) (outcomes : ℕ → Outcome) : ℕ → State :=
  Progress.states (step (receiveRequest length) length) outcomes (start length setup incoming)

end Asapo.SystemIO
