import Asapo.Memory
import Asapo.Receiver.CacheLocks
import Asapo.Receiver.Request

namespace Asapo.Receiver.Payload

open RequestHandlerReceiveData RequestFactory

/-- How a handler reads the payload: by the size in the header, or as a C string. -/
inductive Reader where
  | sized
  | terminated
  deriving DecidableEq, Repr

def metaIngestMode (h : GenericRequestHeader) (op : MetaIngestOp) : MetaIngestMode :=
  if versionToNumber h.apiVersion < 3 then ⟨.replace, true⟩
  else .decode op (h.customData kPosMetaIngestMode)

/-- `PrepareUpdateDocument` builds a string from the bare pointer, the other document
constructors and the file writer take the size. -/
def payloadReader (handlers : List Handler) (h : GenericRequestHeader) (op : MetaIngestOp) :
    Option Reader :=
  if .fileWrite ∈ handlers then some .sized
  else if .dbMetaWrite ∈ handlers then
    some (if (metaIngestMode h op).op = .update then .terminated else .sized)
  else none

inductive Stage where
  | idle
  | opened
  | receiving (slot : ℕ)
  | received
  | stored
  deriving DecidableEq, Repr

/-- The request that a connection works on: what its socket delivered for the payload and
what the handlers behind the receiving one have read of it through `GetData`. -/
structure Connection where
  header : GenericRequestHeader
  reader : Option Reader
  dataPtr : ℕ
  stage : Stage
  socket : Bytes
  stored : Bytes
  deriving DecidableEq

namespace Connection

def size (c : Connection) : ℕ := c.header.dataSize

def read (c : Connection) (memory : ℕ → UInt8) (count : ℕ) : Reader → Connection
  | .sized =>
    let n := min count (c.size - c.stored.length)
    { c with
      stored := c.stored ++ Memory.slice memory (c.dataPtr + c.stored.length) n
      stage := if c.stored.length + n = c.size then .stored else .received }
  | .terminated =>
    let chunk := (Memory.slice memory (c.dataPtr + c.stored.length) count).takeWhile (· ≠ 0)
    { c with
      stored := c.stored ++ chunk
      stage := if chunk.length < count then .stored else .received }

end Connection

/-- The receiver with `n` connections on one cache. The pointers in `readers` are locked
by the data server. -/
structure State (n : ℕ) where
  shared : SharedCache
  memory : ℕ → UInt8
  connections : Fin n → Connection
  readers : List ℕ

inductive Event (n : ℕ) where
  | openRequest (k : Fin n) (header : GenericRequestHeader) (dataPtr : ℕ) (op : MetaIngestOp)
  | prepare (k : Fin n) (timeMillis : ℕ)
  | receive (k : Fin n) (chunk : Bytes)
  | unlock (k : Fin n)
  | read (k : Fin n) (count : ℕ)
  | finish (k : Fin n)
  | getSlotToReadAndLock (id dataSize : ℕ)
  | unlockSlot (ptr : ℕ)
  deriving DecidableEq

namespace State

variable {n : ℕ}

def set (s : State n) (k : Fin n) (c : Connection) : State n :=
  { s with connections := fun j => if j = k then c else s.connections j }

/-- A request whose chain has no receiving handler does not touch the cache and is left
out. The member `data_ptr` has no initial value, so an arbitrary one is given. -/
def openRequest (thresholdMb : ℕ) (s : State n) (k : Fin n) (h : GenericRequestHeader)
    (dataPtr : ℕ) (op : MetaIngestOp) : Option (State n) :=
  match (s.connections k).stage, addHandlersToRequest thresholdMb h with
  | .idle, .ok handlers =>
    if .receiveData ∈ handlers then
      some (s.set k ⟨h, payloadReader handlers h op, dataPtr, .opened, [], []⟩)
    else none
  | _, _ => none

def prepare (s : State n) (k : Fin n) (timeMillis : ℕ) : Option (State n) :=
  let c := s.connections k
  match c.stage with
  | .opened =>
    if needReceiveData c.header then
      let r := s.shared.cache.getFreeSlotAndLock c.size timeMillis
      let s := { s with shared := s.shared.hold r }
      match r.2 with
      | none => some (s.set k { c with stage := .idle })
      | some slot => some (s.set k { c with dataPtr := slot.addr, stage := .receiving slot.ptr })
    else some (s.set k { c with stage := .received })
  | _ => none

def receive (s : State n) (k : Fin n) (chunk : Bytes) : Option (State n) :=
  let c := s.connections k
  match c.stage with
  | .receiving _ =>
    if c.socket.length + chunk.length ≤ c.size then
      some ({ s with memory := Memory.write s.memory (c.dataPtr + c.socket.length) chunk }.set k
        { c with socket := c.socket ++ chunk })
    else none
  | _ => none

/-- The slot is unlocked before the next handler runs. A request whose data did not
arrive in full ends with an error. -/
def unlock (s : State n) (k : Fin n) : Option (State n) :=
  let c := s.connections k
  match c.stage with
  | .receiving slot =>
    (s.shared.step (.unlockSlot slot)).map (fun shared =>
      { s with shared := shared }.set k
        { c with stage := if c.socket.length = c.size then .received else .idle })
  | _ => none

def read (s : State n) (k : Fin n) (count : ℕ) : Option (State n) :=
  let c := s.connections k
  match c.stage, c.reader with
  | .received, some reader => some (s.set k (c.read s.memory count reader))
  | _, _ => none

def finish (s : State n) (k : Fin n) : Option (State n) :=
  let c := s.connections k
  match c.stage with
  | .receiving _ => none
  | _ => some (s.set k { c with stage := .idle })

def step (thresholdMb : ℕ) (s : State n) : Event n → Option (State n)
  | .openRequest k h dataPtr op => s.openRequest thresholdMb k h dataPtr op
  | .prepare k timeMillis => s.prepare k timeMillis
  | .receive k chunk => s.receive k chunk
  | .unlock k => s.unlock k
  | .read k count => s.read k count
  | .finish k => s.finish k
  | .getSlotToReadAndLock id dataSize =>
    let r := s.shared.cache.getSlotToReadAndLock id dataSize
    some { s with
      shared := s.shared.hold r
      readers := (r.2.map (fun m => m.ptr)).toList ++ s.readers }
  | .unlockSlot ptr =>
    if ptr ∈ s.readers then
      (s.shared.step (.unlockSlot ptr)).map (fun shared =>
        { s with shared := shared, readers := s.readers.erase ptr })
    else none

def initial (cache : DataCache) (memory : ℕ → UInt8) (h : GenericRequestHeader) : State n :=
  ⟨⟨cache, []⟩, memory, fun _ => ⟨h, none, 0, .idle, [], []⟩, []⟩

/-- What the handlers have read of a payload is what the socket delivered, and all of it
once they are done. -/
def PayloadKept (s : State n) : Prop :=
  ∀ k, (s.connections k).stored <+: (s.connections k).socket ∧
    ((s.connections k).stage = .stored →
      (s.connections k).stored = (s.connections k).socket ∧
        (s.connections k).socket.length = (s.connections k).size)

instance (s : State n) : Decidable s.PayloadKept := by
  unfold PayloadKept
  infer_instance

end State

end Asapo.Receiver.Payload
