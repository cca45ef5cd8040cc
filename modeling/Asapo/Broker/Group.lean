import Asapo.Common.DataStructs

namespace Asapo.Broker

/-- How far a document can be read. `json.Marshal` refuses one that holds a number which is
not finite; `MapToStruct` starts with it and then reads the fields of a `MessageRecord`. -/
inductive Reading where
  | unencodable
  | encodable
  | message
  deriving DecidableEq, Repr

/-- What the broker looks at in a document of a data collection. -/
structure Record where
  reading : Reading
  name : Text
  nextStream : Option Text
  /-- The number of the messages in a dataset. -/
  messages : Option ℕ
  size : Option ℤ
  deriving DecidableEq, Repr

def Record.encodable (record : Record) : Bool := record.reading != .unencodable

def Record.readable (record : Record) : Bool := record.reading == .message

def int64 (x : ℤ) : ℤ := (x + 2 ^ 63) % 2 ^ 64 - 2 ^ 63

structure InProcessingRecord where
  id : ℕ
  maxResendAttempts : ℤ
  resendAttempts : ℤ
  /-- The time from which the message may be sent again, in nanoseconds. -/
  delayMs : ℤ
  deriving DecidableEq, Repr

/-- The documents of one group and stream, and the entry of the group in
`lastReadFromInprocess`. -/
structure Group where
  data : List (ℕ × Record)
  pointer : Option ℕ
  inprocess : List InProcessingRecord
  acks : List ℕ
  lastRead : ℤ
  deriving DecidableEq, Repr

inductive DBError where
  | noData (id idMax : ℤ) (nextStream : Text)
  | partialData (id : ℕ)
  | wrongInput (message : String)
  /-- An error of the database that is passed on as it is. -/
  | other
  /-- The handler panics, so that the client gets no answer. -/
  | panic
  deriving DecidableEq, Repr

structure NextRequest where
  datasetOp : Bool
  minDatasetSize : ℤ
  extraParam : Text
  deriving DecidableEq, Repr

def atoi (s : Text) : Option ℤ :=
  let digits := if s.head? = some '-' ∨ s.head? = some '+' then s.tail else s
  let value := digits.foldl (fun n c => 10 * n + ((c.toNat : ℤ) - '0'.toNat)) 0
  let signed := if s.head? = some '-' then -value else value
  if digits ≠ [] ∧ digits.all Char.isDigit ∧ -(2 ^ 63) ≤ signed ∧ signed < 2 ^ 63 then some signed else none

def extractsTwoIntsFromString (s : Text) : Option (ℤ × ℤ) :=
  match s.splitOn '_' with
  | [first, second] => (atoi first).bind (fun x => (atoi second).map (fun y => (x, y)))
  | _ => none

namespace Group

def getMaxIndex (g : Group) : ℕ := g.data.foldr (fun record m => max record.1 m) 0

def getRecordFromDb (g : Group) (id idMax : ℕ) : Except DBError Record :=
  match g.data.find? (fun record => record.1 = id) with
  | none => .error (.noData id idMax [])
  | some record => .ok record.2

def finishStreamKeyword : Text := text "asapo_finish_stream"

def checkStreamFinished (id idMax : ℕ) (record : Record) : Option DBError :=
  if id ≠ idMax then none
  else if record.readable ∧ record.name = finishStreamKeyword then
    some (.noData (id - 1) (id - 1) (record.nextStream.getD (text "asapo_no_next")))
  else none

def addMessage (encodable : Bool) (record : Record) : Record :=
  { record with
    reading := if encodable then record.reading else .unencodable
    messages := record.messages.map (· + 1) }

def isDataset (record : Record) : Bool := record.messages.isSome && record.name ≠ finishStreamKeyword

/-- The second condition on the size has the same test as the first one in the source. -/
def recordContainsPartialData (r : NextRequest) (record : Record) : Bool :=
  if !r.datasetOp then false
  else if record.name = finishStreamKeyword then false
  else
    match record.messages, record.size with
    | some n, some size =>
      r.minDatasetSize = 0 && n ≠ size || r.minDatasetSize = 0 && n < r.minDatasetSize
    | _, _ => false

def getRecordByIDRaw (g : Group) (r : NextRequest) (id idMax : ℕ) : Except DBError Record :=
  match g.getRecordFromDb id idMax with
  | .error err => .error err
  | .ok record =>
    match checkStreamFinished id idMax record with
    | some err => .error err
    | none =>
      if !record.encodable then .error .other
      else if recordContainsPartialData r record then .error (.partialData id)
      else .ok record

def errorWhenCannotSetField (g : Group) (maxInd : ℕ) : DBError :=
  match g.getRecordFromDb maxInd maxInd with
  | .error _ => .noData maxInd maxInd []
  | .ok record => (checkStreamFinished maxInd maxInd record).getD (.noData maxInd maxInd [])

/-- `FindOneAndUpdate` of the pointer, which must be below the maximum. Without a pointer
and with upsert it is created; otherwise nothing is found, or the key is there already. -/
def incPointer (g : Group) (upsert : Bool) (maxInd : ℕ) : Option (ℕ × Group) :=
  match g.pointer with
  | none => if upsert then some (1, { g with pointer := some 1 }) else none
  | some v => if v < maxInd then some (v + 1, { g with pointer := some (v + 1) }) else none

def unprocessed (now : ℤ) (record : InProcessingRecord) : Bool :=
  record.delayMs ≤ now && record.resendAttempts < record.maxResendAttempts

def resend (now delayMs nResendAttempts : ℤ) (record : InProcessingRecord) : InProcessingRecord :=
  { record with
    delayMs := int64 (now + delayMs * 1000000)
    maxResendAttempts := if nResendAttempts = 0 then 2 ^ 31 - 1 else nResendAttempts
    resendAttempts := record.resendAttempts + 1 }

/-- `getUnProcessedId`. The database chooses one of the documents that match, or answers
that there is none. -/
def getUnProcessedId (g : Group) (now delayMs nResendAttempts : ℤ) : Option ℕ → Option (ℕ × Group)
  | none => if g.inprocess.any (unprocessed now) then none else some (0, g)
  | some id =>
    if g.inprocess.any (fun record => record.id = id && unprocessed now record) then
      some (id, { g with
        inprocess := g.inprocess.map (fun record =>
          if record.id = id then resend now delayMs nResendAttempts record else record) })
    else none

/-- `InsertRecordToInprocess` without replacement. -/
def insertRecordToInprocess (g : Group) (now : ℤ) (id : ℕ) (delayMs nResendAttempts : ℤ) : Group :=
  if g.inprocess.any (fun record => record.id = id) then g
  else { g with inprocess := g.inprocess ++ [⟨id, nResendAttempts, 0, int64 (now + delayMs * 1000000)⟩] }

end Group

end Asapo.Broker
