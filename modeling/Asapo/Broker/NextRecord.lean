import Asapo.Broker.Group

namespace Asapo.Broker

/-- Where `getNextAndMaxIndexesFromInprocessed` is called from, with what the caller needs
afterwards. -/
inductive Phase where
  | first
  | afterNoData (err : DBError)
  | afterRecord (nextInd : ℕ) (err : DBError)
  deriving DecidableEq, Repr

inductive NextPc where
  | lookUp (phase : Phase)
  | unprocessed (phase : Phase)
  | inprocessMax (phase : Phase) (id : ℕ)
  | noteRead (phase : Phase)
  | pointerMax
  | upsert (maxInd : ℕ)
  | retry (maxInd : ℕ)
  | explain (maxInd : ℕ)
  | record (nextInd maxInd : ℕ)
  | otherRecord (nextInd id maxInd : ℕ)
  | insert (nextInd : ℕ) (answer : ℕ × Record)
  deriving DecidableEq, Repr

abbrev Answer := Except DBError (ℕ × Record)

structure Tick where
  now : ℤ
  choice : Option ℕ
  fault : Bool

namespace NextPc

def ignoreTimeout : Phase → Bool
  | .first => false
  | _ => true

def behindInprocessed (id maxInd : ℕ) : Phase → NextPc ⊕ Answer
  | .first => .inl (if id ≠ 0 then .record id maxInd else .pointerMax)
  | .afterNoData err => if id ≠ 0 then .inl (.record id maxInd) else .inr (.error err)
  | .afterRecord nextInd err =>
    if id ≠ 0 then .inl (.otherRecord nextInd id maxInd) else .inr (.error err)

def behindRecord (r : NextRequest) (nextInd : ℕ) (answer : ℕ × Record) : NextPc ⊕ Answer :=
  if r.extraParam = [] then .inr (.ok answer) else .inl (.insert nextInd answer)

def resendParams (r : NextRequest) : Option (ℤ × ℤ) :=
  if r.extraParam = [] then some (0, -1) else extractsTwoIntsFromString r.extraParam

/-- One operation of `getNextRecord`. An error of the database that is not about missing
data is lost behind the pointer, and the record with the id 0 is asked for. -/
def step (period : ℤ) (r : NextRequest) (tick : Tick) (g : Group) :
    NextPc → Option (Group × (NextPc ⊕ Answer))
  | .lookUp phase =>
    match resendParams r with
    | none => some (g, .inr (.error .other))
    | some _ =>
      if g.lastRead ≤ tick.now / 1000000000 - period ∨ ignoreTimeout phase then
        some (g, .inl (.unprocessed phase))
      else some (g, .inl (.noteRead phase))
  | .unprocessed phase =>
    if tick.fault then some (g, .inr (.error .other))
    else
      (resendParams r).bind (fun (delayMs, nResendAttempts) =>
        (g.getUnProcessedId tick.now delayMs nResendAttempts tick.choice).map (fun (id, g) =>
          (g, .inl (if id ≠ 0 then .inprocessMax phase id else .noteRead phase))))
  | .inprocessMax phase id =>
    if tick.fault then some (g, .inr (.error .other))
    else some (g, behindInprocessed id g.getMaxIndex phase)
  | .noteRead phase =>
    some ({ g with lastRead := tick.now / 1000000000 }, behindInprocessed 0 0 phase)
  | .pointerMax =>
    if tick.fault then some (g, .inl (.record 0 0))
    else if g.getMaxIndex = 0 then some (g, .inl (.lookUp (.afterNoData (.noData 0 0 []))))
    else some (g, .inl (.upsert g.getMaxIndex))
  | .upsert maxInd =>
    if tick.fault then some (g, .inl (.record 0 0))
    else
      match g.incPointer true maxInd with
      | some (v, g) => some (g, .inl (.record v maxInd))
      | none => some (g, .inl (.retry maxInd))
  | .retry maxInd =>
    if tick.fault then some (g, .inl (.explain maxInd))
    else
      match g.incPointer false maxInd with
      | some (v, g) => some (g, .inl (.record v maxInd))
      | none => some (g, .inl (.explain maxInd))
  | .explain maxInd =>
    let err := if tick.fault then .noData maxInd maxInd [] else g.errorWhenCannotSetField maxInd
    some (g, .inl (.lookUp (.afterNoData err)))
  | .record nextInd maxInd =>
    let answer := if tick.fault then .error (.noData nextInd maxInd [])
      else g.getRecordByIDRaw r nextInd maxInd
    match answer with
    | .error err => some (g, .inl (.lookUp (.afterRecord nextInd err)))
    | .ok found => some (g, behindRecord r nextInd (nextInd, found))
  | .otherRecord nextInd id maxInd =>
    let answer := if tick.fault then .error (.noData id maxInd [])
      else g.getRecordByIDRaw r id maxInd
    match answer with
    | .error err => some (g, .inr (.error err))
    | .ok found => some (g, behindRecord r nextInd (id, found))
  | .insert nextInd answer =>
    match extractsTwoIntsFromString r.extraParam with
    | none => some (g, .inr (.error .other))
    | some (delayMs, nResendAttempts) =>
      if tick.fault then some (g, .inr (.error .other))
      else some (g.insertRecordToInprocess tick.now nextInd delayMs nResendAttempts, .inr (.ok answer))

end NextPc

inductive AckPc where
  | insertAck
  | deleteInprocess
  deriving DecidableEq, Repr

/-- When the deletion fails, the text of the first error is asked for, which is not there. -/
def AckPc.step (id : ℕ) (fault : Bool) (g : Group) : AckPc → Group × (AckPc ⊕ Except DBError Unit)
  | .insertAck =>
    if fault then (g, .inr (.error .other))
    else if id ∈ g.acks then (g, .inr (.error (.wrongInput "already acknowledged")))
    else ({ g with acks := id :: g.acks }, .inl .deleteInprocess)
  | .deleteInprocess =>
    if fault then (g, .inr (.error .panic))
    else ({ g with inprocess := g.inprocess.filter (fun record => record.id ≠ id) }, .inr (.ok ()))

/-- What a client of the broker is doing. A `next` carries the ids that were acknowledged
when it started. -/
inductive Client where
  | idle
  | next (r : NextRequest) (barred : List ℕ) (pc : NextPc)
  | got (barred : List ℕ) (answer : Answer)
  | ack (id : ℕ) (pc : AckPc)

/-- The database, with the ids that were returned by `next` so far, those of them whose
acknowledgement succeeded, and the values that were taken from the pointer. -/
structure Shared where
  group : Group
  delivered : List ℕ
  acked : List ℕ
  obtained : List ℕ

inductive Action where
  | next (r : NextRequest)
  | ack (id : ℕ)
  | run (tick : Tick)

structure Store where
  id : ℕ
  record : Record

def Client.ready : Client → Bool
  | .idle | .got _ _ => true
  | _ => false

def pointerValue (fault : Bool) : NextPc → NextPc ⊕ Answer → Option ℕ
  | .upsert _, .inl (.record v _) | .retry _, .inl (.record v _) => if fault then none else some v
  | _, _ => none

def answered (barred : List ℕ) (r : NextRequest) : NextPc ⊕ Answer → Client
  | .inl pc => .next r barred pc
  | .inr answer => .got barred answer

def deliveredId : NextPc ⊕ Answer → Option ℕ
  | .inr (.ok answer) => some answer.1
  | _ => none

def act (period : ℤ) (s : Shared) (c : Client) : Action → Option (Shared × Client)
  | .next r => if c.ready then some (s, .next r s.acked (.lookUp .first)) else none
  | .ack id => if c.ready then some (s, .ack id .insertAck) else none
  | .run tick =>
    match c with
    | .next r barred pc =>
      (pc.step period r tick s.group).map (fun (g, out) =>
        ({ s with
            group := g
            delivered := (deliveredId out).toList ++ s.delivered
            obtained := (pointerValue tick.fault pc out).toList ++ s.obtained },
          answered barred r out))
    | .ack id pc =>
      match pc.step id tick.fault s.group with
      | (g, .inl pc) => some ({ s with group := g }, .ack id pc)
      | (g, .inr (.error _)) => some ({ s with group := g }, .idle)
      | (g, .inr (.ok ())) =>
        some ({ s with
            group := g
            acked := if id ∈ s.delivered then id :: s.acked else s.acked },
          .idle)
    | _ => none

def store (s : Shared) (e : Store) : Option Shared :=
  if e.id = 0 then none else some { s with group := { s.group with data := (e.id, e.record) :: s.group.data } }

def fresh (data : List (ℕ × Record)) : Shared := ⟨⟨data, none, [], [], 0⟩, [], [], []⟩

end Asapo.Broker
