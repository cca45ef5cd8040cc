import Asapo.Broker.StreamCache
import Asapo.Common.RecordJson

namespace Asapo.Database.StreamInfo

open Broker (NameCoding)
open Broker.StreamList (earlier firstBy)
open Consumer (uint64)

structure Metadata where
  raw : String
  nextStream : Option Text
  deriving DecidableEq, Repr

inductive Field (α : Type) where
  | missing
  | value (v : α)
  | other
  deriving DecidableEq, Repr

def Field.get? {α : Type} : Field α → Option α
  | .value v => some v
  | _ => none

/-- A document of a data collection, with the text it is printed as. A time is a 64-bit
integer. With a number that is not finite, `encoding/json` does not encode the document. -/
structure Document where
  id : ℤ
  timestamp : Option ℤ
  name : Field Text
  metadata : Field Metadata
  finite : Bool
  json : String
  deriving DecidableEq, Repr

def kFinishStreamKeyword : Text := text "asapo_finish_stream"
def kNoNextStreamKeyword : Text := text "asapo_no_next"

inductive GetRecordMode where
  | last
  | earliest
  deriving DecidableEq, Repr

def sorted (docs : List Document) : GetRecordMode → Option Document
  | .last => firstBy (fun a b => b.id < a.id) docs
  | .earliest => firstBy (fun a b => earlier a.timestamp b.timestamp) docs

/-- A search can fail as a whole. -/
def getRecordFromDb (fault : GetRecordMode → Option Error) (docs : List Document) (mode : GetRecordMode) :
    Except Error Document :=
  match fault mode, sorted docs mode with
  | some err, _ => .error err
  | none, some d => .ok d
  | none, none => .error (DBErrorTemplates.noRecord.generate "")

def empty : StreamInfo := ⟨0, [], false, [], 0, 0⟩

/-- The time is read as an unsigned number and made a signed one again. -/
def updateStreamInfoFromEarliestRecord (d : Document) (info : StreamInfo) : Except Error StreamInfo :=
  match d.timestamp with
  | none => .error (DBErrorTemplates.jsonParseError.generate
      ("UpdateStreamInfoFromEarliestRecord: cannot parse timestamp in response: " ++ d.json))
  | some ts => .ok { info with timestampCreated := ts }

def updateFinishedStreamInfo (m : Metadata) (info : StreamInfo) : Except Error StreamInfo :=
  match m.nextStream with
  | none => .error (DBErrorTemplates.jsonParseError.generate
      ("UpdateFinishedStreamInfo: cannot parse finished stream meta response: " ++ m.raw))
  | some next =>
    .ok { info with
      finished := true
      nextStream := if next ≠ kNoNextStreamKeyword then next else info.nextStream }

def updateFinishedInfo (d : Document) (info : StreamInfo) : Except Error StreamInfo :=
  if d.name.get?.getD [] ≠ kFinishStreamKeyword then .ok info
  else
    match d.metadata.get? with
    | none => .error (DBErrorTemplates.jsonParseError.generate
        ("UpdateStreamInfoFromLastRecord: cannot parse metadata in response: " ++ d.json))
    | some m => updateFinishedStreamInfo m info

def updateStreamInfoFromLastRecord (d : Document) (info : StreamInfo) : Except Error StreamInfo :=
  match d.timestamp with
  | none => .error (DBErrorTemplates.jsonParseError.generate
      ("UpdateStreamInfoFromLastRecord: cannot parse timestamp in response: " ++ d.json))
  | some ts => updateFinishedInfo d { info with timestampLastEntry := ts, lastId := uint64 d.id }

def streamInfoFromDbResponse (last earliest : Document) (info : StreamInfo) : Except Error StreamInfo :=
  (updateStreamInfoFromLastRecord last info).bind (updateStreamInfoFromEarliestRecord earliest)

/-- A stream without a record is one that has not started yet. -/
def getStreamInfo (fault : GetRecordMode → Option Error) (docs : List Document) : Except Error StreamInfo :=
  match getRecordFromDb fault docs .last with
  | .error err => if DBErrorTemplates.noRecord.equals (some err) then .ok empty else .error err
  | .ok last => (getRecordFromDb fault docs .earliest).bind (fun first => streamInfoFromDbResponse last first empty)

structure Collections where
  list : List (Text × List Document)
  deriving DecidableEq, Repr

def Collections.documents (db : Collections) (name : Text) : List Document :=
  ((db.list.find? (fun c => c.1 = name)).map Prod.snd).getD []

def dataPrefix : Text := text "data_"

def mongoCollectionIsDataStream (name : Text) : Bool := dataPrefix.isPrefixOf name

/-- The name of a collection is encoded again when it is opened. -/
def updateLastStreamInfo (c : NameCoding) (fault : Text → GetRecordMode → Option Error) (db : Collections)
    (info : StreamInfo) (str : Text) : Except Error StreamInfo :=
  let collectionName := c.decode str
  if !mongoCollectionIsDataStream collectionName then .ok info
  else
    (getStreamInfo (fault collectionName) (db.documents (c.encode collectionName))).map (fun nextInfo =>
      if nextInfo.timestampCreated > info.timestampCreated then
        { nextInfo with name := collectionName.drop dataPrefix.length }
      else info)

/-- The loop over all collections ends at the first error. -/
def getLastStream (c : NameCoding) (fault : Text → GetRecordMode → Option Error) (db : Collections) :
    Except Error StreamInfo :=
  (db.list.map Prod.fst).foldlM (updateLastStreamInfo c fault db) empty

end Asapo.Database.StreamInfo
