import Asapo.Broker.Group

namespace Asapo.Broker

structure StreamInfo where
  lastId : ℤ
  name : Text
  timestamp : ℤ
  timestampLast : ℤ
  finished : Bool
  nextStream : Text
  deriving DecidableEq, Repr

/-- The fields of a record that `MapToStruct` reads, with `next_stream` of its metadata. -/
structure MessageRecord where
  timestamp : ℤ
  name : Text
  nextStream : Option Text
  deriving DecidableEq, Repr

/-- A document of a data collection. The time is there if it is a 64-bit integer, and the
message if its fields can be read. -/
structure RawRecord where
  id : ℤ
  timestamp : Option ℤ
  message : Option MessageRecord
  deriving DecidableEq, Repr

/-- `encodeStringForColName` and `decodeString`. -/
structure NameCoding where
  encode : Text → Text
  decode : Text → Text

structure Collections where
  list : List (Text × List RawRecord)
  deriving DecidableEq, Repr

def Collections.documents (db : Collections) (name : Text) : List RawRecord :=
  ((db.list.find? (fun c => c.1 = name)).map Prod.snd).getD []

namespace StreamList

def dataCollectionName : Text := text "data_"

def noNextStreamKeyword : Text := text "asapo_no_next"

/-- The first document in an order, as a search with a limit of one gives it. -/
def firstBy {α : Type} (before : α → α → Bool) : List α → Option α
  | [] => none
  | d :: ds =>
    match firstBy before ds with
    | none => some d
    | some best => if before best d then some best else some d

def getLastRawRecord (docs : List RawRecord) : Option RawRecord := firstBy (fun a b => b.id < a.id) docs

/-- A document without a time stands in front of the others. -/
def earlier : Option ℤ → Option ℤ → Bool
  | none, some _ => true
  | some a, some b => a < b
  | _, none => false

def getEarliestRawRecord (docs : List RawRecord) : Option RawRecord :=
  firstBy (fun a b => earlier a.timestamp b.timestamp) docs

/-- A string is at most another one, in the order of its bytes. -/
def atMost : Text → Text → Bool
  | [], _ => true
  | _ :: _, [] => false
  | a :: s, b :: t => if a = b then atMost s t else a.toNat < b.toNat

/-- The rounds of `sort.Search` between `i` and `j`. -/
def searchLoop (f : ℕ → Bool) : ℕ → ℕ → ℕ → ℕ
  | 0, i, _ => i
  | rounds + 1, i, j =>
    if i < j then
      let h := (i + j) / 2
      if !f h then searchLoop f rounds (h + 1) j else searchLoop f rounds i h
    else i

/-- Every round makes the range smaller. -/
def search (n : ℕ) (f : ℕ → Bool) : ℕ := searchLoop f n 0 n

def readStreams (c : NameCoding) (db : Collections) : List StreamInfo :=
  (db.list.filter (fun x => dataCollectionName.isPrefixOf x.1)).map
    (fun x => ⟨0, c.decode (x.1.drop dataCollectionName.length), 0, 0, false, []⟩)

/-- The cached streams are sorted in their place, the largest name first. `sort.Slice` leaves
open how streams of the same name stand; here it is as before. -/
def sortByName (infos : List StreamInfo) : List StreamInfo :=
  infos.insertionSort (fun a b => atMost b.name a.name = true)

/-- The predicate that is given to the search, which takes the names to be in ascending
order. -/
def reached (currentStreams : List StreamInfo) (record : StreamInfo) (i : ℕ) : Bool :=
  (currentStreams[i]?).any (fun info => atMost record.name info.name)

/-- The position of a stream among the cached ones, and whether it was found. -/
def findStreamAmongCurrent (currentStreams : List StreamInfo) (record : StreamInfo) : ℤ × Bool :=
  let ind := search currentStreams.length (reached currentStreams record)
  if (currentStreams[ind]?).any (fun info => info.name = record.name) then (ind, true) else (-1, false)

def fillInfoFromEarliestRecord (docs : List RawRecord) (info : StreamInfo) : Except String StreamInfo :=
  match (getEarliestRawRecord docs).bind (fun d => d.timestamp) with
  | some ts => .ok { info with timestamp := ts }
  | none => .error "fillInfoFromEarliestRecord: cannot extact timestamp"

/-- Without a document the fields of the record are those of an empty one. The name of the
next stream is only set from a finish marker that has one. -/
def fillInfoFromLastRecord (docs : List RawRecord) (info : StreamInfo) : Except String StreamInfo :=
  match getLastRawRecord docs with
  | none => .ok { info with lastId := 0, timestampLast := 0, finished := false }
  | some d =>
    match d.message with
    | none => .error "fillInfoFromLastRecord: cannot extract record"
    | some m =>
      if m.name = Group.finishStreamKeyword then
        let nextStream := m.nextStream.getD noNextStreamKeyword
        .ok { info with
          lastId := d.id - 1
          timestampLast := m.timestamp
          finished := true
          nextStream := if nextStream ≠ noNextStreamKeyword then nextStream else info.nextStream }
      else .ok { info with lastId := d.id, timestampLast := m.timestamp, finished := false }

/-- Whether the stream was found and whether it is finished, with the entry that `rec`
points to afterwards. -/
def updateStreamInfofromCurrent (currentStreams : List StreamInfo) (record rec : StreamInfo) :
    (Bool × Bool) × StreamInfo :=
  let res := findStreamAmongCurrent currentStreams record
  if res.2 then
    let info := currentStreams.getD res.1.toNat rec
    ((true, info.finished), info)
  else ((false, false), rec)

def streamDocuments (c : NameCoding) (db : Collections) (name : Text) : List RawRecord :=
  db.documents (dataCollectionName ++ c.encode name)

def updateStreamInfo (c : NameCoding) (db : Collections) (currentStreams : List StreamInfo) (forceSync : Bool)
    (record : StreamInfo) : Except String StreamInfo :=
  let docs := streamDocuments c db record.name
  let ((found, mayContinue), info) := updateStreamInfofromCurrent currentStreams record record
  if mayContinue && !forceSync then .ok info
  else if !found || forceSync then (fillInfoFromEarliestRecord docs info).bind (fillInfoFromLastRecord docs)
  else fillInfoFromLastRecord docs info

def updateStreamInfos (c : NameCoding) (db : Collections) (currentStreams : List StreamInfo) (forceSync : Bool) :
    List StreamInfo → Except String (List StreamInfo)
  | [] => .ok []
  | record :: rest =>
    (updateStreamInfo c db currentStreams forceSync record).bind (fun info =>
      (updateStreamInfos c db currentStreams forceSync rest).map (fun infos => info :: infos))

/-- `sort.Slice` leaves open how streams with the same time stand; here it is as before. -/
def sortRecords (infos : List StreamInfo) : List StreamInfo :=
  infos.insertionSort (fun a b => a.timestamp ≤ b.timestamp)

/-- The entries of one database in `Streams`. -/
structure Streams where
  records : Option (List StreamInfo)
  lastUpdated : Option ℤ
  lastSynced : Option ℤ
  deriving DecidableEq, Repr

def Streams.empty : Streams := ⟨none, none, none⟩

def getCurrentStreams (ss : Streams) : List StreamInfo := sortByName (ss.records.getD [])

/-- More than five seconds have passed. A database that was never synced counts from the
year 1. -/
def forceSync (ss : Streams) (now : ℤ) : Bool :=
  match ss.lastSynced with
  | none => true
  | some t => now - t > 5000000000

/-- `updateFromDb` with the clock at its start and at its end, in nanoseconds. -/
def updateFromDb (c : NameCoding) (db : Collections) (now later : ℤ) (ss : Streams) :
    Streams × Except String (List StreamInfo) :=
  let sorted := { ss with records := ss.records.map sortByName }
  match updateStreamInfos c db (getCurrentStreams ss) (forceSync ss now) (readStreams c db) with
  | .error err => (sorted, .error err)
  | .ok infos =>
    let infos := sortRecords infos
    let synced := if forceSync ss now then { sorted with lastSynced := some later } else sorted
    (if infos = [] then synced else { synced with records := some infos, lastUpdated := some later }, .ok infos)

end StreamList

end Asapo.Broker
