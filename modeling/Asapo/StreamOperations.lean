import Asapo.Broker.GroupedLast
import Asapo.Broker.Nacks
import Asapo.Broker.SequentialNext
import Asapo.Database.MongoDBClient
import Asapo.StreamDeletion

namespace Asapo.StreamOperations

open Broker Database

/-- The documents of a database: records with the substreams that are in a dataset, messages
that are being processed, acknowledgements, pointers and counters, and metadata. -/
inductive Document where
  | record (r : Record) (substreams : List ℕ)
  | inprocess (r : InProcessingRecord)
  | ack
  | number (n : ℕ)
  | metadata (content : Text)

/-- A database, and `lastReadFromInprocess` of the broker by its keys. -/
structure World where
  db : Database.Store Document
  lastRead : Text → ℤ

def asRecord : Key × Document → Option (ℕ × Record)
  | (.number (.ofNat id), .record r _) => some (id, r)
  | _ => none

def asInprocess : Key × Document → Option InProcessingRecord
  | (_, .inprocess r) => some r
  | _ => none

def asAck : Key × Document → Option ℕ
  | (.number (.ofNat id), .ack) => some id
  | _ => none

def asNumber : Key × Document → Option ℕ
  | (_, .number n) => some n
  | _ => none

def asMetadata : Key × Document → Option Text
  | (_, .metadata content) => some content
  | _ => none

namespace World

def group (w : World) (e : Request) : Group where
  data := (w.db.contents e.dataCollection).filterMap asRecord
  pointer := ((w.db.documents (text "current_location") (.string e.pointerId)).head?).bind asNumber
  inprocess := (w.db.contents e.inprocessCollection).filterMap asInprocess
  acks := (w.db.contents e.acksCollection).filterMap asAck
  lastRead := w.lastRead e.inprocessKey

def last (w : World) (e : Request) : Option ℕ :=
  ((w.db.documents (text "last_messages") (.string e.lastMessageId)).head?).bind asNumber

def counter (w : World) (collection : Text) : Option ℕ :=
  ((w.db.documents (text "auto_id_counters") (.string collection)).head?).bind asNumber

def metadata (w : World) (id : Text) : Option Text :=
  ((w.db.documents (text "meta") (.string id)).head?).bind asMetadata

def putNumber (collection id : Text) (n : Option ℕ) (w : World) : World :=
  match n with
  | none => w
  | some n => { w with db := w.db.put collection (.string id) (.number n) }

/-- The documents of a group are replaced. The broker does not change the data. -/
def setGroup (e : Request) (g : Group) (w : World) : World :=
  let w := w.putNumber (text "current_location") e.pointerId g.pointer
  let db := w.db.write e.inprocessCollection (g.inprocess.map (fun r => (.number r.id, .inprocess r)))
  let db := db.write e.acksCollection (g.acks.map (fun id : ℕ => (.number id, .ack)))
  ⟨db, Function.update w.lastRead e.inprocessKey g.lastRead⟩

end World

/-- The texts of the metadata: `PrepareInjestDocument`, and the update of a document, or of
none, with `PrepareUpdateDocument`. -/
structure MetaText where
  ingest : Text → Except Error Text
  update : Option Text → Text → Except Error Text

/-- The operations on a stream. The id 0 asks for an automatic id. -/
inductive Op where
  | insert (id : ℕ) (record : Record)
  | insertAsDatasetMessage (id substream : ℕ) (datasetSize : ℤ)
  | insertMeta (mode : MetaIngestMode) (content : Text)
  | next (groupId : Text) (r : NextRequest) (ticks : List Tick)
  | groupedLast (groupId : Text) (r : NextRequest) (faults : ℕ → Bool)
  | ack (groupId : Text) (id : ℕ) (faults : Bool × Bool)
  | negAck (groupId : Text) (id : ℕ) (now delayMs : ℤ)
  | nacks (groupId : Text) (r : NextRequest)
  | getMeta (groupId : Text)
  | deleteStream (groupId : Text) (params : Option DeleteParams)
  | clientDeleteStream

inductive Reply where
  | inserted (result : Except Error ℕ)
  | stored (err : Option Error)
  | message (answer : Option Answer)
  | acknowledged (result : Except DBError Unit)
  | unacknowledged (answer : Except DBError (List ℤ))
  | metadata (content : Option Text)
  | refused (err : DBError)
  | deleted (err : Option DBError)
  | clientDeleted (err : Option Error)

section

variable (f : CaseFold) (host : Nacks.Host) (mt : MetaText) (period : ℤ)

def collectionName (stream : Text) : Text := text "data_" ++ stream

def insertDocument (stream : Text) (id : ℕ) (record : Record) (w : World) : World × Except Error ℕ :=
  let name := encodeColName (collectionName stream)
  let documents := w.db.contents name
  if documents.any (fun d => d.1 = .number id) then
    (w, .error (DBErrorTemplates.duplicateID.generate ""))
  else ({ w with db := w.db.write name (documents ++ [(.number id, .record record [])]) }, .ok id)

def insertWithAutoId (stream : Text) (record : Record) (w : World) : World × Except Error ℕ :=
  let id := (w.counter (collectionName stream)).getD 0 + 1
  if id < 2 ^ 63 then
    insertDocument stream id record (w.putNumber (text "auto_id_counters") (collectionName stream) (some id))
  else (w, .error (DBErrorTemplates.insertError.generate "cannot get auto id:"))

def insert (stream : Text) (id : ℕ) (record : Record) (w : World) : World × Except Error ℕ :=
  match MongoDBClient.updateCurrentCollectionIfNeeded (collectionName stream) with
  | some err => (w, .error err)
  | none => if id = 0 then insertWithAutoId stream record w else insertDocument stream id record w

def newDataset (substream : ℕ) (datasetSize : ℤ) : Document :=
  .record ⟨.message, [], none, some 1, some datasetSize⟩ [substream]

def addMember (substream : ℕ) : Document → Document
  | .record r substreams => .record { r with messages := some (r.messages.getD 0 + 1) } (substreams ++ [substream])
  | d => d

def hasSubstream (substream : ℕ) : Document → Bool
  | .record _ substreams => substream ∈ substreams
  | _ => false

/-- The producer does not send a dataset without an id. -/
def insertAsDatasetMessage (stream : Text) (id substream : ℕ) (datasetSize : ℤ) (w : World) :
    World × Option Error :=
  if id = 0 then (w, some (ProducerErrorTemplates.wrongInput.generate "message id should be positive"))
  else
    match MongoDBClient.updateCurrentCollectionIfNeeded (collectionName stream) with
    | some err => (w, some err)
    | none =>
      let name := encodeColName (collectionName stream)
      let documents := w.db.contents name
      if documents.any (fun d => d.1 = .number id) then
        if documents.any (fun d => d.1 = .number id && hasSubstream substream d.2) then
          (w, some (DBErrorTemplates.duplicateID.generate ""))
        else
          ({ w with db := w.db.write name (documents.map (fun d =>
              if d.1 = .number id then (d.1, addMember substream d.2) else d)) }, none)
      else
        ({ w with db := w.db.write name (documents ++ [(.number id, newDataset substream datasetSize)]) }, none)

def putMetadata (id : Text) (content : Except Error Text) (w : World) : World × Option Error :=
  match content with
  | .error err => (w, some err)
  | .ok content => ({ w with db := w.db.put (text "meta") (.string id) (.metadata content) }, none)

def insertMeta (stream : Text) (mode : MetaIngestMode) (content : Text) (w : World) : World × Option Error :=
  let id := encodeColName (text "st_" ++ stream)
  let old := w.metadata id
  match mode.op with
  | .insert =>
    match mt.ingest content with
    | .error err => (w, some err)
    | .ok content =>
      if old.isSome then (w, some (DBErrorTemplates.duplicateID.generate "")) else putMetadata id (.ok content) w
  | .replace =>
    match mt.ingest content with
    | .error err => (w, some err)
    | .ok content =>
      if old.isNone && !mode.upsert then
        (w, some (DBErrorTemplates.wrongInput.generate "cannot replace: metadata does not exist"))
      else putMetadata id (.ok content) w
  | .update =>
    if old.isNone && !mode.upsert then
      match mt.update none content with
      | .error err => (w, some err)
      | .ok _ => (w, some (DBErrorTemplates.wrongInput.generate "cannot update: metadata does not exist"))
    else putMetadata id (mt.update old content) w
  | .other _ => (w, some (DBErrorTemplates.wrongInput.generate "unknown op"))

/-- `getLastRecordInGroup` to its end, which is reached with the fourth operation. -/
def runLast (r : NextRequest) (faults : ℕ → Bool) : ℕ → GroupedLast.Pc → GroupedLast.State →
    GroupedLast.State × Option Answer
  | 0, _, s => (s, none)
  | n + 1, pc, s =>
    match pc.step r (faults n) s with
    | (s, .inl pc) => runLast r faults n pc s
    | (s, .inr answer) => (s, some answer)

def getNextRecord (r : NextRequest) (ticks : List Tick) (e : Request) (w : World) : World × Reply :=
  match NextPc.run period r ticks (.lookUp .first) (w.group e) with
  | none => (w, .message none)
  | some (g, answer) => (w.setGroup e g, .message (some answer))

def getLastRecordInGroup (r : NextRequest) (faults : ℕ → Bool) (e : Request) (w : World) : World × Reply :=
  let (s, answer) := runLast r faults 4 .maxIndex ⟨w.group e, w.last e⟩
  (w.putNumber (text "last_messages") e.lastMessageId s.last, .message answer)

def ackRecord (id : ℕ) (faults : Bool × Bool) (e : Request) (w : World) : World × Reply :=
  match AckPc.insertAck.step id faults.1 (w.group e) with
  | (g, .inr result) => (w.setGroup e g, .acknowledged result)
  | (g, .inl pc) =>
    match pc.step id faults.2 g with
    | (g, .inr result) => (w.setGroup e g, .acknowledged result)
    | (g, .inl _) => (w.setGroup e g, .acknowledged (.ok ()))

def insertOrReplace (record : InProcessingRecord) (records : List InProcessingRecord) : List InProcessingRecord :=
  if records.any (fun r => r.id = record.id) then records.map (fun r => if r.id = record.id then record else r)
  else records ++ [record]

def negAckRecord (id : ℕ) (now delayMs : ℤ) (e : Request) (w : World) : World × Reply :=
  let g := w.group e
  let record : InProcessingRecord := ⟨id, 1, 0, int64 (now + delayMs * 1000000)⟩
  (w.setGroup e { g with inprocess := insertOrReplace record g.inprocess }, .acknowledged (.ok ()))

def nacks (r : NextRequest) (e : Request) (w : World) : World × Reply :=
  let g := w.group e
  let ids := (g.acks.map (fun id : ℕ => (id : ℤ))).dedup
  (w, .unacknowledged (Nacks.nacks host g ⟨ids, List.nodup_dedup _⟩ r))

def getMeta (e : Request) (w : World) : World × Reply := (w, .metadata (w.metadata (text "st_" ++ e.stream)))

/-- A deletion by the broker in which every request to the server succeeds. -/
def deleteStream (params : Option DeleteParams) (e : Request) (w : World) : World × Reply :=
  let (err, db) := Broker.deleteStream f StreamDeletion.noFault params e w.db
  ({ w with db := db }, .deleted err)

def clientDeleteStream (stream : Text) (w : World) : World × Reply :=
  let (err, db) := MongoDBClient.deleteStream f StreamDeletion.noFault stream w.db
  ({ w with db := db }, .clientDeleted err)

def processRequest (r : Request) (op : Request → World → World × Reply) (w : World) : World × Reply :=
  match r.checkDatabaseOperationPrerequisites with
  | some err => (w, .refused err)
  | none =>
    match r.encodeRequest with
    | .error err => (w, .refused err)
    | .ok e => op e w

def step (beamtime dataSource stream : Text) (w : World) : Op → World × Reply
  | .insert id record => (fun (w, result) => (w, .inserted result)) (insert stream id record w)
  | .insertAsDatasetMessage id substream datasetSize =>
    (fun (w, err) => (w, .stored err)) (insertAsDatasetMessage stream id substream datasetSize w)
  | .insertMeta mode content => (fun (w, err) => (w, .stored err)) (insertMeta mt stream mode content w)
  | .next groupId r ticks => processRequest ⟨beamtime, dataSource, stream, groupId⟩ (getNextRecord period r ticks) w
  | .groupedLast groupId r faults =>
    processRequest ⟨beamtime, dataSource, stream, groupId⟩ (getLastRecordInGroup r faults) w
  | .ack groupId id faults => processRequest ⟨beamtime, dataSource, stream, groupId⟩ (ackRecord id faults) w
  | .negAck groupId id now delayMs =>
    processRequest ⟨beamtime, dataSource, stream, groupId⟩ (negAckRecord id now delayMs) w
  | .nacks groupId r => processRequest ⟨beamtime, dataSource, stream, groupId⟩ (nacks host r) w
  | .getMeta groupId => processRequest ⟨beamtime, dataSource, stream, groupId⟩ getMeta w
  | .deleteStream groupId params =>
    processRequest ⟨beamtime, dataSource, stream, groupId⟩ (deleteStream f params) w
  | .clientDeleteStream => clientDeleteStream f stream w

end

end Asapo.StreamOperations
