import Asapo.Common.Error
import Asapo.Database.Documents
import Asapo.Database.Encoding

namespace Asapo.Database

variable {J ω : Type}

structure World (J ω : Type) where
  db : Db J
  rest : ω

def World.lift {α : Type} (op : ω → α × ω) (w : World J ω) : α × World J ω :=
  ((op w.rest).1, { w with rest := (op w.rest).2 })

def maxCollectionNameLength : ℕ := 100

/-- The client of the receiver. `fault` decides whether a request to the server fails, in
which case it has no effect. -/
structure MongoDBClient (J ω : Type) where
  json : Json J
  fault : ω → Option String × ω

namespace MongoDBClient

variable (c : MongoDBClient J ω)

def request (t : ErrorTemplate) (w : World J ω) : Option Error × World J ω :=
  ((w.lift c.fault).1.map t.generate, (w.lift c.fault).2)

def updateCurrentCollectionIfNeeded (collection : Text) : Option Error :=
  if (encodeColName collection).length > maxCollectionNameLength then
    some (DBErrorTemplates.wrongInput.generate "collection name too long")
  else none

def docs (collection : Text) (w : World J ω) : Collection J := w.db.collections (encodeColName collection)

def setDocs (collection : Text) (docs : Collection J) (w : World J ω) : World J ω :=
  { w with db := w.db.setCollection (encodeColName collection) docs }

/-- `InsertBsonDocument` without ignoring duplicates, as the receiver calls it. -/
def insertBsonDocument (collection : Text) (d : Document J) (w : World J ω) : Option Error × World J ω :=
  match c.request DBErrorTemplates.insertError w with
  | (some err, w) => (some err, w)
  | (none, w) =>
    match (docs collection w).insertOne d with
    | none => (some (DBErrorTemplates.duplicateID.generate ""), w)
    | some docs => (none, setDocs collection docs w)

/-- The counter is an `int64`, and an increment past its range is an error. -/
def getNextId (stream : Text) (w : World J ω) : Except Error ℕ × World J ω :=
  match c.request DBErrorTemplates.insertError w with
  | (some err, w) => (.error err, w)
  | (none, w) =>
    let id := w.db.counters stream + 1
    if id < 2 ^ 63 then (.ok id, { w with db := w.db.setCounter stream id })
    else (.error (DBErrorTemplates.insertError.generate "cannot get auto id:"), w)

def insertWithId (collection : Text) (file : MessageMeta) (w : World J ω) : Option Error × World J ω :=
  match c.json.fromJson file.json with
  | none => (some (DBErrorTemplates.jsonParseError.generate ""), w)
  | some d => c.insertBsonDocument collection d w

def insertWithAutoId (collection : Text) (file : MessageMeta) (w : World J ω) :
    Option Error × World J ω :=
  match c.getNextId collection w with
  | (.error err, w) => (some err, w)
  | (.ok id, w) => c.insertWithId collection { file with id := id } w

def insert (collection : Text) (file : MessageMeta) (w : World J ω) : Option Error × World J ω :=
  match updateCurrentCollectionIfNeeded collection with
  | some err => (some err, w)
  | none =>
    if file.id = 0 then c.insertWithAutoId collection file w
    else c.insertWithId collection file w

def updateArray (collection : Text) (id substream datasetSize : ℕ) (member : MessageFields J)
    (w : World J ω) : Option Error × World J ω :=
  match c.request DBErrorTemplates.insertError w with
  | (some err, w) => (some err, w)
  | (none, w) =>
    match (docs collection w).upsertMember id substream datasetSize member with
    | .duplicateKey => (some (DBErrorTemplates.duplicateID.generate ""), w)
    | .failed => (some (DBErrorTemplates.insertError.generate ""), w)
    | .done docs => (none, setDocs collection docs w)

/-- The update is repeated once after a duplicate key. -/
def addBsonDocumentToArray (collection : Text) (id substream datasetSize : ℕ)
    (member : MessageFields J) (w : World J ω) : Option Error × World J ω :=
  match c.updateArray collection id substream datasetSize member w with
  | (err, w) =>
    if DBErrorTemplates.duplicateID.equals err then
      c.updateArray collection id substream datasetSize member w
    else (err, w)

def insertAsDatasetMessage (collection : Text) (file : MessageMeta) (datasetSize : ℕ) (w : World J ω) :
    Option Error × World J ω :=
  match updateCurrentCollectionIfNeeded collection with
  | some err => (some err, w)
  | none =>
    match c.json.fromJson file.json with
    | none => (some (DBErrorTemplates.jsonParseError.generate ""), w)
    | some d => c.addBsonDocumentToArray collection file.id file.datasetSubstream datasetSize d.fields w

def getRecordFromDb (collection : Text) (id : ℕ) (w : World J ω) :
    Except Error (Document J) × World J ω :=
  match updateCurrentCollectionIfNeeded collection with
  | some err => (.error err, w)
  | none =>
    match c.request DBErrorTemplates.dbError w with
    | (some err, w) => (.error err, w)
    | (none, w) =>
      match (docs collection w).find id with
      | none => (.error (DBErrorTemplates.noRecord.generate ""), w)
      | some d => (.ok d, w)

/-- `MessageMeta::SetFromJson` on a document that was read. The fields that the receiver
does not use are left at their defaults. -/
def setFromJson (m : MessageFields J) : Option MessageMeta :=
  match m.size, m.name, m.datasetSubstream, m.metadata with
  | some size, some name, some substream, some metadata =>
    if c.json.isObject metadata && m.other then
      some { MessageMeta.empty with
        size := size, name := name, datasetSubstream := substream, metadata := c.json.write metadata }
    else none
  | _, _, _, _ => none

/-- The content of a dataset is empty if a part of it cannot be read. -/
def datasetContent (d : Document J) : List MessageMeta :=
  match d.messages, d.fields.size with
  | .array ms, some _ => (ms.mapM c.setFromJson).getD []
  | _, _ => []

/-- The error of a record that cannot be read is generated and dropped. -/
def getById (collection : Text) (id : ℕ) (w : World J ω) : Except Error MessageMeta × World J ω :=
  match c.getRecordFromDb collection id w with
  | (.error err, w) => (.error err, w)
  | (.ok d, w) => (.ok ((c.setFromJson d.fields).getD MessageMeta.empty), w)

def getDataSetById (collection : Text) (idInSet id : ℕ) (w : World J ω) :
    Except Error MessageMeta × World J ω :=
  match c.getRecordFromDb collection id w with
  | (.error err, w) => (.error err, w)
  | (.ok d, w) =>
    match (c.datasetContent d).find? (fun m => m.datasetSubstream = idInSet) with
    | some m => (.ok m, w)
    | none => (.error (DBErrorTemplates.noRecord.generate ""), w)

end MongoDBClient

end Asapo.Database
