import Asapo.Broker.Names
import Asapo.Common.Error
import Asapo.Database.Store

namespace Asapo

open Database

variable {D : Type} (f : CaseFold) (fails : Operation → Bool)

namespace Broker

def deleteCollection (name : Text) (db : Database.Store D) : Option DBError × Database.Store D :=
  if fails (.drop name) then (some .other, db) else (none, db.drop name)

def collectionExist (name : Text) (db : Database.Store D) : Except DBError Bool :=
  if fails (.exist name) then .error .other else .ok (db.find name).isSome

def deleteDataCollection (errorOnNotExist : Bool) (r : Request) (db : Database.Store D) :
    Option DBError × Database.Store D :=
  if errorOnNotExist then
    match collectionExist fails r.dataCollection db with
    | .error err => (some err, db)
    | .ok false =>
      (some (.wrongInput ("stream " ++ String.ofList r.stream ++ " does not exist")), db)
    | .ok true => deleteCollection fails r.dataCollection db
  else deleteCollection fails r.dataCollection db

def deleteDocumentsInCollection (collection pattern : Text) (db : Database.Store D) :
    Option DBError × Database.Store D :=
  if fails (.deleteMany collection) then (some .other, db) else (none, db.deleteMany f collection pattern)

def deleteCollections : List Text → Database.Store D → Option DBError × Database.Store D
  | [], db => (none, db)
  | name :: names, db =>
    match deleteCollection fails name db with
    | (some err, db) => (some err, db)
    | (none, db) => deleteCollections names db

def deleteCollectionsWithPrefix (beginning : Text) (db : Database.Store D) :
    Option DBError × Database.Store D :=
  let pattern := '^' :: escapeQuery beginning
  if fails (.list pattern) then (some .other, db) else deleteCollections fails (db.names f pattern) db

def deleteServiceMeta (r : Request) (db : Database.Store D) : Option DBError × Database.Store D :=
  match deleteCollectionsWithPrefix f fails (text "acks_" ++ r.stream) db with
  | (some err, db) => (some err, db)
  | (none, db) =>
    match deleteCollectionsWithPrefix f fails (text "inprocess_" ++ r.stream) db with
    | (some err, db) => (some err, db)
    | (none, db) =>
      deleteDocumentsInCollection f fails (text "current_location")
        (text ".*_" ++ escapeQuery r.stream ++ ['$']) db

/-- The parameters of a deletion, with the text in the body of the request. -/
structure DeleteParams where
  extraParam : String
  errorOnNotExist : Option Bool
  deleteMeta : Option Bool
  deriving DecidableEq, Repr

def deleteStream (params : Option DeleteParams) (r : Request) (db : Database.Store D) :
    Option DBError × Database.Store D :=
  match params with
  | none => (some .other, db)
  | some ⟨_, some errorOnNotExist, some deleteMeta⟩ =>
    if deleteMeta then
      match deleteDataCollection fails errorOnNotExist r db with
      | (some err, db) => (some err, db)
      | (none, db) => deleteServiceMeta f fails r db
    else (none, db)
  | some params => (some (.wrongInput ("wrong params: " ++ params.extraParam)), db)

def processDeleteStream (params : Option DeleteParams) (r : Request) (db : Database.Store D) :
    Option DBError × Database.Store D :=
  match r.checkDatabaseOperationPrerequisites with
  | some err => (some err, db)
  | none =>
    match r.encodeRequest with
    | .error err => (some err, db)
    | .ok r => deleteStream f fails params r db

end Broker

namespace Database.MongoDBClient

def deleteCollection (name : Text) (db : Database.Store D) : Option Error × Database.Store D :=
  if fails (.drop name) then (some (DBErrorTemplates.dbError.generate ""), db)
  else if (db.find name).isSome then (none, db.drop name)
  else (some (DBErrorTemplates.noRecord.generate ""), db)

/-- The errors of the single collections are not looked at. -/
def deleteCollections (beginning : Text) (db : Database.Store D) : Option Error × Database.Store D :=
  let pattern := '^' :: escapeQuery beginning
  if fails (.list pattern) then (some (DBErrorTemplates.dbError.generate ""), db)
  else (none, (db.names f pattern).foldl (fun db name => (deleteCollection fails name db).2) db)

def deleteDocumentsInCollection (collection pattern : Text) (db : Database.Store D) :
    Option Error × Database.Store D :=
  if fails (.deleteMany collection) then (some (DBErrorTemplates.dbError.generate ""), db)
  else (none, db.deleteMany f collection pattern)

def deleteStream (stream : Text) (db : Database.Store D) : Option Error × Database.Store D :=
  let streamEncoded := encodeColName stream
  let (err, db) := deleteCollection fails (text "data_" ++ streamEncoded) db
  let db := if err.isNone then
      let db := (deleteCollections f fails (text "inprocess_" ++ streamEncoded) db).2
      let db := (deleteCollections f fails (text "acks_" ++ streamEncoded) db).2
      (deleteDocumentsInCollection f fails (text "current_location")
        (text ".*_" ++ escapeQuery streamEncoded ++ ['$']) db).2
    else db
  (err, (deleteDocumentsInCollection f fails (text "meta")
    ('^' :: (escapeQuery streamEncoded ++ ['$'])) db).2)

end Database.MongoDBClient

end Asapo
