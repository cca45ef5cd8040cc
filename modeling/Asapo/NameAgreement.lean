import Asapo.Broker.Encoding
import Asapo.Common.Error
import Asapo.Database.ByteEncoding
import Asapo.Database.MongoDBClient

namespace Asapo.NameAgreement

open PercentEncoding

namespace Receiver

open Database.ByteString

def maxDbNameLength : ℕ := 63

def dbName (beamtimeId dataSource : Bytes) : Bytes := beamtimeId ++ '_'.toUInt8 :: dataSource

def collectionName (stream : Bytes) : Bytes := bytesOfText (text "data") ++ '_'.toUInt8 :: stream

def connect (databaseName : Bytes) : Option (Except Error Bytes) :=
  (encodeDbName databaseName).map (fun name =>
    if name.length > maxDbNameLength then
      .error (DBErrorTemplates.wrongInput.generate "data source name too long")
    else .ok name)

def updateCurrentCollection (collectionName : Bytes) : Option (Except Error Bytes) :=
  (encodeColName collectionName).map (fun name =>
    if name.length > Database.maxCollectionNameLength then
      .error (DBErrorTemplates.wrongInput.generate "collection name too long")
    else .ok name)

end Receiver

open Broker.ByteString (Request)

/-- Both sides encode a string in the same way, and both read it back. -/
structure SameEncoding (s : Bytes) (db : Bool) (e : Bytes) : Prop where
  broker : Broker.ByteString.escape s db = some e
  receiver : Database.ByteString.escape s db = some e
  decodeString : Broker.ByteString.decodeString e = s
  decodeName : Database.ByteString.decodeName e = some s

/-- The parts of a string are encoded on their own. -/
def Distributes (escape : Bytes → Bool → Option Bytes) : Prop :=
  ∀ s t db, ∃ e f, escape s db = some e ∧ escape t db = some f ∧ escape (s ++ t) db = some (e ++ f)

/-- A request to the broker reaches the database and the collection of the receiver, and
the broker has no objection to the length of a name that the receiver takes. -/
structure SameNames (r : Request) : Prop where
  answered : ∃ answer, r.encodeRequest = some answer
  dbName : ∀ e, r.encodeRequest = some (.ok e) →
    Database.ByteString.encodeDbName (Receiver.dbName r.beamtime r.dataSource) = some e.dbName
  dataCollection : ∀ e, r.encodeRequest = some (.ok e) →
    Database.ByteString.encodeColName (Receiver.collectionName r.stream) = some e.dataCollection
  sourceAccepted : ∀ name, Receiver.connect (Receiver.dbName r.beamtime r.dataSource) = some (.ok name) →
    r.encodeRequest ≠ some (.error (.wrongInput "source name is too long"))
  streamAccepted : ∀ name,
    Receiver.updateCurrentCollection (Receiver.collectionName r.stream) = some (.ok name) →
      r.encodeRequest ≠ some (.error (.wrongInput "stream name is too long"))

theorem shouldEscape_eq (db : Bool) :
    (Broker.ByteString.shouldEscape · db) = (Database.ByteString.shouldEscape · db) := by
  funext c
  unfold Broker.ByteString.shouldEscape Database.ByteString.shouldEscape
  simp only [Bool.or_comm (decide (c = '\\'.toUInt8))]

theorem shouldEscape_percent (db : Bool) : Database.ByteString.shouldEscape percent db = true := by
  cases db <;> decide

theorem broker_escape_eq (s : Bytes) (db : Bool) :
    Broker.ByteString.escape s db = some (encode (Database.ByteString.shouldEscape · db) s) := by
  rw [Broker.ByteString.escape_eq, shouldEscape_eq]

theorem sameEncoding {s : Bytes} (hs : 0 ∉ s) (db : Bool) :
    SameEncoding s db (encode (Database.ByteString.shouldEscape · db) s) where
  broker := broker_escape_eq s db
  receiver := Database.ByteString.escape_eq s db
  decodeString := by
    rw [Broker.ByteString.decodeString, decode_encode (shouldEscape_percent db)]
    rfl
  decodeName := Database.ByteString.decodeName_encode (shouldEscape_percent db) hs

theorem distributes_of_eq {escape : Bytes → Bool → Option Bytes} {p : Bool → UInt8 → Bool}
    (h : ∀ s db, escape s db = some (encode (p db) s)) : Distributes escape := by
  intro s t db
  exact ⟨_, _, h s db, h t db, by rw [h, encode_append]⟩

theorem encode_dbName (beamtime dataSource : Bytes) :
    encode (Database.ByteString.shouldEscape · true) (Receiver.dbName beamtime dataSource) =
      encode (Database.ByteString.shouldEscape · true) beamtime ++
        '_'.toUInt8 :: encode (Database.ByteString.shouldEscape · true) dataSource := by
  rw [Receiver.dbName, encode_append, encode_cons]
  rfl

theorem encode_collectionName (stream : Bytes) :
    encode (Database.ByteString.shouldEscape · false) (Receiver.collectionName stream) =
      bytesOfText (text "data_") ++ encode (Database.ByteString.shouldEscape · false) stream := by
  rw [Receiver.collectionName, encode_append, encode_cons]
  rfl

def encoded (r : Request) : Request :=
  ⟨encode (Database.ByteString.shouldEscape · true) r.beamtime,
    encode (Database.ByteString.shouldEscape · true) r.dataSource,
    encode (Database.ByteString.shouldEscape · false) r.stream,
    encode (Database.ByteString.shouldEscape · false) r.groupId⟩

theorem encodeRequest_eq (r : Request) : r.encodeRequest = some (
    if (encoded r).dbName.length > 63 then .error (.wrongInput "source name is too long")
    else if (encoded r).stream.length > 100 then .error (.wrongInput "stream name is too long")
    else if (encoded r).groupId.length > 50 then .error (.wrongInput "group id is too long")
    else .ok (encoded r)) := by
  unfold Request.encodeRequest Broker.ByteString.encodeStringForDbName
    Broker.ByteString.encodeStringForColName
  simp only [broker_escape_eq, Option.bind_some]
  rw [apply_ite some, apply_ite some, apply_ite some]
  rfl

theorem encoded_of_ok {r e : Request} (h : r.encodeRequest = some (.ok e)) : e = encoded r := by
  rw [encodeRequest_eq] at h
  split_ifs at h <;> cases h
  rfl

theorem source_too_long {r : Request}
    (h : r.encodeRequest = some (.error (.wrongInput "source name is too long"))) :
    63 < (encoded r).dbName.length := by
  rw [encodeRequest_eq] at h
  split_ifs at h
  all_goals first | assumption | simp at h

theorem stream_too_long {r : Request}
    (h : r.encodeRequest = some (.error (.wrongInput "stream name is too long"))) :
    100 < (encoded r).stream.length := by
  rw [encodeRequest_eq] at h
  split_ifs at h
  all_goals first | assumption | simp at h

theorem sameNames (r : Request) : SameNames r where
  answered := ⟨_, encodeRequest_eq r⟩
  dbName e h := by
    rw [encoded_of_ok h, Database.ByteString.encodeDbName, Database.ByteString.escape_eq, encode_dbName]
    rfl
  dataCollection e h := by
    rw [encoded_of_ok h, Database.ByteString.encodeColName, Database.ByteString.escape_eq,
      encode_collectionName]
    rfl
  sourceAccepted name h := by
    intro herr
    have hlong : (encode (Database.ByteString.shouldEscape · true)
        (Receiver.dbName r.beamtime r.dataSource)).length > Receiver.maxDbNameLength := by
      rw [encode_dbName]
      exact source_too_long herr
    rw [Receiver.connect, Database.ByteString.encodeDbName, Database.ByteString.escape_eq,
      Option.map_some, if_pos hlong] at h
    cases h
  streamAccepted name h := by
    intro herr
    have hlong := stream_too_long herr
    -- the name of the collection is longer than that of the stream
    have hcol : (encode (Database.ByteString.shouldEscape · false)
        (Receiver.collectionName r.stream)).length > Database.maxCollectionNameLength := by
      rw [encode_collectionName, List.length_append]
      exact Nat.lt_of_lt_of_le hlong (Nat.le_add_left _ _)
    rw [Receiver.updateCurrentCollection, Database.ByteString.encodeColName, Database.ByteString.escape_eq,
      Option.map_some, if_pos hcol] at h
    cases h

theorem injective_of_eq {escape : Bytes → Bool → Option Bytes}
    (h : ∀ s db, escape s db = some (encode (Database.ByteString.shouldEscape · db) s)) (db : Bool) :
    Function.Injective (fun s => escape s db) := by
  intro s t hst
  simp only [h, Option.some.injEq] at hst
  exact encode_injective (shouldEscape_percent db) hst

/-- Receiver and broker use the same names for the same database and collection. -/
theorem names_agree :
    (∀ (s : Bytes) (db : Bool), 0 ∉ s → ∃ e, SameEncoding s db e) ∧
      (∀ db, Function.Injective (fun s => Broker.ByteString.escape s db) ∧
        Function.Injective (fun s => Database.ByteString.escape s db)) ∧
      Distributes Broker.ByteString.escape ∧ Distributes Database.ByteString.escape ∧
      ∀ r : Request, SameNames r := by
  refine ⟨fun s db hs => ⟨_, sameEncoding hs db⟩, fun db => ⟨?_, ?_⟩, ?_, ?_, sameNames⟩
  · exact injective_of_eq broker_escape_eq db
  · exact injective_of_eq Database.ByteString.escape_eq db
  · exact distributes_of_eq broker_escape_eq
  · exact distributes_of_eq Database.ByteString.escape_eq

theorem names_agree_special :
    (∃ e, SameEncoding (bytesOfText (text "a b.c%d")) true e) ∧
      SameNames ⟨bytesOfText (text "bt.1"), bytesOfText (text "a b.c%d"), bytesOfText (text "s 1"),
        bytesOfText (text "g")⟩ :=
  ⟨names_agree.1 _ _ (by decide), names_agree.2.2.2.2 _⟩

def texts (r : Request) : Broker.Request :=
  ⟨textOfBytes r.beamtime, textOfBytes r.dataSource, textOfBytes r.stream, textOfBytes r.groupId⟩

theorem escapeChar_byte (db : Bool) (b : UInt8) :
    Database.escapeChar db (Char.ofNat b.toNat) =
      textOfBytes (encodeByte (Database.ByteString.shouldEscape · db) b) := by
  revert b
  cases db <;> exact Database.ByteString.forall_byte (by decide +kernel)

theorem escape_textOfBytes (s : Bytes) (db : Bool) :
    Database.escape (textOfBytes s) db = textOfBytes (encode (Database.ByteString.shouldEscape · db) s) := by
  induction s with
  | nil => rfl
  | cons b s ih =>
    have hcons : textOfBytes (b :: s) = Char.ofNat b.toNat :: textOfBytes s := rfl
    rw [hcons, Database.escape, List.flatMap_cons, escapeChar_byte, encode_cons]
    rw [Database.escape] at ih
    rw [ih]
    exact List.map_append.symm

theorem texts_encoded (r : Request) : (texts r).encoded = texts (encoded r) := by
  simp only [texts, encoded, Broker.Request.encoded, Database.encodeDbName, Database.encodeColName,
    escape_textOfBytes]

theorem encodeRequest_texts (r : Request) :
    r.encodeRequest.map (fun answer => answer.map texts) = some (texts r).encodeRequest := by
  rw [encodeRequest_eq, Broker.Request.encodeRequest, texts_encoded]
  have hdb : (texts (encoded r)).dbName.length = (encoded r).dbName.length := by
    simp [texts, Broker.Request.dbName, Broker.Request.join, Request.dbName, textOfBytes]
  have hstream : (texts (encoded r)).stream.length = (encoded r).stream.length := List.length_map _
  have hgroup : (texts (encoded r)).groupId.length = (encoded r).groupId.length := List.length_map _
  rw [hdb, hstream, hgroup, Option.map_some, apply_ite (Except.map texts), apply_ite (Except.map texts),
    apply_ite (Except.map texts)]
  rfl

end Asapo.NameAgreement
