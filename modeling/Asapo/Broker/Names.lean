import Asapo.Broker.Group
import Asapo.Database.Encoding

namespace Asapo.Broker

open Database

/-- The names in a request to the broker, as texts or as bytes. -/
structure RequestOf (S : Type) where
  beamtime : S
  dataSource : S
  stream : S
  groupId : S
  deriving DecidableEq, Repr

abbrev Request := RequestOf Text

namespace Request

def join (a b : Text) : Text := a ++ '_' :: b

def dbName (r : Request) : Text := join r.beamtime r.dataSource

def dataCollection (r : Request) : Text := text "data_" ++ r.stream

def acksCollection (r : Request) : Text := text "acks_" ++ join r.stream r.groupId

def inprocessCollection (r : Request) : Text := text "inprocess_" ++ join r.stream r.groupId

def pointerId (r : Request) : Text := join r.groupId r.stream

def lastMessageId (r : Request) : Text := join r.groupId r.stream

/-- The key of a group in `lastReadFromInprocess`, which all databases share. -/
def inprocessKey (r : Request) : Text := join r.stream r.groupId

def maxEncodedSourceSize : ℕ := 63
def maxEncodedStreamSize : ℕ := 100
def maxEncodedGroupSize : ℕ := 50

def checkDatabaseOperationPrerequisites (r : Request) : Option DBError :=
  if r.dbName.length ≤ 1 ∨ r.stream.length = 0 then
    some (.wrongInput "beamtime_id ans stream must be set")
  else none

def encoded (r : Request) : Request :=
  ⟨encodeDbName r.beamtime, encodeDbName r.dataSource, encodeColName r.stream, encodeColName r.groupId⟩

def encodeRequest (r : Request) : Except DBError Request :=
  if r.encoded.dbName.length > maxEncodedSourceSize then .error (.wrongInput "source name is too long")
  else if r.encoded.stream.length > maxEncodedStreamSize then
    .error (.wrongInput "stream name is too long")
  else if r.encoded.groupId.length > maxEncodedGroupSize then .error (.wrongInput "group id is too long")
  else .ok r.encoded

/-- The encoded names of a request are short enough. -/
structure Accepted (r : Request) : Prop where
  source : (join (encodeDbName r.beamtime) (encodeDbName r.dataSource)).length ≤ maxEncodedSourceSize
  stream : (encodeColName r.stream).length ≤ maxEncodedStreamSize
  group : (encodeColName r.groupId).length ≤ maxEncodedGroupSize

theorem encodeRequest_ok_iff {r e : Request} : encodeRequest r = .ok e ↔ Accepted r ∧ e = r.encoded := by
  constructor
  · intro h
    unfold encodeRequest at h
    split at h
    · cases h
    · rename_i hsource
      split at h
      · cases h
      · rename_i hstream
        split at h <;> cases h
        rename_i hgroup
        exact ⟨⟨Nat.not_lt.mp hsource, Nat.not_lt.mp hstream, Nat.not_lt.mp hgroup⟩, rfl⟩
  · rintro ⟨h, rfl⟩
    unfold encodeRequest
    rw [if_neg, if_neg, if_neg]
    · exact Nat.not_lt.mpr h.group
    · exact Nat.not_lt.mpr h.stream
    · exact Nat.not_lt.mpr h.source

theorem escape_join (a b : Text) (db : Bool) : escape (join a b) db = join (escape a db) (escape b db) := by
  have hunder : escapeChar db '_' = ['_'] := by cases db <;> decide
  rw [join, escape_append]
  change escape a db ++ (escapeChar db '_' ++ escape b db) = _
  rw [hunder]
  rfl

end Request

end Asapo.Broker
