import Asapo.NameAgreement
import Asapo.StreamInfoAgreement

namespace Asapo.LastStream

open Database.StreamInfo StreamInfoAgreement
open Broker (NameCoding)
open Broker.StreamList (readStreams scratchInfo storedInfo streamDocuments updateFromDb updateStreamInfos Coherent)

def receiverNames : NameCoding :=
  ⟨Database.encodeColName, fun s => textOfBytes ((Database.ByteString.decodeName (bytesOfText s)).getD [])⟩

def brokerNames : NameCoding :=
  ⟨Database.encodeColName, fun s => textOfBytes (Broker.ByteString.decodeString (bytesOfText s))⟩

section Names

/-- The collection of a stream under the name that the receiver and the broker know it by. -/
structure Holds (x s : Text) : Prop where
  encoded : x = dataPrefix ++ brokerNames.encode s
  broker : brokerNames.decode (brokerNames.encode s) = s
  decoded : receiverNames.decode x = dataPrefix ++ s
  receiver : receiverNames.encode (dataPrefix ++ s) = x

def Written (x : Text) : Prop := ∃ name : Bytes, 0 ∉ name ∧ x = Database.encodeColName (textOfBytes name)

end Names

section Broker

variable {db : Collections} {ss : Broker.StreamList.Streams} {infos records : List Broker.StreamInfo}

theorem seen_documents (db : Collections) (name : Text) :
    (seen db).documents name = (db.documents name).map raw := by
  unfold Broker.Collections.documents Collections.documents seen
  rw [List.find?_map]
  change ((Option.map _ (db.list.find? (fun c => c.1 = name))).map Prod.snd).getD [] = _
  cases db.list.find? (fun c => c.1 = name) <;> rfl

theorem Holds.documents {x s : Text} (h : Holds x s) (db : Collections) :
    streamDocuments brokerNames (seen db) s = (db.documents x).map raw := by
  unfold streamDocuments
  rw [seen_documents, h.encoded]
  rfl

end Broker

section Receiver

variable {db : Collections} {info next : Asapo.StreamInfo} {x s : Text}

/-- What is described at the end of the loop is at least as new as every stream of the loop,
and it is one of them unless it is what the loop began with. -/
structure Newest (db : Collections) (names : List Text) (start info : Asapo.StreamInfo) : Prop where
  start_le : start.timestampCreated ≤ info.timestampCreated
  le : ∀ x ∈ names, ∀ s, Holds x s →
    ∃ next, getStreamInfo noFault (db.documents x) = .ok next ∧ next.timestampCreated ≤ info.timestampCreated
  source : info = start ∨ ∃ x ∈ names, ∃ s next, Holds x s ∧ getStreamInfo noFault (db.documents x) = .ok next ∧
    info = { next with name := s }

theorem Newest.cons {names : List Text} {start between : Asapo.StreamInfo} (hn : Newest db names between info)
    (hs : Holds x s) (hnext : getStreamInfo noFault (db.documents x) = .ok next)
    (hstart : start.timestampCreated ≤ info.timestampCreated) (hle : next.timestampCreated ≤ info.timestampCreated)
    (hbetween : between = start ∨ between = { next with name := s }) : Newest db (x :: names) start info := by
  refine ⟨hstart, ?_, ?_⟩
  · intro y hy t ht
    obtain rfl | hy := List.mem_cons.mp hy
    · exact ⟨next, hnext, hle⟩
    · exact hn.le y hy t ht
  · obtain hinfo | ⟨y, hy, rest⟩ := hn.source
    · obtain rfl | rfl := hbetween
      · exact .inl hinfo
      · exact .inr ⟨x, List.mem_cons_self, s, next, hs, hnext, hinfo⟩
    · exact .inr ⟨y, List.mem_cons_of_mem x hy, rest⟩

end Receiver

section LastStream

variable {db : Collections} {ss : Broker.StreamList.Streams} {infos : List Broker.StreamInfo} {info : Asapo.StreamInfo}

def twoStreams : Collections :=
  ⟨[(text "data_old", finishedStream), (text "meta", []),
    (text "data_new%20run", [⟨1, some 7, .value (text "f"), .missing, true, ""⟩])]⟩

end LastStream

end Asapo.LastStream
