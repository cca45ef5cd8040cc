import Asapo.Database.StreamInfo

namespace Asapo.StreamInfoAgreement

open Database.StreamInfo
open Broker (NameCoding RawRecord)
open Consumer (uint64)
open Broker.StreamList (earlier earliestTimestamp firstBy lastPart storedInfo scratchInfo)

/-- Whether `ExtractMessageRecord` reads a document: it has a text, and a name or metadata of
another type is an error. -/
def readable (d : Document) : Bool := d.finite && d.name ≠ .other && d.metadata ≠ .other

/-- A document as the broker reads it. What is missing has its zero value. -/
def raw (d : Document) : RawRecord :=
  ⟨d.id, d.timestamp,
    if readable d then
      some ⟨d.timestamp.getD 0, d.name.get?.getD [], d.metadata.get?.bind (fun m => m.nextStream)⟩
    else none⟩

def seen (db : Collections) : Broker.Collections := ⟨db.list.map (fun x => (x.1, x.2.map raw))⟩

def noFault : GetRecordMode → Option Error := fun _ => none

section Order

variable {α : Type} {before : α → α → Bool} {xs : List α} {x best : α}

theorem firstBy_isSome (h : xs ≠ []) : ∃ best, firstBy before xs = some best := by
  cases xs with
  | nil => exact absurd rfl h
  | cons x xs =>
    rw [firstBy]
    split
    · exact ⟨x, rfl⟩
    · split
      · exact ⟨_, rfl⟩
      · exact ⟨x, rfl⟩

end Order

section Stream

variable {docs : List Document} {name : Text} {info : Asapo.StreamInfo} {b : Broker.StreamInfo} {first last : Document}

section Found

variable (hlast : sorted docs .last = some last) (hfirst : sorted docs .earliest = some first)

end Found

theorem found (h : docs ≠ []) : ∃ last first, sorted docs .last = some last ∧ sorted docs .earliest = some first := by
  obtain ⟨last, hlast⟩ : ∃ last, sorted docs .last = some last := firstBy_isSome h
  obtain ⟨first, hfirst⟩ : ∃ first, sorted docs .earliest = some first := firstBy_isSome h
  exact ⟨last, first, hlast, hfirst⟩

end Stream

def finishedStream : List Document :=
  [⟨1, some 5, .value (text "f1"), .missing, true, ""⟩, ⟨2, some 4, .value (text "f2"), .other, true, ""⟩,
    ⟨3, some 9, .value kFinishStreamKeyword, .value ⟨"", some (text "next")⟩, true, ""⟩]

end Asapo.StreamInfoAgreement
