import Asapo.Broker.GroupedLast
import Asapo.Broker.StreamRecords

namespace Asapo.Broker.Completeness

open Broker.Group Nacks

variable {r : NextRequest} {record : Record} {n : ℕ} {size : ℤ} {g : Group} {id idMax : ℕ}

structure Dataset (record : Record) (n : ℕ) (size : ℤ) : Prop where
  name : record.name ≠ finishStreamKeyword
  messages : record.messages = some n
  size : record.size = some size

/-- The least size that a request asks for is not looked at when a record was read. -/
theorem partial_iff (hop : r.datasetOp = true) (h : Dataset record n size) :
    recordContainsPartialData r record = true ↔ r.minDatasetSize = 0 ∧ (n : ℤ) ≠ size := by
  have hless : ¬ (r.minDatasetSize = 0 ∧ (n : ℤ) < r.minDatasetSize) := by omega
  simp [recordContainsPartialData, hop, h.name, h.messages, h.size, hless]

theorem query_iff (hop : r.datasetOp = true) (h : Dataset record n size) :
    maxIndexQuery r false record = some true ↔
      if r.minDatasetSize > 0 then r.minDatasetSize ≤ n else (n : ℤ) = size := by
  by_cases hmin : r.minDatasetSize > 0
  · simp [maxIndexQuery, hop, h.name, h.messages, hmin]
  · simp [maxIndexQuery, hop, h.name, h.messages, h.size, hmin, eq_comm]

theorem query_false_iff (hop : r.datasetOp = true) (h : Dataset record n size) :
    maxIndexQuery r false record = some false ↔ ¬ maxIndexQuery r false record = some true := by
  cases hquery : maxIndexQuery r false record with
  | none => simp [maxIndexQuery, hop, h.name, h.messages] at hquery
  | some found => cases found <;> simp

/-- A dataset that can be encoded is reported as incomplete by `id` and `next` whatever its
place in the stream. -/
theorem partialData_iff (h : Dataset record n size) (hfound : g.record? id = some record) :
    g.getRecordByIDRaw r id idMax = .error (.partialData id) ↔
      record.encodable = true ∧ recordContainsPartialData r record = true := by
  have hmarker : ¬ Record.IsMarker record := fun hm => h.name hm.2
  rw [getRecordByIDRaw, getRecordFromDb_eq, hfound]
  simp only [checkStreamFinished_eq, hmarker, and_false, if_false]
  cases record.encodable <;> cases recordContainsPartialData r record <;> simp

/-- The two tests agree if and only if the request asks for no least size or the dataset has
it. A dataset below it is skipped by `last` and `groupedlast`, and returned by `id` and
`next`. Without a least size, an incomplete dataset that cannot be encoded gives them an
error without its id. -/
theorem complete_dataset_iff (r : NextRequest) (record : Record) (n : ℕ) (size : ℤ)
    (hop : r.datasetOp = true) (hmin : 0 ≤ r.minDatasetSize) (h : Dataset record n size) :
    ((recordContainsPartialData r record = false ↔ maxIndexQuery r false record = some true) ↔
      r.minDatasetSize = 0 ∨ r.minDatasetSize ≤ n) ∧
    ∀ (g : Group) (id idMax : ℕ), g.record? id = some record →
      ((g.getRecordByIDRaw r id idMax = .error (.partialData id) ↔ maxIndexQuery r false record = some false) ↔
        (r.minDatasetSize = 0 ∨ r.minDatasetSize ≤ n) ∧
          (record.encodable = true ∨ 0 < r.minDatasetSize ∨ (n : ℤ) = size)) := by
  refine ⟨?_, fun g id idMax hfound => ?_⟩
  · rw [← Bool.not_eq_true, partial_iff hop h, query_iff hop h]
    split <;> omega
  · rw [partialData_iff h hfound, partial_iff hop h, query_false_iff hop h, query_iff hop h]
    cases record.encodable with
    | false =>
      simp only [Bool.false_eq_true, false_and, false_or, false_iff, not_not]
      split <;> omega
    | true =>
      simp only [true_and, true_or, and_true]
      split <;> omega

def twoOfThree : Record := ⟨.message, text "a", none, some 2, some 3⟩

def datasetRequest (minDatasetSize : ℤ) : NextRequest := ⟨true, minDatasetSize, []⟩

theorem complete_dataset_two :
    Dataset twoOfThree 2 3 ∧
    ((recordContainsPartialData (datasetRequest 2) twoOfThree = false ↔
        maxIndexQuery (datasetRequest 2) false twoOfThree = some true) ↔
      (datasetRequest 2).minDatasetSize = 0 ∨ (datasetRequest 2).minDatasetSize ≤ (2 : ℕ)) := by
  have h : Dataset twoOfThree 2 3 := ⟨by decide, rfl, rfl⟩
  exact ⟨h, (complete_dataset_iff (datasetRequest 2) twoOfThree 2 3 rfl (by decide) h).1⟩

theorem small_dataset_returned :
    ¬ ∀ (r : NextRequest) (record : Record) (n : ℕ) (size : ℤ),
      r.datasetOp = true → 0 ≤ r.minDatasetSize → Dataset record n size →
        (recordContainsPartialData r record = false ↔ maxIndexQuery r false record = some true) := by
  intro h
  have hagree := h (datasetRequest 3) twoOfThree 2 3 rfl (by decide) ⟨by decide, rfl, rfl⟩
  exact absurd (hagree.mp (by decide)) (by decide)

end Asapo.Broker.Completeness
