import Asapo.Broker.Nacks

namespace Asapo.Broker

open Nacks

def Group.record? (g : Group) (id : ℕ) : Option Record := (g.data.find? (fun x => x.1 = id)).map Prod.snd

def Group.MarkerAt (g : Group) (id : ℕ) : Prop := ∃ record, g.record? id = some record ∧ Record.IsMarker record

variable {g : Group} {r : NextRequest} {id idMax : ℕ} {record : Record} {err : DBError}

theorem record_at_max (h : g.getMaxIndex ≠ 0) : ∃ record, g.record? g.getMaxIndex = some record := by
  have hne : g.data ≠ [] := by
    intro hd
    simp [Group.getMaxIndex, hd] at h
  obtain ⟨x, hx, hmax⟩ := exists_mem_getMaxIndex hne
  have hs : (g.data.find? (fun y => y.1 = g.getMaxIndex)).isSome := by
    rw [List.find?_isSome]
    exact ⟨x, hx, by simpa using hmax⟩
  obtain ⟨y, hy⟩ := Option.isSome_iff_exists.mp hs
  exact ⟨y.2, by rw [Group.record?, hy]; rfl⟩

theorem getRecordFromDb_eq : g.getRecordFromDb id idMax =
    match g.record? id with
    | none => .error (.noData id idMax [])
    | some record => .ok record := by
  unfold Group.getRecordFromDb Group.record?
  cases g.data.find? (fun x => decide (x.1 = id)) <;> rfl

theorem checkStreamFinished_eq : Group.checkStreamFinished id idMax record =
    if id = idMax ∧ Record.IsMarker record then
      some (.noData (id - 1) (id - 1) (record.nextStream.getD (text "asapo_no_next")))
    else none := by
  unfold Group.checkStreamFinished Record.IsMarker
  by_cases hid : id = idMax <;> simp [hid]

/-- Why a record is not returned: it is missing, it is the finish marker at the end of the
stream, it cannot be encoded, or it is an incomplete dataset. -/
inductive ReadError (g : Group) (r : NextRequest) (id idMax : ℕ) : DBError → Prop
  | missing (absent : g.record? id = none) : ReadError g r id idMax (.noData id idMax [])
  | finished (record : Record) (found : g.record? id = some record) (last : id = idMax)
      (marker : Record.IsMarker record) :
      ReadError g r id idMax (.noData (id - 1) (id - 1) (record.nextStream.getD (text "asapo_no_next")))
  | unencodable (record : Record) (found : g.record? id = some record)
      (encodable : record.encodable = false) : ReadError g r id idMax .other
  | incomplete (record : Record) (found : g.record? id = some record)
      (size : Group.recordContainsPartialData r record = true) : ReadError g r id idMax (.partialData id)

theorem getRecordByIDRaw_error (h : g.getRecordByIDRaw r id idMax = .error err) :
    ReadError g r id idMax err := by
  rw [Group.getRecordByIDRaw, getRecordFromDb_eq] at h
  cases hrec : g.record? id with
  | none =>
    rw [hrec] at h
    cases h
    exact .missing hrec
  | some record =>
    simp only [hrec, checkStreamFinished_eq] at h
    by_cases hm : id = idMax ∧ Record.IsMarker record
    · rw [if_pos hm] at h
      cases h
      exact .finished record hrec hm.1 hm.2
    · rw [if_neg hm] at h
      cases henc : record.encodable with
      | false =>
        simp only [henc, Bool.not_false, if_true] at h
        cases h
        exact .unencodable record hrec henc
      | true =>
        by_cases hp : Group.recordContainsPartialData r record = true
        · simp only [henc, hp, Bool.not_true, Bool.false_eq_true, if_false, if_true] at h
          cases h
          exact .incomplete record hrec hp
        · simp [henc, hp] at h

theorem getRecordByIDRaw_ok (h : g.getRecordByIDRaw r id idMax = .ok record) : g.record? id = some record := by
  rw [Group.getRecordByIDRaw, getRecordFromDb_eq] at h
  cases hrec : g.record? id with
  | none => simp [hrec] at h
  | some found =>
    simp only [hrec] at h
    split at h
    · cases h
    · split at h
      · cases h
      · split at h <;> cases h
        rfl

theorem not_marker_of_partial (h : Group.recordContainsPartialData r record = true) : ¬ Record.IsMarker record := by
  intro hm
  simp [Group.recordContainsPartialData, hm.2] at h

theorem not_marker_of_unencodable (h : record.encodable = false) : ¬ Record.IsMarker record := by
  rintro ⟨hread, -⟩
  cases hreading : record.reading <;> simp [Record.encodable, Record.readable, hreading] at h hread

theorem not_partial_of_plain (hr : r.datasetOp = false) :
    ¬ Group.recordContainsPartialData r record = true := by
  simp [Group.recordContainsPartialData, hr]

theorem errorWhenCannotSetField_eq (h : g.record? id = some record) :
    g.errorWhenCannotSetField id =
      if Record.IsMarker record then
        .noData (id - 1) (id - 1) (record.nextStream.getD (text "asapo_no_next"))
      else .noData id id [] := by
  rw [Group.errorWhenCannotSetField, getRecordFromDb_eq]
  simp only [h, checkStreamFinished_eq, true_and]
  split <;> rfl

end Asapo.Broker
