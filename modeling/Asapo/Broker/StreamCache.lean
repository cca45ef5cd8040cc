import Asapo.Broker.StreamList
import Asapo.Transition

namespace Asapo.Broker.StreamList

open Transition

variable {c : NameCoding} {db db' : Collections} {docs : List RawRecord} {info e : StreamInfo} {name : Text}
  {currentStreams : List StreamInfo} {force : Bool}

def earliestTimestamp (docs : List RawRecord) : Option ℤ := (getEarliestRawRecord docs).bind (fun d => d.timestamp)

structure LastPart where
  lastId : ℤ
  timestampLast : ℤ
  finished : Bool
  nextStream : Option Text
  open_ : finished = false → nextStream = none

def lastPart (docs : List RawRecord) : Except String LastPart :=
  match getLastRawRecord docs with
  | none => .ok ⟨0, 0, false, none, fun _ => rfl⟩
  | some d =>
    match d.message with
    | none => .error "fillInfoFromLastRecord: cannot extract record"
    | some m =>
      if m.name = Group.finishStreamKeyword then
        .ok ⟨d.id - 1, m.timestamp, true, m.nextStream.filter (fun s => s ≠ noNextStreamKeyword), nofun⟩
      else .ok ⟨d.id, m.timestamp, false, none, fun _ => rfl⟩

def LastPart.apply (p : LastPart) (info : StreamInfo) : StreamInfo :=
  { info with
    lastId := p.lastId
    timestampLast := p.timestampLast
    finished := p.finished
    nextStream := p.nextStream.getD info.nextStream }

theorem LastPart.apply_apply (p : LastPart) (info : StreamInfo) : p.apply (p.apply info) = p.apply info := by
  unfold LastPart.apply
  cases p.nextStream <;> rfl

theorem fillInfoFromEarliestRecord_some {ts : ℤ} (h : earliestTimestamp docs = some ts) (info : StreamInfo) :
    fillInfoFromEarliestRecord docs info = .ok { info with timestamp := ts } := by
  unfold earliestTimestamp at h
  simp [fillInfoFromEarliestRecord, h]

theorem fillInfoFromEarliestRecord_none (h : earliestTimestamp docs = none) (info : StreamInfo) :
    fillInfoFromEarliestRecord docs info = .error "fillInfoFromEarliestRecord: cannot extact timestamp" := by
  unfold earliestTimestamp at h
  simp [fillInfoFromEarliestRecord, h]

theorem fillInfoFromLastRecord_eq (docs : List RawRecord) (info : StreamInfo) :
    fillInfoFromLastRecord docs info = (lastPart docs).map (fun p => p.apply info) := by
  unfold fillInfoFromLastRecord lastPart
  cases hlast : getLastRawRecord docs with
  | none => rfl
  | some d =>
    cases hm : d.message with
    | none => simp [hm, Except.map]
    | some m =>
      by_cases hname : m.name = Group.finishStreamKeyword
      · cases hnext : m.nextStream with
        | none => simp [hm, hname, hnext, Except.map, LastPart.apply]
        | some s =>
          by_cases hs : s = noNextStreamKeyword <;>
            simp [hm, hname, hnext, hs, Except.map, LastPart.apply, Option.filter]
      · simp [hm, hname, Except.map, LastPart.apply]

theorem findStreamAmongCurrent_cases (currentStreams : List StreamInfo) (record : StreamInfo) {ind : ℕ}
    (hind : search currentStreams.length (reached currentStreams record) = ind) :
    (∃ info, currentStreams[ind]? = some info ∧ info.name = record.name ∧
      findStreamAmongCurrent currentStreams record = ((ind : ℤ), true)) ∨
    ((∀ info, currentStreams[ind]? = some info → info.name ≠ record.name) ∧
      findStreamAmongCurrent currentStreams record = (-1, false)) := by
  unfold findStreamAmongCurrent
  rw [hind]
  cases hget : currentStreams[ind]? with
  | none => exact .inr ⟨by rintro _ ⟨⟩, by simp [hget]⟩
  | some info =>
    by_cases hname : info.name = record.name
    · exact .inl ⟨info, rfl, hname, by simp [hget, hname]⟩
    · exact .inr ⟨by rintro _ ⟨⟩; exact hname, by simp [hget, hname]⟩

theorem updateStreamInfofromCurrent_cases (currentStreams : List StreamInfo) (record : StreamInfo) :
    (∃ info ∈ currentStreams, info.name = record.name ∧
      updateStreamInfofromCurrent currentStreams record record = ((true, info.finished), info)) ∨
    updateStreamInfofromCurrent currentStreams record record = ((false, false), record) := by
  unfold updateStreamInfofromCurrent
  obtain ⟨info, hget, hname, hfind⟩ | ⟨-, hfind⟩ := findStreamAmongCurrent_cases currentStreams record rfl
  · exact .inl ⟨info, List.mem_of_getElem? hget, hname, by simp [hfind, hget]⟩
  · exact .inr (by simp [hfind])

/-! A forced sync. -/

/-- The next stream that an entry starts with: that of the cached entry, if one is found. -/
def inherited (currentStreams : List StreamInfo) (record : StreamInfo) : Text :=
  (updateStreamInfofromCurrent currentStreams record record).2.nextStream

/-- There is no earliest time, or the last record cannot be read. -/
def Undescribed (docs : List RawRecord) : Prop :=
  earliestTimestamp docs = none ∨ ∃ d, getLastRawRecord docs = some d ∧ d.message = none

def NamesNext (docs : List RawRecord) : Prop := ∃ p, lastPart docs = .ok p ∧ p.nextStream ≠ none

/-- The entry of a stream by what is stored, apart from the next stream. -/
def storedInfo (docs : List RawRecord) (name nextStream : Text) : Except String StreamInfo :=
  (fillInfoFromEarliestRecord docs ⟨0, name, 0, 0, false, nextStream⟩).bind (fillInfoFromLastRecord docs)

theorem updateStreamInfo_forced (record : StreamInfo) :
    updateStreamInfo c db currentStreams true record =
      storedInfo (streamDocuments c db record.name) record.name (inherited currentStreams record) := by
  have hname : (updateStreamInfofromCurrent currentStreams record record).2.name = record.name := by
    obtain ⟨info, -, hname, hentry⟩ | hentry := updateStreamInfofromCurrent_cases currentStreams record <;>
      rw [hentry]
    exact hname
  unfold updateStreamInfo storedInfo inherited
  simp only [Bool.not_true, Bool.and_false, Bool.or_true, Bool.false_eq_true, if_false, if_true]
  cases hts : earliestTimestamp (streamDocuments c db record.name) with
  | none => rw [fillInfoFromEarliestRecord_none hts, fillInfoFromEarliestRecord_none hts]
  | some ts =>
    rw [fillInfoFromEarliestRecord_some hts, fillInfoFromEarliestRecord_some hts]
    simp only [Except.bind, fillInfoFromLastRecord_eq, LastPart.apply, hname]

theorem lastPart_error_iff : (∃ err, lastPart docs = .error err) ↔
    ∃ d, getLastRawRecord docs = some d ∧ d.message = none := by
  unfold lastPart
  cases hlast : getLastRawRecord docs with
  | none => simp
  | some d =>
    cases hm : d.message with
    | none => simp [hm]
    | some m =>
      simp only [hm, Option.some.injEq, exists_eq_left', reduceCtorEq, iff_false]
      split <;> simp

theorem storedInfo_error_iff (name s : Text) :
    (∃ err, storedInfo docs name s = .error err) ↔ Undescribed docs := by
  rw [Undescribed, ← lastPart_error_iff]
  unfold storedInfo
  cases hts : earliestTimestamp docs with
  | none => simp [fillInfoFromEarliestRecord_none hts, Except.bind]
  | some ts =>
    simp only [fillInfoFromEarliestRecord_some hts, Except.bind, fillInfoFromLastRecord_eq, reduceCtorEq, false_or]
    cases lastPart docs <;> simp [Except.map]

theorem storedInfo_eq_iff {s t : Text} (h : ∃ info, storedInfo docs name s = .ok info) :
    storedInfo docs name s = storedInfo docs name t ↔ NamesNext docs ∨ s = t := by
  obtain ⟨info, h⟩ := h
  unfold storedInfo at h ⊢
  cases hts : earliestTimestamp docs with
  | none =>
    rw [fillInfoFromEarliestRecord_none hts] at h
    cases h
  | some ts =>
    simp only [fillInfoFromEarliestRecord_some hts, Except.bind, fillInfoFromLastRecord_eq] at h ⊢
    cases hlast : lastPart docs with
    | error err => simp [hlast, Except.map] at h
    | ok p =>
      simp only [Except.map, LastPart.apply, Except.ok.injEq, StreamInfo.mk.injEq, true_and, NamesNext, hlast]
      cases hp : p.nextStream with
      | none => simp [hp]
      | some s => simp [hp]

theorem storedInfo_error {s t : Text} {err : String} (h : storedInfo docs name s = .error err) :
    storedInfo docs name t = .error err := by
  unfold storedInfo at h ⊢
  cases hts : earliestTimestamp docs with
  | none =>
    rw [fillInfoFromEarliestRecord_none hts] at h ⊢
    exact h
  | some ts =>
    simp only [fillInfoFromEarliestRecord_some hts, Except.bind, fillInfoFromLastRecord_eq] at h ⊢
    cases hlast : lastPart docs with
    | error err => simpa [hlast, Except.map] using h
    | ok p => simp [hlast, Except.map] at h

section ForcedSync

variable {current₁ current₂ records : List StreamInfo}

theorem updateStreamInfos_error {err : String} (h : updateStreamInfos c db current₁ true records = .error err) :
    updateStreamInfos c db current₂ true records = .error err := by
  induction records with
  | nil => cases h
  | cons record records ih =>
    simp only [updateStreamInfos, updateStreamInfo_forced] at h ⊢
    cases hs : storedInfo (streamDocuments c db record.name) record.name (inherited current₁ record) with
    | error err₁ =>
      rw [hs] at h
      rw [storedInfo_error hs]
      exact h
    | ok info =>
      rw [hs] at h
      cases ht : storedInfo (streamDocuments c db record.name) record.name (inherited current₂ record) with
      | error err₂ => simp [storedInfo_error ht] at hs
      | ok info₂ =>
        cases hrest : updateStreamInfos c db current₁ true records with
        | error err₃ =>
          simp only [Except.bind, hrest, Except.map, Except.error.injEq] at h ⊢
          rw [ih (hrest.trans (congrArg _ h))]
        | ok infos => simp [Except.bind, hrest, Except.map] at h

theorem updateStreamInfos_error_iff (current₁ : List StreamInfo) :
    (∃ err, updateStreamInfos c db current₁ true records = .error err) ↔
    ∃ record ∈ records, Undescribed (streamDocuments c db record.name) := by
  induction records with
  | nil => simp [updateStreamInfos]
  | cons record records ih =>
    rw [List.exists_mem_cons_iff, ← ih, ← storedInfo_error_iff record.name (inherited current₁ record),
      ← updateStreamInfo_forced]
    simp only [updateStreamInfos]
    cases updateStreamInfo c db current₁ true record with
    | error err => simp [Except.bind]
    | ok info => cases updateStreamInfos c db current₁ true records <;> simp [Except.bind, Except.map]

theorem updateStreamInfos_eq_iff {infos : List StreamInfo}
    (h : updateStreamInfos c db current₁ true records = .ok infos) :
    updateStreamInfos c db current₁ true records = updateStreamInfos c db current₂ true records ↔
      ∀ record ∈ records, NamesNext (streamDocuments c db record.name) ∨
        inherited current₁ record = inherited current₂ record := by
  induction records generalizing infos with
  | nil => simp [updateStreamInfos]
  | cons record records ih =>
    simp only [updateStreamInfos, updateStreamInfo_forced] at h ⊢
    cases hs : storedInfo (streamDocuments c db record.name) record.name (inherited current₁ record) with
    | error err => simp [hs, Except.bind] at h
    | ok info =>
      cases ht : storedInfo (streamDocuments c db record.name) record.name (inherited current₂ record) with
      | error err => simp [storedInfo_error ht] at hs
      | ok info₂ =>
        have hhead := storedInfo_eq_iff (t := inherited current₂ record) ⟨info, hs⟩
        rw [hs, ht, Except.ok.injEq] at hhead
        cases hrest : updateStreamInfos c db current₁ true records with
        | error err => simp [hs, hrest, Except.bind, Except.map] at h
        | ok infos₁ =>
          have htail := ih hrest
          cases hrest₂ : updateStreamInfos c db current₂ true records with
          | error err => simp [updateStreamInfos_error hrest₂] at hrest
          | ok infos₂ =>
            rw [hrest, hrest₂, Except.ok.injEq] at htail
            simp only [Except.bind, Except.map, Except.ok.injEq, List.cons.injEq, List.forall_mem_cons, hhead, htail]

/-- A forced sync does not depend on the cache if and only if some stream cannot be
described, so that it fails, or the cached entries of every stream whose last record names no
next stream have the same next stream. -/
theorem forced_sync_iff (c : NameCoding) (db : Collections) (ss₁ ss₂ : Streams) (records : List StreamInfo) :
    updateStreamInfos c db (getCurrentStreams ss₁) true records =
        updateStreamInfos c db (getCurrentStreams ss₂) true records ↔
      (∃ record ∈ records, Undescribed (streamDocuments c db record.name)) ∨
        ∀ record ∈ records, NamesNext (streamDocuments c db record.name) ∨
          inherited (getCurrentStreams ss₁) record = inherited (getCurrentStreams ss₂) record := by
  rw [← updateStreamInfos_error_iff (getCurrentStreams ss₁)]
  cases h : updateStreamInfos c db (getCurrentStreams ss₁) true records with
  | error err => exact iff_of_true (updateStreamInfos_error h).symm (.inl ⟨err, rfl⟩)
  | ok infos =>
    rw [← h, updateStreamInfos_eq_iff h, h]
    simp

def plainNames : NameCoding := ⟨id, id⟩

def openStream : Collections := ⟨[(text "data_a", [⟨1, some 5, some ⟨5, text "f", none⟩⟩])]⟩

def formerStream : Streams := ⟨some [⟨3, text "a", 2, 4, true, text "b"⟩], some 0, some 0⟩

theorem forced_sync_stale :
    ¬ ∀ (c : NameCoding) (db : Collections) (ss₁ ss₂ : Streams),
      updateStreamInfos c db (getCurrentStreams ss₁) true (readStreams c db) =
        updateStreamInfos c db (getCurrentStreams ss₂) true (readStreams c db) := by
  intro h
  have hsame := h plainNames openStream .empty formerStream
  exact absurd hsame (by decide)

end ForcedSync

/-! Streams that only grow. -/

def Finished (docs : List RawRecord) : Prop :=
  ∃ d m, getLastRawRecord docs = some d ∧ d.message = some m ∧ m.name = Group.finishStreamKeyword

/-- Streams are only created and appended to, nothing is appended to a finished one, and the
earliest time of a stream does not change. -/
structure Grows (db db' : Collections) : Prop where
  created : ∀ x ∈ db.list, ∃ y ∈ db'.list, y.1 = x.1
  appended : ∀ name, db.documents name ⊆ db'.documents name
  finished : ∀ name, Finished (db.documents name) → db'.documents name = db.documents name
  earliest : ∀ name, db.documents name ≠ [] →
    earliestTimestamp (db'.documents name) = earliestTimestamp (db.documents name)

def scratchInfo (c : NameCoding) (db : Collections) (name : Text) : Except String StreamInfo :=
  storedInfo (streamDocuments c db name) name []

structure Valid (c : NameCoding) (db : Collections) (e : StreamInfo) : Prop where
  nonempty : streamDocuments c db e.name ≠ []
  timestamp : earliestTimestamp (streamDocuments c db e.name) = some e.timestamp
  finished : e.finished = true → scratchInfo c db e.name = .ok e
  open_ : e.finished = false → e.nextStream = []

theorem finished_of_lastPart {p : LastPart} (h : lastPart docs = .ok p) (hp : p.finished = true) :
    Finished docs := by
  unfold lastPart at h
  cases hlast : getLastRawRecord docs with
  | none =>
    rw [hlast] at h
    cases h
    cases hp
  | some d =>
    cases hm : d.message with
    | none => simp [hlast, hm] at h
    | some m =>
      by_cases hname : m.name = Group.finishStreamKeyword
      · exact ⟨d, m, hlast, hm, hname⟩
      · simp only [hlast, hm, hname, if_false, Except.ok.injEq] at h
        subst h
        cases hp

theorem scratchInfo_ok (h : scratchInfo c db name = .ok e) :
    ∃ ts p, earliestTimestamp (streamDocuments c db name) = some ts ∧
      lastPart (streamDocuments c db name) = .ok p ∧ e = p.apply ⟨0, name, ts, 0, false, []⟩ := by
  unfold scratchInfo storedInfo at h
  cases hts : earliestTimestamp (streamDocuments c db name) with
  | none =>
    rw [fillInfoFromEarliestRecord_none hts] at h
    cases h
  | some ts =>
    simp only [fillInfoFromEarliestRecord_some hts, Except.bind, fillInfoFromLastRecord_eq] at h
    cases hlast : lastPart (streamDocuments c db name) with
    | error err => simp [hlast, Except.map] at h
    | ok p =>
      simp only [hlast, Except.map, Except.ok.injEq] at h
      exact ⟨ts, p, rfl, rfl, h.symm⟩

theorem scratchInfo_eq {ts : ℤ} (hts : earliestTimestamp (streamDocuments c db name) = some ts) :
    scratchInfo c db name = fillInfoFromLastRecord (streamDocuments c db name) ⟨0, name, ts, 0, false, []⟩ := by
  unfold scratchInfo storedInfo
  rw [fillInfoFromEarliestRecord_some hts]
  rfl

theorem valid_of_scratchInfo (h : scratchInfo c db name = .ok e) : Valid c db e := by
  obtain ⟨ts, p, hts, hlast, rfl⟩ := scratchInfo_ok h
  refine ⟨?_, hts, fun _ => h, fun hopen => ?_⟩
  · intro hnil
    change streamDocuments c db name = [] at hnil
    rw [hnil] at hts
    cases hts
  · change p.nextStream.getD [] = []
    rw [p.open_ hopen]
    rfl

theorem Valid.grow (h : Valid c db e) (hg : Grows db db') : Valid c db' e := by
  refine ⟨?_, ?_, fun hf => ?_, h.open_⟩
  · intro hnil
    obtain ⟨d, hd⟩ := List.exists_mem_of_ne_nil _ h.nonempty
    have hmem : d ∈ streamDocuments c db' e.name := hg.appended _ hd
    rw [hnil] at hmem
    cases hmem
  · rw [← h.timestamp]
    exact hg.earliest _ h.nonempty
  · obtain ⟨ts, p, hts, hlast, he⟩ := scratchInfo_ok (h.finished hf)
    have hp : p.finished = true := by
      rw [he] at hf
      exact hf
    have hdocs : streamDocuments c db' e.name = streamDocuments c db e.name :=
      hg.finished _ (finished_of_lastPart hlast hp)
    rw [← h.finished hf, scratchInfo, scratchInfo, hdocs]

theorem updateStreamInfo_valid (hv : ∀ e ∈ currentStreams, Valid c db e) (force : Bool) (name : Text) :
    updateStreamInfo c db currentStreams force ⟨0, name, 0, 0, false, []⟩ = scratchInfo c db name := by
  unfold updateStreamInfo
  obtain ⟨e, hmem, rfl, hentry⟩ | hentry :=
    updateStreamInfofromCurrent_cases currentStreams ⟨0, name, 0, 0, false, []⟩
  swap
  · simp only [hentry]
    rfl
  · simp only [hentry]
    have he := hv e hmem
    have hearliest : fillInfoFromEarliestRecord (streamDocuments c db e.name) e = .ok e :=
      fillInfoFromEarliestRecord_some he.timestamp e
    -- the fields from the last record are all replaced, except for the next stream
    have hlast : fillInfoFromLastRecord (streamDocuments c db e.name) e = scratchInfo c db e.name := by
      cases hf : e.finished with
      | false =>
        simp only [scratchInfo_eq he.timestamp, fillInfoFromLastRecord_eq, LastPart.apply, he.open_ hf]
      | true =>
        obtain ⟨ts, p, hts, hpart, hp⟩ := scratchInfo_ok (he.finished hf)
        rw [he.finished hf, fillInfoFromLastRecord_eq, hpart]
        change Except.ok (p.apply e) = .ok e
        rw [hp, LastPart.apply_apply]
    cases force with
    | true => simpa [hearliest, Except.bind] using hlast
    | false =>
      cases hf : e.finished with
      | true => simpa [hf] using (he.finished hf).symm
      | false => simpa [hf] using hlast

theorem updateStreamInfos_valid (hv : ∀ e ∈ currentStreams, Valid c db e) (force : Bool)
    {records : List StreamInfo} (hr : ∀ record ∈ records, ∃ name, record = ⟨0, name, 0, 0, false, []⟩) :
    updateStreamInfos c db currentStreams force records = updateStreamInfos c db [] true records := by
  induction records with
  | nil => rfl
  | cons record records ih =>
    obtain ⟨name, rfl⟩ := hr _ List.mem_cons_self
    have hempty : updateStreamInfo c db [] true ⟨0, name, 0, 0, false, []⟩ = scratchInfo c db name :=
      updateStreamInfo_valid (by rintro _ ⟨⟩) true name
    rw [updateStreamInfos, updateStreamInfos, updateStreamInfo_valid hv, hempty,
      ih (fun record h => hr record (List.mem_cons_of_mem _ h))]

theorem valid_of_updateStreamInfos {infos records : List StreamInfo}
    (hr : ∀ record ∈ records, ∃ name, record = ⟨0, name, 0, 0, false, []⟩)
    (h : updateStreamInfos c db [] true records = .ok infos) : ∀ e ∈ infos, Valid c db e := by
  induction records generalizing infos with
  | nil =>
    cases h
    rintro _ ⟨⟩
  | cons record records ih =>
    obtain ⟨name, rfl⟩ := hr _ List.mem_cons_self
    have hempty : updateStreamInfo c db [] true ⟨0, name, 0, 0, false, []⟩ = scratchInfo c db name :=
      updateStreamInfo_valid (by rintro _ ⟨⟩) true name
    rw [updateStreamInfos, hempty] at h
    cases hs : scratchInfo c db name with
    | error err => simp [hs, Except.bind] at h
    | ok info =>
      cases hrest : updateStreamInfos c db [] true records with
      | error err => simp [hs, hrest, Except.bind, Except.map] at h
      | ok rest =>
        simp only [hs, hrest, Except.bind, Except.map, Except.ok.injEq] at h
        subst h
        intro e he
        obtain rfl | he := List.mem_cons.mp he
        · exact valid_of_scratchInfo hs
        · exact ih (fun record h => hr record (List.mem_cons_of_mem _ h)) hrest e he

/-- The cached entries are those of an earlier database. -/
def Coherent (c : NameCoding) (db : Collections) (ss : Streams) : Prop :=
  ∀ e ∈ ss.records.getD [], Valid c db e

theorem Coherent.current {ss : Streams} (h : Coherent c db ss) : ∀ e ∈ getCurrentStreams ss, Valid c db e := by
  intro e he
  exact h e ((List.mem_insertionSort _).mp he)

theorem readStreams_blank (c : NameCoding) (db : Collections) :
    ∀ record ∈ readStreams c db, ∃ name, record = ⟨0, name, 0, 0, false, []⟩ := by
  intro record hr
  obtain ⟨x, -, rfl⟩ := List.mem_map.mp hr
  exact ⟨_, rfl⟩

def scratch (c : NameCoding) (db : Collections) : Except String (List StreamInfo) :=
  (updateFromDb c db 0 0 .empty).2

theorem updateFromDb_result (c : NameCoding) (db : Collections) (now later : ℤ) (ss : Streams) :
    (updateFromDb c db now later ss).2 =
      (updateStreamInfos c db (getCurrentStreams ss) (forceSync ss now) (readStreams c db)).map sortRecords := by
  unfold updateFromDb
  cases updateStreamInfos c db (getCurrentStreams ss) (forceSync ss now) (readStreams c db) <;> rfl

theorem updateFromDb_coherent {ss : Streams} (h : Coherent c db ss) (now later : ℤ) :
    (updateFromDb c db now later ss).2 = scratch c db := by
  rw [scratch, updateFromDb_result, updateFromDb_result,
    updateStreamInfos_valid h.current _ (readStreams_blank c db)]
  rfl

theorem coherent_updateFromDb {ss : Streams} (h : Coherent c db ss) (now later : ℤ) :
    Coherent c db (updateFromDb c db now later ss).1 := by
  have hsorted : Coherent c db { ss with records := ss.records.map sortByName } := by
    intro e he
    cases hr : ss.records with
    | none => simp [hr] at he
    | some infos =>
      simp only [hr, Option.map_some, Option.getD_some] at he
      exact h e (by simpa [hr] using (List.mem_insertionSort _).mp he)
  unfold updateFromDb
  cases hu : updateStreamInfos c db (getCurrentStreams ss) (forceSync ss now) (readStreams c db) with
  | error err => exact hsorted
  | ok infos =>
    have hvalid : ∀ e ∈ sortRecords infos, Valid c db e := by
      rw [updateStreamInfos_valid h.current _ (readStreams_blank c db)] at hu
      intro e he
      exact valid_of_updateStreamInfos (readStreams_blank c db) hu e ((List.mem_insertionSort _).mp he)
    by_cases hnil : sortRecords infos = []
    · simp only [hnil, if_true]
      cases forceSync ss now <;> exact hsorted
    · simp only [hnil, if_false]
      exact hvalid

structure State where
  db : Collections
  streams : Streams
  deriving DecidableEq

inductive Event where
  | grow (db : Collections)
  | update (now later : ℤ)

def step (c : NameCoding) (s : State) : Event → Option State
  | .grow db => some { s with db := db }
  | .update now later => some { s with streams := (updateFromDb c s.db now later s.streams).1 }

def GrowsOnly (s : State) : Event → Prop
  | .grow db => Grows s.db db
  | .update _ _ => True

def described (c : NameCoding) (db : Collections) : Except String (List StreamInfo) :=
  ((readStreams c db).mapM (fun record => scratchInfo c db record.name)).map sortRecords

theorem updateStreamInfos_described (records : List StreamInfo)
    (hr : ∀ record ∈ records, ∃ name, record = ⟨0, name, 0, 0, false, []⟩) :
    updateStreamInfos c db [] true records = records.mapM (fun record => scratchInfo c db record.name) := by
  induction records with
  | nil => rfl
  | cons record records ih =>
    obtain ⟨name, rfl⟩ := hr _ List.mem_cons_self
    have hempty : updateStreamInfo c db [] true ⟨0, name, 0, 0, false, []⟩ = scratchInfo c db name :=
      updateStreamInfo_valid (by rintro _ ⟨⟩) true name
    rw [updateStreamInfos, hempty, ih (fun record h => hr record (List.mem_cons_of_mem _ h)), List.mapM_cons]
    cases scratchInfo c db name <;> rfl

theorem scratch_eq_described (c : NameCoding) (db : Collections) : scratch c db = described c db := by
  rw [scratch, updateFromDb_result, described, ← updateStreamInfos_described _ (readStreams_blank c db)]
  rfl

/-- The cache cannot be seen in what `updateFromDb` returns, forced or not, as long as the
streams only grow: it is what an empty cache gives, and what is stored of the streams. -/
theorem cache_transparent (c : NameCoding) (db : Collections) (events : List Event) (s : State)
    (hgrows : Along (step c) GrowsOnly ⟨db, .empty⟩ events)
    (hs : exec (step c) ⟨db, .empty⟩ events = some s) (now later : ℤ) :
    (updateFromDb c s.db now later s.streams).2 = scratch c s.db ∧ scratch c s.db = described c s.db := by
  have hcoherent : Always (step c) (fun s => Coherent c s.db s.streams) ⟨db, .empty⟩ events := by
    refine always_of_along (fun _ h => h) ?_ _ events ?_ hgrows
    · intro s e t h hg ht
      cases e with
      | grow db =>
        cases ht
        exact fun e he => (h e he).grow hg
      | update now later =>
        cases ht
        exact coherent_updateFromDb h now later
    · rintro _ ⟨⟩
  exact ⟨updateFromDb_coherent (always_exec _ s events hcoherent hs) now later, scratch_eq_described c s.db⟩

def finishedStream : Collections :=
  ⟨[(text "data_a", [⟨1, some 5, some ⟨5, text "f", none⟩⟩,
    ⟨2, some 7, some ⟨7, Group.finishStreamKeyword, some (text "b")⟩⟩])]⟩

theorem grows_finished : Grows openStream finishedStream := by
  have hother : ∀ name, name ≠ text "data_a" → openStream.documents name = [] := by
    intro name hne
    simp [Collections.documents, openStream, hne.symm]
  refine ⟨by decide, fun name => ?_, fun name hf => ?_, fun name hne => ?_⟩
  · by_cases hname : name = text "data_a"
    · subst hname
      decide
    · rw [hother name hname]
      exact List.nil_subset _
  · obtain ⟨d, m, hd, hm, hfinish⟩ := hf
    by_cases hname : name = text "data_a"
    · subst hname
      cases hd
      cases hm
      exact absurd hfinish (by decide)
    · rw [hother name hname] at hd
      cases hd
  · by_cases hname : name = text "data_a"
    · subst hname
      decide
    · exact absurd (hother name hname) hne

theorem cache_transparent_finished :
    Along (step plainNames) GrowsOnly ⟨openStream, .empty⟩ [.update 0 1, .grow finishedStream] ∧
    ∃ s, exec (step plainNames) ⟨openStream, .empty⟩ [.update 0 1, .grow finishedStream] = some s ∧
      (updateFromDb plainNames s.db 2 3 s.streams).2 = scratch plainNames s.db ∧
      scratch plainNames s.db = described plainNames s.db := by
  have hgrows : Along (step plainNames) GrowsOnly ⟨openStream, .empty⟩ [.update 0 1, .grow finishedStream] := by
    rintro _ ⟨⟩
    refine ⟨trivial, ?_⟩
    rintro _ ⟨⟩
    exact ⟨grows_finished, trivial⟩
  exact ⟨hgrows, _, rfl, cache_transparent plainNames openStream _ _ hgrows rfl 2 3⟩

end Asapo.Broker.StreamList
