import Asapo.Receiver.Storing

namespace Asapo.Receiver.RecordPlace

open Database Storing RequestHandlerDbCheckRequest MongoDBClient

variable {J ω α : Type}

def explicitMessage (g : Settings) (r : Request) : MessageMeta :=
  if r.header.opCode = .transferData then prepareMessageMeta g r
  else { prepareMessageMeta g r with datasetSubstream := r.header.customData kPosDataSetId }

def put (r : Request) (docs : Collection J) (d : Document J) : Collection.Upsert J :=
  if r.header.opCode = .transferData then
    match docs.insertOne d with
    | some new => .done new
    | none => .duplicateKey
  else
    docs.upsertMember r.header.dataId (r.header.customData kPosDataSetId)
      (r.header.customData kPosDataSetSize) d.fields

/-- The record that a collection has in the place of a request. A record that cannot be
read is there as an empty one, but a dataset that cannot be read has no members. -/
def found (c : MongoDBClient J ω) (r : Request) (docs : Collection J) : Option MessageMeta :=
  if r.header.opCode = .transferData then
    (docs.find r.header.dataId).map (fun d => (c.setFromJson d.fields).getD MessageMeta.empty)
  else
    (docs.find r.header.dataId).bind (fun d =>
      (c.datasetContent d).find? (fun m => m.datasetSubstream = r.header.customData kPosDataSetId))

def Short (r : Request) : Prop := updateCurrentCollectionIfNeeded (dataCollection r) = none

/-- A request to the database server may fail. -/
def Unreliable (c : MongoDBClient J ω) : Prop := ∃ x, (c.fault x).1 ≠ none

variable {c : MongoDBClient J ω} {g : Settings} {r : Request} {w w' : World J ω} {col : Text}
  {err : Option Error}

theorem unreliable_of_request {t : ErrorTemplate} {e : Error} (h : c.request t w = (some e, w')) :
    Unreliable c := by
  refine ⟨w.rest, fun hn => ?_⟩
  unfold MongoDBClient.request World.lift at h
  simp [hn] at h

inductive Wrote (c : MongoDBClient J ω) (col : Text) (w w' : World J ω) (u : Collection.Upsert J) :
    Option Error → Prop
  | done (new : Collection J) (result : u = .done new)
      (db : w'.db = w.db.setCollection (encodeColName col) new) : Wrote c col w w' u none
  | duplicate (e : Error) (code : e.code = DBErrorTemplates.duplicateID.code)
      (result : u = .duplicateKey) (db : w'.db = w.db) : Wrote c col w w' u (some e)
  | failed (e : Error) (code : e.code ≠ DBErrorTemplates.duplicateID.code) (db : w'.db = w.db)
      (why : u = .failed ∨ Unreliable c) : Wrote c col w w' u (some e)

theorem wrote_insertBsonDocument {d : Document J} (hop : r.header.opCode = .transferData)
    (h : c.insertBsonDocument col d w = (err, w')) : Wrote c col w w' (put r (docs col w) d) err := by
  rw [put, if_pos hop]
  unfold MongoDBClient.insertBsonDocument at h
  split at h
  · rename_i e w₁ hq
    cases h
    exact .failed e (by rw [request_code hq]; decide) (request_db hq) (.inr (unreliable_of_request hq))
  · rename_i w₁ hq
    have hdb := request_db hq
    have hdocs : docs col w₁ = docs col w := by rw [docs, docs, hdb]
    rw [hdocs] at h
    split at h <;> cases h
    · rename_i hn
      rw [hn]
      exact .duplicate _ rfl rfl hdb
    · rename_i new hn
      rw [hn]
      exact .done new rfl (by rw [setDocs, hdb])

theorem wrote_updateArray {id substream datasetSize : ℕ} {member : MessageFields J}
    (h : c.updateArray col id substream datasetSize member w = (err, w')) :
    Wrote c col w w' ((docs col w).upsertMember id substream datasetSize member) err := by
  unfold MongoDBClient.updateArray at h
  split at h
  · rename_i e w₁ hq
    cases h
    exact .failed e (by rw [request_code hq]; decide) (request_db hq) (.inr (unreliable_of_request hq))
  · rename_i w₁ hq
    have hdb := request_db hq
    have hdocs : docs col w₁ = docs col w := by rw [docs, docs, hdb]
    rw [hdocs] at h
    split at h <;> rename_i hu <;> cases h
    · exact .duplicate _ rfl hu hdb
    · exact .failed _ (by decide) hdb (.inl hu)
    · exact .done _ hu (by rw [setDocs, hdb])

theorem wrote_addBsonDocumentToArray {id substream datasetSize : ℕ} {member : MessageFields J}
    (h : c.addBsonDocumentToArray col id substream datasetSize member w = (err, w')) :
    Wrote c col w w' ((docs col w).upsertMember id substream datasetSize member) err := by
  unfold MongoDBClient.addBsonDocumentToArray at h
  split at h
  rename_i e w₁ hu
  have hfirst := wrote_updateArray hu
  split at h
  · rename_i hdup
    -- the second attempt finds the collection as the first one did
    have hdb : w₁.db = w.db := by
      cases hfirst with
      | done => simp at hdup
      | duplicate e code result db => exact db
      | failed e code db why => exact db
    have hsecond := wrote_updateArray h
    have hdocs : docs col w₁ = docs col w := by rw [docs, docs, hdb]
    rw [hdocs] at hsecond
    cases hsecond with
    | done new result db => exact .done new result (by rw [db, hdb])
    | duplicate e code result db => exact .duplicate e code result (db.trans hdb)
    | failed e code db why => exact .failed e code (db.trans hdb) why
  · cases h
    exact hfirst

inductive Inserted (c : MongoDBClient J ω) (g : Settings) (r : Request) (w w' : World J ω) :
    Option Error → Prop
  | done (d : Document J) (new : Collection J) (short : Short r)
      (read : c.json.fromJson (explicitMessage g r).json = some d)
      (result : put r (docs (dataCollection r) w) d = .done new)
      (db : w'.db = w.db.setCollection (encodeColName (dataCollection r)) new) : Inserted c g r w w' none
  | duplicate (e : Error) (d : Document J) (code : e.code = DBErrorTemplates.duplicateID.code)
      (short : Short r) (read : c.json.fromJson (explicitMessage g r).json = some d)
      (result : put r (docs (dataCollection r) w) d = .duplicateKey) (db : w'.db = w.db) :
      Inserted c g r w w' (some e)
  | failed (e : Error) (code : e.code ≠ DBErrorTemplates.duplicateID.code) (db : w'.db = w.db)
      (why : ¬ Short r ∨ Unreliable c ∨ ∀ d, c.json.fromJson (explicitMessage g r).json = some d →
        put r (docs (dataCollection r) w) d = .failed) : Inserted c g r w w' (some e)

theorem Inserted.congr {u : World J ω} (h : Inserted c g r w w' err) (hdb : w.db = u.db) :
    Inserted c g r u w' err := by
  have hdocs : docs (dataCollection r) w = docs (dataCollection r) u := by rw [docs, docs, hdb]
  cases h with
  | done d new short read result db => exact .done d new short read (hdocs ▸ result) (hdb ▸ db)
  | duplicate e d code short read result db =>
    exact .duplicate e d code short read (hdocs ▸ result) (db.trans hdb)
  | failed e code db why => exact .failed e code (db.trans hdb) (hdocs ▸ why)

theorem Inserted.of_wrote {d : Document J} (hs : Short r)
    (hd : c.json.fromJson (explicitMessage g r).json = some d)
    (h : Wrote c (dataCollection r) w w' (put r (docs (dataCollection r) w) d) err) :
    Inserted c g r w w' err := by
  cases h with
  | done new result db => exact .done d new hs hd result db
  | duplicate e code result db => exact .duplicate e d code hs hd result db
  | failed e code db why =>
    refine .failed e code db (.inr ?_)
    obtain hu | hu := why
    · refine .inr (fun d' hd' => ?_)
      rw [hd] at hd'
      exact Option.some.inj hd' ▸ hu
    · exact .inl hu

theorem inserted_of_long {e : Error} (hu : updateCurrentCollectionIfNeeded (dataCollection r) = some e) :
    Inserted c g r w w (some e) := by
  refine .failed e ?_ rfl (.inl (by rw [Short, hu]; simp))
  unfold MongoDBClient.updateCurrentCollectionIfNeeded at hu
  split at hu <;> cases hu
  decide

theorem inserted_of_unread {e : Error} (hn : c.json.fromJson (explicitMessage g r).json = none)
    (he : e.code ≠ DBErrorTemplates.duplicateID.code) : Inserted c g r w w (some e) := by
  refine .failed e he rfl (.inr (.inr (fun d hd => ?_)))
  simp [hn] at hd

theorem insertRecordToDb_inserted (hid : r.header.dataId ≠ 0)
    (h : insertRecordToDb c g r w = (err, w')) : Inserted c g r w w' err := by
  unfold insertRecordToDb at h
  extract_lets message at h
  split at h
  · rename_i hop
    have hm : explicitMessage g r = message := if_pos hop
    unfold MongoDBClient.insert at h
    split at h
    · rename_i e hu
      cases h
      exact inserted_of_long hu
    · rename_i hs
      have hz : ¬ message.id = 0 := hid
      rw [if_neg hz, ← hm] at h
      unfold MongoDBClient.insertWithId at h
      split at h
      · rename_i hn
        cases h
        exact inserted_of_unread hn (by decide)
      · rename_i d hd
        exact .of_wrote hs hd (wrote_insertBsonDocument hop h)
  · rename_i hop
    have hm : explicitMessage g r = { message with datasetSubstream := r.header.customData kPosDataSetId } :=
      if_neg hop
    unfold MongoDBClient.insertAsDatasetMessage at h
    split at h
    · rename_i e hu
      cases h
      exact inserted_of_long hu
    · rename_i hs
      rw [← hm] at h
      split at h
      · rename_i hn
        cases h
        exact inserted_of_unread hn (by decide)
      · rename_i d hd
        refine .of_wrote hs hd ?_
        rw [put, if_neg hop]
        rw [hm] at h
        exact wrote_addBsonDocumentToArray h

inductive Looked (c : MongoDBClient J ω) (r : Request) (w : World J ω) : Except Error MessageMeta → Prop
  | there (record : MessageMeta) (short : Short r)
      (record_eq : found c r (docs (dataCollection r) w) = some record) : Looked c r w (.ok record)
  | missing (e : Error) (code : e.code = DBErrorTemplates.noRecord.code) (short : Short r)
      (record_eq : found c r (docs (dataCollection r) w) = none) : Looked c r w (.error e)
  | failed (e : Error) (code : e.code ≠ DBErrorTemplates.noRecord.code)
      (why : ¬ Short r ∨ Unreliable c) : Looked c r w (.error e)

inductive LookedUp (c : MongoDBClient J ω) (r : Request) (w : World J ω) :
    Except Error (Document J) → Prop
  | there (d : Document J) (short : Short r)
      (doc : (docs (dataCollection r) w).find r.header.dataId = some d) : LookedUp c r w (.ok d)
  | missing (e : Error) (code : e.code = DBErrorTemplates.noRecord.code) (short : Short r)
      (doc : (docs (dataCollection r) w).find r.header.dataId = none) : LookedUp c r w (.error e)
  | failed (e : Error) (code : e.code ≠ DBErrorTemplates.noRecord.code)
      (why : ¬ Short r ∨ Unreliable c) : LookedUp c r w (.error e)

theorem getRecordFromDb_lookedUp {x : Except Error (Document J)}
    (h : c.getRecordFromDb (dataCollection r) r.header.dataId w = (x, w')) : LookedUp c r w x := by
  unfold MongoDBClient.getRecordFromDb at h
  split at h
  · rename_i e hu
    cases h
    refine .failed e ?_ (.inl (by rw [Short, hu]; simp))
    unfold MongoDBClient.updateCurrentCollectionIfNeeded at hu
    split at hu <;> cases hu
    decide
  · rename_i hs
    split at h
    · rename_i e w₁ hq
      cases h
      exact .failed e (by rw [request_code hq]; decide) (.inr (unreliable_of_request hq))
    · rename_i w₁ hq
      have hdocs : docs (dataCollection r) w₁ = docs (dataCollection r) w := by
        rw [docs, docs, request_db hq]
      rw [hdocs] at h
      split at h <;> rename_i hf <;> cases h
      · exact .missing _ rfl hs hf
      · exact .there _ hs hf

theorem getRecordFromDb_looked {x : Except Error MessageMeta}
    (h : Storing.getRecordFromDb c r w = (x, w')) : Looked c r w x := by
  unfold Storing.getRecordFromDb at h
  split at h
  · rename_i hop
    unfold MongoDBClient.getById at h
    split at h <;> rename_i hg <;> cases h
    · cases getRecordFromDb_lookedUp hg with
      | missing e code short doc => exact .missing _ code short (by simp [found, hop, doc])
      | failed e code why => exact .failed _ code why
    · cases getRecordFromDb_lookedUp hg with
      | there d short doc => exact .there _ short (by simp [found, hop, doc])
  · rename_i hop
    unfold MongoDBClient.getDataSetById at h
    split at h <;> rename_i hg
    · cases h
      cases getRecordFromDb_lookedUp hg with
      | missing e code short doc => exact .missing _ code short (by simp [found, hop, doc])
      | failed e code why => exact .failed _ code why
    · cases getRecordFromDb_lookedUp hg with
      | there d short doc =>
        split at h <;> rename_i hm <;> cases h
        · exact .there _ short (by simp [found, hop, doc, hm])
        · exact .missing _ rfl short (by simp [found, hop, doc, hm])

section Rest

/-! Only the faults of the connection touch the world around the database. -/

variable {K : ω → α}

theorem rest_of_request (hK : ∀ x, K (c.fault x).2 = K x) {t : ErrorTemplate}
    (h : c.request t w = (err, w')) : K w'.rest = K w.rest := by
  cases h
  exact hK w.rest

theorem rest_of_insertWithId (hK : ∀ x, K (c.fault x).2 = K x) {file : MessageMeta}
    (h : c.insertWithId col file w = (err, w')) : K w'.rest = K w.rest := by
  unfold MongoDBClient.insertWithId at h
  split at h
  · cases h
    rfl
  · unfold MongoDBClient.insertBsonDocument at h
    split at h <;> rename_i hq
    · cases h
      exact rest_of_request hK hq
    · have hr := rest_of_request hK hq
      split at h <;> cases h <;> exact hr

theorem rest_of_updateArray (hK : ∀ x, K (c.fault x).2 = K x) {id substream datasetSize : ℕ}
    {member : MessageFields J} (h : c.updateArray col id substream datasetSize member w = (err, w')) :
    K w'.rest = K w.rest := by
  unfold MongoDBClient.updateArray at h
  split at h <;> rename_i hq
  · cases h
    exact rest_of_request hK hq
  · have hr := rest_of_request hK hq
    split at h <;> cases h <;> exact hr

theorem rest_of_insertAsDatasetMessage (hK : ∀ x, K (c.fault x).2 = K x) {file : MessageMeta}
    {datasetSize : ℕ} (h : c.insertAsDatasetMessage col file datasetSize w = (err, w')) :
    K w'.rest = K w.rest := by
  unfold MongoDBClient.insertAsDatasetMessage at h
  split at h
  · cases h
    rfl
  · split at h
    · cases h
      rfl
    · unfold MongoDBClient.addBsonDocumentToArray at h
      split at h
      rename_i hu
      split at h
      · exact (rest_of_updateArray hK h).trans (rest_of_updateArray hK hu)
      · cases h
        exact rest_of_updateArray hK hu

theorem rest_of_insertRecordToDb (hK : ∀ x, K (c.fault x).2 = K x) (hid : r.header.dataId ≠ 0)
    (h : insertRecordToDb c g r w = (err, w')) : K w'.rest = K w.rest := by
  unfold insertRecordToDb at h
  extract_lets message at h
  split at h
  · unfold MongoDBClient.insert at h
    split at h
    · cases h
      rfl
    · have hz : ¬ message.id = 0 := hid
      rw [if_neg hz] at h
      exact rest_of_insertWithId hK h
  · exact rest_of_insertAsDatasetMessage hK h

theorem rest_of_getRecordFromDb (hK : ∀ x, K (c.fault x).2 = K x) {x : Except Error MessageMeta}
    (h : Storing.getRecordFromDb c r w = (x, w')) : K w'.rest = K w.rest := by
  have hdoc : ∀ y, c.getRecordFromDb (dataCollection r) r.header.dataId w = y → K y.2.rest = K w.rest := by
    rintro y rfl
    unfold MongoDBClient.getRecordFromDb
    split
    · rfl
    · split <;> rename_i hq
      · exact rest_of_request hK hq
      · split <;> exact rest_of_request hK hq
  unfold Storing.getRecordFromDb MongoDBClient.getById MongoDBClient.getDataSetById at h
  split at h
  · split at h <;> rename_i hg <;> cases h <;> exact hdoc _ hg
  · split at h <;> rename_i hg
    · cases h
      exact hdoc _ hg
    · split at h <;> cases h <;> exact hdoc _ hg

end Rest

section Again

/-! What a second request finds in the place that a first one has filled. -/

/-- The place of a request has a record already. -/
def Taken (r : Request) (docs : Collection J) : Prop :=
  if r.header.opCode = .transferData then (docs.find r.header.dataId).isSome = true
  else ∃ x, docs.find r.header.dataId = some x ∧
    x.messages.lacks (r.header.customData kPosDataSetId) = false

/-- The fields of a document are those of the request, and the metadata has the text that
the JSON library writes for its value. -/
def ReadsBack (json : Json J) (r : Request) (m : MessageFields J) : Prop :=
  m.size = some r.header.dataSize ∧ m.name = some r.getFileName ∧ m.datasetSubstream.isSome = true ∧
    m.other = true ∧ ∃ j, m.metadata = some j ∧ json.isObject j = true ∧ json.write j = storedMetaData r

/-- The dataset that a request adds to can be read. -/
def Legible (c : MongoDBClient J ω) (r : Request) (docs : Collection J) : Prop :=
  ∀ x, docs.find r.header.dataId = some x → x.fields.size.isSome = true ∧
    ∀ m ∈ x.messages.members, (c.setFromJson m).isSome = true

/-- The document that is put into the collection for a request is recognized as the one of
the same request. A dataset that cannot be read is not compared at all. -/
def Recognized (c : MongoDBClient J ω) (r : Request) (docs : Collection J) (d : Document J) : Prop :=
  if r.header.opCode = .transferData then ReadsBack c.json r d.fields
  else d.fields.datasetSubstream = some (r.header.customData kPosDataSetId) ∧
    (Legible c r docs → (c.setFromJson d.fields).isSome = true → ReadsBack c.json r d.fields)

variable {D new : Collection J} {d : Document J}

theorem sameRequestInRecord_iff {m : MessageFields J} :
    sameRequestInRecord r ((c.setFromJson m).getD MessageMeta.empty) = true ↔ ReadsBack c.json r m := by
  constructor
  · intro h
    cases hm : c.setFromJson m with
    | none => exact absurd (by simpa [hm] using h) not_same_empty
    | some record =>
      rw [hm, Option.getD_some] at h
      unfold MongoDBClient.setFromJson at hm
      split at hm
      · rename_i size name substream j hsize hname hsub hmeta
        split at hm <;> cases hm
        rename_i hobj
        simp only [sameRequestInRecord, Bool.and_eq_true, decide_eq_true_eq] at h hobj
        obtain ⟨⟨h1, h2⟩, h3⟩ := h
        exact ⟨by rw [hsize, h1], by rw [hname, h2], by simp [hsub], hobj.2, j, hmeta, hobj.1, h3.symm⟩
      · cases hm
  · rintro ⟨hsize, hname, hsub, hother, j, hmeta, hobj, hwrite⟩
    obtain ⟨substream, hsub⟩ := Option.isSome_iff_exists.mp hsub
    simp [MongoDBClient.setFromJson, hsize, hname, hsub, hmeta, hobj, hother, sameRequestInRecord, hwrite]

theorem taken_of_found {record : MessageMeta} (h : found c r D = some record) : Taken r D := by
  unfold found at h
  unfold Taken
  split at h <;> rename_i hop
  · rw [if_pos hop]
    obtain ⟨d, hd, -⟩ := Option.map_eq_some_iff.mp h
    rw [hd]
    rfl
  · rw [if_neg hop]
    obtain ⟨x, hx, hfind⟩ := Option.bind_eq_some_iff.mp h
    refine ⟨x, hx, ?_⟩
    have hin := List.mem_of_find?_eq_some hfind
    have hsub : record.datasetSubstream = r.header.customData kPosDataSetId := by
      simpa using List.find?_some hfind
    unfold MongoDBClient.datasetContent at hin
    split at hin
    · rename_i ms size hms hsize
      cases hall : ms.mapM c.setFromJson with
      | none => simp [hall] at hin
      | some content =>
        rw [hall] at hin
        obtain ⟨m, hm, hread⟩ := exists_of_mapM hall hin
        have hsubm := setFromJson_substream hread
        rw [hms, MessagesField.lacks, List.all_eq_false]
        exact ⟨m, hm, by simp [hsubm, hsub]⟩
    · cases hin

theorem put_duplicateKey_iff (hid : d.id = r.header.dataId) : put r D d = .duplicateKey ↔ Taken r D := by
  unfold put Taken
  split
  · unfold Collection.insertOne
    rw [hid]
    cases D.find r.header.dataId <;> simp
  · unfold Collection.upsertMember
    cases hf : D.find r.header.dataId with
    | none => simp
    | some x =>
      cases hl : x.messages.lacks (r.header.customData kPosDataSetId) with
      | false => simp [hl]
      | true =>
        simp only [hl, if_true, Option.some.injEq, exists_eq_left', reduceCtorEq, iff_false]
        cases x.messages <;> simp

theorem find_append_of_none {x : Document J} {id : ℕ} (hD : D.find id = none) (hx : x.id = id) :
    Collection.find (D ++ [x]) id = some x := by
  have hnone : List.find? (fun d => decide (d.id = id)) D = none := hD
  rw [Collection.find, List.find?_append, hnone]
  simp [hx]

theorem find_addMember {x : Document J} {id : ℕ} {m : MessageFields J} (hx : D.find id = some x) :
    Collection.find (D.map (fun y => if y.id = id then Collection.addMember m y else y)) id =
      some (Collection.addMember m x) := by
  unfold Collection.find at hx ⊢
  induction D with
  | nil => cases hx
  | cons y D ih =>
    rw [List.map_cons]
    by_cases hy : y.id = id
    · rw [List.find?_cons_of_pos (by simpa using hy)] at hx
      cases hx
      rw [if_pos hy, List.find?_cons_of_pos (by simp [Collection.addMember, hy])]
    · rw [List.find?_cons_of_neg (by simpa using hy)] at hx
      rw [if_neg hy, List.find?_cons_of_neg (by simpa using hy)]
      exact ih hx

theorem put_dataset (hop : r.header.opCode ≠ .transferData) (h : put r D d = .done new) :
    ∃ y ms, new.find r.header.dataId = some y ∧ y.messages = .array (ms ++ [d.fields]) ∧
      (∀ m ∈ ms, m.datasetSubstream ≠ some (r.header.customData kPosDataSetId)) ∧
      (Legible c r D ↔ y.fields.size.isSome = true ∧ ∀ m ∈ ms, (c.setFromJson m).isSome = true) := by
  rw [put, if_neg hop] at h
  unfold Collection.upsertMember at h
  split at h
  · rename_i hf
    cases h
    refine ⟨_, [], find_append_of_none hf rfl, rfl, by rintro _ ⟨⟩, ?_⟩
    simp [Legible, hf, Collection.datasetDocument]
  · rename_i x hf
    split at h
    · rename_i hl
      split at h
      · cases h
      · rename_i hv
        cases h
        refine ⟨_, x.messages.members, find_addMember hf, rfl, ?_, ?_⟩
        · cases hm : x.messages with
          | missing => rintro _ ⟨⟩
          | array ms => simpa [hm, MessagesField.lacks, MessagesField.members] using hl
          | value sub => rintro _ ⟨⟩
        · simp [Legible, hf, Collection.addMember]
    · cases h

theorem put_done_ne (h : put r D d = .done new) : new ≠ D := by
  rintro rfl
  unfold put at h
  split at h
  · split at h
    · rename_i hi
      unfold Collection.insertOne at hi
      split at hi <;> cases hi
      simpa using congrArg List.length (Collection.Upsert.done.inj h)
    · cases h
  · unfold Collection.upsertMember at h
    split at h
    · simpa using congrArg List.length (Collection.Upsert.done.inj h)
    · rename_i x hf
      split at h
      · split at h
        · cases h
        · have hfind := find_addMember (m := d.fields) hf
          rw [Collection.Upsert.done.inj h, hf] at hfind
          have hlen := congrArg (fun y => y.messages.members.length) (Option.some.inj hfind)
          simp [Collection.addMember, MessagesField.members] at hlen
      · cases h

theorem again_record (hop : r.header.opCode = .transferData) (hid : d.id = r.header.dataId)
    (h : put r D d = .done new) :
    put r new d = .duplicateKey ∧
      found c r new = some ((c.setFromJson d.fields).getD MessageMeta.empty) := by
  have hfind : new.find r.header.dataId = some d := by
    rw [put, if_pos hop, Collection.insertOne, hid] at h
    cases hf : D.find r.header.dataId with
    | none =>
      simp only [hf, Option.isSome_none, Bool.false_eq_true, if_false] at h
      cases h
      exact find_append_of_none hf hid
    | some x =>
      simp only [hf, Option.isSome_some, if_true] at h
      cases h
  refine ⟨(put_duplicateKey_iff hid).mpr ?_, ?_⟩
  · rw [Taken, if_pos hop, hfind]
    rfl
  · rw [found, if_pos hop, hfind]
    rfl

theorem isSome_of_mapM {β γ : Type} {f : β → Option γ} {ms : List β} {ys : List γ}
    (h : ms.mapM f = some ys) : ∀ m ∈ ms, (f m).isSome = true := by
  induction ms generalizing ys with
  | nil => exact nofun
  | cons m ms ih =>
    simp only [List.mapM_cons, Option.bind_eq_bind, Option.bind_eq_some_iff] at h
    obtain ⟨z, hz, zs, hzs, -⟩ := h
    intro x hx
    obtain rfl | hx := List.mem_cons.mp hx
    · rw [hz]
      rfl
    · exact ih hzs x hx

/-- A dataset with a new last member is read as a whole or not at all. -/
theorem datasetContent_append {y : Document J} {ms : List (MessageFields J)} {m : MessageFields J}
    (hy : y.messages = .array (ms ++ [m])) {substream : ℕ}
    (hms : ∀ x ∈ ms, x.datasetSubstream ≠ some substream) :
    (c.datasetContent y).find? (fun record => record.datasetSubstream = substream) =
      if y.fields.size.isSome = true ∧ ∀ x ∈ ms, (c.setFromJson x).isSome = true then
        (c.setFromJson m).filter (fun record => record.datasetSubstream = substream)
      else none := by
  unfold MongoDBClient.datasetContent
  rw [hy]
  cases hsize : y.fields.size with
  | none => simp
  | some size =>
    simp only [Option.isSome_some, true_and, List.mapM_append, List.mapM_cons, List.mapM_nil]
    split
    · rename_i hall
      obtain ⟨ys, hys, -⟩ := mapM_isSome hall
      have hnone : ys.find? (fun record => record.datasetSubstream = substream) = none := by
        rw [List.find?_eq_none]
        intro record hrecord
        obtain ⟨x, hx, hread⟩ := exists_of_mapM hys hrecord
        have hsub := setFromJson_substream hread
        have hne := hms x hx
        simpa [hsub] using hne
      cases hm : c.setFromJson m with
      | none => simp [hys]
      | some record =>
        by_cases hsub : record.datasetSubstream = substream <;> simp [hys, hnone, hsub, Option.filter]
    · rename_i hall
      have hnone : ms.mapM c.setFromJson = none := by
        cases hys : ms.mapM c.setFromJson with
        | none => rfl
        | some ys => exact absurd (isSome_of_mapM hys) hall
      simp [hnone]

theorem again_member (hop : r.header.opCode ≠ .transferData) (hid : d.id = r.header.dataId)
    (h : put r D d = .done new) :
    (put r new d = .duplicateKey ↔
      d.fields.datasetSubstream = some (r.header.customData kPosDataSetId)) ∧
    ∀ record, found c r new = some record ↔
      Legible c r D ∧ c.setFromJson d.fields = some record ∧
        record.datasetSubstream = r.header.customData kPosDataSetId := by
  obtain ⟨y, ms, hfind, hmessages, hms, hlegible⟩ := put_dataset (c := c) hop h
  constructor
  · rw [put_duplicateKey_iff hid, Taken, if_neg hop, hfind]
    simp only [Option.some.injEq, exists_eq_left', hmessages, MessagesField.lacks, List.all_append,
      List.all_cons, List.all_nil, Bool.and_true, Bool.and_eq_false_iff, List.all_eq_false,
      decide_eq_true_eq, decide_eq_false_iff_not, not_not]
    have hnone : ¬ ∃ m ∈ ms, m.datasetSubstream = some (r.header.customData kPosDataSetId) := by
      rintro ⟨m, hm, he⟩
      exact hms m hm he
    exact ⟨fun hc => hc.resolve_left hnone, .inr⟩
  · intro record
    rw [found, if_neg hop, hfind, Option.bind_some, datasetContent_append hmessages hms, hlegible]
    split
    · rename_i hl
      rw [Option.filter_eq_some_iff, decide_eq_true_eq]
      exact ⟨fun hc => ⟨hl, hc⟩, fun hc => hc.2⟩
    · rename_i hl
      simp [hl]

/-- A second request of the same kind is taken for a duplicate exactly if its document is
recognized. -/
theorem recognized_iff (hid : d.id = r.header.dataId) (h : put r D d = .done new) :
    ((∀ record, found c r new = some record → sameRequestInRecord r record = true) ∧
      put r new d = .duplicateKey) ↔ Recognized c r D d := by
  have hread : ∀ record, c.setFromJson d.fields = some record →
      (sameRequestInRecord r record = true ↔ ReadsBack c.json r d.fields) := by
    intro record hrecord
    rw [← sameRequestInRecord_iff (c := c), hrecord, Option.getD_some]
  by_cases hop : r.header.opCode = .transferData
  · obtain ⟨hput, hfound⟩ := again_record (c := c) hop hid h
    rw [Recognized, if_pos hop, ← sameRequestInRecord_iff (c := c)]
    simp [hput, hfound]
  · obtain ⟨hput, hfound⟩ := again_member (c := c) hop hid h
    rw [Recognized, if_neg hop, hput, and_comm]
    refine and_congr_right (fun hsub => ?_)
    constructor
    · intro hall hl hsome
      obtain ⟨record, hrecord⟩ := Option.isSome_iff_exists.mp hsome
      have hs := setFromJson_substream hrecord
      rw [hsub] at hs
      exact (hread record hrecord).mp (hall record ((hfound record).mpr ⟨hl, hrecord, (Option.some.inj hs).symm⟩))
    · intro hall record hf
      obtain ⟨hl, hrecord, -⟩ := (hfound record).mp hf
      exact (hread record hrecord).mpr (hall hl (by rw [hrecord]; rfl))

theorem put_again (c : MongoDBClient J ω) (hid : d.id = r.header.dataId) (h : put r D d = .done new) :
    put r new d = .duplicateKey ∨ ∃ next, put r new d = .done next := by
  by_cases hop : r.header.opCode = .transferData
  · exact .inl (again_record (c := c) hop hid h).1
  · obtain ⟨y, ms, hfind, hmessages, -⟩ := put_dataset (c := c) hop h
    rw [put, if_neg hop, Collection.upsertMember, hfind]
    dsimp only
    split
    · rw [hmessages]
      exact .inr ⟨_, rfl⟩
    · exact .inl rfl

theorem found_of_not_duplicateKey (hid : d.id = r.header.dataId) (h : put r D d = .done new)
    (hne : put r new d ≠ .duplicateKey) : found c r new = none := by
  by_cases hop : r.header.opCode = .transferData
  · exact absurd (again_record (c := c) hop hid h).1 hne
  · obtain ⟨hput, hfound⟩ := again_member (c := c) hop hid h
    rw [Option.eq_none_iff_forall_ne_some]
    intro record hf
    obtain ⟨-, hrecord, hsub⟩ := (hfound record).mp hf
    have hs := setFromJson_substream hrecord
    exact hne (hput.mpr (by rw [hs, hsub]))

end Again

end Asapo.Receiver.RecordPlace
