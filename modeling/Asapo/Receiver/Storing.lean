import Asapo.Database.MongoDBClient
import Asapo.Receiver.HandlerFrames

namespace Asapo.Receiver.Storing

open Database RequestHandlerDbCheckRequest

variable {J ω : Type}

def dataCollection (r : Request) : Text := text "data" ++ text "_" ++ r.header.stream

structure Settings where
  now : ℕ
  advertiseUri : Text

def prepareMessageMeta (g : Settings) (r : Request) : MessageMeta :=
  { name := r.getFileName
    timestamp := g.now
    size := r.header.dataSize
    id := r.header.dataId
    source := g.advertiseUri
    metadata := r.metadata
    bufId := r.slotId
    datasetSubstream := 0 }

def insertRecordToDb (c : MongoDBClient J ω) (g : Settings) (r : Request) (w : World J ω) :
    Option Error × World J ω :=
  let message := prepareMessageMeta g r
  if r.header.opCode = .transferData then c.insert (dataCollection r) message w
  else
    c.insertAsDatasetMessage (dataCollection r)
      { message with datasetSubstream := r.header.customData kPosDataSetId }
      (r.header.customData kPosDataSetSize) w

def getRecordFromDb (c : MongoDBClient J ω) (r : Request) (w : World J ω) :
    Except Error MessageMeta × World J ω :=
  if r.header.opCode = .transferData then c.getById (dataCollection r) r.header.dataId w
  else c.getDataSetById (dataCollection r) (r.header.customData kPosDataSetId) r.header.dataId w

/-- The receiver with its database. Everything else is done by an arbitrary environment. -/
def backend (c : MongoDBClient J ω) (g : Settings) (env : Backend ω) : Backend (World J ω) where
  receiveFault n := World.lift (env.receiveFault n)
  send r := World.lift (env.send r)
  initialAuthorize r := World.lift (env.initialAuthorize r)
  secondaryAuthorize r := World.lift (env.secondaryAuthorize r)
  prepareDataBuffer n := World.lift (env.prepareDataBuffer n)
  unlockDataBuffer n w := { w with rest := env.unlockDataBuffer n w.rest }
  openFile root fname overwrite := World.lift (env.openFile root fname overwrite)
  allocateArray n := World.lift (env.allocateArray n)
  writeFile bytes := World.lift (env.writeFile bytes)
  closeFile := World.lift env.closeFile
  connectToDb r := World.lift (env.connectToDb r)
  getRecordFromDb r := getRecordFromDb c r
  insertRecordToDb r := insertRecordToDb c g r
  insertMeta r := World.lift (env.insertMeta r)
  getStreamInfo r := World.lift (env.getStreamInfo r)
  getLastStream := World.lift env.getLastStream
  getMetaFromDb r := World.lift (env.getMetaFromDb r)
  deleteStream s := World.lift (env.deleteStream s)

/-- The fields of a document are those of the request. -/
def SameMessage (c : MongoDBClient J ω) (r : Request) (m : MessageFields J) : Prop :=
  m.size = some r.header.dataSize ∧ m.name = some r.getFileName ∧
    ∃ j, c.json.parse (storedMetaData r) = some j ∧ m.metadata = some j

/-- The data collection holds a record, or a member of a dataset, for the request. -/
def Stored (c : MongoDBClient J ω) (r : Request) (docs : Collection J) : Prop :=
  if r.header.opCode = .transferData then ∃ d ∈ docs, SameMessage c r d.fields
  else ∃ d ∈ docs, ∃ m ∈ d.messages.members, SameMessage c r m

def sentMessage (g : Settings) (r : Request) (db : Db J) : MessageMeta :=
  if r.header.opCode = .transferData then
    { prepareMessageMeta g r with
      id := if r.header.dataId = 0 then db.counters (dataCollection r) + 1 else r.header.dataId }
  else { prepareMessageMeta g r with datasetSubstream := r.header.customData kPosDataSetId }

def Free (r : Request) (docs : Collection J) (d : Document J) : Prop :=
  if r.header.opCode = .transferData then docs.find d.id = none
  else ∀ x, docs.find r.header.dataId = some x →
    x.messages.lacks (r.header.customData kPosDataSetId) = true

/-- The text that is sent is read as the fields of the request, and its place is free. -/
def Inserts (c : MongoDBClient J ω) (g : Settings) (r : Request) (db : Db J) : Prop :=
  ∃ d, c.json.fromJson (sentMessage g r db).json = some d ∧ SameMessage c r d.fields ∧
    Free r (db.collections (encodeColName (dataCollection r))) d

section Decidable

variable [DecidableEq J] (c : MongoDBClient J ω) (g : Settings) (r : Request)

instance (m : MessageFields J) : Decidable (SameMessage c r m) :=
  decidable_of_iff (m.size = some r.header.dataSize ∧ m.name = some r.getFileName ∧
    (c.json.parse (storedMetaData r)).isSome = true ∧ m.metadata = c.json.parse (storedMetaData r)) (by
    refine and_congr_right (fun _ => and_congr_right (fun _ => ?_))
    cases c.json.parse (storedMetaData r) <;> simp)

instance (docs : Collection J) : Decidable (Stored c r docs) :=
  inferInstanceAs (Decidable (if r.header.opCode = .transferData then ∃ d ∈ docs, SameMessage c r d.fields
    else ∃ d ∈ docs, ∃ m ∈ d.messages.members, SameMessage c r m))

instance (docs : Collection J) (d : Document J) : Decidable (Free r docs d) :=
  decidable_of_iff (if r.header.opCode = .transferData then docs.find d.id = none
    else (docs.find r.header.dataId).all
      (fun x => x.messages.lacks (r.header.customData kPosDataSetId)) = true) (by
    unfold Free
    split
    · rfl
    · cases docs.find r.header.dataId <;> simp)

instance (db : Db J) : Decidable (Inserts c g r db) :=
  decidable_of_iff ((c.json.fromJson (sentMessage g r db).json).any (fun d =>
    decide (SameMessage c r d.fields ∧ Free r (db.collections (encodeColName (dataCollection r))) d)) = true)
    (by unfold Inserts; cases c.json.fromJson (sentMessage g r db).json <;> simp)

end Decidable

variable {c : MongoDBClient J ω} {g : Settings} {env : Backend ω} {r : Request} {w w' : World J ω}

theorem request_db {t : ErrorTemplate} {err : Option Error} (h : c.request t w = (err, w')) :
    w'.db = w.db := by
  cases h
  rfl

theorem request_code {t : ErrorTemplate} {e : Error} (h : c.request t w = (some e, w')) :
    e.code = t.code := by
  unfold MongoDBClient.request at h
  simp only [Prod.mk.injEq, Option.map_eq_some_iff] at h
  obtain ⟨⟨m, -, rfl⟩, -⟩ := h
  rfl

theorem getRecordFromDb_db (c : MongoDBClient J ω) (r : Request) (w : World J ω) :
    (getRecordFromDb c r w).2.db = w.db := by
  have hrec : (c.getRecordFromDb (dataCollection r) r.header.dataId w).2.db = w.db := by
    unfold MongoDBClient.getRecordFromDb
    split
    · rfl
    · split
      · rename_i hq
        exact request_db hq
      · rename_i hq
        split <;> exact request_db hq
  unfold getRecordFromDb MongoDBClient.getById MongoDBClient.getDataSetById
  split
  · split <;> simp_all
  · split
    · simp_all
    · split <;> simp_all

theorem keeps_db (c : MongoDBClient J ω) (g : Settings) (env : Backend ω) :
    (backend c g env).Keeps (fun w => w.db) := by
  constructor
  case getRecordFromDb => exact getRecordFromDb_db c
  all_goals
    intros
    rfl

open MongoDBClient

theorem getRecordFromDb_cases {col : Text} {id : ℕ} {d : Document J}
    (h : c.getRecordFromDb col id w = (.ok d, w')) : (docs col w).find id = some d := by
  unfold MongoDBClient.getRecordFromDb at h
  split at h
  · cases h
  · split at h
    · cases h
    · rename_i w₁ hq
      have hdb : docs col w₁ = docs col w := by simp [docs, request_db hq]
      split at h
      · cases h
      · rename_i x hx
        cases h
        exact hdb ▸ hx

theorem sameMessage_of_read {m : MessageFields J} {record : MessageMeta}
    (h : c.setFromJson m = some record) (hs : sameRequestInRecord r record = true) :
    SameMessage c r m := by
  unfold MongoDBClient.setFromJson at h
  split at h
  · rename_i size name substream j hsize hname hsub hmeta
    split at h <;> cases h
    simp only [sameRequestInRecord, Bool.and_eq_true, decide_eq_true_eq] at hs
    obtain ⟨⟨h1, h2⟩, h3⟩ := hs
    exact ⟨by rw [hsize, h1], by rw [hname, h2], j, by rw [h3, c.json.parse_write], hmeta⟩
  · cases h

/-- A record that could not be read is not taken for the request. -/
theorem not_same_empty : ¬ sameRequestInRecord r MessageMeta.empty = true := by
  have hne : storedMetaData r ≠ [] := by
    unfold storedMetaData
    split
    · decide
    · assumption
  simp [sameRequestInRecord, MessageMeta.empty, hne]

theorem exists_of_mapM {β γ : Type} {f : β → Option γ} {ms : List β} {ys : List γ} {y : γ}
    (h : ms.mapM f = some ys) (hy : y ∈ ys) : ∃ m ∈ ms, f m = some y := by
  induction ms generalizing ys with
  | nil =>
    cases h
    cases hy
  | cons m ms ih =>
    simp only [List.mapM_cons, Option.bind_eq_bind, Option.bind_eq_some_iff, Option.pure_def,
      Option.some.injEq] at h
    obtain ⟨z, hz, zs, hzs, rfl⟩ := h
    obtain rfl | hy := List.mem_cons.mp hy
    · exact ⟨m, by simp, hz⟩
    · obtain ⟨x, hx, hf⟩ := ih hzs hy
      exact ⟨x, by simp [hx], hf⟩

theorem stored_of_found {record : MessageMeta} (h : getRecordFromDb c r w = (.ok record, w'))
    (hs : sameRequestInRecord r record = true) : Stored c r (docs (dataCollection r) w) := by
  unfold Storing.getRecordFromDb at h
  unfold Stored
  split at h
  · rename_i hop
    rw [if_pos hop]
    unfold MongoDBClient.getById at h
    split at h
    · cases h
    · rename_i d w₁ hd
      cases h
      refine ⟨d, List.mem_of_find?_eq_some (getRecordFromDb_cases hd), ?_⟩
      cases hm : c.setFromJson d.fields with
      | none => exact absurd (by simpa [hm] using hs) not_same_empty
      | some m =>
        rw [hm] at hs
        exact sameMessage_of_read hm hs
  · rename_i hop
    rw [if_neg hop]
    unfold MongoDBClient.getDataSetById at h
    split at h
    · cases h
    · rename_i d w₁ hd
      split at h
      · rename_i m hm
        cases h
        refine ⟨d, List.mem_of_find?_eq_some (getRecordFromDb_cases hd), ?_⟩
        have hmem := List.mem_of_find?_eq_some hm
        unfold MongoDBClient.datasetContent at hmem
        split at hmem
        · rename_i ms size hms hsize
          cases hall : ms.mapM c.setFromJson with
          | none => simp [hall] at hmem
          | some content =>
            rw [hall] at hmem
            obtain ⟨x, hx, hxm⟩ := exists_of_mapM hall hmem
            exact ⟨x, by rw [hms]; exact hx, sameMessage_of_read hxm hs⟩
        · cases hmem
      · cases h

theorem docs_setDocs (col : Text) (new : Collection J) (w : World J ω) :
    docs col (setDocs col new w) = new := if_pos rfl

/-- What one insertion does to the collection: it adds to what is there, or the place was
taken, or there was another error. -/
inductive Inserted (old new : Collection J) (add : Collection J → Prop) (taken : Prop) :
    Option Error → Prop
  | done (h : add new) : Inserted old new add taken none
  | duplicate (e : Error) (code : e.code = DBErrorTemplates.duplicateID.code) (h : new = old)
      (full : taken) : Inserted old new add taken (some e)
  | failed (e : Error) (code : e.code ≠ DBErrorTemplates.duplicateID.code) (h : new = old) :
      Inserted old new add taken (some e)

variable {col : Text} {err : Option Error}

theorem insertBsonDocument_cases {d : Document J} (h : c.insertBsonDocument col d w = (err, w')) :
    Inserted (docs col w) (docs col w')
      (fun new => new = docs col w ++ [d] ∧ (docs col w).find d.id = none)
      (¬ (docs col w).find d.id = none) err := by
  unfold MongoDBClient.insertBsonDocument at h
  split at h
  · rename_i e w₁ hq
    cases h
    exact .failed e (by rw [request_code hq]; decide) (by simp [docs, request_db hq])
  · rename_i w₁ hq
    have hdb : docs col w₁ = docs col w := by simp [docs, request_db hq]
    rw [hdb, Collection.insertOne] at h
    cases hf : (docs col w).find d.id with
    | none =>
      simp only [hf, Option.isSome_none, Bool.false_eq_true, if_false] at h
      cases h
      exact .done ⟨docs_setDocs _ _ _, rfl⟩
    | some x =>
      simp only [hf, Option.isSome_some, if_true] at h
      cases h
      exact .duplicate _ rfl hdb (by simp)

theorem insertWithId_cases {file : MessageMeta} (h : c.insertWithId col file w = (err, w')) :
    Inserted (docs col w) (docs col w')
      (fun new => ∃ d, c.json.fromJson file.json = some d ∧ new = docs col w ++ [d] ∧
        (docs col w).find d.id = none)
      (∃ d, c.json.fromJson file.json = some d ∧ ¬ (docs col w).find d.id = none) err := by
  unfold MongoDBClient.insertWithId at h
  split at h
  · cases h
    exact .failed _ (by decide) rfl
  · rename_i d hd
    cases insertBsonDocument_cases h with
    | done hnew => exact .done ⟨d, hd, hnew⟩
    | duplicate e code hnew full => exact .duplicate e code hnew ⟨d, hd, full⟩
    | failed e code hnew => exact .failed e code hnew

theorem getNextId_cases {stream : Text} {id : Except Error ℕ} (h : c.getNextId stream w = (id, w')) :
    (∀ col, docs col w' = docs col w) ∧
      ((∃ e, id = .error e ∧ e.code ≠ DBErrorTemplates.duplicateID.code) ∨
        id = .ok (w.db.counters stream + 1)) := by
  unfold MongoDBClient.getNextId at h
  split at h
  · rename_i e w₁ hq
    cases h
    exact ⟨fun col => by simp [docs, request_db hq], .inl ⟨e, rfl, by rw [request_code hq]; decide⟩⟩
  · rename_i w₁ hq
    have hdb := request_db hq
    extract_lets next at h
    split at h <;> cases h
    · exact ⟨fun col => by simp [docs, Db.setCounter, hdb], .inr (by simp [next, hdb])⟩
    · exact ⟨fun col => by simp [docs, hdb], .inl ⟨_, rfl, by decide⟩⟩

theorem insert_cases {file : MessageMeta} (h : c.insert col file w = (err, w')) :
    let id := if file.id = 0 then w.db.counters col + 1 else file.id
    Inserted (docs col w) (docs col w')
      (fun new => ∃ d, c.json.fromJson { file with id := id }.json = some d ∧
        new = docs col w ++ [d] ∧ (docs col w).find d.id = none)
      (∃ d, c.json.fromJson { file with id := id }.json = some d ∧ ¬ (docs col w).find d.id = none)
      err := by
  unfold MongoDBClient.insert at h
  split at h
  · rename_i e he
    cases h
    unfold MongoDBClient.updateCurrentCollectionIfNeeded at he
    split at he <;> cases he
    exact .failed _ (by decide) rfl
  · split at h
    · rename_i hz
      simp only [hz, if_true]
      unfold MongoDBClient.insertWithAutoId at h
      split at h
      · rename_i e w₁ hn
        cases h
        obtain ⟨hd, ⟨e', he, hc⟩ | he⟩ := getNextId_cases hn <;> cases he
        exact .failed e hc (hd col)
      · rename_i id w₁ hn
        obtain ⟨hd, ⟨e', he, -⟩ | he⟩ := getNextId_cases hn <;> cases he
        rw [← hd col]
        exact insertWithId_cases h
    · rename_i hz
      simp only [hz, if_false]
      exact insertWithId_cases h

def memberOf (docs : Collection J) (m : MessageFields J) : Prop := ∃ d ∈ docs, m ∈ d.messages.members

theorem memberOf_addMember {old : Collection J} {id : ℕ} {x : Document J} {member m : MessageFields J}
    (hx : x ∈ old) (hid : x.id = id)
    (hmem : ∀ y ∈ old, y.id = id → (Collection.addMember member y).messages.members =
      y.messages.members ++ [member]) :
    memberOf (old.map (fun y => if y.id = id then Collection.addMember member y else y)) m ↔
      memberOf old m ∨ m = member := by
  constructor
  · rintro ⟨d, hd, hm⟩
    obtain ⟨y, hy, rfl⟩ := List.mem_map.mp hd
    split at hm
    · rename_i hyid
      rw [hmem y hy hyid, List.mem_append, List.mem_singleton] at hm
      exact hm.imp_left (fun h => ⟨y, hy, h⟩)
    · exact .inl ⟨y, hy, hm⟩
  · rintro (⟨y, hy, hm⟩ | rfl)
    · refine ⟨_, List.mem_map_of_mem hy, ?_⟩
      split
      · rename_i hyid
        rw [hmem y hy hyid]
        exact List.mem_append_left _ hm
      · exact hm
    · refine ⟨_, List.mem_map_of_mem hx, ?_⟩
      rw [if_pos hid, hmem x hx hid]
      simp

theorem upsertMember_done {old new : Collection J} {id substream datasetSize : ℕ}
    {member m : MessageFields J}
    (h : old.upsertMember id substream datasetSize member = .done new) :
    (memberOf new m ↔ memberOf old m ∨ m = member) ∧
      ∀ x, old.find id = some x → x.messages.lacks substream = true := by
  unfold Collection.upsertMember at h
  split at h
  · rename_i hf
    cases h
    refine ⟨?_, by simp [hf]⟩
    simp only [memberOf, List.mem_append, List.mem_singleton, or_and_right, exists_or, exists_eq_left]
    simp [Collection.datasetDocument, MessagesField.members]
  · rename_i x hf
    split at h
    · rename_i hl
      refine ⟨?_, fun y hy => by cases hf.symm.trans hy; exact hl⟩
      split at h
      · cases h
      · cases h
        have hx := List.mem_of_find?_eq_some hf
        have hid : x.id = id := by simpa using List.find?_some hf
        exact memberOf_addMember hx hid (fun y _ _ => rfl)
    · cases h

theorem updateArray_cases {id substream datasetSize : ℕ} {member : MessageFields J}
    (h : c.updateArray col id substream datasetSize member w = (err, w')) :
    Inserted (docs col w) (docs col w')
      (fun new => (∀ m, memberOf new m ↔ memberOf (docs col w) m ∨ m = member) ∧
        ∀ x, (docs col w).find id = some x → x.messages.lacks substream = true)
      (¬ ∀ x, (docs col w).find id = some x → x.messages.lacks substream = true) err := by
  unfold MongoDBClient.updateArray at h
  split at h
  · rename_i e w₁ hq
    cases h
    exact .failed e (by rw [request_code hq]; decide) (by simp [docs, request_db hq])
  · rename_i w₁ hq
    have hdb : docs col w₁ = docs col w := by simp [docs, request_db hq]
    rw [hdb] at h
    split at h
    · rename_i hu
      cases h
      refine .duplicate _ rfl hdb (fun hall => ?_)
      unfold Collection.upsertMember at hu
      split at hu
      · cases hu
      · rename_i x hx
        rw [if_pos (hall x hx)] at hu
        split at hu <;> cases hu
    · cases h
      exact .failed _ (by decide) hdb
    · rename_i new hu
      cases h
      refine .done ⟨fun m => ?_, (upsertMember_done (m := member) hu).2⟩
      rw [docs_setDocs]
      exact (upsertMember_done hu).1

theorem addBsonDocumentToArray_cases {id substream datasetSize : ℕ} {member : MessageFields J}
    (h : c.addBsonDocumentToArray col id substream datasetSize member w = (err, w')) :
    Inserted (docs col w) (docs col w')
      (fun new => (∀ m, memberOf new m ↔ memberOf (docs col w) m ∨ m = member) ∧
        ∀ x, (docs col w).find id = some x → x.messages.lacks substream = true)
      (¬ ∀ x, (docs col w).find id = some x → x.messages.lacks substream = true) err := by
  unfold MongoDBClient.addBsonDocumentToArray at h
  split at h
  rename_i e w₁ hu
  have h₁ := updateArray_cases hu
  split at h
  · rename_i hdup
    have hsame : docs col w₁ = docs col w := by
      cases h₁ with
      | done => simp at hdup
      | duplicate e code hnew full => exact hnew
      | failed e code hnew => exact hnew
    rw [← hsame]
    exact updateArray_cases h
  · cases h
    exact h₁

theorem insertAsDatasetMessage_cases {file : MessageMeta} {datasetSize : ℕ}
    (h : c.insertAsDatasetMessage col file datasetSize w = (err, w')) :
    Inserted (docs col w) (docs col w')
      (fun new => ∃ d, c.json.fromJson file.json = some d ∧
        (∀ m, memberOf new m ↔ memberOf (docs col w) m ∨ m = d.fields) ∧
        ∀ x, (docs col w).find file.id = some x → x.messages.lacks file.datasetSubstream = true)
      (∃ d, c.json.fromJson file.json = some d ∧
        ¬ ∀ x, (docs col w).find file.id = some x → x.messages.lacks file.datasetSubstream = true)
      err := by
  unfold MongoDBClient.insertAsDatasetMessage at h
  split at h
  · rename_i e he
    cases h
    unfold MongoDBClient.updateCurrentCollectionIfNeeded at he
    split at he <;> cases he
    exact .failed _ (by decide) rfl
  · split at h
    · cases h
      exact .failed _ (by decide) rfl
    · rename_i d hd
      cases addBsonDocumentToArray_cases h with
      | done hnew => exact .done ⟨d, hd, hnew⟩
      | duplicate e code hnew full => exact .duplicate e code hnew ⟨d, hd, full⟩
      | failed e code hnew => exact .failed e code hnew

theorem insertRecord_cases (h : insertRecordToDb c g r w = (err, w')) :
    Inserted (docs (dataCollection r) w) (docs (dataCollection r) w')
      (fun new =>
        (Stored c r new ↔ Stored c r (docs (dataCollection r) w) ∨ Inserts c g r w.db) ∧
        ∃ d, c.json.fromJson (sentMessage g r w.db).json = some d ∧ Free r (docs (dataCollection r) w) d)
      (¬ Inserts c g r w.db ∧ ∃ d, c.json.fromJson (sentMessage g r w.db).json = some d) err := by
  unfold insertRecordToDb at h
  extract_lets message at h
  split at h
  · rename_i hop
    have hsent : sentMessage g r w.db = { message with
        id := if message.id = 0 then w.db.counters (dataCollection r) + 1 else message.id } := if_pos hop
    cases insert_cases h with
    | done hnew =>
      obtain ⟨d, hd, hnew, hfree⟩ := hnew
      refine .done ⟨?_, d, hsent ▸ hd, by rwa [Free, if_pos hop]⟩
      simp only [Stored, hop, if_true, hnew, List.mem_append, List.mem_singleton, or_and_right,
        exists_or, exists_eq_left]
      have hins : Inserts c g r w.db ↔ SameMessage c r d.fields := by
        simp only [Inserts, Free, hop, if_true, hsent, hd, Option.some.injEq]
        exact ⟨fun ⟨_, he, hs, _⟩ => he ▸ hs, fun hs => ⟨d, rfl, hs, hfree⟩⟩
      rw [hins]
    | duplicate e code hnew full =>
      obtain ⟨d, hd, hfull⟩ := full
      rw [← hsent] at hd
      refine .duplicate e code hnew ⟨?_, d, hd⟩
      rintro ⟨d', hd', -, hfree⟩
      cases hd.symm.trans hd'
      rw [Free, if_pos hop] at hfree
      exact hfull hfree
    | failed e code hnew => exact .failed e code hnew
  · rename_i hop
    have hsent : sentMessage g r w.db =
        { message with datasetSubstream := r.header.customData kPosDataSetId } := if_neg hop
    cases insertAsDatasetMessage_cases h with
    | done hnew =>
      obtain ⟨d, hd, hmem, hfree⟩ := hnew
      refine .done ⟨?_, d, hsent ▸ hd, by rwa [Free, if_neg hop]⟩
      have hins : Inserts c g r w.db ↔ SameMessage c r d.fields := by
        simp only [Inserts, Free, hop, if_false, hsent, hd, Option.some.injEq]
        exact ⟨fun ⟨_, he, hs, _⟩ => he ▸ hs, fun hs => ⟨d, rfl, hs, hfree⟩⟩
      have hst : ∀ docs : Collection J, Stored c r docs ↔ ∃ m, memberOf docs m ∧ SameMessage c r m := by
        intro docs
        simp only [Stored, hop, if_false, memberOf]
        exact ⟨fun ⟨x, hx, m, hm, hs⟩ => ⟨m, ⟨x, hx, hm⟩, hs⟩, fun ⟨m, ⟨x, hx, hm⟩, hs⟩ => ⟨x, hx, m, hm, hs⟩⟩
      rw [hins, hst, hst]
      simp only [hmem, or_and_right, exists_or, exists_eq_left]
    | duplicate e code hnew full =>
      obtain ⟨d, hd, hfull⟩ := full
      refine .duplicate e code hnew ⟨?_, d, hsent ▸ hd⟩
      rintro ⟨d', -, -, hfree⟩
      rw [Free, if_neg hop] at hfree
      exact hfull hfree
    | failed e code hnew => exact .failed e code hnew

/-- The text of the message is read back as it was meant. -/
def Faithful (c : MongoDBClient J ω) (g : Settings) (r : Request) (db : Db J) : Prop :=
  ∀ d, c.json.fromJson (sentMessage g r db).json = some d →
    SameMessage c r d.fields ∧ d.id = (sentMessage g r db).id

/-- The check can find what the insertion ran into: the id is the one of the request, and
the dataset can be read. -/
def Checkable (c : MongoDBClient J ω) (r : Request) (docs : Collection J) : Prop :=
  if r.header.opCode = .transferData then r.header.dataId ≠ 0
  else ∀ x, docs.find r.header.dataId = some x → ∃ ms size, x.messages = .array ms ∧
    x.fields.size = some size ∧ ∀ m ∈ ms, (c.setFromJson m).isSome = true

theorem mapM_isSome {β γ : Type} {f : β → Option γ} {ms : List β}
    (h : ∀ m ∈ ms, (f m).isSome = true) : ∃ ys, ms.mapM f = some ys ∧ ∀ m ∈ ms, ∀ y, f m = some y → y ∈ ys := by
  induction ms with
  | nil => exact ⟨[], rfl, nofun⟩
  | cons m ms ih =>
    obtain ⟨ys, hys, hmem⟩ := ih (fun x hx => h x (by simp [hx]))
    obtain ⟨y, hy⟩ := Option.isSome_iff_exists.mp (h m (by simp))
    refine ⟨y :: ys, by simp [List.mapM_cons, hy, hys], fun x hx z hz => ?_⟩
    obtain rfl | hx := List.mem_cons.mp hx
    · cases hy.symm.trans hz
      simp
    · exact List.mem_cons_of_mem _ (hmem x hx z hz)

theorem setFromJson_substream {m : MessageFields J} {record : MessageMeta}
    (h : c.setFromJson m = some record) : m.datasetSubstream = some record.datasetSubstream := by
  unfold MongoDBClient.setFromJson at h
  split at h
  · rename_i hsub _
    split at h <;> cases h
    exact hsub
  · cases h

theorem getRecord_noRecord {e : Error} (h : c.getRecordFromDb col r.header.dataId w = (.error e, w'))
    (he : e.code = DBErrorTemplates.noRecord.code) : (docs col w).find r.header.dataId = none := by
  unfold MongoDBClient.getRecordFromDb at h
  split at h
  · rename_i hu
    cases h
    unfold MongoDBClient.updateCurrentCollectionIfNeeded at hu
    split at hu <;> cases hu
    exact absurd he (by decide)
  · split at h
    · rename_i hq
      cases h
      rw [request_code hq] at he
      exact absurd he (by decide)
    · rename_i w₁ hq
      have hdb : docs col w₁ = docs col w := by simp [docs, request_db hq]
      split at h <;> cases h
      rename_i hf
      exact hdb ▸ hf

theorem not_noRecord {e : Error} {d : Document J} {db : Db J}
    (hdb : docs (dataCollection r) w = db.collections (encodeColName (dataCollection r)))
    (hd : c.json.fromJson (sentMessage g r db).json = some d) (hf : Faithful c g r db)
    (hc : Checkable c r (docs (dataCollection r) w)) (hi : ¬ Inserts c g r db)
    (h : getRecordFromDb c r w = (.error e, w')) : e.code ≠ DBErrorTemplates.noRecord.code := by
  intro he
  obtain ⟨hsame, hid⟩ := hf d hd
  have hfree : ¬ Free r (docs (dataCollection r) w) d := fun hfree => hi ⟨d, hd, hsame, hdb ▸ hfree⟩
  unfold Storing.getRecordFromDb at h
  unfold Free at hfree
  unfold Checkable at hc
  split at h
  · rename_i hop
    rw [if_pos hop] at hfree hc
    unfold MongoDBClient.getById at h
    split at h
    · rename_i hg
      cases h
      have hnone := getRecord_noRecord hg he
      rw [hid, sentMessage, if_pos hop] at hfree
      simp only [hc, if_false] at hfree
      exact hfree hnone
    · cases h
  · rename_i hop
    rw [if_neg hop] at hfree hc
    obtain ⟨x, hx⟩ := not_forall.mp hfree
    obtain ⟨hx, hl⟩ := Classical.not_imp.mp hx
    unfold MongoDBClient.getDataSetById at h
    split at h
    · rename_i hg
      cases h
      rw [getRecord_noRecord hg he] at hx
      cases hx
    · rename_i y w₁ hg
      cases hx.symm.trans (getRecordFromDb_cases hg)
      obtain ⟨ms, size, hms, hsize, hall⟩ := hc x hx
      obtain ⟨m, hm, hsub⟩ : ∃ m ∈ ms, m.datasetSubstream = some (r.header.customData kPosDataSetId) := by
        simpa [hms, MessagesField.lacks] using hl
      obtain ⟨record, hrecord⟩ := Option.isSome_iff_exists.mp (hall m hm)
      obtain ⟨content, hcontent, hmem⟩ := mapM_isSome hall
      have hfind : ((c.datasetContent x).find?
          (fun m => decide (m.datasetSubstream = r.header.customData kPosDataSetId))).isSome = true := by
        have hin : record ∈ c.datasetContent x := by
          simpa [MongoDBClient.datasetContent, hms, hsize, hcontent] using hmem m hm record hrecord
        rw [List.find?_isSome]
        have := setFromJson_substream hrecord
        exact ⟨record, hin, by simpa [hsub] using this.symm⟩
      split at h
      · cases h
      · rename_i hnone
        simp [hnone] at hfind

variable {rounds : ℕ} {s t : Served (World J ω)}

theorem call_inv {α : Type} {op : World J ω → α × World J ω} {x : α} (h : s.call op = (x, t)) :
    op s.world = (x, t.world) ∧ t.request = s.request ∧ t.input = s.input := by
  cases h
  exact ⟨rfl, rfl, rfl⟩

theorem docs_of_look {u : World J ω} {x : Except Error MessageMeta}
    (h : getRecordFromDb c r u = (x, w)) (col : Text) : docs col w = docs col u := by
  have hdb : w.db = u.db := by
    have hkeep := getRecordFromDb_db c r u
    rwa [h] at hkeep
  simp only [docs, hdb]

theorem stored_of_warning (h : RequestHandlerDbCheckRequest.processRequest (backend c g env) s = (err, t))
    (hw : ReceiverErrorTemplates.warningDuplicatedRequest.equals err = true) :
    Stored c s.request (docs (dataCollection s.request) t.world) := by
  obtain ⟨-, hchecked⟩ := check_cases (keeps_db c g env) h
  cases hchecked with
  | noRecord => simp at hw
  | duplicate u record same answer equal =>
    obtain ⟨hget, -, -⟩ := call_inv answer
    change getRecordFromDb c s.request u.world = _ at hget
    rw [docs_of_look hget]
    exact stored_of_found hget equal
  | failed e hfrom => exact absurd hw (fromDb_not_warning hfrom)

section Insertion

variable {s₁ s₂ : Served (World J ω)} {first : Option Error}

theorem insert_inserted (connect : RequestHandlerDb.processRequest (backend c g env) s = (none, s₁))
    (insert : s₁.call ((backend c g env).insertRecordToDb s₁.request) = (first, s₂)) :
    s₂.request = s.request ∧
      Inserted (docs (dataCollection s.request) s.world) (docs (dataCollection s.request) s₂.world)
        (fun new =>
          (Stored c s.request new ↔ Stored c s.request (docs (dataCollection s.request) s.world) ∨
            Inserts c g s.request s.world.db) ∧
          ∃ d, c.json.fromJson (sentMessage g s.request s.world.db).json = some d ∧
            Free s.request (docs (dataCollection s.request) s.world) d)
        (¬ Inserts c g s.request s.world.db ∧
          ∃ d, c.json.fromJson (sentMessage g s.request s.world.db).json = some d) first := by
  obtain ⟨hq, -⟩ := connect_cases (keeps_db c g env) connect
  obtain ⟨hins, hreq, -⟩ := call_inv insert
  have hdb : s₁.world.db = s.world.db := hq.world
  have hdocs : docs (dataCollection s.request) s₁.world = docs (dataCollection s.request) s.world := by
    simp [docs, hdb]
  have hcases := insertRecord_cases hins
  rw [hq.request, hdb, hdocs] at hcases
  exact ⟨hreq.trans hq.request, hcases⟩

theorem duplicate_kept (connect : RequestHandlerDb.processRequest (backend c g env) s = (none, s₁))
    (insert : s₁.call ((backend c g env).insertRecordToDb s₁.request) = (first, s₂))
    (duplicate : DBErrorTemplates.duplicateID.equals first = true)
    (checked : RequestHandlerDbCheckRequest.processRequest (backend c g env) s₂ = (err, t)) :
    s₂.request = s.request ∧ t.request = s.request ∧
      docs (dataCollection s.request) t.world = docs (dataCollection s.request) s.world ∧
      ¬ Inserts c g s.request s.world.db ∧
      ∃ d, c.json.fromJson (sentMessage g s.request s.world.db).json = some d := by
  obtain ⟨hreq, hinserted⟩ := insert_inserted connect insert
  obtain ⟨hq, -⟩ := check_cases (keeps_db c g env) checked
  have hdb : t.world.db = s₂.world.db := hq.world
  cases hinserted with
  | done => cases duplicate
  | failed e code => exact absurd ((ErrorTemplate.equals_some _ _).mp duplicate).symm code
  | duplicate e code same full =>
    refine ⟨hreq, hq.request.trans hreq, ?_, full⟩
    rw [← same]
    simp [docs, hdb]

end Insertion

theorem dbWrite_stored (hnew : s.request.alreadyProcessed = true →
      Stored c s.request (docs (dataCollection s.request) s.world))
    (h : RequestHandlerDbWrite.processRequest (backend c g env) s = (none, t)) :
    (Stored c t.request (docs (dataCollection t.request) t.world) ↔
      Stored c t.request (docs (dataCollection t.request) s.world) ∨ Inserts c g t.request s.world.db) ∧
    (Faithful c g t.request s.world.db →
      Checkable c t.request (docs (dataCollection t.request) s.world) →
        Stored c t.request (docs (dataCollection t.request) t.world)) := by
  cases dbWrite_cases h with
  | processed before => exact ⟨⟨.inl, fun _ => hnew before⟩, fun _ _ => hnew before⟩
  | inserted first _ s₁ _ _ connect insert unlike answer =>
    obtain ⟨hreq, hinserted⟩ := insert_inserted connect insert
    rw [hreq]
    cases hinserted with
    | done hstored =>
      obtain ⟨hstored, d, hd, hfree⟩ := hstored
      exact ⟨hstored, fun hf _ => hstored.mpr (.inr ⟨d, hd, (hf d hd).1, hfree⟩)⟩
    | duplicate e code => exact absurd ((ErrorTemplate.equals_some _ _).mpr code.symm) unlike
    | failed e code =>
      obtain ⟨e', he', -⟩ := dbErrorToReceiverError_some e
      cases he'.symm.trans answer
  | ignored first check s₁ s₂ s₃ _ connect insert duplicate checked warning =>
    obtain ⟨hreq₂, hreq₃, hdocs, -⟩ := duplicate_kept connect insert duplicate checked
    have hst : Stored c s.request (docs (dataCollection s.request) s₃.world) :=
      hreq₂ ▸ stored_of_warning checked warning
    simp only [hreq₃]
    exact ⟨⟨fun _ => .inl (hdocs ▸ hst), fun _ => hst⟩, fun _ _ => hst⟩
  | compared first _ s₁ s₂ _ _ connect insert duplicate checked =>
    obtain ⟨hreq₂, hreq₃, hdocs, hins, d, hd⟩ := duplicate_kept connect insert duplicate checked
    obtain ⟨-, hchecked⟩ := check_cases (keeps_db c g env) checked
    cases hchecked with
    | noRecord u e same answer code =>
      obtain ⟨hget, -, -⟩ := call_inv answer
      change getRecordFromDb c s₂.request u.world = _ at hget
      rw [hreq₂] at hget
      rw [hreq₃, hdocs]
      refine ⟨by simp [hins], fun hf hch => ?_⟩
      have hu : docs (dataCollection s.request) u.world = docs (dataCollection s.request) s.world :=
        (docs_of_look hget _).symm.trans hdocs
      exact absurd code (not_noRecord hu hd hf (hu ▸ hch) hins hget)

open RequestFactory

/-- Before the record is written, the database is as it was, and a request that is taken for
processed has its record. -/
structure Pending (c : MongoDBClient J ω) (header : GenericRequestHeader) (db : Db J)
    (s : Served (World J ω)) : Prop where
  header : s.request.header = header
  db : s.world.db = db
  processed : s.request.alreadyProcessed = true →
    Stored c s.request (docs (dataCollection s.request) s.world)

theorem Pending.frame {header : GenericRequestHeader} {db : Db J} (h : Pending c header db s)
    (hf : Frame (fun w : World J ω => w.db) s t) : Pending c header db t where
  header := hf.request ▸ h.header
  db := hf.world.trans h.db
  processed := by
    intro hp
    have hdb : t.world.db = s.world.db := hf.world
    rw [hf.request] at hp ⊢
    simpa [docs, hdb] using h.processed hp

theorem pending_fileProcess {header : GenericRequestHeader} {db : Db J}
    {p : RequestHandlerFileProcess.Processor} (hp : Pending c header db s)
    (h : RequestHandlerFileProcess.processRequest (backend c g env) rounds p s = some (err, t)) :
    Pending c header db t := by
  have hkeep := keeps_db c g env
  cases fileProcess_cases h with
  | written _ _ file new => exact hp.frame (frame_processFile hkeep file)
  | overwritten _ first s₁ s₂ _ file exist check again =>
    have h₂ := (hp.frame (frame_processFile hkeep file)).frame (check_cases hkeep check).1.toFrame
    have h₃ : Pending c header db { s₂ with
        request := s₂.request.setResponseMessage "file has been overwritten" .warning } :=
      ⟨h₂.header, h₂.db, h₂.processed⟩
    exact h₃.frame (frame_processFile hkeep again)
  | duplicate first check s₁ s₂ file exist checked warning =>
    have h₁ := hp.frame (frame_processFile hkeep file)
    have hq := (check_cases hkeep checked).1
    have h₂ := h₁.frame hq.toFrame
    refine ⟨h₂.header, h₂.db, fun _ => ?_⟩
    have hst := stored_of_warning checked warning
    rw [← hq.request] at hst
    exact hst
  | failed first e s₁ s₂ file exist checked =>
    exact (hp.frame (frame_processFile hkeep file)).frame (check_cases hkeep checked).1.toFrame

theorem pending_authorize {header : GenericRequestHeader} {db : Db J} (hp : Pending c header db s)
    (h : RequestHandlerSecondaryAuthorization.processRequest (backend c g env) s = (err, t)) :
    Pending c header db t ∧ t.request.alreadyProcessed = s.request.alreadyProcessed := by
  have hkeep := keeps_db c g env
  unfold RequestHandlerSecondaryAuthorization.processRequest at h
  split at h <;> rename_i hc <;> cases h
  · have hq := quiet_call (hkeep.secondaryAuthorize _) hc
    exact ⟨hp.frame hq.toFrame, by rw [hq.request]⟩
  · have hq := quiet_call (hkeep.secondaryAuthorize _) hc
    have h₁ := hp.frame hq.toFrame
    exact ⟨⟨h₁.header, h₁.db, h₁.processed⟩, by rw [← hq.request]⟩

theorem pending_receiveData {header : GenericRequestHeader} {db : Db J} (hp : Pending c header db s)
    (h : RequestHandlerReceiveData.processRequest (backend c g env) s = (err, t)) :
    Pending c header db t := by
  have hkeep := keeps_db c g env
  unfold RequestHandlerReceiveData.processRequest at h
  split at h
  · split at h
    · rename_i hc
      cases h
      exact hp.frame (quiet_call (hkeep.prepareDataBuffer _) hc).toFrame
    · rename_i slotId s₁ hc
      have h₁ := hp.frame (quiet_call (hkeep.prepareDataBuffer _) hc).toFrame
      generalize hr : s₁.receive (backend c g env) s₁.request.header.dataSize = x at h
      obtain ⟨⟨bytes, e⟩, s₂⟩ := x
      have h₂ := h₁.frame (receive_cases hkeep hr).toFrame
      cases h
      exact ⟨h₂.header, h₂.db, h₂.processed⟩
  · cases h
    exact hp

theorem pending_receiveMetaData {header : GenericRequestHeader} {db : Db J} (hp : Pending c header db s)
    (hnew : s.request.alreadyProcessed = false)
    (h : RequestHandlerReceiveMetaData.processRequest (backend c g env) s = (err, t)) :
    Pending c header db t := by
  have hkeep := keeps_db c g env
  unfold RequestHandlerReceiveMetaData.processRequest at h
  split at h
  · cases h
    exact hp
  · split at h <;> rename_i hr <;> have hf := (receive_cases hkeep hr).toFrame <;> cases h
    · exact hp.frame hf
    · have h₁ := hp.frame hf
      refine ⟨h₁.header, h₁.db, fun hpr => ?_⟩
      have hpr' : s.request.alreadyProcessed = true := hf.request ▸ hpr
      simp [hnew] at hpr'

theorem pending_writer {thresholdMb : ℕ} {header : GenericRequestHeader} {handlers : List Handler}
    {input : Bytes} (hop : header.opCode = .transferData ∨ header.opCode = .transferDatasetData)
    (hchain : addHandlersToRequest thresholdMb header = .ok handlers) (hdb : .dbWrite ∈ handlers)
    (hrun : handle (backend c g env) rounds handlers ⟨Request.ofHeader header, input, w⟩ =
      some (none, t)) :
    ∃ u, Pending c header w.db u ∧
      RequestHandlerDbWrite.processRequest (backend c g env) u = (none, t) := by
  obtain ⟨write, hwrite, rfl⟩ := transfer_chain hop hchain
  have hlast : dbHandlers header = [.dbWrite] := by
    unfold dbHandlers at hdb ⊢
    split
    · rfl
    · rename_i hn
      rw [if_neg hn] at hdb
      cases hwrite <;> simp at hdb
  rw [hlast] at hrun
  obtain ⟨u, hu, hlast⟩ := handle_append _ _ hrun
  obtain ⟨v, hv, hfile⟩ := handle_append _ _ hu
  obtain ⟨s₁, hauth, hmeta⟩ := handle_append [.secondaryAuthorize] [.receiveMetaData] hv
  have h₀ : Pending c header w.db ⟨Request.ofHeader header, input, w⟩ := ⟨rfl, rfl, nofun⟩
  obtain ⟨h₁, hnew⟩ := pending_authorize h₀ (Option.some.inj (handle_single hauth))
  have h₂ := pending_receiveMetaData h₁ hnew (Option.some.inj (handle_single hmeta))
  have hstep : ∀ h ∈ write, ∀ s err t, Pending c header w.db s →
      h.processRequest (backend c g env) rounds s = some (err, t) → Pending c header w.db t := by
    intro x hx s err t hp hs
    have hall : ∀ x ∈ write, x = .receiveData ∨ x = .fileWrite ∨ x = .fileReceive := by
      cases hwrite <;> decide
    obtain rfl | rfl | rfl := hall x hx
    · exact pending_receiveData hp (Option.some.inj hs)
    · exact pending_fileProcess hp hs
    · exact pending_fileProcess hp hs
  exact ⟨u, handle_preserves write hstep h₂ hfile, Option.some.inj (handle_single hlast)⟩

/-- A transfer whose handlers end without an error has its record in the data collection
exactly if it was there before or the insertion found its place free and the document has
the fields of the request. A request that can be checked always has it. -/
theorem record_stored_iff (c : MongoDBClient J ω) (g : Settings) (env : Backend ω)
    (rounds thresholdMb : ℕ) (header : GenericRequestHeader) (handlers : List Handler) (input : Bytes)
    (w : World J ω) (t : Served (World J ω))
    (hop : header.opCode = .transferData ∨ header.opCode = .transferDatasetData)
    (hchain : addHandlersToRequest thresholdMb header = .ok handlers) (hdb : .dbWrite ∈ handlers)
    (hrun : handle (backend c g env) rounds handlers ⟨Request.ofHeader header, input, w⟩ =
      some (none, t)) :
    (Stored c t.request (docs (dataCollection t.request) t.world) ↔
      Stored c t.request (docs (dataCollection t.request) w) ∨ Inserts c g t.request w.db) ∧
    (Faithful c g t.request w.db → Checkable c t.request (docs (dataCollection t.request) w) →
      Stored c t.request (docs (dataCollection t.request) t.world)) := by
  obtain ⟨u, hp, hw⟩ := pending_writer hop hchain hdb hrun
  have hres := dbWrite_stored hp.processed hw
  have hdocs : ∀ col, docs col u.world = docs col w := fun col => by simp only [docs, hp.db]
  rwa [hp.db, hdocs] at hres

def tableJson (known : List MessageMeta) : Json Unit where
  fromJson t := (known.find? (fun m => m.json = t)).map (fun m =>
    ⟨m.id, ⟨some m.size, some m.name, some m.datasetSubstream, some (), true⟩, .missing⟩)
  parse t := if t = text "\x7b\x7d" then some () else none
  write _ := text "\x7b\x7d"
  isObject _ := true
  parse_write _ := rfl

def autoIdHeader : GenericRequestHeader := ⟨.transferData, 0, 5, 0, ![2, 0, 0], text "b", text "s", []⟩

def autoIdChain : List Handler := [.secondaryAuthorize, .receiveMetaData, .receiveData, .dbWrite]

def sentAutoId : MessageMeta := ⟨text "b", 7, 5, 1, [], [], 0, 0⟩

def autoIdClient : MongoDBClient Unit Unit := ⟨tableJson [sentAutoId], fun w => (none, w)⟩

def emptyStream : World Unit Unit := ⟨⟨fun _ => [], fun _ => 0⟩, ()⟩

theorem record_stored_auto_id :
    ∃ t, handle (backend autoIdClient ⟨7, []⟩ (.calm Unit)) 0 autoIdChain
        ⟨Request.ofHeader autoIdHeader, [], emptyStream⟩ = some (none, t) ∧
      Stored autoIdClient t.request (docs (dataCollection t.request) t.world) := by
  have hrun : (handle (backend autoIdClient ⟨7, []⟩ (.calm Unit)) 0 autoIdChain
      ⟨Request.ofHeader autoIdHeader, [], emptyStream⟩).any (fun x => x.1.isNone &&
        decide (Inserts autoIdClient ⟨7, []⟩ x.2.request emptyStream.db)) = true := by decide +kernel
  obtain ⟨⟨e, t⟩, ht, hx⟩ := (Option.any_eq_true _ _).mp hrun
  simp only [Bool.and_eq_true, Option.isNone_iff_eq_none, decide_eq_true_eq] at hx
  obtain ⟨rfl, hins⟩ := hx
  refine ⟨t, ht, ?_⟩
  exact (record_stored_iff autoIdClient ⟨7, []⟩ (.calm Unit) 0 1 autoIdHeader autoIdChain [] emptyStream t
    (by decide) (by decide) (by decide) ht).1.mpr (.inr hins)

def takenStream : World Unit Unit :=
  ⟨⟨fun _ => [⟨1, ⟨some 3, some (text "a"), some 0, some (), true⟩, .missing⟩], fun _ => 0⟩, ()⟩

theorem record_not_stored :
    ¬ ∀ (J ω : Type) (c : MongoDBClient J ω) (g : Settings) (env : Backend ω) (rounds thresholdMb : ℕ)
      (header : GenericRequestHeader) (handlers : List Handler) (input : Bytes) (w : World J ω)
      (t : Served (World J ω)),
      (header.opCode = .transferData ∨ header.opCode = .transferDatasetData) →
      addHandlersToRequest thresholdMb header = .ok handlers → .dbWrite ∈ handlers →
      handle (backend c g env) rounds handlers ⟨Request.ofHeader header, input, w⟩ = some (none, t) →
        Stored c t.request (docs (dataCollection t.request) t.world) := by
  intro h
  have hrun : (handle (backend autoIdClient ⟨7, []⟩ (.calm Unit)) 0 autoIdChain
      ⟨Request.ofHeader autoIdHeader, [], takenStream⟩).any (fun x => x.1.isNone &&
        !decide (Stored autoIdClient x.2.request (docs (dataCollection x.2.request) x.2.world))) = true := by
    decide +kernel
  obtain ⟨⟨e, t⟩, ht, hx⟩ := (Option.any_eq_true _ _).mp hrun
  simp only [Bool.and_eq_true, Option.isNone_iff_eq_none, Bool.not_eq_true', decide_eq_false_iff_not] at hx
  obtain ⟨rfl, hns⟩ := hx
  exact hns (h Unit Unit autoIdClient ⟨7, []⟩ (.calm Unit) 0 1 autoIdHeader autoIdChain [] takenStream t
    (by decide) (by decide) (by decide) ht)

end Asapo.Receiver.Storing
