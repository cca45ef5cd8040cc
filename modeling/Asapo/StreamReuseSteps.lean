import Asapo.Broker.StreamRecords
import Asapo.StreamReuse

namespace Asapo.StreamReuse

open Broker Database Observation StreamOperations StreamDeletion

variable {b d s : Text} {e : Request} {w w' : World} {f : CaseFold} {host : Nacks.Host} {mt : MetaText}
  {period : ℤ}

structure Same {A : Type} (b d s : Text) (x y : World × A) : Prop where
  answer : x.2 = y.2
  alike : Alike b d s x.1 y.1

section Ingestion

theorem same_insertDocument (h : Alike b d s w w') {id : ℕ} (hid : id ≠ 0) (record : Record) :
    Same b d s (insertDocument s id record w) (insertDocument s id record w') := by
  simp only [insertDocument, ← h.contents]
  split
  · exact ⟨rfl, h⟩
  · refine ⟨rfl, alike_writeData h (by simp) ?_⟩
    intro x hx
    rcases List.mem_append.mp hx with hx | hx
    · exact h.positive x hx
    · cases List.mem_singleton.mp hx
      simpa using hid

theorem same_insert (h : Alike b d s w w') (id : ℕ) (record : Record) :
    Same b d s (StreamOperations.insert s id record w) (StreamOperations.insert s id record w') := by
  simp only [StreamOperations.insert]
  split
  · exact ⟨rfl, h⟩
  · split
    · simp only [insertWithAutoId, ← h.counter]
      split
      · exact same_insertDocument (alike_putCounter h _) (Nat.succ_ne_zero _) record
      · exact ⟨rfl, h⟩
    · rename_i hid
      exact same_insertDocument h hid record

theorem same_insertAsDatasetMessage (h : Alike b d s w w') (id substream : ℕ) (datasetSize : ℤ) :
    Same b d s (insertAsDatasetMessage s id substream datasetSize w)
      (insertAsDatasetMessage s id substream datasetSize w') := by
  simp only [insertAsDatasetMessage, ← h.contents]
  split
  · exact ⟨rfl, h⟩
  · rename_i hid
    split
    · exact ⟨rfl, h⟩
    · split
      · rename_i hany
        split
        · exact ⟨rfl, h⟩
        · refine ⟨rfl, alike_writeData h ?_ ?_⟩
          · intro hnil
            rw [List.map_eq_nil_iff.mp hnil] at hany
            cases hany
          · intro x hx
            obtain ⟨y, hy, rfl⟩ := List.mem_map.mp hx
            have hkey := h.positive y hy
            split <;> exact hkey
      · refine ⟨rfl, alike_writeData h (by simp) ?_⟩
        intro x hx
        rcases List.mem_append.mp hx with hx | hx
        · exact h.positive x hx
        · cases List.mem_singleton.mp hx
          simpa using hid

theorem same_putMetadata (h : Alike b d s w w') (content : Except Error Text) :
    Same b d s (putMetadata (encodeColName (text "st_" ++ s)) content w)
      (putMetadata (encodeColName (text "st_" ++ s)) content w') := by
  cases content with
  | error err => exact ⟨rfl, h⟩
  | ok content => exact ⟨rfl, alike_putMetadata h content⟩

theorem same_insertMeta (mt : MetaText) (h : Alike b d s w w') (mode : MetaIngestMode) (content : Text) :
    Same b d s (insertMeta mt s mode content w) (insertMeta mt s mode content w') := by
  simp only [insertMeta, ← h.metadata]
  split
  · split
    · exact ⟨rfl, h⟩
    · split
      · exact ⟨rfl, h⟩
      · exact same_putMetadata h _
  · split
    · exact ⟨rfl, h⟩
    · split
      · exact ⟨rfl, h⟩
      · exact same_putMetadata h _
  · split
    · split <;> exact ⟨rfl, h⟩
    · exact same_putMetadata h _
  · exact ⟨rfl, h⟩

end Ingestion

section Reading

theorem same_getNextRecord (h : Alike b d s w w') (he : Served b d s e) (r : NextRequest) (ticks : List Tick) :
    Same b d s (getNextRecord period r ticks e w) (getNextRecord period r ticks e w') := by
  simp only [getNextRecord, ← h.groups e he]
  split
  · exact ⟨rfl, h⟩
  · exact ⟨rfl, alike_setGroup h he _⟩

theorem same_ackRecord (h : Alike b d s w w') (he : Served b d s e) (id : ℕ) (faults : Bool × Bool) :
    Same b d s (ackRecord id faults e w) (ackRecord id faults e w') := by
  simp only [ackRecord, ← h.groups e he]
  split
  · exact ⟨rfl, alike_setGroup h he _⟩
  · split <;> exact ⟨rfl, alike_setGroup h he _⟩

theorem same_negAckRecord (h : Alike b d s w w') (he : Served b d s e) (id : ℕ) (now delayMs : ℤ) :
    Same b d s (negAckRecord id now delayMs e w) (negAckRecord id now delayMs e w') := by
  simp only [negAckRecord, ← h.groups e he]
  exact ⟨rfl, alike_setGroup h he _⟩

theorem same_nacks (h : Alike b d s w w') (he : Served b d s e) (r : NextRequest) :
    Same b d s (nacks host r e w) (nacks host r e w') := by
  simp only [nacks, ← h.groups e he]
  exact ⟨rfl, h⟩

theorem same_getMeta (h : Alike b d s w w') (he : Served b d s e) : Same b d s (getMeta e w) (getMeta e w') := by
  have hid : text "st_" ++ e.stream = encodeColName (text "st_" ++ s) := by
    rw [encode_metadataId, he.stream_eq]
  simp only [getMeta, hid, ← h.metadata]
  exact ⟨rfl, h⟩

section GroupedLast

variable {r : NextRequest} {faults : ℕ → Bool} {g : Group}

theorem last_of_runLast (n : ℕ) (pc : GroupedLast.Pc) (st : GroupedLast.State)
    (h : (runLast r faults n pc st).1.last = none) : st.last = none := by
  induction n generalizing pc st with
  | zero => exact h
  | succ n ih =>
    rw [runLast] at h
    cases hs : pc.step r (faults n) st with
    | mk t out =>
      rw [hs] at h
      have ht : t.last = none := by
        cases out with
        | inl pc' => exact ih pc' t h
        | inr answer => exact h
      cases GroupedLast.step_cases hs with
      | created => cases ht
      | raised => cases ht
      | found => exact ht
      | failed => exact ht
      | goOn => exact ht

theorem getRecordByIDRaw_zero (hg : g.record? 0 = none) : g.getRecordByIDRaw r 0 0 = .error (.noData 0 0 []) := by
  rw [Group.getRecordByIDRaw, getRecordFromDb_eq, hg]
  rfl

theorem errorWhenCannotSetField_zero (hg : g.record? 0 = none) :
    g.errorWhenCannotSetField 0 = .noData 0 0 [] := by
  rw [Group.errorWhenCannotSetField, getRecordFromDb_eq, hg]
  rfl

theorem runLast_record_zero (hg : g.record? 0 = none) (l : Option ℕ) :
    runLast r faults 2 (.record 0) ⟨g, l⟩ = (⟨g, l⟩, some (.error (.noData 0 0 []))) := by
  rw [runLast]
  by_cases h : faults 1 = true
  · simp [GroupedLast.Pc.step, h]
  · simp [GroupedLast.Pc.step, h, getRecordByIDRaw_zero hg, Except.map]

theorem runLast_retry_zero (hg : g.record? 0 = none) :
    runLast r faults 2 (.retry 0) ⟨g, some 0⟩ = (⟨g, some 0⟩, some (.error (.noData 0 0 []))) := by
  have hexplain : runLast r faults 1 (.explain 0) ⟨g, some 0⟩ =
      (⟨g, some 0⟩, some (.error (.noData 0 0 []))) := by
    rw [runLast]
    simp [GroupedLast.Pc.step, errorWhenCannotSetField_zero hg]
  rw [runLast, ← hexplain]
  by_cases h : faults 1 = true
  · simp [GroupedLast.Pc.step, h]
  · simp [GroupedLast.Pc.step, h, GroupedLast.setLast]

/-- A last message that is zero is like none: without records the answer is that there is
no data. -/
theorem runLast_zero (hg : g.record? 0 = none) :
    (runLast r faults 4 .maxIndex ⟨g, none⟩).2 = (runLast r faults 4 .maxIndex ⟨g, some 0⟩).2 ∧
      (runLast r faults 4 .maxIndex ⟨g, none⟩).1.last.getD 0 =
        (runLast r faults 4 .maxIndex ⟨g, some 0⟩).1.last.getD 0 := by
  rw [runLast, runLast]
  by_cases hf : faults 3 = true
  · simp [GroupedLast.Pc.step, hf]
  · cases hm : GroupedLast.getMaxIndex r g with
    | error err => simp [GroupedLast.Pc.step, hf, hm]
    | ok m =>
      simp only [GroupedLast.Pc.step, hf, hm, if_false, Bool.false_eq_true]
      rw [runLast, runLast]
      by_cases hu : faults 2 = true
      · simp [GroupedLast.Pc.step, hu]
      · by_cases hpos : 0 < m
        · simp [GroupedLast.Pc.step, hu, GroupedLast.setLast, hpos]
        · obtain rfl : m = 0 := Nat.eq_zero_of_not_pos hpos
          simp only [GroupedLast.Pc.step, hu, GroupedLast.setLast, Bool.false_eq_true, lt_irrefl, if_true, if_false]
          rw [runLast_record_zero hg, runLast_retry_zero hg]
          exact ⟨rfl, rfl⟩

theorem record_zero (h : ∀ x ∈ g.data, x.1 ≠ 0) : g.record? 0 = none := by
  rw [Group.record?, Option.map_eq_none_iff, List.find?_eq_none]
  intro x hx
  simpa using h x hx

theorem key_of_asRecord {x : ℕ × Record} {y : Key × Document} (h : asRecord y = some x) :
    y.1 = .number (.ofNat x.1) := by
  unfold asRecord at h
  split at h <;> cases h
  rfl

theorem Alike.record_zero (h : Alike b d s w w') (he : Served b d s e) : (w.group e).record? 0 = none := by
  apply StreamReuse.record_zero
  intro x hx hzero
  obtain ⟨y, hy, hyx⟩ := List.mem_filterMap.mp hx
  rw [he.dataCollection] at hy
  apply h.positive y hy
  rw [key_of_asRecord hyx, hzero]
  rfl

theorem same_getLastRecordInGroup (h : Alike b d s w w') (he : Served b d s e) :
    Same b d s (getLastRecordInGroup r faults e w) (getLastRecordInGroup r faults e w') := by
  have hrun : (runLast r faults 4 .maxIndex ⟨w.group e, w.last e⟩).2 =
        (runLast r faults 4 .maxIndex ⟨w'.group e, w'.last e⟩).2 ∧
      (runLast r faults 4 .maxIndex ⟨w.group e, w.last e⟩).1.last.getD 0 =
        (runLast r faults 4 .maxIndex ⟨w'.group e, w'.last e⟩).1.last.getD 0 := by
    have hzero := h.record_zero he
    have hlast := h.last e he
    rw [← h.groups e he]
    -- the two last messages are the same, or one is zero and the other is not there
    rcases hw : w.last e with _ | v <;> rcases hw' : w'.last e with _ | v' <;> rw [hw, hw'] at hlast
    · exact ⟨rfl, rfl⟩
    · obtain rfl : v' = 0 := hlast.symm
      exact runLast_zero hzero
    · obtain rfl : v = 0 := hlast
      obtain ⟨ha, hl⟩ := runLast_zero (r := r) hzero
      exact ⟨ha.symm, hl.symm⟩
    · obtain rfl : v = v' := hlast
      exact ⟨rfl, rfl⟩
  exact ⟨congrArg Reply.message hrun.1, alike_putLast h hrun.2 (last_of_runLast 4 .maxIndex ⟨w.group e, w.last e⟩)
    (last_of_runLast 4 .maxIndex ⟨w'.group e, w'.last e⟩)⟩

end GroupedLast

end Reading

section Deletion

/-- What is left of a stream: its data, acknowledgements, messages in process and pointers
are gone, and everything else of it is as before. -/
structure Purged (b d s : Text) (w v : World) : Prop where
  data : v.db.find (encodeColName (collectionName s)) = none
  acks : ∀ e, Served b d s e → v.db.find e.acksCollection = none
  inprocess : ∀ e, Served b d s e → v.db.find e.inprocessCollection = none
  location : ∀ e, Served b d s e → v.db.documents (text "current_location") (.string e.pointerId) = []
  last : ∀ e, v.last e = w.last e
  counter : v.counter (collectionName s) = w.counter (collectionName s)
  metadata : v.metadata (encodeColName (text "st_" ++ s)) = w.metadata (encodeColName (text "st_" ++ s))
  lastRead : v.lastRead = w.lastRead

theorem Purged.group {v : World} (h : Purged b d s w v) (he : Served b d s e) :
    v.group e = ⟨[], none, [], [], w.lastRead e.inprocessKey⟩ := by
  unfold World.group Store.contents
  rw [he.dataCollection, h.data, h.acks e he, h.inprocess e he, h.location e he, h.lastRead]
  rfl

theorem alike_of_purged {v v' : World} (h : Alike b d s w w') (hv : Purged b d s w v) (hv' : Purged b d s w' v') :
    Alike b d s v v' where
  data := hv.data.trans hv'.data.symm
  positive := by
    rw [Store.contents, hv.data]
    simp
  groups e he := by
    have hread := congrArg Group.lastRead (h.groups e he)
    rw [hv.group he, hv'.group he, show w.lastRead e.inprocessKey = w'.lastRead e.inprocessKey from hread]
  last e he := by rw [hv.last, hv'.last, h.last e he]
  counter := by rw [hv.counter, hv'.counter, h.counter]
  metadata := by rw [hv.metadata, hv'.metadata, h.metadata]

/-- The collections with documents of all streams in which a deletion by the broker finds
nothing to delete. -/
def sharedCollections : List Text := [text "last_messages", text "auto_id_counters", text "meta"]

structure Dropped (b d s : Text) (db db' : Database.Store Document) : Prop where
  data : db'.find (encodeColName (collectionName s)) = none
  acks : ∀ e, Served b d s e → db'.find e.acksCollection = none
  inprocess : ∀ e, Served b d s e → db'.find e.inprocessCollection = none
  shared : ∀ name ∈ sharedCollections, db'.find name = db.find name

theorem shared_not_acks {name x : Text} (h : name ∈ sharedCollections) :
    f.matchesPattern ('^' :: escapeQuery (text "acks_" ++ x)) name = false := by
  rw [Bool.eq_false_iff, ne_eq, matches_beginning]
  simp only [sharedCollections, List.mem_cons, List.not_mem_nil, or_false] at h
  obtain rfl | rfl | rfl := h
  · exact not_prefix_of_head (by decide) (by decide) (by decide)
  · intro hp
    have hsecond := (List.cons_prefix_cons.mp hp).2
    exact not_prefix_of_head (by decide) (by decide) (by decide) hsecond
  · exact not_prefix_of_head (by decide) (by decide) (by decide)

theorem shared_not_inprocess {name x : Text} (h : name ∈ sharedCollections) :
    f.matchesPattern ('^' :: escapeQuery (text "inprocess_" ++ x)) name = false := by
  rw [Bool.eq_false_iff, ne_eq, matches_beginning]
  simp only [sharedCollections, List.mem_cons, List.not_mem_nil, or_false] at h
  obtain rfl | rfl | rfl := h <;> exact not_prefix_of_head (by decide) (by decide) (by decide)

theorem matches_acks (he : Served b d s e) :
    f.matchesPattern ('^' :: escapeQuery (text "acks_" ++ encodeColName s)) e.acksCollection = true := by
  rw [matches_beginning, Request.acksCollection, he.stream_eq, Request.join, ← List.append_assoc]
  exact (List.prefix_append _ _).map f.fold

theorem matches_inprocess (he : Served b d s e) :
    f.matchesPattern ('^' :: escapeQuery (text "inprocess_" ++ encodeColName s)) e.inprocessCollection = true := by
  rw [matches_beginning, Request.inprocessCollection, he.stream_eq, Request.join, ← List.append_assoc]
  exact (List.prefix_append _ _).map f.fold

variable {db : Database.Store Document}

theorem find_drop_shared {name : Text} (h : name ∈ sharedCollections) :
    (db.drop (encodeColName (collectionName s))).find name = db.find name := by
  apply Store.find_drop
  rw [encode_collectionName]
  simp only [sharedCollections, List.mem_cons, List.not_mem_nil, or_false] at h
  obtain rfl | rfl | rfl := h <;> rintro ⟨⟩

theorem dropped_broker : Dropped b d s db
    (dropMatching f ('^' :: escapeQuery (text "inprocess_" ++ encodeColName s))
      (dropMatching f ('^' :: escapeQuery (text "acks_" ++ encodeColName s))
        (db.drop (encodeColName (collectionName s))))) where
  data := find_dropMatching_none (find_dropMatching_none Store.find_drop_self)
  acks _ he := find_dropMatching_none (find_dropMatching (matches_acks he))
  inprocess _ he := find_dropMatching (matches_inprocess he)
  shared _ hn := by
    rw [find_dropMatching_other (shared_not_inprocess hn), find_dropMatching_other (shared_not_acks hn),
      find_drop_shared hn]

theorem dropped_client : Dropped b d s db
    (dropMatching f ('^' :: escapeQuery (text "acks_" ++ encodeColName s))
      (dropMatching f ('^' :: escapeQuery (text "inprocess_" ++ encodeColName s))
        (db.drop (encodeColName (collectionName s))))) where
  data := find_dropMatching_none (find_dropMatching_none Store.find_drop_self)
  acks _ he := find_dropMatching (matches_acks he)
  inprocess _ he := find_dropMatching_none (find_dropMatching (matches_inprocess he))
  shared _ hn := by
    rw [find_dropMatching_other (shared_not_acks hn), find_dropMatching_other (shared_not_inprocess hn),
      find_drop_shared hn]

theorem keyMatches_pointer (he : Served b d s e) : Store.keyMatches f
    (text ".*_" ++ escapeQuery (encodeColName s) ++ ['$']) (.string e.pointerId) = true := by
  rw [Store.keyMatches, matches_end]
  refine ⟨e.pointerId, .inl rfl, ?_⟩
  rw [Request.pointerId, Request.join, he.stream_eq]
  exact (List.suffix_append _ _).map f.fold

theorem purged_of_dropped {db' : Database.Store Document} (h : Dropped b d s w.db db') :
    Purged b d s w { w with
      db := db'.deleteMany f (text "current_location") (text ".*_" ++ escapeQuery (encodeColName s) ++ ['$']) } := by
  have hfind : ∀ {name : Text}, name ≠ text "current_location" →
      (db'.deleteMany f (text "current_location") (text ".*_" ++ escapeQuery (encodeColName s) ++ ['$'])).find name =
        db'.find name := fun hn => Store.find_deleteMany_other hn
  refine ⟨?_, ?_, ?_, ?_, ?_, ?_, ?_, rfl⟩
  · rw [hfind (by rw [encode_collectionName]; rintro ⟨⟩), h.data]
  · intro e he
    rw [hfind (by rintro ⟨⟩), h.acks e he]
  · intro e he
    rw [hfind (by rintro ⟨⟩), h.inprocess e he]
  · exact fun e he => Store.documents_deleteMany_self (keyMatches_pointer he)
  · exact fun e => last_of_find ((hfind (by decide)).trans (h.shared _ (by simp [sharedCollections])))
  · exact counter_of_find ((hfind (by decide)).trans (h.shared _ (by simp [sharedCollections])))
  · exact metadata_of_find ((hfind (by decide)).trans (h.shared _ (by simp [sharedCollections])))

theorem not_keyMatches_metadata : Store.keyMatches f ('^' :: (escapeQuery (encodeColName s) ++ ['$']))
    (.string (encodeColName (text "st_" ++ s))) = false := by
  rw [Store.keyMatches, Bool.eq_false_iff, ne_eq, matches_whole, encode_metadataId]
  -- the id of the metadata is longer than the name of the stream, even without a newline at its end
  rintro ⟨u, hu, hs⟩
  have hlen : (encodeColName s).length = u.length := by simpa using congrArg List.length hs
  have hthree : (text "st_").length = 3 := rfl
  obtain hu | hu := hu
  · have := congrArg List.length hu
    rw [List.length_append, hthree] at this
    omega
  · have := congrArg List.length hu
    rw [List.length_append, List.length_append, hthree, List.length_singleton] at this
    omega

/-- The client deletes the metadata with the name of the stream as their id, which is not
the id of the metadata of the stream. -/
theorem Purged.deleteMeta {v : World} (h : Purged b d s w v) : Purged b d s w { v with
    db := v.db.deleteMany f (text "meta") ('^' :: (escapeQuery (encodeColName s) ++ ['$'])) } := by
  have hfind : ∀ {name : Text}, name ≠ text "meta" →
      (v.db.deleteMany f (text "meta") ('^' :: (escapeQuery (encodeColName s) ++ ['$']))).find name =
        v.db.find name := fun hn => Store.find_deleteMany_other hn
  refine ⟨?_, ?_, ?_, ?_, ?_, ?_, ?_, h.lastRead⟩
  · rw [hfind (by rw [encode_collectionName]; rintro ⟨⟩), h.data]
  · intro e he
    rw [hfind (by rintro ⟨⟩), h.acks e he]
  · intro e he
    rw [hfind (by rintro ⟨⟩), h.inprocess e he]
  · intro e he
    rw [Store.documents_deleteMany_other (by decide), h.location e he]
  · exact fun e => (last_of_find (hfind (by decide))).trans (h.last e)
  · exact (counter_of_find (hfind (by decide))).trans h.counter
  · rw [World.metadata, Store.documents_deleteMany not_keyMatches_metadata]
    exact h.metadata

theorem purged_deleteStream (he : Served b d s e) {params : DeleteParams} (hmeta : params.deleteMeta = some true)
    (hok : (Broker.deleteStream f noFault (some params) e w.db).1 = none) :
    Purged b d s w (StreamOperations.deleteStream f (some params) e w).1 := by
  obtain ⟨extraParam, errorOnNotExist, deleteMeta⟩ := params
  cases hmeta
  cases errorOnNotExist with
  | none => cases hok
  | some errorOnNotExist =>
    rw [broker_deleteStream_eq] at hok
    simp only [StreamOperations.deleteStream, broker_deleteStream_eq]
    split at hok
    · cases hok
    · rename_i hex
      rw [if_neg hex, he.dataCollection, he.stream_eq]
      exact purged_of_dropped dropped_broker

theorem same_deleteStream (h : Alike b d s w w') (he : Served b d s e) (params : Option DeleteParams) :
    Same b d s (StreamOperations.deleteStream f params e w) (StreamOperations.deleteStream f params e w') := by
  have hdata : w.db.find e.dataCollection = w'.db.find e.dataCollection := by
    rw [he.dataCollection, h.data]
  rcases params with _ | ⟨extraParam, _ | errorOnNotExist, deleteMeta⟩
  · exact ⟨rfl, h⟩
  · exact ⟨rfl, h⟩
  · rcases deleteMeta with _ | deleteMeta
    · exact ⟨rfl, h⟩
    · cases deleteMeta with
      | false => exact ⟨rfl, h⟩
      | true =>
        by_cases hex : errorOnNotExist = true ∧ w.db.find e.dataCollection = none
        · have hex' : errorOnNotExist = true ∧ w'.db.find e.dataCollection = none := hdata ▸ hex
          simp only [StreamOperations.deleteStream, broker_deleteStream_eq, if_pos hex, if_pos hex']
          exact ⟨rfl, h⟩
        · have hex' : ¬ (errorOnNotExist = true ∧ w'.db.find e.dataCollection = none) := hdata ▸ hex
          have hok : ∀ w : World, ¬ (errorOnNotExist = true ∧ w.db.find e.dataCollection = none) →
              (Broker.deleteStream f noFault (some ⟨extraParam, some errorOnNotExist, some true⟩) e w.db).1 = none := by
            intro w hw
            rw [broker_deleteStream_eq, if_neg hw]
          exact ⟨congrArg Reply.deleted ((hok w hex).trans (hok w' hex').symm),
            alike_of_purged h (purged_deleteStream he rfl (hok w hex)) (purged_deleteStream he rfl (hok w' hex'))⟩

theorem alike_deleteMeta (h : Alike b d s w w') : Alike b d s
    { w with db := w.db.deleteMany f (text "meta") ('^' :: (escapeQuery (encodeColName s) ++ ['$'])) }
    { w' with db := w'.db.deleteMany f (text "meta") ('^' :: (escapeQuery (encodeColName s) ++ ['$'])) } := by
  have honly : ∀ w : World, Only (text "meta") w
      { w with db := w.db.deleteMany f (text "meta") ('^' :: (escapeQuery (encodeColName s) ++ ['$'])) } :=
    fun w => ⟨fun _ hn => Store.find_deleteMany_other hn, rfl⟩
  refine h.only (honly w) (honly w') (fun _ => notOfGroup_meta) ?_ ?_ ?_
  · intro e he
    rw [last_of_find ((honly w).find _ (by decide)), last_of_find ((honly w').find _ (by decide)), h.last e he]
  · rw [counter_of_find ((honly w).find _ (by decide)), counter_of_find ((honly w').find _ (by decide)), h.counter]
  · rw [World.metadata, World.metadata, Store.documents_deleteMany not_keyMatches_metadata,
      Store.documents_deleteMany not_keyMatches_metadata]
    exact h.metadata

theorem client_deleteStream_none (h : w.db.find (encodeColName (collectionName s)) = none) :
    clientDeleteStream f s w = ({ w with
      db := w.db.deleteMany f (text "meta") ('^' :: (escapeQuery (encodeColName s) ++ ['$'])) },
      .clientDeleted (some (DBErrorTemplates.noRecord.generate ""))) := by
  rw [encode_collectionName] at h
  have hdata : MongoDBClient.deleteCollection noFault (text "data_" ++ encodeColName s) w.db =
      (some (DBErrorTemplates.noRecord.generate ""), w.db) := by
    simp [MongoDBClient.deleteCollection, noFault, h]
  simp only [clientDeleteStream, MongoDBClient.deleteStream, hdata]
  rfl

theorem client_deleteStream_some (h : (w.db.find (encodeColName (collectionName s))).isSome = true) :
    (clientDeleteStream f s w).2 = .clientDeleted none ∧ Purged b d s w (clientDeleteStream f s w).1 := by
  constructor
  · rw [encode_collectionName] at h
    have hdata : MongoDBClient.deleteCollection noFault (text "data_" ++ encodeColName s) w.db =
        (none, w.db.drop (text "data_" ++ encodeColName s)) := by
      simp [MongoDBClient.deleteCollection, noFault, h]
    simp only [clientDeleteStream, MongoDBClient.deleteStream, hdata]
  · have hdropped := (purged_of_dropped (f := f) (dropped_client (b := b) (d := d) (s := s) (f := f))).deleteMeta
      (w := w) (f := f)
    rw [encode_collectionName] at h hdropped
    simp only [clientDeleteStream]
    rw [receiver_noFault h]
    exact hdropped

theorem same_clientDeleteStream (h : Alike b d s w w') :
    Same b d s (clientDeleteStream f s w) (clientDeleteStream f s w') := by
  cases hf : w.db.find (encodeColName (collectionName s)) with
  | none =>
    rw [client_deleteStream_none hf, client_deleteStream_none (h.data ▸ hf)]
    exact ⟨rfl, alike_deleteMeta h⟩
  | some documents =>
    have hsome : (w.db.find (encodeColName (collectionName s))).isSome = true := by rw [hf]; rfl
    obtain ⟨ha, hp⟩ := client_deleteStream_some (f := f) (b := b) (d := d) hsome
    obtain ⟨ha', hp'⟩ := client_deleteStream_some (f := f) (b := b) (d := d) (h.data ▸ hsome)
    exact ⟨ha.trans ha'.symm, alike_of_purged h hp hp'⟩

end Deletion

section Runs

theorem processRequest_cases (b d s groupId : Text) (op : Request → World → World × Reply) :
    (∃ err, ∀ w, processRequest ⟨b, d, s, groupId⟩ op w = (w, .refused err)) ∨
      ∃ e, Served b d s e ∧ ∀ w, processRequest ⟨b, d, s, groupId⟩ op w = op e w := by
  unfold processRequest
  cases Request.checkDatabaseOperationPrerequisites ⟨b, d, s, groupId⟩ with
  | some err => exact .inl ⟨err, fun _ => rfl⟩
  | none =>
    cases he : Request.encodeRequest ⟨b, d, s, groupId⟩ with
    | error err => exact .inl ⟨err, fun _ => rfl⟩
    | ok e =>
      obtain ⟨haccepted, rfl⟩ := Request.encodeRequest_ok_iff.mp he
      exact .inr ⟨_, ⟨groupId, haccepted, rfl⟩, fun _ => rfl⟩

theorem same_processRequest {op : Request → World → World × Reply} {groupId : Text} (h : Alike b d s w w')
    (hop : ∀ e, Served b d s e → Same b d s (op e w) (op e w')) :
    Same b d s (processRequest ⟨b, d, s, groupId⟩ op w) (processRequest ⟨b, d, s, groupId⟩ op w') := by
  obtain ⟨err, hr⟩ | ⟨e, he, hr⟩ := processRequest_cases b d s groupId op
  · rw [hr, hr]
    exact ⟨rfl, h⟩
  · rw [hr, hr]
    exact hop e he

theorem same_step (h : Alike b d s w w') (op : Op) :
    Same b d s (step f host mt period b d s w op) (step f host mt period b d s w' op) := by
  cases op with
  | insert id record =>
    obtain ⟨ha, hw⟩ := same_insert h id record
    exact ⟨congrArg Reply.inserted ha, hw⟩
  | insertAsDatasetMessage id substream datasetSize =>
    obtain ⟨ha, hw⟩ := same_insertAsDatasetMessage h id substream datasetSize
    exact ⟨congrArg Reply.stored ha, hw⟩
  | insertMeta mode content =>
    obtain ⟨ha, hw⟩ := same_insertMeta mt h mode content
    exact ⟨congrArg Reply.stored ha, hw⟩
  | next groupId r ticks => exact same_processRequest h (fun _ he => same_getNextRecord h he r ticks)
  | groupedLast groupId r faults => exact same_processRequest h (fun _ he => same_getLastRecordInGroup h he)
  | ack groupId id faults => exact same_processRequest h (fun _ he => same_ackRecord h he id faults)
  | negAck groupId id now delayMs => exact same_processRequest h (fun _ he => same_negAckRecord h he id now delayMs)
  | nacks groupId r => exact same_processRequest h (fun _ he => same_nacks h he r)
  | getMeta groupId => exact same_processRequest h (fun _ he => same_getMeta h he)
  | deleteStream groupId params => exact same_processRequest h (fun _ he => same_deleteStream h he params)
  | clientDeleteStream => exact same_clientDeleteStream h

theorem indistinguishable_of_alike (h : Alike b d s w w') :
    Indistinguishable (step f host mt period b d s) w w' := by
  refine indistinguishable_of_relation (R := Alike b d s) ?_ h
  intro w w' op ha
  exact ⟨(same_step ha op).answer, (same_step ha op).alike⟩

end Runs

end Asapo.StreamReuse
