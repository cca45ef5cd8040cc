import Asapo.StreamReuseSteps

namespace Asapo.StreamReuse

open Broker Database Observation StreamOperations StreamDeletion

variable {b d s : Text} {e : Request} {w : World} {f : CaseFold} {host : Nacks.Host} {mt : MetaText}
  {period : ℤ}

/-- The receiver and the broker serve requests for the stream. -/
structure Usable (b d s : Text) : Prop where
  prerequisites : Request.checkDatabaseOperationPrerequisites ⟨b, d, s, []⟩ = none
  accepted : Request.Accepted ⟨b, d, s, []⟩
  collection : MongoDBClient.updateCurrentCollectionIfNeeded (collectionName s) = none

inductive Deletion : Op → Prop
  | broker (groupId : Text) (extraParam : String) (errorOnNotExist : Bool) :
      Deletion (.deleteStream groupId (some ⟨extraParam, some errorOnNotExist, some true⟩))
  | client : Deletion .clientDeleteStream

def Successful : Reply → Prop
  | .deleted none | .clientDeleted none => True
  | _ => False

theorem purged_of_successful {op : Op} (hd : Deletion op)
    (hok : Successful (step f host mt period b d s w op).2) :
    Purged b d s w (step f host mt period b d s w op).1 := by
  cases hd with
  | broker groupId extraParam errorOnNotExist =>
    simp only [step] at hok ⊢
    obtain ⟨err, hr⟩ | ⟨e, he, hr⟩ := processRequest_cases b d s groupId
      (StreamOperations.deleteStream f (some ⟨extraParam, some errorOnNotExist, some true⟩))
    · rw [hr] at hok
      exact hok.elim
    · rw [hr] at hok ⊢
      refine purged_deleteStream he rfl ?_
      simp only [StreamOperations.deleteStream] at hok
      cases herr : (Broker.deleteStream f noFault (some ⟨extraParam, some errorOnNotExist, some true⟩) e w.db).1 with
      | none => rfl
      | some err =>
        rw [herr] at hok
        exact hok.elim
  | client =>
    cases hf : w.db.find (encodeColName (collectionName s)) with
    | none =>
      simp only [step] at hok
      rw [client_deleteStream_none hf] at hok
      exact hok.elim
    | some documents => exact (client_deleteStream_some (by rw [hf]; rfl)).2

variable {v : World} {db : Database.Store Document} {lastRead : Text → ℤ}

theorem group_of_never (hn : Never b d s db) (he : Served b d s e) :
    World.group ⟨db, lastRead⟩ e = ⟨[], none, [], [], lastRead e.inprocessKey⟩ := by
  rw [World.group, Store.contents, Store.contents, Store.contents, he.dataCollection, hn.data, hn.acks e he,
    hn.inprocess e he, hn.location e he]
  rfl

theorem alike_of_clean (hp : Purged b d s w v) (hn : Never b d s db) (hc : Clean b d s lastRead w) :
    Alike b d s v ⟨db, lastRead⟩ where
  data := hp.data.trans hn.data.symm
  positive := by
    rw [Store.contents, hp.data]
    simp
  groups e he := by rw [hp.group he, group_of_never hn he, hc.read e he]
  last e he := by
    rw [hp.last, hc.last e he, World.last, hn.last e he]
    rfl
  counter := by
    rw [hp.counter, hc.counter, World.counter, hn.counter]
    rfl
  metadata := by
    rw [hp.metadata, hc.metadata, World.metadata, hn.metadata]
    rfl

def probe : Record := ⟨.message, text "image", none, none, none⟩

def plainRequest : NextRequest := ⟨false, 0, []⟩

theorem processRequest_served (hu : Usable b d s) {groupId : Text} (ha : Request.Accepted ⟨b, d, s, groupId⟩)
    (op : Request → World → World × Reply) (w : World) :
    processRequest ⟨b, d, s, groupId⟩ op w = op (Request.encoded ⟨b, d, s, groupId⟩) w := by
  have hpre : Request.checkDatabaseOperationPrerequisites ⟨b, d, s, groupId⟩ = none := hu.prerequisites
  rw [processRequest, hpre, Request.encodeRequest_ok_iff.mpr ⟨ha, rfl⟩]

theorem insertDocument_empty (hw : w.db.contents (encodeColName (collectionName s)) = []) (id : ℕ) :
    insertDocument s id probe w = ({ w with
      db := w.db.write (encodeColName (collectionName s)) [(.number id, .record probe [])] }, .ok id) := by
  simp [insertDocument, hw]

theorem insert_auto (hu : Usable b d s) (hw : w.db.find (encodeColName (collectionName s)) = none) :
    (StreamOperations.insert s 0 probe w).2 = .ok 1 ↔ (w.counter (collectionName s)).getD 0 = 0 := by
  rw [StreamOperations.insert, hu.collection]
  simp only [if_true, insertWithAutoId]
  split
  · have hne : encodeColName (collectionName s) ≠ text "auto_id_counters" := by
      rw [encode_collectionName]
      rintro ⟨⟩
    rw [insertDocument_empty (by rw [Store.contents, only_putNumber.find _ hne, hw]; rfl)]
    simp
  · rename_i hlarge
    simp only [reduceCtorEq, false_iff]
    omega

theorem group_of_insert (he : Served b d s e) (hw : w.db.find (encodeColName (collectionName s)) = none)
    (hu : Usable b d s) : ((StreamOperations.insert s 1 probe w).1.group e).data = [(1, probe)] ∧
      (StreamOperations.insert s 1 probe w).1.last e = w.last e := by
  have hempty : w.db.contents (encodeColName (collectionName s)) = [] := by rw [Store.contents, hw]; rfl
  rw [StreamOperations.insert, hu.collection]
  simp only [one_ne_zero, if_false]
  rw [insertDocument_empty hempty]
  constructor
  · unfold World.group
    rw [Store.contents_write, if_pos he.dataCollection]
    rfl
  · exact last_of_find (only_write.find _ (by rw [encode_collectionName]; rintro ⟨⟩))

theorem runLast_probe {g : Group} (hg : g.data = [(1, probe)]) (l : Option ℕ) :
    (runLast plainRequest (fun _ => false) 4 .maxIndex ⟨g, l⟩).2 = some (.ok (1, probe)) ↔ l.getD 0 = 0 := by
  have hmax : GroupedLast.getMaxIndex plainRequest g = .ok 1 := by
    rw [GroupedLast.getMaxIndex, hg, List.mergeSort_singleton]
    rfl
  have hrecord : g.getRecordByIDRaw plainRequest 1 1 = .ok probe := by
    rw [Group.getRecordByIDRaw, Group.getRecordFromDb, hg]
    rfl
  have hstart : runLast plainRequest (fun _ => false) 4 .maxIndex ⟨g, l⟩ =
      runLast plainRequest (fun _ => false) 3 (.upsert 1) ⟨g, l⟩ := by
    rw [runLast]
    simp [GroupedLast.Pc.step, hmax]
  rw [hstart]
  by_cases hl : l.getD 0 = 0
  · have hset : GroupedLast.setLast ⟨g, l⟩ true 1 = some ⟨g, some 1⟩ := by
      cases l with
      | none => rfl
      | some v =>
        obtain rfl : v = 0 := hl
        rfl
    simp [runLast, GroupedLast.Pc.step, hset, hrecord, hl, Except.map]
  · have hset : ∀ upsert, GroupedLast.setLast ⟨g, l⟩ upsert 1 = none := by
      intro upsert
      cases l with
      | none => exact absurd rfl hl
      | some v =>
        have hv : ¬ v < 1 := fun hv => hl (Nat.lt_one_iff.mp hv)
        simp [GroupedLast.setLast, hv]
    simp [runLast, GroupedLast.Pc.step, hset, hl]

/-- The clock shows the time of a last look and one period. If the in-process collection is
looked into, the database fails. -/
def lookTicks (period time : ℤ) : List Tick :=
  let now := (time + period) * 1000000000
  [⟨now, none, false⟩, ⟨now, none, true⟩, ⟨now, none, false⟩, ⟨now, none, false⟩, ⟨now, none, false⟩,
    ⟨now, none, false⟩]

theorem run_look (period time lastRead : ℤ) :
    (NextPc.run period plainRequest (lookTicks period time) (.lookUp .first) ⟨[], none, [], [], lastRead⟩).map
        Prod.snd = some (.error .other) ↔ lastRead ≤ time := by
  by_cases hle : lastRead ≤ time
  · refine iff_of_true ?_ hle
    simp [NextPc.run, lookTicks, NextPc.step, NextPc.resendParams, plainRequest, hle]
  · refine iff_of_false ?_ hle
    simp [NextPc.run, lookTicks, NextPc.step, NextPc.resendParams, plainRequest, NextPc.ignoreTimeout,
      NextPc.behindInprocessed, Group.getMaxIndex, Group.getUnProcessedId, hle]

theorem reply_getNextRecord (r : NextRequest) (ticks : List Tick) (e : Request) (w : World) :
    (getNextRecord period r ticks e w).2 =
      .message ((NextPc.run period r ticks (.lookUp .first) (w.group e)).map Prod.snd) := by
  unfold getNextRecord
  cases NextPc.run period r ticks (.lookUp .first) (w.group e) <;> rfl

theorem clean_of_indistinguishable (hu : Usable b d s) (hp : Purged b d s w v) (hn : Never b d s db)
    (h : Indistinguishable (step f host mt period b d s) v ⟨db, lastRead⟩) : Clean b d s lastRead w where
  counter := by
    have hauto := h [.insert 0 probe]
    simp only [answers_cons, step, List.cons.injEq, Reply.inserted.injEq] at hauto
    have hfresh : World.counter ⟨db, lastRead⟩ (collectionName s) = none := by
      rw [World.counter, hn.counter]
      rfl
    rw [← hp.counter, ← insert_auto hu hp.data, hauto.1, insert_auto hu hn.data, hfresh]
    rfl
  last e he := by
    obtain ⟨groupId, ha, rfl⟩ := he
    have he : Served b d s (Request.encoded ⟨b, d, s, groupId⟩) := ⟨groupId, ha, rfl⟩
    have hlast := h [.insert 1 probe, .groupedLast groupId plainRequest (fun _ => false)]
    simp only [answers_cons, step, processRequest_served hu ha, getLastRecordInGroup, List.cons.injEq,
      Reply.message.injEq] at hlast
    obtain ⟨hg, hl⟩ := group_of_insert he hp.data hu
    obtain ⟨hg', hl'⟩ := group_of_insert (w := ⟨db, lastRead⟩) he hn.data hu
    have hfresh : World.last ⟨db, lastRead⟩ (Request.encoded ⟨b, d, s, groupId⟩) = none := by
      rw [World.last, hn.last _ he]
      rfl
    rw [← hp.last, ← hl, ← runLast_probe hg, hlast.2.1, runLast_probe hg', hl', hfresh]
    rfl
  metadata := by
    have hmeta := h [.getMeta []]
    have hid : text "st_" ++ (Request.encoded ⟨b, d, s, []⟩).stream = encodeColName (text "st_" ++ s) :=
      (encode_metadataId s).symm
    simp only [answers_cons, step, processRequest_served hu hu.accepted, getMeta, hid, List.cons.injEq,
      Reply.metadata.injEq] at hmeta
    rw [← hp.metadata, hmeta.1, World.metadata, hn.metadata]
    rfl
  read e he := by
    obtain ⟨groupId, ha, rfl⟩ := he
    have he : Served b d s (Request.encoded ⟨b, d, s, groupId⟩) := ⟨groupId, ha, rfl⟩
    have hlook : ∀ time, w.lastRead (Request.encoded ⟨b, d, s, groupId⟩).inprocessKey ≤ time ↔
        lastRead (Request.encoded ⟨b, d, s, groupId⟩).inprocessKey ≤ time := by
      intro time
      have hnext := h [.next groupId plainRequest (lookTicks period time)]
      simp only [answers_cons, step, processRequest_served hu ha, List.cons.injEq, reply_getNextRecord,
        Reply.message.injEq, hp.group he, group_of_never hn he] at hnext
      rw [← run_look period, hnext.1, run_look]
    exact le_antisymm ((hlook _).mpr le_rfl) ((hlook _).mp le_rfl)

theorem indistinguishable_iff_clean (hu : Usable b d s) (hp : Purged b d s w v) (hn : Never b d s db) :
    Indistinguishable (step f host mt period b d s) v ⟨db, lastRead⟩ ↔ Clean b d s lastRead w :=
  ⟨clean_of_indistinguishable hu hp hn, fun hc => indistinguishable_of_alike (alike_of_clean hp hn hc)⟩

/-- After a history of operations and a successful deletion a stream is as good as new if
and only if no automatic id was given, no group has read a last message, there were no
metadata, and the broker remembers no other look into an in-process collection. -/
theorem deleted_stream_new_iff (f : CaseFold) (host : Nacks.Host) (mt : MetaText) (period : ℤ)
    (b d s : Text) (hu : Usable b d s) (db : Database.Store Document) (hn : Never b d s db) (lastRead : Text → ℤ)
    (history : List Op) (deletion : Op) (hd : Deletion deletion)
    (hok : Successful (step f host mt period b d s (run (step f host mt period b d s) ⟨db, lastRead⟩ history).1
      deletion).2) :
    Indistinguishable (step f host mt period b d s)
        (step f host mt period b d s (run (step f host mt period b d s) ⟨db, lastRead⟩ history).1 deletion).1
        ⟨db, lastRead⟩ ↔
      Clean b d s lastRead (run (step f host mt period b d s) ⟨db, lastRead⟩ history).1 :=
  indistinguishable_iff_clean hu (purged_of_successful hd hok) hn

def emptyWorld : World := ⟨⟨[]⟩, fun _ => 0⟩

def sampleStep : World → Op → World × Reply :=
  step CaseFold.simple Nacks.largeHost ⟨.ok, fun _ content => .ok content⟩ 10 (text "beamtime") (text "source")
    (text "stream")

def afterHistory (history : List Op) : World := (run sampleStep emptyWorld history).1

def afterDeletion (history : List Op) : World := (sampleStep (afterHistory history) .clientDeleteStream).1

theorem usable_sample : Usable (text "beamtime") (text "source") (text "stream") :=
  ⟨rfl, ⟨by decide, by decide, by decide⟩, rfl⟩

theorem never_sample : Never (text "beamtime") (text "source") (text "stream") emptyWorld.db :=
  ⟨rfl, fun _ _ => rfl, fun _ _ => rfl, fun _ _ => rfl, fun _ _ => rfl, rfl, rfl⟩

theorem successful_sample {history : List Op}
    (h : ((afterHistory history).db.find (encodeColName (collectionName (text "stream")))).isSome = true) :
    Successful (sampleStep (afterHistory history) .clientDeleteStream).2 := by
  have hanswer := (client_deleteStream_some (f := CaseFold.simple) (b := []) (d := []) h).1
  change Successful (clientDeleteStream CaseFold.simple (text "stream") (afterHistory history)).2
  rw [hanswer]
  trivial

def acknowledgedHistory : List Op := [.insert 1 probe, .ack (text "group") 1 (false, false)]

theorem clean_acknowledged :
    Clean (text "beamtime") (text "source") (text "stream") emptyWorld.lastRead
      (afterHistory acknowledgedHistory) := by
  refine ⟨rfl, fun _ _ => rfl, rfl, fun e _ => ?_⟩
  have hread : (afterHistory acknowledgedHistory).lastRead = Function.update emptyWorld.lastRead
    (Request.encoded ⟨text "beamtime", text "source", text "stream", text "group"⟩).inprocessKey 0 := rfl
  rw [hread]
  exact congrFun (Function.update_eq_self _ emptyWorld.lastRead) _

theorem deleted_stream_new_acknowledged :
    Indistinguishable sampleStep (afterDeletion acknowledgedHistory) emptyWorld :=
  (deleted_stream_new_iff _ _ _ _ _ _ _ usable_sample _ never_sample _ acknowledgedHistory .clientDeleteStream .client
    (successful_sample rfl)).mpr clean_acknowledged

theorem last_of_groupedLast {g : Group} (hg : g.data = [(1, probe)]) :
    (runLast plainRequest (fun _ => false) 4 .maxIndex ⟨g, none⟩).1.last = some 1 := by
  have hmax : GroupedLast.getMaxIndex plainRequest g = .ok 1 := by
    rw [GroupedLast.getMaxIndex, hg, List.mergeSort_singleton]
    rfl
  simp [runLast, GroupedLast.Pc.step, hmax, GroupedLast.setLast]

def groupedLastHistory : List Op :=
  [.insert 1 probe, .groupedLast (text "group") plainRequest (fun _ => false)]

def metadataHistory : List Op := [.insert 1 probe, .insertMeta ⟨.insert, false⟩ (text "\x7b\x7d")]

def nextHistory : List Op :=
  [.insert 1 probe, .next (text "group") plainRequest (List.replicate 6 ⟨20000000000, none, false⟩)]

theorem not_clean_next :
    ¬ Clean (text "beamtime") (text "source") (text "stream") emptyWorld.lastRead
      (afterHistory nextHistory) := by
  intro h
  have hread := h.read (Request.encoded ⟨text "beamtime", text "source", text "stream", text "group"⟩)
    ⟨text "group", ⟨by decide, by decide, by decide⟩, rfl⟩
  exact absurd hread (by decide +kernel)

theorem not_clean_groupedLast :
    ¬ Clean (text "beamtime") (text "source") (text "stream") emptyWorld.lastRead
      (afterHistory groupedLastHistory) := by
  intro h
  have hlast := h.last (Request.encoded ⟨text "beamtime", text "source", text "stream", text "group"⟩)
    ⟨text "group", ⟨by decide, by decide, by decide⟩, rfl⟩
  have hset : (afterHistory groupedLastHistory).last
      (Request.encoded ⟨text "beamtime", text "source", text "stream", text "group"⟩) = some 1 := by
    change (World.putNumber (text "last_messages") _
      (runLast plainRequest (fun _ => false) 4 .maxIndex ⟨_, none⟩).1.last _).last _ = _
    rw [last_of_groupedLast rfl, last_putNumber, if_pos rfl]
    rfl
  rw [hset] at hlast
  cases hlast

theorem not_new_of_not_clean {history : List Op}
    (hdata : ((afterHistory history).db.find (encodeColName (collectionName (text "stream")))).isSome = true)
    (h : ¬ Clean (text "beamtime") (text "source") (text "stream") emptyWorld.lastRead (afterHistory history)) :
    ¬ Indistinguishable sampleStep (afterDeletion history) emptyWorld := by
  have hp := purged_of_successful (Deletion.client) (successful_sample hdata)
  exact fun hi => h ((indistinguishable_iff_clean usable_sample hp never_sample).mp hi)

/-- The counter of the automatic ids, the last messages of the groups, the metadata and the
time of the last look into the in-process collection stay behind. -/
theorem deleted_stream_remembered :
    ¬ Indistinguishable sampleStep (afterDeletion [.insert 0 probe]) emptyWorld ∧
      ¬ Indistinguishable sampleStep (afterDeletion groupedLastHistory) emptyWorld ∧
      ¬ Indistinguishable sampleStep (afterDeletion metadataHistory) emptyWorld ∧
      ¬ Indistinguishable sampleStep (afterDeletion nextHistory) emptyWorld := by
  have hdata : (afterHistory groupedLastHistory).db.find (encodeColName (collectionName (text "stream"))) =
      (afterHistory [.insert 1 probe]).db.find (encodeColName (collectionName (text "stream"))) :=
    only_putNumber.find _ (by decide)
  refine ⟨not_new_of_not_clean rfl ?_, not_new_of_not_clean (by rw [hdata]; rfl) not_clean_groupedLast,
    not_new_of_not_clean rfl ?_, not_new_of_not_clean rfl not_clean_next⟩
  · intro h
    cases h.counter
  · intro h
    cases h.metadata

end Asapo.StreamReuse
