import Asapo.StreamOperations
import Asapo.Transition

namespace Asapo.StreamReuse

open Broker Database Observation StreamOperations

def Served (beamtime dataSource stream : Text) (e : Request) : Prop :=
  ∃ groupId, Request.Accepted ⟨beamtime, dataSource, stream, groupId⟩ ∧
    e = Request.encoded ⟨beamtime, dataSource, stream, groupId⟩

/-- Nothing is stored for the stream. -/
structure Never (beamtime dataSource stream : Text) (db : Database.Store Document) : Prop where
  data : db.find (encodeColName (collectionName stream)) = none
  acks : ∀ e, Served beamtime dataSource stream e → db.find e.acksCollection = none
  inprocess : ∀ e, Served beamtime dataSource stream e → db.find e.inprocessCollection = none
  location : ∀ e, Served beamtime dataSource stream e →
    db.documents (text "current_location") (.string e.pointerId) = []
  last : ∀ e, Served beamtime dataSource stream e →
    db.documents (text "last_messages") (.string e.lastMessageId) = []
  counter : db.documents (text "auto_id_counters") (.string (collectionName stream)) = []
  metadata : db.documents (text "meta") (.string (encodeColName (text "st_" ++ stream))) = []

/-- No automatic id was given, no group has read a last message, there are no metadata, and
the broker has for every group the time of its last look into the in-process collection that
it had at first. -/
structure Clean (beamtime dataSource stream : Text) (lastRead : Text → ℤ) (w : World) : Prop where
  counter : (w.counter (collectionName stream)).getD 0 = 0
  last : ∀ e, Served beamtime dataSource stream e → (w.last e).getD 0 = 0
  metadata : w.metadata (encodeColName (text "st_" ++ stream)) = none
  read : ∀ e, Served beamtime dataSource stream e → w.lastRead e.inprocessKey = lastRead e.inprocessKey

/-- The stream is the same for its operations. Whether a last message or a counter is not
there or zero makes no difference. -/
structure Alike (beamtime dataSource stream : Text) (w w' : World) : Prop where
  data : w.db.find (encodeColName (collectionName stream)) = w'.db.find (encodeColName (collectionName stream))
  positive : ∀ x ∈ w.db.contents (encodeColName (collectionName stream)), x.1 ≠ .number 0
  groups : ∀ e, Served beamtime dataSource stream e → w.group e = w'.group e
  last : ∀ e, Served beamtime dataSource stream e → (w.last e).getD 0 = (w'.last e).getD 0
  counter : (w.counter (collectionName stream)).getD 0 = (w'.counter (collectionName stream)).getD 0
  metadata : w.metadata (encodeColName (text "st_" ++ stream)) = w'.metadata (encodeColName (text "st_" ++ stream))

theorem encode_collectionName (stream : Text) :
    encodeColName (collectionName stream) = text "data_" ++ encodeColName stream := by
  rw [encodeColName, collectionName, escape_append]
  rfl

theorem encode_metadataId (stream : Text) :
    encodeColName (text "st_" ++ stream) = text "st_" ++ encodeColName stream := by
  rw [encodeColName, escape_append]
  rfl

variable {beamtime dataSource stream : Text} {e e' : Request} {w w' : World} {g : Group} {n : Option ℕ}
  {collection id : Text}

theorem Served.stream_eq (h : Served beamtime dataSource stream e) : e.stream = encodeColName stream := by
  obtain ⟨groupId, -, rfl⟩ := h
  rfl

theorem Served.dataCollection (h : Served beamtime dataSource stream e) :
    e.dataCollection = encodeColName (collectionName stream) := by
  rw [Request.dataCollection, h.stream_eq, encode_collectionName]

section Views

/-! What an operation reads depends on a few collections. -/

theorem last_of_find (h : w'.db.find (text "last_messages") = w.db.find (text "last_messages")) :
    w'.last e = w.last e := by
  rw [World.last, World.last, Store.documents, Store.documents, h]

theorem counter_of_find (h : w'.db.find (text "auto_id_counters") = w.db.find (text "auto_id_counters")) :
    w'.counter id = w.counter id := by
  rw [World.counter, World.counter, Store.documents, Store.documents, h]

theorem metadata_of_find (h : w'.db.find (text "meta") = w.db.find (text "meta")) :
    w'.metadata id = w.metadata id := by
  rw [World.metadata, World.metadata, Store.documents, Store.documents, h]

structure Only (collection : Text) (w w' : World) : Prop where
  find : ∀ name, name ≠ collection → w'.db.find name = w.db.find name
  lastRead : w'.lastRead = w.lastRead

theorem only_putNumber : Only collection w (w.putNumber collection id n) := by
  cases n with
  | none => exact ⟨fun _ _ => rfl, rfl⟩
  | some n => exact ⟨fun _ hne => Store.find_put_other hne, rfl⟩

theorem only_write {documents : List (Key × Document)} :
    Only collection w { w with db := w.db.write collection documents } :=
  ⟨fun _ hne => Store.find_write_other hne, rfl⟩

theorem only_put {key : Key} {d : Document} : Only collection w { w with db := w.db.put collection key d } :=
  ⟨fun _ hne => Store.find_put_other hne, rfl⟩

structure NotOfGroup (e : Request) (collection : Text) : Prop where
  data : e.dataCollection ≠ collection
  acks : e.acksCollection ≠ collection
  inprocess : e.inprocessCollection ≠ collection
  location : text "current_location" ≠ collection

theorem notOfGroup_last : NotOfGroup e (text "last_messages") :=
  ⟨by rintro ⟨⟩, by rintro ⟨⟩, by rintro ⟨⟩, by decide⟩

theorem notOfGroup_counters : NotOfGroup e (text "auto_id_counters") :=
  ⟨by rintro ⟨⟩, by rintro ⟨⟩, by rintro ⟨⟩, by decide⟩

theorem notOfGroup_meta : NotOfGroup e (text "meta") :=
  ⟨by rintro ⟨⟩, by rintro ⟨⟩, by rintro ⟨⟩, by decide⟩

theorem Only.group (h : Only collection w w') (hc : NotOfGroup e collection) : w'.group e = w.group e := by
  unfold World.group Store.contents Store.documents
  rw [h.find _ hc.data, h.find _ hc.acks, h.find _ hc.inprocess, h.find _ hc.location, h.lastRead]

theorem last_putNumber : (w.putNumber (text "last_messages") e.lastMessageId n).last e' =
    if e'.lastMessageId = e.lastMessageId then n.or (w.last e') else w.last e' := by
  cases n with
  | none =>
    rw [World.putNumber]
    simp
  | some n =>
    rw [World.last, World.putNumber, Store.documents_put]
    by_cases hk : e'.lastMessageId = e.lastMessageId <;> simp [hk, asNumber, World.last]

theorem counter_putNumber (m : ℕ) :
    (w.putNumber (text "auto_id_counters") id (some m)).counter id = some m := by
  rw [World.counter, World.putNumber, Store.documents_put, if_pos ⟨rfl, rfl⟩]
  rfl

theorem metadata_put {content : Text} : World.metadata
    { w with db := w.db.put (text "meta") (.string id) (.metadata content) } id = some content := by
  rw [World.metadata, Store.documents_put, if_pos ⟨rfl, rfl⟩]
  rfl

theorem find_setGroup {name : Text} (hl : name ≠ text "current_location") (hi : name ≠ e.inprocessCollection)
    (ha : name ≠ e.acksCollection) : (w.setGroup e g).db.find name = w.db.find name := by
  simp only [World.setGroup]
  rw [Store.find_write_other ha, Store.find_write_other hi]
  exact only_putNumber.find name hl

theorem location_setGroup : ((w.setGroup e g).db.documents (text "current_location") (.string e'.pointerId)).head?.bind
    asNumber = if e'.pointerId = e.pointerId then g.pointer.or (w.group e').pointer else (w.group e').pointer := by
  have hput : (w.setGroup e g).db.documents (text "current_location") (.string e'.pointerId) =
      (w.putNumber (text "current_location") e.pointerId g.pointer).db.documents (text "current_location")
        (.string e'.pointerId) := by
    simp only [World.setGroup]
    rw [Store.documents_write_other (by rintro ⟨⟩), Store.documents_write_other (by rintro ⟨⟩)]
  rw [hput]
  cases g.pointer with
  | none =>
    rw [World.putNumber]
    simp [World.group]
  | some v =>
    rw [World.putNumber, Store.documents_put]
    by_cases hk : e'.pointerId = e.pointerId <;> simp [hk, asNumber, World.group]

theorem acks_setGroup : (w.setGroup e g).db.contents e'.acksCollection =
    if e'.acksCollection = e.acksCollection then g.acks.map (fun id : ℕ => (.number id, .ack))
    else w.db.contents e'.acksCollection := by
  simp only [World.setGroup]
  rw [Store.contents_write, Store.contents_write, if_neg (show e'.acksCollection ≠ e.inprocessCollection by rintro ⟨⟩),
    Store.contents, only_putNumber.find e'.acksCollection (by rintro ⟨⟩)]
  rfl

theorem inprocess_setGroup : (w.setGroup e g).db.contents e'.inprocessCollection =
    if e'.inprocessCollection = e.inprocessCollection then
      g.inprocess.map (fun r => (.number r.id, .inprocess r))
    else w.db.contents e'.inprocessCollection := by
  simp only [World.setGroup]
  rw [Store.contents_write, if_neg (show e'.inprocessCollection ≠ e.acksCollection by rintro ⟨⟩),
    Store.contents_write, Store.contents, only_putNumber.find e'.inprocessCollection (by rintro ⟨⟩)]
  rfl

theorem data_setGroup : (w.setGroup e g).db.find e'.dataCollection = w.db.find e'.dataCollection :=
  find_setGroup (by rintro ⟨⟩) (by rintro ⟨⟩) (by rintro ⟨⟩)

theorem group_setGroup_self (hs : e'.stream = e.stream) (hg : e'.groupId = e.groupId) :
    (w.setGroup e g).group e' =
      { g with data := (w.group e').data, pointer := g.pointer.or (w.group e').pointer } := by
  have hacks : e'.acksCollection = e.acksCollection := by rw [Request.acksCollection, hs, hg]; rfl
  have hin : e'.inprocessCollection = e.inprocessCollection := by
    rw [Request.inprocessCollection, hs, hg]; rfl
  have hid : e'.pointerId = e.pointerId := by rw [Request.pointerId, hs, hg]; rfl
  have hkey : e'.inprocessKey = e.inprocessKey := by rw [Request.inprocessKey, hs, hg]; rfl
  have hread : (w.setGroup e g).lastRead e.inprocessKey = g.lastRead := by
    simp only [World.setGroup, Function.update_self]
  rw [World.group, location_setGroup, if_pos hid, acks_setGroup, if_pos hacks, inprocess_setGroup, if_pos hin,
    Store.contents, data_setGroup, hkey, hread]
  have ha : (g.acks.map (fun id : ℕ => ((.number id, .ack) : Key × Document))).filterMap asAck = g.acks := by
    rw [List.filterMap_map]
    exact List.filterMap_some
  have hi : (g.inprocess.map (fun r => ((.number r.id, .inprocess r) : Key × Document))).filterMap asInprocess =
      g.inprocess := by
    rw [List.filterMap_map]
    exact List.filterMap_some
  rw [ha, hi]
  rfl

theorem group_setGroup_other (hs : e'.stream = e.stream) (hg : e'.groupId ≠ e.groupId) :
    (w.setGroup e g).group e' = w.group e' := by
  have hjoin : Request.join e'.stream e'.groupId ≠ Request.join e.stream e.groupId := by
    rw [hs]
    intro h
    exact hg (List.cons.inj (List.append_cancel_left h)).2
  have hacks : e'.acksCollection ≠ e.acksCollection := fun h => hjoin (List.append_cancel_left h)
  have hin : e'.inprocessCollection ≠ e.inprocessCollection := fun h => hjoin (List.append_cancel_left h)
  have hid : e'.pointerId ≠ e.pointerId := by
    rw [Request.pointerId, Request.pointerId, hs]
    exact fun h => hg (List.append_cancel_right h)
  have hread : (w.setGroup e g).lastRead e'.inprocessKey = w.lastRead e'.inprocessKey := by
    have hkey : e'.inprocessKey ≠ e.inprocessKey := hjoin
    simp only [World.setGroup]
    rw [Function.update_of_ne hkey, only_putNumber.lastRead]
  rw [World.group, location_setGroup, if_neg hid, acks_setGroup, if_neg hacks, inprocess_setGroup, if_neg hin,
    Store.contents, data_setGroup, hread]
  rfl

end Views

section Writes

variable {b d s : Text}

theorem Alike.contents (h : Alike b d s w w') : w.db.contents (encodeColName (collectionName s)) =
    w'.db.contents (encodeColName (collectionName s)) := by
  rw [Store.contents, Store.contents, h.data]

theorem alike_setGroup (h : Alike b d s w w') (he : Served b d s e) (g : Group) :
    Alike b d s (w.setGroup e g) (w'.setGroup e g) := by
  have hdata : ∀ w : World, (w.setGroup e g).db.find (encodeColName (collectionName s)) =
      w.db.find (encodeColName (collectionName s)) := by
    intro w
    rw [← he.dataCollection]
    exact data_setGroup
  have hfind : ∀ (w : World) {name : Text}, name ≠ text "current_location" → name ≠ e.inprocessCollection →
      name ≠ e.acksCollection → (w.setGroup e g).db.find name = w.db.find name := fun w _ hl hi ha =>
    find_setGroup hl hi ha
  refine ⟨by rw [hdata, hdata, h.data], ?_, ?_, ?_, ?_, ?_⟩
  · rw [Store.contents, hdata]
    exact h.positive
  · intro e' he'
    have hs : e'.stream = e.stream := he'.stream_eq.trans he.stream_eq.symm
    by_cases hg : e'.groupId = e.groupId
    · rw [group_setGroup_self hs hg, group_setGroup_self hs hg, h.groups e' he']
    · rw [group_setGroup_other hs hg, group_setGroup_other hs hg, h.groups e' he']
  · intro e' he'
    rw [last_of_find (hfind w (by decide) (by rintro ⟨⟩) (by rintro ⟨⟩)),
      last_of_find (hfind w' (by decide) (by rintro ⟨⟩) (by rintro ⟨⟩)), h.last e' he']
  · rw [counter_of_find (hfind w (by decide) (by rintro ⟨⟩) (by rintro ⟨⟩)),
      counter_of_find (hfind w' (by decide) (by rintro ⟨⟩) (by rintro ⟨⟩)), h.counter]
  · rw [metadata_of_find (hfind w (by decide) (by rintro ⟨⟩) (by rintro ⟨⟩)),
      metadata_of_find (hfind w' (by decide) (by rintro ⟨⟩) (by rintro ⟨⟩)), h.metadata]

theorem Alike.only {v v' : World} (h : Alike b d s w w') (hv : Only collection w v) (hv' : Only collection w' v')
    (hc : ∀ e, NotOfGroup e collection)
    (hlast : ∀ e, Served b d s e → (v.last e).getD 0 = (v'.last e).getD 0)
    (hcounter : (v.counter (collectionName s)).getD 0 = (v'.counter (collectionName s)).getD 0)
    (hmeta : v.metadata (encodeColName (text "st_" ++ s)) = v'.metadata (encodeColName (text "st_" ++ s))) :
    Alike b d s v v' := by
  have hdata : encodeColName (collectionName s) ≠ collection := by
    rw [encode_collectionName]
    exact (hc ⟨[], [], encodeColName s, []⟩).data
  refine ⟨by rw [hv.find _ hdata, hv'.find _ hdata, h.data], ?_, ?_, hlast, hcounter, hmeta⟩
  · rw [Store.contents, hv.find _ hdata]
    exact h.positive
  · intro e he
    rw [hv.group (hc e), hv'.group (hc e), h.groups e he]

theorem alike_putCounter (h : Alike b d s w w') (m : ℕ) :
    Alike b d s (w.putNumber (text "auto_id_counters") (collectionName s) (some m))
      (w'.putNumber (text "auto_id_counters") (collectionName s) (some m)) := by
  refine h.only only_putNumber only_putNumber (fun _ => notOfGroup_counters) ?_ ?_ ?_
  · intro e he
    rw [last_of_find (only_putNumber.find _ (by decide)), last_of_find (only_putNumber.find _ (by decide)),
      h.last e he]
  · rw [counter_putNumber, counter_putNumber]
  · rw [metadata_of_find (only_putNumber.find _ (by decide)), metadata_of_find (only_putNumber.find _ (by decide)),
      h.metadata]

theorem alike_putMetadata (h : Alike b d s w w') (content : Text) :
    Alike b d s
      { w with db := w.db.put (text "meta") (.string (encodeColName (text "st_" ++ s))) (.metadata content) }
      { w' with db := w'.db.put (text "meta") (.string (encodeColName (text "st_" ++ s))) (.metadata content) } := by
  refine h.only only_put only_put (fun _ => notOfGroup_meta) ?_ ?_ ?_
  · intro e he
    rw [last_of_find (only_put.find _ (by decide)), last_of_find (only_put.find _ (by decide)), h.last e he]
  · rw [counter_of_find (only_put.find _ (by decide)), counter_of_find (only_put.find _ (by decide)), h.counter]
  · rw [metadata_put, metadata_put]

theorem alike_putLast (h : Alike b d s w w') {m m' : Option ℕ} (hm : m.getD 0 = m'.getD 0)
    (hw : m = none → w.last e = none) (hw' : m' = none → w'.last e = none) :
    Alike b d s (w.putNumber (text "last_messages") e.lastMessageId m)
      (w'.putNumber (text "last_messages") e.lastMessageId m') := by
  refine h.only only_putNumber only_putNumber (fun _ => notOfGroup_last) ?_ ?_ ?_
  · intro e' he'
    rw [last_putNumber, last_putNumber]
    by_cases hk : e'.lastMessageId = e.lastMessageId
    · have hsame : ∀ {v : World} {k : Option ℕ}, (k = none → v.last e = none) →
          (k.or (v.last e')).getD 0 = k.getD 0 := by
        intro v k hv
        have hlast : v.last e' = v.last e := by rw [World.last, hk]; rfl
        cases k with
        | none => rw [hlast, hv rfl]; rfl
        | some k => rfl
      rw [if_pos hk, if_pos hk, hsame hw, hsame hw', hm]
    · rw [if_neg hk, if_neg hk, h.last e' he']
  · rw [counter_of_find (only_putNumber.find _ (by decide)), counter_of_find (only_putNumber.find _ (by decide)),
      h.counter]
  · rw [metadata_of_find (only_putNumber.find _ (by decide)), metadata_of_find (only_putNumber.find _ (by decide)),
      h.metadata]

theorem alike_writeData (h : Alike b d s w w') {documents : List (Key × Document)} (hne : documents ≠ [])
    (hp : ∀ x ∈ documents, x.1 ≠ .number 0) :
    Alike b d s { w with db := w.db.write (encodeColName (collectionName s)) documents }
      { w' with db := w'.db.write (encodeColName (collectionName s)) documents } := by
  have hname := encode_collectionName s
  have honly : ∀ w : World, Only (encodeColName (collectionName s)) w
      { w with db := w.db.write (encodeColName (collectionName s)) documents } := fun _ => only_write
  refine ⟨?_, ?_, ?_, ?_, ?_, ?_⟩
  · rw [Store.find_write_self hne, Store.find_write_self hne]
  · rw [Store.contents_write, if_pos rfl]
    exact hp
  · intro e he
    have hgroup : ∀ w : World, World.group
        { w with db := w.db.write (encodeColName (collectionName s)) documents } e =
          { w.group e with data := documents.filterMap asRecord } := by
      intro w
      unfold World.group
      rw [Store.contents_write, if_pos he.dataCollection, Store.contents, Store.contents, Store.documents,
        (honly w).find _ (by rw [hname]; rintro ⟨⟩), (honly w).find _ (by rw [hname]; rintro ⟨⟩),
        (honly w).find _ (by rw [hname]; rintro ⟨⟩)]
      rfl
    rw [hgroup, hgroup, h.groups e he]
  · intro e he
    rw [last_of_find ((honly w).find _ (by rw [hname]; rintro ⟨⟩)),
      last_of_find ((honly w').find _ (by rw [hname]; rintro ⟨⟩)), h.last e he]
  · rw [counter_of_find ((honly w).find _ (by rw [hname]; rintro ⟨⟩)),
      counter_of_find ((honly w').find _ (by rw [hname]; rintro ⟨⟩)), h.counter]
  · rw [metadata_of_find ((honly w).find _ (by rw [hname]; rintro ⟨⟩)),
      metadata_of_find ((honly w').find _ (by rw [hname]; rintro ⟨⟩)), h.metadata]

end Writes

end Asapo.StreamReuse
