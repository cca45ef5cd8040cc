import Asapo.Database.DeleteStream

namespace Asapo.StreamDeletion

open Broker Database Regex

variable {D : Type}

/-- What belongs to a stream and a group, and the metadata of the beamtime, is as before. -/
structure Untouched (e : Request) (db db' : Store D) : Prop where
  data : db'.find e.dataCollection = db.find e.dataCollection
  acks : db'.find e.acksCollection = db.find e.acksCollection
  inprocess : db'.find e.inprocessCollection = db.find e.inprocessCollection
  location : db'.documents (text "current_location") (.string e.pointerId) =
    db.documents (text "current_location") (.string e.pointerId)
  metadata : db'.documents (text "meta") (.string (text "st_" ++ e.stream)) =
    db.documents (text "meta") (.string (text "st_" ++ e.stream))
  beamtime : db'.documents (text "meta") (.string (text "bt")) =
    db.documents (text "meta") (.string (text "bt"))

def names (t g : Text) : Request := Request.encoded ⟨[], [], t, g⟩

/-- Up to case, the name of the deleted stream is not at the beginning of the names of the
collections, and not at the end of the name of the pointer. -/
structure Apart (f : CaseFold) (s : Text) (e : Request) : Prop where
  collections : ¬ s.map f.fold <+: (Request.join e.stream e.groupId).map f.fold
  location : ¬ ∃ u, Line e.pointerId u ∧ ('_' :: s).map f.fold <:+ u.map f.fold

structure MetaApart (f : CaseFold) (s : Text) (e : Request) : Prop where
  metadata : ¬ ∃ u, Line (text "st_" ++ e.stream) u ∧ s.map f.fold = u.map f.fold
  beamtime : ¬ ∃ u, Line (text "bt") u ∧ s.map f.fold = u.map f.fold

theorem Untouched.refl (e : Request) (db : Store D) : Untouched e db db := ⟨rfl, rfl, rfl, rfl, rfl, rfl⟩

theorem Untouched.trans {e : Request} {a b c : Store D} (h : Untouched e a b) (h' : Untouched e b c) :
    Untouched e a c where
  data := h'.data.trans h.data
  acks := h'.acks.trans h.acks
  inprocess := h'.inprocess.trans h.inprocess
  location := h'.location.trans h.location
  metadata := h'.metadata.trans h.metadata
  beamtime := h'.beamtime.trans h.beamtime

section Patterns

variable {f : CaseFold} {s name : Text}

theorem matches_beginning : f.matchesPattern ('^' :: escapeQuery s) name = true ↔
    s.map f.fold <+: name.map f.fold := by
  have hparse : parse ('^' :: escapeQuery s) = some (.start :: literals s) := by
    have h := parse_escapeQuery s []
    rw [List.append_nil] at h
    simp [parse, h]
  rw [CaseFold.matchesPattern, hparse]
  exact search_prefix

theorem matches_whole : f.matchesPattern ('^' :: (escapeQuery s ++ ['$'])) name = true ↔
    ∃ u, Line name u ∧ s.map f.fold = u.map f.fold := by
  have hparse : parse ('^' :: (escapeQuery s ++ ['$'])) = some (.start :: (literals s ++ [.finish])) := by
    simp [parse, parse_escapeQuery]
  rw [CaseFold.matchesPattern, hparse]
  exact search_whole

theorem matches_end : f.matchesPattern (text ".*_" ++ escapeQuery s ++ ['$']) name = true ↔
    ∃ u, Line name u ∧ ('_' :: s).map f.fold <:+ u.map f.fold := by
  have hparse : parse (text ".*_" ++ escapeQuery s ++ ['$']) =
      some (.many .any :: (literals ('_' :: s) ++ [.finish])) := by
    change parse ('.' :: '*' :: '_' :: (escapeQuery s ++ ['$'])) = _
    rw [parse, parse_plain (by decide), parse_escapeQuery]
    simp [parse, literals]
  rw [CaseFold.matchesPattern, hparse]
  exact search_suffix

theorem not_prefix_of_head {c d : Char} {p q : Text} (hc : c.toNat < 128) (hd : d.toNat < 128)
    (h : c.toLower ≠ d.toLower) : ¬ (c :: p).map f.fold <+: (d :: q).map f.fold := by
  rw [List.map_cons, List.map_cons, List.cons_prefix_cons, f.ascii c hc, f.ascii d hd]
  exact fun hp => h hp.1

end Patterns

/-- A collection with this name is none that matters. -/
structure Foreign (e : Request) (name : Text) : Prop where
  data : e.dataCollection ≠ name
  acks : e.acksCollection ≠ name
  inprocess : e.inprocessCollection ≠ name
  location : text "current_location" ≠ name
  metadata : text "meta" ≠ name

variable {f : CaseFold} {fails : Operation → Bool} {e : Request} {s : Text} {db : Store D}

theorem untouched_drop {name : Text} (h : Foreign e name) : Untouched e db (db.drop name) where
  data := Store.find_drop h.data
  acks := Store.find_drop h.acks
  inprocess := Store.find_drop h.inprocess
  location := Store.documents_drop h.location
  metadata := Store.documents_drop h.metadata
  beamtime := Store.documents_drop h.metadata

theorem foreign_of_beginning {start name : Text} (hn : start.map f.fold <+: name.map f.fold)
    (hd : ¬ start.map f.fold <+: e.dataCollection.map f.fold)
    (ha : ¬ start.map f.fold <+: e.acksCollection.map f.fold)
    (hi : ¬ start.map f.fold <+: e.inprocessCollection.map f.fold)
    (hl : ¬ start.map f.fold <+: (text "current_location").map f.fold)
    (hm : ¬ start.map f.fold <+: (text "meta").map f.fold) : Foreign e name where
  data h := hd (h ▸ hn)
  acks h := ha (h ▸ hn)
  inprocess h := hi (h ▸ hn)
  location h := hl (h ▸ hn)
  metadata h := hm (h ▸ hn)

theorem foreign_acks (h : Apart f s e) {name : Text}
    (hn : f.matchesPattern ('^' :: escapeQuery (text "acks_" ++ s)) name = true) : Foreign e name := by
  apply foreign_of_beginning (matches_beginning.mp hn)
  · exact not_prefix_of_head (by decide) (by decide) (by decide)
  · rw [Request.acksCollection, List.map_append, List.map_append, List.prefix_append_right_inj]
    exact h.collections
  all_goals exact not_prefix_of_head (by decide) (by decide) (by decide)

theorem foreign_inprocess (h : Apart f s e) {name : Text}
    (hn : f.matchesPattern ('^' :: escapeQuery (text "inprocess_" ++ s)) name = true) :
    Foreign e name := by
  apply foreign_of_beginning (matches_beginning.mp hn)
  · exact not_prefix_of_head (by decide) (by decide) (by decide)
  · exact not_prefix_of_head (by decide) (by decide) (by decide)
  · rw [Request.inprocessCollection, List.map_append, List.map_append, List.prefix_append_right_inj]
    exact h.collections
  all_goals exact not_prefix_of_head (by decide) (by decide) (by decide)

theorem foreign_data (h : s ≠ e.stream) : Foreign e (text "data_" ++ s) where
  data he := h (List.append_cancel_left he).symm
  acks := nofun
  inprocess := nofun
  location := nofun
  metadata := nofun

theorem untouched_deleteMany_location (h : Apart f s e) : Untouched e db
    (db.deleteMany f (text "current_location") (text ".*_" ++ escapeQuery s ++ ['$'])) where
  data := Store.find_deleteMany_other nofun
  acks := Store.find_deleteMany_other nofun
  inprocess := Store.find_deleteMany_other nofun
  location := Store.documents_deleteMany (Bool.eq_false_iff.mpr (fun hk => h.location (matches_end.mp hk)))
  metadata := Store.documents_deleteMany_other (by decide)
  beamtime := Store.documents_deleteMany_other (by decide)

theorem untouched_deleteMany_meta (h : MetaApart f s e) : Untouched e db
    (db.deleteMany f (text "meta") ('^' :: (escapeQuery s ++ ['$']))) where
  data := Store.find_deleteMany_other nofun
  acks := Store.find_deleteMany_other nofun
  inprocess := Store.find_deleteMany_other nofun
  location := Store.documents_deleteMany_other (by decide)
  metadata := Store.documents_deleteMany (Bool.eq_false_iff.mpr (fun hk => h.metadata (matches_whole.mp hk)))
  beamtime := Store.documents_deleteMany (Bool.eq_false_iff.mpr (fun hk => h.beamtime (matches_whole.mp hk)))

theorem untouched_deleteCollections {cols : List Text} (h : ∀ name ∈ cols, Foreign e name) :
    Untouched e db (Broker.deleteCollections fails cols db).2 := by
  induction cols generalizing db with
  | nil => exact .refl e db
  | cons name cols ih =>
    have hname := h name (by simp)
    rw [Broker.deleteCollections, Broker.deleteCollection]
    split
    · rename_i hc
      split at hc <;> cases hc
      exact .refl e db
    · rename_i hc
      split at hc <;> cases hc
      exact (untouched_drop hname).trans (ih (fun n hn => h n (by simp [hn])))

theorem untouched_withPrefix {start : Text}
    (h : ∀ name, f.matchesPattern ('^' :: escapeQuery start) name = true → Foreign e name) :
    Untouched e db (Broker.deleteCollectionsWithPrefix f fails start db).2 := by
  unfold Broker.deleteCollectionsWithPrefix
  extract_lets pattern
  split
  · exact .refl e db
  · exact untouched_deleteCollections (fun name hn => h name (List.mem_filter.mp hn).2)

theorem untouched_serviceMeta {r : Request} (h : Apart f r.stream e) :
    Untouched e db (Broker.deleteServiceMeta f fails r db).2 := by
  have hacks : Untouched e db
      (Broker.deleteCollectionsWithPrefix f fails (text "acks_" ++ r.stream) db).2 :=
    untouched_withPrefix (fun _ hn => foreign_acks h hn)
  unfold Broker.deleteServiceMeta
  split
  · rename_i hd
    rwa [hd] at hacks
  · rename_i db₁ hd
    rw [hd] at hacks
    have hin : Untouched e db₁
        (Broker.deleteCollectionsWithPrefix f fails (text "inprocess_" ++ r.stream) db₁).2 :=
      untouched_withPrefix (fun _ hn => foreign_inprocess h hn)
    split
    · rename_i hd'
      rw [hd'] at hin
      exact hacks.trans hin
    · rename_i db₂ hd'
      rw [hd'] at hin
      refine (hacks.trans hin).trans ?_
      unfold Broker.deleteDocumentsInCollection
      split
      · exact .refl e db₂
      · exact untouched_deleteMany_location h

theorem untouched_dataCollection {r : Request} {errorOnNotExist : Bool} (h : r.stream ≠ e.stream) :
    Untouched e db (Broker.deleteDataCollection fails errorOnNotExist r db).2 := by
  have hdrop : Untouched e db (Broker.deleteCollection fails r.dataCollection db).2 := by
    unfold Broker.deleteCollection
    split
    · exact .refl e db
    · exact untouched_drop (foreign_data h)
  unfold Broker.deleteDataCollection
  split
  · split
    · exact .refl e db
    · exact .refl e db
    · exact hdrop
  · exact hdrop

theorem untouched_broker {params : Option Broker.DeleteParams} {r : Request} (hs : r.stream ≠ e.stream)
    (h : Apart f r.stream e) : Untouched e db (Broker.deleteStream f fails params r db).2 := by
  unfold Broker.deleteStream
  split
  · exact .refl e db
  · rename_i _ errorOnNotExist deleteMeta
    split
    · have hdata : Untouched e db (Broker.deleteDataCollection fails errorOnNotExist r db).2 :=
        untouched_dataCollection hs
      split
      · rename_i hd
        exact hd ▸ hdata
      · rename_i db₁ hd
        rw [hd] at hdata
        exact hdata.trans (untouched_serviceMeta h)
    · exact .refl e db
  · exact .refl e db

theorem untouched_receiver_deleteCollection {name : Text} (h : Foreign e name) :
    Untouched e db (MongoDBClient.deleteCollection fails name db).2 := by
  unfold MongoDBClient.deleteCollection
  split
  · exact .refl e db
  · split
    · exact untouched_drop h
    · exact .refl e db

theorem untouched_receiver_deleteCollections {start : Text}
    (h : ∀ name, f.matchesPattern ('^' :: escapeQuery start) name = true → Foreign e name) :
    Untouched e db (MongoDBClient.deleteCollections f fails start db).2 := by
  have hloop : ∀ (cols : List Text) (db : Store D), (∀ name ∈ cols, Foreign e name) →
      Untouched e db (cols.foldl (fun db name => (MongoDBClient.deleteCollection fails name db).2) db) := by
    intro cols
    induction cols with
    | nil => exact fun db _ => .refl e db
    | cons name cols ih =>
      intro db hc
      exact (untouched_receiver_deleteCollection (hc name (by simp))).trans
        (ih _ (fun n hn => hc n (by simp [hn])))
  unfold MongoDBClient.deleteCollections
  extract_lets pattern
  split
  · exact .refl e db
  · exact hloop _ db (fun name hn => h name (List.mem_filter.mp hn).2)

theorem untouched_receiver_documents {collection pattern : Text}
    (h : ∀ db : Store D, Untouched e db (db.deleteMany f collection pattern)) :
    Untouched e db (MongoDBClient.deleteDocumentsInCollection f fails collection pattern db).2 := by
  unfold MongoDBClient.deleteDocumentsInCollection
  split
  · exact .refl e db
  · exact h db

theorem untouched_receiver (hs : encodeColName s ≠ e.stream) (h : Apart f (encodeColName s) e)
    (hm : MetaApart f (encodeColName s) e) : Untouched e db (MongoDBClient.deleteStream f fails s db).2 := by
  have hdata : Untouched e db
      (MongoDBClient.deleteCollection fails (text "data_" ++ encodeColName s) db).2 :=
    untouched_receiver_deleteCollection (foreign_data hs)
  unfold MongoDBClient.deleteStream
  extract_lets streamEncoded
  generalize MongoDBClient.deleteCollection fails (text "data_" ++ streamEncoded) db = x at hdata ⊢
  obtain ⟨err, db₁⟩ := x
  refine Untouched.trans ?_ (untouched_receiver_documents (fun _ => untouched_deleteMany_meta hm))
  split
  · refine Untouched.trans ?_ (untouched_receiver_documents (fun _ => untouched_deleteMany_location h))
    refine Untouched.trans ?_ (untouched_receiver_deleteCollections (fun _ hn => foreign_acks h hn))
    exact hdata.trans (untouched_receiver_deleteCollections (fun _ hn => foreign_inprocess h hn))
  · exact hdata

section WithoutFaults

def noFault : Operation → Bool := fun _ => false

def dropMatching (f : CaseFold) (pattern : Text) (db : Store D) : Store D :=
  (db.names f pattern).foldl (fun db name => db.drop name) db

theorem find_foldl_drop {name : Text} (cols : List Text)
    (h : name ∈ cols ∨ db.find name = none) :
    (cols.foldl (fun db name => db.drop name) db).find name = none := by
  induction cols generalizing db with
  | nil => simpa using h
  | cons n cols ih =>
    apply ih
    by_cases hn : name = n
    · exact .inr (hn ▸ Store.find_drop_self)
    · rw [Store.find_drop hn]
      simpa [hn] using h

theorem find_dropMatching {pattern name : Text} (h : f.matchesPattern pattern name = true) :
    (dropMatching f pattern db).find name = none := by
  apply find_foldl_drop
  by_cases hf : db.find name = none
  · exact .inr hf
  · left
    obtain ⟨c, hc⟩ := Option.ne_none_iff_exists'.mp hf
    obtain ⟨x, hx, -⟩ := Option.map_eq_some_iff.mp hc
    have hname : x.1 = name := by simpa using List.find?_some hx
    exact List.mem_filter.mpr ⟨List.mem_map.mpr ⟨x, List.mem_of_find?_eq_some hx, hname⟩, h⟩

theorem find_dropMatching_other {pattern name : Text} (h : f.matchesPattern pattern name = false) :
    (dropMatching f pattern db).find name = db.find name := by
  have hdrop : ∀ (cols : List Text) (db : Store D), name ∉ cols →
      (cols.foldl (fun db name => db.drop name) db).find name = db.find name := by
    intro cols
    induction cols with
    | nil => exact fun _ _ => rfl
    | cons n cols ih =>
      intro db hn
      have hne : name ≠ n := by
        rintro rfl
        exact hn List.mem_cons_self
      rw [List.foldl_cons, ih _ (fun hm => hn (List.mem_cons_of_mem n hm)), Store.find_drop hne]
  apply hdrop
  intro hm
  rw [(List.mem_filter.mp hm).2] at h
  cases h

theorem find_dropMatching_none {pattern name : Text} (h : db.find name = none) :
    (dropMatching f pattern db).find name = none := find_foldl_drop _ (.inr h)

theorem withPrefix_noFault (start : Text) :
    Broker.deleteCollectionsWithPrefix f noFault start db =
      (none, dropMatching f ('^' :: escapeQuery start) db) := by
  have hloop : ∀ (cols : List Text) (db : Store D), Broker.deleteCollections noFault cols db =
      (none, cols.foldl (fun db name => db.drop name) db) := by
    intro cols
    induction cols with
    | nil => exact fun _ => rfl
    | cons name cols ih => exact fun db => ih _
  exact hloop _ db

theorem broker_deleteStream_eq (extraParam : String) (errorOnNotExist : Bool) (r : Request) :
    Broker.deleteStream f noFault (some ⟨extraParam, some errorOnNotExist, some true⟩) r db =
      if errorOnNotExist = true ∧ db.find r.dataCollection = none then
        (some (.wrongInput ("stream " ++ String.ofList r.stream ++ " does not exist")), db)
      else
        (none, (dropMatching f ('^' :: escapeQuery (text "inprocess_" ++ r.stream))
          (dropMatching f ('^' :: escapeQuery (text "acks_" ++ r.stream)) (db.drop r.dataCollection))).deleteMany
            f (text "current_location") (text ".*_" ++ escapeQuery r.stream ++ ['$'])) := by
  by_cases hex : errorOnNotExist = true ∧ db.find r.dataCollection = none
  · have hdata : Broker.deleteDataCollection noFault errorOnNotExist r db =
        (some (.wrongInput ("stream " ++ String.ofList r.stream ++ " does not exist")), db) := by
      simp [Broker.deleteDataCollection, collectionExist, noFault, hex]
    rw [if_pos hex]
    simp only [Broker.deleteStream, if_true, hdata]
  · have hdata : Broker.deleteDataCollection noFault errorOnNotExist r db = (none, db.drop r.dataCollection) := by
      cases errorOnNotExist with
      | false => rfl
      | true =>
        cases hf : db.find r.dataCollection with
        | none => exact absurd ⟨rfl, hf⟩ hex
        | some documents =>
          simp [Broker.deleteDataCollection, collectionExist, Broker.deleteCollection, noFault, hf]
    rw [if_neg hex]
    simp only [Broker.deleteStream, if_true, hdata, Broker.deleteServiceMeta, withPrefix_noFault]
    rfl

theorem broker_noFault (r : Request) :
    (Broker.deleteStream f noFault (some ⟨"", some false, some true⟩) r db).2 =
      (dropMatching f ('^' :: escapeQuery (text "inprocess_" ++ r.stream))
        (dropMatching f ('^' :: escapeQuery (text "acks_" ++ r.stream)) (db.drop r.dataCollection))).deleteMany
          f (text "current_location") (text ".*_" ++ escapeQuery r.stream ++ ['$']) := by
  rw [broker_deleteStream_eq, if_neg (by simp)]

theorem receiver_deleteCollection_noFault (name : Text) :
    (MongoDBClient.deleteCollection noFault name db).2 = db.drop name := by
  unfold MongoDBClient.deleteCollection
  split
  · rename_i hf
    cases hf
  · split
    · rfl
    · rename_i hn
      exact (Store.drop_of_none (by simpa using hn)).symm

theorem receiver_deleteCollections_noFault (start : Text) :
    (MongoDBClient.deleteCollections f noFault start db).2 =
      dropMatching f ('^' :: escapeQuery start) db := by
  have hloop : (fun (db : Store D) name => (MongoDBClient.deleteCollection noFault name db).2) =
      fun db name => db.drop name := by
    funext db name
    exact receiver_deleteCollection_noFault name
  unfold MongoDBClient.deleteCollections
  rw [hloop]
  rfl

theorem receiver_noFault (h : (db.find (text "data_" ++ encodeColName s)).isSome = true) :
    (MongoDBClient.deleteStream f noFault s db).2 =
      ((dropMatching f ('^' :: escapeQuery (text "acks_" ++ encodeColName s))
        (dropMatching f ('^' :: escapeQuery (text "inprocess_" ++ encodeColName s))
          (db.drop (text "data_" ++ encodeColName s)))).deleteMany f (text "current_location")
            (text ".*_" ++ escapeQuery (encodeColName s) ++ ['$'])).deleteMany f (text "meta")
              ('^' :: (escapeQuery (encodeColName s) ++ ['$'])) := by
  have hdata : MongoDBClient.deleteCollection noFault (text "data_" ++ encodeColName s) db =
      (none, db.drop (text "data_" ++ encodeColName s)) := by
    simp [MongoDBClient.deleteCollection, noFault, h]
  simp only [MongoDBClient.deleteStream, hdata, Option.isNone_none, if_true,
    receiver_deleteCollections_noFault]
  rfl

end WithoutFaults

section Touched

def withCollection (s name : Text) : Store D := ⟨[(text "data_" ++ s, []), (name, [])]⟩

theorem find_withCollection {name : Text} (h : text "data_" ++ s ≠ name) :
    (withCollection s name : Store D).find name = some [] := by
  simp [Store.find, withCollection, h]

theorem acks_matches (h : s.map f.fold <+: (Request.join e.stream e.groupId).map f.fold) :
    f.matchesPattern ('^' :: escapeQuery (text "acks_" ++ s)) e.acksCollection = true := by
  rw [matches_beginning, Request.acksCollection, List.map_append, List.map_append,
    List.prefix_append_right_inj]
  exact h

variable [Inhabited D]

def withDocument (s collection id : Text) : Store D :=
  ⟨[(text "data_" ++ s, []), (collection, [(.string id, default)])]⟩

theorem documents_withDocument {collection id : Text}
    (h : collection = text "current_location" ∨ collection = text "meta") :
    (withDocument s collection id : Store D).documents collection (.string id) ≠ [] := by
  have hne : text "data_" ++ s ≠ collection := by
    obtain rfl | rfl := h <;> exact nofun
  simp [Store.documents, Store.find, withDocument, hne]

theorem apart_of_broker {r : Request}
    (h : ∀ db : Store D, Untouched e db
      (Broker.deleteStream f noFault (some ⟨"", some false, some true⟩) r db).2) : Apart f r.stream e where
  collections hc := by
    have ht := (h (withCollection r.stream e.acksCollection)).acks
    have hother : e.acksCollection ≠ text "current_location" := nofun
    have hdata : text "data_" ++ r.stream ≠ e.acksCollection := nofun
    rw [broker_noFault, Store.find_deleteMany_other hother,
      find_dropMatching_none (find_dropMatching (acks_matches hc)), find_withCollection hdata] at ht
    cases ht
  location hl := by
    have ht := (h (withDocument r.stream (text "current_location") e.pointerId)).location
    have hk : Store.keyMatches f (text ".*_" ++ escapeQuery r.stream ++ ['$']) (.string e.pointerId) = true :=
      matches_end.mpr hl
    rw [broker_noFault, Store.documents_deleteMany_self hk] at ht
    exact documents_withDocument (.inl rfl) ht.symm

theorem apart_of_receiver
    (h : ∀ db : Store D, Untouched e db (MongoDBClient.deleteStream f noFault s db).2) :
    Apart f (encodeColName s) e ∧ MetaApart f (encodeColName s) e := by
  have hcol : ∀ name, ((withCollection (encodeColName s) name : Store D).find
      (text "data_" ++ encodeColName s)).isSome = true := by simp [Store.find, withCollection]
  have hdoc : ∀ collection id, ((withDocument (encodeColName s) collection id : Store D).find
      (text "data_" ++ encodeColName s)).isSome = true := by simp [Store.find, withDocument]
  have hmeta : ∀ id, (∃ u, Line id u ∧ (encodeColName s).map f.fold = u.map f.fold) →
      (MongoDBClient.deleteStream f noFault s (withDocument (encodeColName s) (text "meta") id : Store D)).2.documents
        (text "meta") (.string id) = [] := by
    intro id hm
    have hk : Store.keyMatches f ('^' :: (escapeQuery (encodeColName s) ++ ['$'])) (.string id) = true :=
      matches_whole.mpr hm
    rw [receiver_noFault (hdoc _ _), Store.documents_deleteMany_self hk]
  refine ⟨⟨fun hc => ?_, fun hl => ?_⟩, ⟨fun hm => ?_, fun hb => ?_⟩⟩
  · have ht := (h (withCollection (encodeColName s) e.acksCollection)).acks
    have hloc : e.acksCollection ≠ text "current_location" := by rintro ⟨⟩
    have hme : e.acksCollection ≠ text "meta" := by rintro ⟨⟩
    have hdata : text "data_" ++ encodeColName s ≠ e.acksCollection := by rintro ⟨⟩
    rw [receiver_noFault (hcol _), Store.find_deleteMany_other hme, Store.find_deleteMany_other hloc,
      find_dropMatching (acks_matches hc), find_withCollection hdata] at ht
    cases ht
  · have ht := (h (withDocument (encodeColName s) (text "current_location") e.pointerId)).location
    have hk : Store.keyMatches f (text ".*_" ++ escapeQuery (encodeColName s) ++ ['$'])
        (.string e.pointerId) = true := matches_end.mpr hl
    rw [receiver_noFault (hdoc _ _), Store.documents_deleteMany_other (by decide),
      Store.documents_deleteMany_self hk] at ht
    exact documents_withDocument (.inl rfl) ht.symm
  · have ht := (h (withDocument (encodeColName s) (text "meta") (text "st_" ++ e.stream))).metadata
    exact documents_withDocument (.inr rfl) (ht.symm.trans (hmeta _ hm))
  · have ht := (h (withDocument (encodeColName s) (text "meta") (text "bt"))).beamtime
    exact documents_withDocument (.inr rfl) (ht.symm.trans (hmeta _ hb))

end Touched

theorem encodeColName_ne {t : Text} (h : s ≠ t) : encodeColName s ≠ encodeColName t :=
  fun he => h (escape_injective false he)

theorem accepted_request (hs : s ≠ []) (hl : (encodeColName s).length ≤ Request.maxEncodedStreamSize) :
    ∃ r : Request, r.stream = s ∧ r.checkDatabaseOperationPrerequisites = none ∧
      r.encodeRequest = .ok r.encoded := by
  refine ⟨⟨text "b", text "d", s, []⟩, rfl, ?_, ?_⟩
  · simp [Request.checkDatabaseOperationPrerequisites, Request.dbName, Request.join, hs, text]
  · have hsource : (Request.join (encodeDbName (text "b")) (encodeDbName (text "d"))).length ≤
        Request.maxEncodedSourceSize := by decide
    exact Request.encodeRequest_ok_iff.mpr ⟨⟨hsource, hl, Nat.zero_le _⟩, rfl⟩

/-- The deletion of a stream leaves what belongs to another stream and a group alone,
whatever there is in the database and whatever fails, exactly if the names are apart. -/
theorem deletion_touches_iff [Inhabited D] (f : CaseFold) (s t g : Text) (hst : s ≠ t) :
    ((∀ fails params (r : Request) (db : Store D), r.stream = s →
        Untouched (names t g) db (Broker.processDeleteStream f fails params r db).2) ↔
      (s ≠ [] → (encodeColName s).length ≤ Request.maxEncodedStreamSize →
        Apart f (encodeColName s) (names t g))) ∧
    ((∀ fails (db : Store D), Untouched (names t g) db (MongoDBClient.deleteStream f fails s db).2) ↔
      Apart f (encodeColName s) (names t g) ∧ MetaApart f (encodeColName s) (names t g)) := by
  have hne : encodeColName s ≠ (names t g).stream := encodeColName_ne hst
  refine ⟨⟨fun h hs hl => ?_, ?_⟩, fun h => apart_of_receiver (h noFault),
    fun h fails db => untouched_receiver hne h.1 h.2⟩
  · obtain ⟨r, rfl, hpre, henc⟩ := accepted_request hs hl
    refine apart_of_broker (r := r.encoded) (fun db : Store D => ?_)
    have ht := h noFault (some ⟨"", some false, some true⟩) r db rfl
    simpa only [Broker.processDeleteStream, hpre, henc] using ht
  · rintro h fails params r db rfl
    unfold Broker.processDeleteStream
    split
    · exact .refl _ db
    · rename_i hpre
      split
      · exact .refl _ db
      · rename_i e henc
        have hnil : r.stream ≠ [] := fun hn => by
          simp [Request.checkDatabaseOperationPrerequisites, hn] at hpre
        obtain ⟨haccepted, rfl⟩ := Request.encodeRequest_ok_iff.mp henc
        exact untouched_broker hne (h hnil haccepted.stream)

theorem deletion_spares_other_stream :
    text "scan1" ≠ text "dark" ∧ ∀ fails params (r : Request) (db : Store Unit), r.stream = text "scan1" →
      Untouched (names (text "dark") (text "g")) db
        (Broker.processDeleteStream .simple fails params r db).2 := by
  refine ⟨by decide, (deletion_touches_iff .simple _ _ _ (by decide)).1.mpr (fun _ _ => ⟨by decide, ?_⟩)⟩
  rw [← matches_end]
  decide

theorem deletion_touches_other_stream :
    ¬ ∀ (D : Type) (f : CaseFold) (s t g : Text), s ≠ t →
      (∀ fails params (r : Request) (db : Store D), r.stream = s →
        Untouched (names t g) db (Broker.processDeleteStream f fails params r db).2) ∧
      (∀ fails (db : Store D), Untouched (names t g) db (MongoDBClient.deleteStream f fails s db).2) := by
  intro h
  have hall := (h Unit .simple (text "scan1") (text "scan10") (text "g") (by decide)).1
  have hacks := (hall noFault (some ⟨"", some false, some true⟩)
    ⟨text "b", text "d", text "scan1", []⟩ ⟨[(text "acks_scan10_g", [])]⟩ rfl).acks
  revert hacks
  decide +kernel

end Asapo.StreamDeletion
