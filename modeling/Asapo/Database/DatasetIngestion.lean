import Asapo.Database.MongoDBClient
import Asapo.Interleaving

namespace Asapo.Database.DatasetIngestion

open Interleaving Transition

/-- How the text of a message is read. The values of the server are compared as it compares
them, and `holds` is whether the field `dataset_substream` of a member is equal to a number. -/
structure Reader (M : Type) where
  fromJson : Text → Option M
  holds : M → ℕ → Bool

structure Call where
  number : ℕ
  file : MessageMeta
  datasetSize : ℕ
  deriving DecidableEq

/-- An element of the array `messages`, with the call that added it if that was one of the
calls that are looked at. -/
structure Member (M : Type) where
  value : M
  addedBy : Option ℕ
  deriving DecidableEq

structure Dataset (M : Type) where
  id : ℕ
  size : ℕ
  createdBy : Option ℕ
  members : List (Member M)
  deriving DecidableEq

structure Stream (M : Type) where
  datasets : List (Dataset M)
  started : ℕ
  returned : List (Call × Option Error)

inductive Client (M : Type) where
  | idle
  | update (c : Call) (document : M) (second : Bool)

/-- An update that fails without effect. -/
inductive UpdateFault where
  | duplicateKey
  | other (message : String)
  deriving DecidableEq

inductive Action where
  | insertAsDatasetMessage (file : MessageMeta) (datasetSize : ℕ)
  | update (fault : Option UpdateFault)

section Definitions

variable {M : Type} [DecidableEq M] (r : Reader M) (collection : Text)

/-- `$addToSet` leaves an array alone that has the value. -/
def Dataset.addToSet (number : ℕ) (document : M) (x : Dataset M) : Dataset M :=
  if x.members.any (fun m => m.value = document) then x
  else { x with members := x.members ++ [⟨document, some number⟩] }

/-- The update of `InsertAsDatasetMessage`. There is no result if the key is a duplicate: the
document does not match because it has the substream, and it cannot be inserted either. -/
def upsert (c : Call) (document : M) (datasets : List (Dataset M)) : Option (List (Dataset M)) :=
  match datasets.find? (fun x => x.id = c.file.id) with
  | none => some (datasets ++ [⟨c.file.id, c.datasetSize, some c.number, [⟨document, some c.number⟩]⟩])
  | some x =>
    if x.members.all (fun m => !r.holds m.value c.file.datasetSubstream) then
      some (datasets.map (fun y => if y.id = c.file.id then y.addToSet c.number document else y))
    else none

def prepare (file : MessageMeta) : Except Error M :=
  match MongoDBClient.updateCurrentCollectionIfNeeded collection with
  | some err => .error err
  | none =>
    match r.fromJson file.json with
    | none => .error (DBErrorTemplates.jsonParseError.generate "")
    | some document => .ok document

def Stream.return (s : Stream M) (c : Call) (err : Option Error) : Stream M :=
  { s with returned := (c, err) :: s.returned }

/-- `AddBsonDocumentToArray` behind an update that fails. -/
def behindFault (s : Stream M) (c : Call) (document : M) (second : Bool) :
    UpdateFault → Stream M × Client M
  | .duplicateKey =>
    if second then (s.return c (some (DBErrorTemplates.duplicateID.generate "")), .idle)
    else (s, .update c document true)
  | .other message => (s.return c (some (DBErrorTemplates.insertError.generate message)), .idle)

def act (s : Stream M) (k : Client M) : Action → Option (Stream M × Client M)
  | .insertAsDatasetMessage file datasetSize =>
    match k with
    | .idle =>
      let c : Call := ⟨s.started, file, datasetSize⟩
      let s := { s with started := s.started + 1 }
      match prepare r collection file with
      | .error err => some (s.return c (some err), .idle)
      | .ok document => some (s, .update c document false)
    | _ => none
  | .update fault =>
    match k with
    | .update c document second =>
      match fault with
      | some fault => some (behindFault s c document second fault)
      | none =>
        match upsert r c document s.datasets with
        | none => some (behindFault s c document second .duplicateKey)
        | some datasets => some ({ s with datasets }.return c none, .idle)
    | _ => none

def noWorld (_ : Stream M) (e : Empty) : Option (Stream M) := e.elim

def start (n : ℕ) (datasets : List (Dataset M)) : System (Stream M) (Client M) n :=
  ⟨⟨datasets, 0, []⟩, fun _ => .idle⟩

def Calls (K : MessageMeta → Prop) (_ : Stream M) (_ : Client M) : Action → Prop
  | .insertAsDatasetMessage file _ => K file
  | .update _ => True

/-- The call has added its message, which is still there as it was. -/
def Added (c : Call) (datasets : List (Dataset M)) : Prop :=
  ∃ document, prepare r collection c.file = .ok document ∧
    ∃ x ∈ datasets, x.id = c.file.id ∧ ⟨document, some c.number⟩ ∈ x.members

/-- No substream is held by two members. -/
def Once (x : Dataset M) : Prop :=
  x.members.Pairwise (fun a b => ∀ k, ¬ (r.holds a.value k = true ∧ r.holds b.value k = true))

/-- Every document is still there, with its size, and its members were not changed. -/
def Extends (old new : List (Dataset M)) : Prop :=
  ∀ x ∈ old, ∃ y ∈ new, y.id = x.id ∧ y.size = x.size ∧ y.createdBy = x.createdBy ∧ x.members <+: y.members

/-- Datasets hold each substream once, a call returns no error exactly if its message was
added by it, what was added stays, and the size is that of the call that made the document. -/
structure Sound (datasets : List (Dataset M)) (s : Stream M) : Prop where
  once : ∀ x ∈ s.datasets, Once r x
  exactly : ∀ c err, (c, err) ∈ s.returned → (err = none ↔ Added r collection c s.datasets)
  size : ∀ x ∈ s.datasets, ∀ number, x.createdBy = some number →
    ∃ c, c.number = number ∧ (c, none) ∈ s.returned ∧ x.size = c.datasetSize
  kept : Extends datasets s.datasets

structure Before (datasets : List (Dataset M)) : Prop where
  ids : datasets.Pairwise (fun x y => x.id ≠ y.id)
  once : ∀ x ∈ datasets, Once r x
  created : ∀ x ∈ datasets, x.createdBy = none
  added : ∀ x ∈ datasets, ∀ m ∈ x.members, m.addedBy = none

/-- What can be in a dataset with that id. -/
def Possible (K : MessageMeta → Prop) (datasets : List (Dataset M)) (id : ℕ) (value : M) : Prop :=
  (∃ x ∈ datasets, x.id = id ∧ ∃ m ∈ x.members, m.value = value) ∨
    ∃ file, K file ∧ file.id = id ∧ prepare r collection file = .ok value

/-- The document of a message holds the substream of the message, and no substream that can
be held by another member of the dataset, unless that member keeps the message out. -/
def Recognized (K : MessageMeta → Prop) (datasets : List (Dataset M)) : Prop :=
  ∀ file document, K file → prepare r collection file = .ok document →
    r.holds document file.datasetSubstream = true ∧
      ∀ value, Possible r collection K datasets file.id value →
        r.holds value file.datasetSubstream = false →
          ∀ k, ¬ (r.holds value k = true ∧ r.holds document k = true)

inductive Upserted (c : Call) (document : M) (datasets : List (Dataset M)) : List (Dataset M) → Prop
  | created (new : ∀ x ∈ datasets, x.id ≠ c.file.id) :
      Upserted c document datasets
        (datasets ++ [⟨c.file.id, c.datasetSize, some c.number, [⟨document, some c.number⟩]⟩])
  | added {x : Dataset M} (mem : x ∈ datasets) (id : x.id = c.file.id)
      (lacks : ∀ m ∈ x.members, r.holds m.value c.file.datasetSubstream = false) :
      Upserted c document datasets
        (datasets.map (fun y => if y.id = c.file.id then y.addToSet c.number document else y))

inductive Acts (s : Stream M) : Client M → Action → Stream M → Client M → Prop
  | refused {file : MessageMeta} {datasetSize : ℕ} {err : Error}
      (prepared : prepare r collection file = .error err) :
      Acts s .idle (.insertAsDatasetMessage file datasetSize)
        ({ s with started := s.started + 1 }.return ⟨s.started, file, datasetSize⟩ (some err)) .idle
  | begun {file : MessageMeta} {datasetSize : ℕ} {document : M}
      (prepared : prepare r collection file = .ok document) :
      Acts s .idle (.insertAsDatasetMessage file datasetSize) { s with started := s.started + 1 }
        (.update ⟨s.started, file, datasetSize⟩ document false)
  | again {c : Call} {document : M} {fault : Option UpdateFault} :
      Acts s (.update c document false) (.update fault) s (.update c document true)
  | failed {c : Call} {document : M} {second : Bool} {fault : Option UpdateFault} {err : Error} :
      Acts s (.update c document second) (.update fault) (s.return c (some err)) .idle
  | done {c : Call} {document : M} {second : Bool} {datasets : List (Dataset M)}
      (upserted : Upserted r c document s.datasets datasets) :
      Acts s (.update c document second) (.update none) ({ s with datasets }.return c none) .idle

end Definitions

variable {M : Type} {r : Reader M} {collection : Text} {s t : Stream M} {k m : Client M} {c : Call}
  {document : M} {datasets old new : List (Dataset M)}

theorem extends_refl (ds : List (Dataset M)) : Extends ds ds :=
  fun x hx => ⟨x, hx, rfl, rfl, rfl, List.prefix_refl _⟩

theorem Extends.trans {ds : List (Dataset M)} (h : Extends ds old) (h' : Extends old new) : Extends ds new := by
  intro x hx
  obtain ⟨y, hy, hid, hsize, hcreated, hmembers⟩ := h x hx
  obtain ⟨z, hz, hid', hsize', hcreated', hmembers'⟩ := h' y hy
  exact ⟨z, hz, hid'.trans hid, hsize'.trans hsize, hcreated'.trans hcreated, hmembers.trans hmembers'⟩

theorem eq_of_id {x y : Dataset M} (h : datasets.Pairwise (fun x y => x.id ≠ y.id)) (hx : x ∈ datasets)
    (hy : y ∈ datasets) (hid : x.id = y.id) : x = y := by
  have : Std.Symm (fun x y : Dataset M => x.id ≠ y.id) := ⟨fun _ _ => Ne.symm⟩
  by_contra hne
  exact h.forall hx hy hne hid

variable [DecidableEq M]

theorem upserted_of_upsert (h : upsert r c document old = some new) : Upserted r c document old new := by
  unfold upsert at h
  split at h
  · rename_i hfind
    cases h
    exact .created (fun x hx => by simpa using List.find?_eq_none.mp hfind x hx)
  · rename_i x hfind
    split at h <;> cases h
    rename_i hall
    refine .added (List.mem_of_find?_eq_some hfind) (by simpa using List.find?_some hfind) (fun m hm => ?_)
    simpa using List.all_eq_true.mp hall m hm

theorem acts_of_fault {second : Bool} {fault : UpdateFault} {a : Option UpdateFault}
    (h : behindFault s c document second fault = (t, m)) :
    Acts r collection s (.update c document second) (.update a) t m := by
  cases fault with
  | duplicateKey =>
    rw [behindFault] at h
    split at h <;> cases h
    · exact .failed
    · rename_i hsecond
      rw [Bool.eq_false_iff.mpr hsecond]
      exact .again
  | other message =>
    cases h
    exact .failed

theorem acts_of_act {a : Action} (h : act r collection s k a = some (t, m)) : Acts r collection s k a t m := by
  cases a with
  | insertAsDatasetMessage file datasetSize =>
    cases k with
    | idle =>
      rw [act] at h
      split at h <;> cases h
      · rename_i hp
        exact .refused hp
      · rename_i hp
        exact .begun hp
    | update c document second => cases h
  | update fault =>
    cases k with
    | idle => cases h
    | update c document second =>
      simp only [act] at h
      split at h
      · exact acts_of_fault (Option.some.inj h)
      · split at h
        · exact acts_of_fault (Option.some.inj h)
        · rename_i hup
          cases h
          exact .done (upserted_of_upsert hup)

theorem addToSet_frame (number : ℕ) (document : M) (x : Dataset M) :
    (x.addToSet number document).id = x.id ∧ (x.addToSet number document).size = x.size ∧
      (x.addToSet number document).createdBy = x.createdBy ∧
      x.members <+: (x.addToSet number document).members := by
  unfold Dataset.addToSet
  split
  · exact ⟨rfl, rfl, rfl, List.prefix_refl _⟩
  · exact ⟨rfl, rfl, rfl, List.prefix_append _ _⟩

theorem mem_addToSet {number : ℕ} {x : Dataset M} {a : Member M}
    (h : a ∈ (x.addToSet number document).members) : a ∈ x.members ∨ a = ⟨document, some number⟩ := by
  unfold Dataset.addToSet at h
  split at h
  · exact .inl h
  · simpa using h

theorem addToSet_of_lacks {number substream : ℕ} {x : Dataset M}
    (hlacks : ∀ m ∈ x.members, r.holds m.value substream = false)
    (hdoc : r.holds document substream = true) :
    x.addToSet number document = { x with members := x.members ++ [⟨document, some number⟩] } := by
  refine if_neg (fun hany => ?_)
  obtain ⟨a, ha, he⟩ := List.any_eq_true.mp hany
  have hval : a.value = document := by simpa using he
  have hno := hlacks a ha
  rw [hval, hdoc] at hno
  cases hno

theorem Upserted.mem_cases (h : Upserted r c document old new) {x : Dataset M} (hx : x ∈ new) :
    (∃ y ∈ old, (x.id = y.id ∧ x.size = y.size ∧ x.createdBy = y.createdBy) ∧
        ∀ a ∈ x.members, a ∈ y.members ∨ x.id = c.file.id ∧ a = ⟨document, some c.number⟩) ∨
      x = ⟨c.file.id, c.datasetSize, some c.number, [⟨document, some c.number⟩]⟩ := by
  cases h with
  | created _ =>
    obtain hx | hx := List.mem_append.mp hx
    · exact .inl ⟨x, hx, ⟨rfl, rfl, rfl⟩, fun a ha => .inl ha⟩
    · exact .inr (List.mem_singleton.mp hx)
  | added =>
    obtain ⟨y, hy, rfl⟩ := List.mem_map.mp hx
    refine .inl ⟨y, hy, ?_⟩
    split
    · rename_i hid
      obtain ⟨hid', hsize, hcreated, -⟩ := addToSet_frame c.number document y
      exact ⟨⟨hid', hsize, hcreated⟩, fun a ha => (mem_addToSet ha).imp_right (fun he => ⟨hid'.trans hid, he⟩)⟩
    · exact ⟨⟨rfl, rfl, rfl⟩, fun a ha => .inl ha⟩

theorem Upserted.mem_members (h : Upserted r c document old new) {x : Dataset M} (hx : x ∈ new)
    {a : Member M} (ha : a ∈ x.members) :
    (∃ y ∈ old, y.id = x.id ∧ a ∈ y.members) ∨ x.id = c.file.id ∧ a = ⟨document, some c.number⟩ := by
  obtain ⟨y, hy, ⟨hid, -, -⟩, hmem⟩ | rfl := h.mem_cases hx
  · exact (hmem a ha).imp_left (fun hm => ⟨y, hy, hid.symm, hm⟩)
  · exact .inr ⟨rfl, List.mem_singleton.mp ha⟩

theorem Upserted.extends (h : Upserted r c document old new) : Extends old new := by
  cases h with
  | created _ => exact fun x hx => ⟨x, List.mem_append_left _ hx, rfl, rfl, rfl, List.prefix_refl _⟩
  | added =>
    intro x hx
    refine ⟨_, List.mem_map_of_mem hx, ?_⟩
    split
    · exact addToSet_frame c.number document x
    · exact ⟨rfl, rfl, rfl, List.prefix_refl _⟩

theorem Upserted.ids (h : Upserted r c document old new) (hold : old.Pairwise (fun x y => x.id ≠ y.id)) :
    new.Pairwise (fun x y => x.id ≠ y.id) := by
  cases h with
  | created hnew =>
    refine List.pairwise_append.mpr ⟨hold, List.pairwise_singleton _ _, fun x hx y hy => ?_⟩
    rw [List.mem_singleton.mp hy]
    exact hnew x hx
  | added =>
    refine List.pairwise_map.mpr (hold.imp (fun {x y} hne => ?_))
    have hid : ∀ z : Dataset M,
        (if z.id = c.file.id then z.addToSet c.number document else z).id = z.id := by
      intro z
      split
      · exact (addToSet_frame c.number document z).1
      · rfl
    rw [hid, hid]
    exact hne

theorem Upserted.tagged (h : Upserted r c document old new)
    (hdoc : r.holds document c.file.datasetSubstream = true) :
    ∃ x ∈ new, x.id = c.file.id ∧ ⟨document, some c.number⟩ ∈ x.members := by
  cases h with
  | created _ => exact ⟨_, List.mem_append_right _ (List.mem_singleton_self _), rfl, List.mem_singleton_self _⟩
  | @added x hx hid hlacks =>
    refine ⟨_, List.mem_map_of_mem hx, ?_⟩
    rw [if_pos hid, addToSet_of_lacks hlacks hdoc]
    exact ⟨hid, List.mem_append_right _ (List.mem_singleton_self _)⟩

theorem Upserted.once (h : Upserted r c document old new) (hold : old.Pairwise (fun x y => x.id ≠ y.id))
    (honce : ∀ x ∈ old, Once r x) (hdoc : r.holds document c.file.datasetSubstream = true)
    (hapart : ∀ x ∈ old, x.id = c.file.id → ∀ a ∈ x.members,
      r.holds a.value c.file.datasetSubstream = false →
        ∀ k, ¬ (r.holds a.value k = true ∧ r.holds document k = true)) :
    ∀ x ∈ new, Once r x := by
  intro y hy
  cases h with
  | created _ =>
    obtain hy | hy := List.mem_append.mp hy
    · exact honce y hy
    · rw [List.mem_singleton.mp hy]
      exact List.pairwise_singleton _ _
  | @added x hx hid hlacks =>
    obtain ⟨z, hz, rfl⟩ := List.mem_map.mp hy
    split
    · rename_i hzid
      cases eq_of_id hold hx hz (hid.trans hzid.symm)
      rw [addToSet_of_lacks hlacks hdoc]
      refine List.pairwise_append.mpr ⟨honce x hx, List.pairwise_singleton _ _, fun a ha b hb => ?_⟩
      rw [List.mem_singleton.mp hb]
      exact hapart x hx hid a ha (hlacks a ha)
    · exact honce z hz

theorem Upserted.added_iff (h : Upserted r c document old new) {c' : Call} (hne : c'.number ≠ c.number) :
    Added r collection c' new ↔ Added r collection c' old := by
  refine exists_congr (fun document' => and_congr_right (fun _ => ⟨?_, ?_⟩))
  · rintro ⟨x, hx, hid, hmem⟩
    obtain ⟨y, hy, hyid, hymem⟩ | ⟨-, he⟩ := h.mem_members hx hmem
    · exact ⟨y, hy, hyid.trans hid, hymem⟩
    · simp only [Member.mk.injEq, Option.some.injEq] at he
      exact absurd he.2 hne
  · rintro ⟨x, hx, hid, hmem⟩
    obtain ⟨y, hy, hyid, -, -, hprefix⟩ := h.extends x hx
    exact ⟨y, hy, hyid.trans hid, hprefix.subset hmem⟩

end Asapo.Database.DatasetIngestion
