import Asapo.Database.MongoDBClient
import Asapo.Lifecycle
import Asapo.Transition

namespace Asapo.Database.CollectionHandle

open Lifecycle Transition

/-- The collection handle that `MongoDBClient` keeps, with the number of handles so far, whether
the current name is the one that the last handle was created with, and the log of the handles. -/
structure Client where
  currentCollection : Option ℕ
  currentCollectionName : Text
  handles : ℕ
  opened : Bool
  log : List (Event Text)
  deriving DecidableEq

namespace Client

def connected : Client := ⟨none, [], 0, false, []⟩

/-- A handle is destroyed, but the pointer to it stays. -/
def destroyCurrent (s : Client) : Client :=
  match s.currentCollection with
  | none => s
  | some h => { s with log := .destroyed h :: s.log }

def getCollection (name : Text) (s : Client) : Client :=
  { currentCollection := some s.handles
    currentCollectionName := name
    handles := s.handles + 1
    opened := true
    log := .created s.handles (encodeColName name) :: s.log }

/-- The error for a name that is too long comes after the current handle is destroyed and
before the current name changes. -/
def updateCurrentCollectionIfNeeded (name : Text) (s : Client) : Client × Bool :=
  if name = s.currentCollectionName then (s, true)
  else if (encodeColName name).length > maxCollectionNameLength then (s.destroyCurrent, false)
  else (s.destroyCurrent.getCollection name, true)

def pass (collection : Text) (s : Client) : Client :=
  { s with log := .passed s.currentCollection (encodeColName collection) :: s.log }

def insertWithId (collection : Text) (parsed : Bool) (s : Client) : Client :=
  match s.updateCurrentCollectionIfNeeded s.currentCollectionName with
  | (s, false) => s
  | (s, true) => if parsed then s.pass collection else s

def insert (collection : Text) (autoId gotId parsed : Bool) (s : Client) : Client :=
  match s.updateCurrentCollectionIfNeeded collection with
  | (s, false) => s
  | (s, true) =>
    if autoId then
      if gotId then s.insertWithId collection parsed else s
    else if parsed then s.pass collection
    else s

def insertMeta (collection : Text) (parsed : Bool) (op : MetaIngestOp) (s : Client) : Client :=
  match s.updateCurrentCollectionIfNeeded collection with
  | (s, false) => s
  | (s, true) =>
    if parsed then
      match op with
      | .insert | .replace | .update => s.pass collection
      | .other _ => s
    else s

/-- The update is repeated after a duplicate key. -/
def insertAsDatasetMessage (collection : Text) (parsed duplicate : Bool) (s : Client) : Client :=
  match s.updateCurrentCollectionIfNeeded collection with
  | (s, false) => s
  | (s, true) =>
    if parsed then
      if duplicate then (s.pass collection).pass collection else s.pass collection
    else s

def getRecordFromDb (collection : Text) (s : Client) : Client :=
  match s.updateCurrentCollectionIfNeeded collection with
  | (s, false) => s
  | (s, true) => s.pass collection

def getStreamInfo (collection : Text) (found : Bool) (s : Client) : Client :=
  match s.updateCurrentCollectionIfNeeded collection with
  | (s, false) => s
  | (s, true) =>
    let s := s.pass collection
    if found then s.getRecordFromDb collection else s

def deleteStream (s : Client) : Client :=
  { s with
    currentCollectionName := []
    opened := s.opened && s.currentCollectionName = [] }

def cleanUp (s : Client) : Client := { s.destroyCurrent with currentCollection := none }

end Client

/-- The calls of a client, with what decides how far they get: the number of the message and the
counter for it, whether the documents can be parsed, and the answers of the database. -/
inductive Operation where
  | insert (collection : Text) (autoId gotId parsed : Bool)
  | insertMeta (collection : Text) (parsed : Bool) (op : MetaIngestOp)
  | insertAsDatasetMessage (collection : Text) (parsed duplicate : Bool)
  | getById (collection : Text)
  | getDataSetById (collection : Text)
  | getStreamInfo (collection : Text) (found : Bool)
  | getMetaFromDb (collection : Text)
  | deleteStream
  deriving DecidableEq

namespace Operation

def run (s : Client) : Operation → Client
  | .insert collection autoId gotId parsed => s.insert collection autoId gotId parsed
  | .insertMeta collection parsed op => s.insertMeta collection parsed op
  | .insertAsDatasetMessage collection parsed duplicate =>
    s.insertAsDatasetMessage collection parsed duplicate
  | .getById collection => s.getRecordFromDb collection
  | .getDataSetById collection => s.getRecordFromDb collection
  | .getStreamInfo collection found => s.getStreamInfo collection found
  | .getMetaFromDb collection => s.getRecordFromDb collection
  | .deleteStream => s.deleteStream

def collection : Operation → Option Text
  | .insert collection _ _ _ => some collection
  | .insertMeta collection _ _ => some collection
  | .insertAsDatasetMessage collection _ _ => some collection
  | .getById collection => some collection
  | .getDataSetById collection => some collection
  | .getStreamInfo collection _ => some collection
  | .getMetaFromDb collection => some collection
  | .deleteStream => none

def passes : Operation → ℕ
  | .insert _ autoId gotId parsed => if (!autoId || gotId) && parsed then 1 else 0
  | .insertMeta _ parsed op =>
    match op with
    | .other _ => 0
    | _ => if parsed then 1 else 0
  | .insertAsDatasetMessage _ parsed duplicate => if parsed then if duplicate then 2 else 1 else 0
  | .getById _ | .getDataSetById _ | .getMetaFromDb _ => 1
  | .getStreamInfo _ found => if found then 2 else 1
  | .deleteStream => 0

end Operation

def life (ops : List Operation) : Client := (ops.foldl Operation.run Client.connected).cleanUp

/-- No name is too long once there is a handle, and an operation that gets to the driver does not
have the empty name at the start or behind a deletion that came after another name. -/
structure Careful (s : Client) (op : Operation) : Prop where
  short : ∀ name ∈ op.collection, (encodeColName name).length > maxCollectionNameLength →
    s.currentCollection = none
  named : op.collection = some [] → s.opened = true ∨ op.passes = 0

variable {s : Client} {name : Text}

theorem update_same (h : name = s.currentCollectionName) :
    s.updateCurrentCollectionIfNeeded name = (s, true) := if_pos h

theorem run_eq {op : Operation} (h : op.collection = some name) :
    op.run s = if (s.updateCurrentCollectionIfNeeded name).2 then
      (Client.pass name)^[op.passes] (s.updateCurrentCollectionIfNeeded name).1
    else (s.updateCurrentCollectionIfNeeded name).1 := by
  have hname : (s.updateCurrentCollectionIfNeeded name).2 = true →
      name = (s.updateCurrentCollectionIfNeeded name).1.currentCollectionName := by
    unfold Client.updateCurrentCollectionIfNeeded
    split
    · rename_i hsame
      exact fun _ => hsame
    · split
      · intro hf
        cases hf
      · exact fun _ => rfl
  generalize hu : s.updateCurrentCollectionIfNeeded name = u at hname
  obtain ⟨s', ok⟩ := u
  cases op with
  | deleteStream => cases h
  | insert collection autoId gotId parsed =>
    cases h
    simp only [Operation.run, Client.insert, hu]
    cases ok with
    | false => rfl
    | true =>
      have hsame : s'.updateCurrentCollectionIfNeeded s'.currentCollectionName = (s', true) := update_same rfl
      cases autoId <;> cases gotId <;> cases parsed <;> simp [Operation.passes, Client.insertWithId, hsame]
  | insertMeta collection parsed op =>
    cases h
    simp only [Operation.run, Client.insertMeta, hu]
    cases ok with
    | false => rfl
    | true => cases op <;> cases parsed <;> simp [Operation.passes]
  | insertAsDatasetMessage collection parsed duplicate =>
    cases h
    simp only [Operation.run, Client.insertAsDatasetMessage, hu]
    cases ok with
    | false => rfl
    | true => cases parsed <;> cases duplicate <;> simp [Operation.passes]
  | getById collection | getDataSetById collection | getMetaFromDb collection =>
    cases h
    simp only [Operation.run, Client.getRecordFromDb, hu]
    cases ok <;> rfl
  | getStreamInfo collection found =>
    cases h
    simp only [Operation.run, Client.getStreamInfo, hu]
    cases ok with
    | false => rfl
    | true =>
      have hsame : (s'.pass name).updateCurrentCollectionIfNeeded name = (s'.pass name, true) :=
        update_same (hname rfl)
      cases found <;> simp [Operation.passes, Client.getRecordFromDb, hsame]

theorem pass_iterate (k : ℕ) (s : Client) (name : Text) :
    (Client.pass name)^[k] s = { s with
      log := List.replicate k (.passed s.currentCollection (encodeColName name)) ++ s.log } := by
  induction k with
  | zero => rfl
  | succ k ih =>
    rw [Function.iterate_succ_apply', ih]
    rfl

structure Sound (s : Client) : Prop where
  valid : Valid s.log
  numbered : Numbered s.handles s.log
  live : ∀ h, s.currentCollection = some h → h < s.handles ∧ .destroyed h ∉ s.log
  opened : s.opened = true → ∃ h, s.currentCollection = some h ∧
    .created h (encodeColName s.currentCollectionName) ∈ s.log
  closed : s.opened = false → s.currentCollectionName = [] ∧
    ∀ h, s.currentCollection = some h → .created h [] ∉ s.log
  short : (encodeColName s.currentCollectionName).length ≤ maxCollectionNameLength

/-- Something has gone wrong, or the current handle is destroyed and will be so again. -/
def Broken (s : Client) : Prop :=
  ¬ Valid s.log ∨ ∃ h, s.currentCollection = some h ∧ .destroyed h ∈ s.log

theorem sound_pass (hs : Sound s) {k : ℕ}
    (h : s.opened = true ∧ name = s.currentCollectionName ∨ k = 0) :
    Sound ((Client.pass name)^[k] s) := by
  obtain ⟨hopened, rfl⟩ | rfl := h
  · rw [pass_iterate]
    obtain ⟨h, hcurrent, hcreated⟩ := hs.opened hopened
    have hlive := hs.live h hcurrent
    exact {
      valid := valid_passed hs.valid ⟨h, hcurrent, hcreated, hlive.2⟩
      numbered := hs.numbered.passed
      live := fun h hh => ⟨(hs.live h hh).1, fun hd => (hs.live h hh).2 (destroyed_mem_passed.mp hd)⟩
      opened := fun _ => ⟨h, hcurrent, created_mem_passed.mpr hcreated⟩
      closed := fun hn => by simp [hopened] at hn
      short := hs.short }
  · exact hs

theorem broken_pass (hs : Broken s) (k : ℕ) : Broken ((Client.pass name)^[k] s) := by
  rw [pass_iterate]
  obtain hv | ⟨h, hcurrent, hd⟩ := hs
  · exact .inl (fun hn => hv (valid_of_append hn))
  · exact .inr ⟨h, hcurrent, destroyed_mem_passed.mpr hd⟩

theorem sound_getCollection (hs : Sound s)
    (hshort : ¬ (encodeColName name).length > maxCollectionNameLength) :
    Sound (s.destroyCurrent.getCollection name) := by
  have hdestroy : Valid s.destroyCurrent.log ∧ Numbered s.handles s.destroyCurrent.log ∧
      s.destroyCurrent.handles = s.handles := by
    unfold Client.destroyCurrent
    split
    · exact ⟨hs.valid, hs.numbered, rfl⟩
    · rename_i h hcurrent
      have hlive := hs.live h hcurrent
      exact ⟨⟨hlive.2, hs.valid⟩, hs.numbered.destroy hlive.1, rfl⟩
  obtain ⟨hvalid, hnumbered, hhandles⟩ := hdestroy
  unfold Client.getCollection
  rw [hhandles]
  exact {
    valid := ⟨trivial, hvalid⟩
    numbered := hnumbered.create _
    live := fun h hh => by
      cases hh
      exact ⟨Nat.lt_succ_self _, fun hd => Nat.lt_irrefl _ (hnumbered.destroyed _ (by simpa using hd))⟩
    opened := fun _ => ⟨_, rfl, List.mem_cons_self⟩
    closed := fun hn => by cases hn
    short := Nat.not_lt.mp hshort }

theorem encodeColName_eq_nil (h : encodeColName name = []) : name = [] :=
  escape_injective false (h : escape name false = escape [] false)

theorem sound_deleteStream (hs : Sound s) : Sound s.deleteStream where
  valid := hs.valid
  numbered := hs.numbered
  live := hs.live
  opened ho := by
    obtain ⟨hopened, hname⟩ : s.opened = true ∧ s.currentCollectionName = [] := by
      simpa [Client.deleteStream] using ho
    obtain ⟨h, hcurrent, hcreated⟩ := hs.opened hopened
    rw [hname] at hcreated
    exact ⟨h, hcurrent, hcreated⟩
  closed hn := by
    refine ⟨rfl, fun h hcurrent hempty => ?_⟩
    cases hopened : s.opened with
    | false => exact (hs.closed hopened).2 h hcurrent hempty
    | true =>
      obtain ⟨h', hcurrent', hcreated⟩ := hs.opened hopened
      cases hcurrent.symm.trans hcurrent'
      have hname := encodeColName_eq_nil (hs.numbered.once h _ _ hcreated hempty)
      simp [Client.deleteStream, hopened, hname] at hn
  short := Nat.zero_le _

theorem broken_destroy (hs : Broken s) (s' : Client) (hlog : s'.log = s.destroyCurrent.log) :
    ¬ Valid s'.log := by
  rw [hlog]
  unfold Client.destroyCurrent
  obtain hv | ⟨h, hcurrent, hd⟩ := hs
  · split
    · exact hv
    · exact fun hn => hv hn.2
  · rw [hcurrent]
    exact fun hn => hn.1 hd

theorem update_cases (s : Client) (name : Text) :
    (name = s.currentCollectionName ∧ s.updateCurrentCollectionIfNeeded name = (s, true)) ∨
      (name ≠ s.currentCollectionName ∧ (encodeColName name).length > maxCollectionNameLength ∧
        s.updateCurrentCollectionIfNeeded name = (s.destroyCurrent, false)) ∨
      (¬ (encodeColName name).length > maxCollectionNameLength ∧
        s.updateCurrentCollectionIfNeeded name = (s.destroyCurrent.getCollection name, true)) := by
  unfold Client.updateCurrentCollectionIfNeeded
  by_cases hname : name = s.currentCollectionName
  · exact .inl ⟨hname, if_pos hname⟩
  · rw [if_neg hname]
    by_cases hlong : (encodeColName name).length > maxCollectionNameLength
    · exact .inr (.inl ⟨hname, hlong, if_pos hlong⟩)
    · exact .inr (.inr ⟨hlong, if_neg hlong⟩)

theorem collection_none {op : Operation} (h : op.collection = none) : op = .deleteStream := by
  cases op with
  | deleteStream => rfl
  | _ => cases h

theorem sound_run (hs : Sound s) {op : Operation} (hc : Careful s op) : Sound (op.run s) := by
  cases hop : op.collection with
  | none =>
    rw [collection_none hop]
    exact sound_deleteStream hs
  | some name =>
    rw [run_eq hop]
    obtain ⟨hname, he⟩ | ⟨hname, hlong, he⟩ | ⟨hshort, he⟩ := update_cases s name <;> rw [he]
    · apply sound_pass hs
      cases hopened : s.opened with
      | true => exact .inl ⟨rfl, hname⟩
      | false =>
        rw [hname, (hs.closed hopened).1] at hop
        exact .inr ((hc.named hop).resolve_left (by simp [hopened]))
    · have hnone := hc.short name hop hlong
      have hsame : s.destroyCurrent = s := by rw [Client.destroyCurrent, hnone]
      rw [hsame]
      exact hs
    · exact sound_pass (sound_getCollection hs hshort) (.inl ⟨rfl, rfl⟩)

theorem broken_of_careless (hs : Sound s) {op : Operation} (hc : ¬ Careful s op) : Broken (op.run s) := by
  cases hop : op.collection with
  | none => exact absurd ⟨by simp [hop], by simp [hop]⟩ hc
  | some name =>
    rw [run_eq hop]
    by_cases hlong : (encodeColName name).length > maxCollectionNameLength ∧ s.currentCollection ≠ none
    · obtain ⟨h, hcurrent⟩ := Option.ne_none_iff_exists'.mp hlong.2
      obtain ⟨hname, -⟩ | ⟨-, -, he⟩ | ⟨hshort, -⟩ := update_cases s name
      · exact absurd hlong.1 (Nat.not_lt.mpr (hname ▸ hs.short))
      · rw [he]
        refine .inr ⟨h, ?_, ?_⟩ <;> simp [Client.destroyCurrent, hcurrent]
      · exact absurd hlong.1 hshort
    · have hnamed : name = [] ∧ s.opened = false ∧ op.passes ≠ 0 := by
        by_contra hn
        refine hc ⟨fun x hx hl => ?_, fun hx => ?_⟩
        · cases hop.symm.trans hx
          by_contra hcurrent
          exact hlong ⟨hl, hcurrent⟩
        · cases hop.symm.trans hx
          by_contra hboth
          rw [not_or, Bool.not_eq_true] at hboth
          exact hn ⟨rfl, hboth⟩
      obtain ⟨rfl, hopened, hpasses⟩ := hnamed
      obtain ⟨hname, hempty⟩ := hs.closed hopened
      rw [update_same hname.symm, if_pos rfl, pass_iterate]
      refine .inl (not_valid_passed hpasses ?_)
      rintro ⟨h, hcurrent, hcreated, -⟩
      exact hempty h hcurrent hcreated

theorem broken_run (hs : Broken s) (op : Operation) : Broken (op.run s) := by
  cases hop : op.collection with
  | none =>
    rw [collection_none hop]
    exact hs
  | some name =>
    rw [run_eq hop]
    obtain ⟨-, he⟩ | ⟨-, -, he⟩ | ⟨-, he⟩ := update_cases s name <;> rw [he]
    · exact broken_pass hs _
    · exact .inl (broken_destroy hs _ rfl)
    · apply broken_pass
      exact .inl (fun hn => broken_destroy hs _ rfl hn.2)

theorem broken_life (hs : Broken s) (ops : List Operation) :
    ¬ Valid (ops.foldl Operation.run s).cleanUp.log := by
  induction ops generalizing s with
  | nil => exact broken_destroy hs _ rfl
  | cons op ops ih => exact ih (broken_run hs op)

theorem sound_cleanUp (hs : Sound s) : Valid s.cleanUp.log := by
  cases hcurrent : s.currentCollection with
  | none => simpa [Client.cleanUp, Client.destroyCurrent, hcurrent] using hs.valid
  | some h =>
    have hvalid : Valid (.destroyed h :: s.log) := ⟨(hs.live h hcurrent).2, hs.valid⟩
    simpa [Client.cleanUp, Client.destroyCurrent, hcurrent] using hvalid

def runStep (s : Client) (op : Operation) : Option Client := some (op.run s)

theorem valid_iff_careful (hs : Sound s) (ops : List Operation) :
    Valid (ops.foldl Operation.run s).cleanUp.log ↔ Along runStep Careful s ops := by
  induction ops generalizing s with
  | nil => exact ⟨fun _ => trivial, fun _ => sound_cleanUp hs⟩
  | cons op ops ih =>
    constructor
    · rintro hvalid t ⟨⟩
      by_cases hc : Careful s op
      · exact ⟨hc, (ih (sound_run hs hc)).mp hvalid⟩
      · exact absurd hvalid (broken_life (broken_of_careless hs hc) ops)
    · intro hall
      obtain ⟨hc, hrest⟩ := hall (op.run s) rfl
      exact (ih (sound_run hs hc)).mpr hrest

/-- A client handles its collections well, up to its end, exactly if all operations are careful. -/
theorem handles_valid_iff (ops : List Operation) :
    Valid (life ops).log ↔ Along runStep Careful Client.connected ops := by
  apply valid_iff_careful
  exact ⟨trivial, ⟨nofun, nofun, nofun⟩, nofun, nofun, fun _ => ⟨rfl, nofun⟩, Nat.zero_le _⟩

theorem handle_used_destroyed : ¬ ∀ ops, Valid (life ops).log := by
  intro h
  have hlong : ¬ Valid (life [.getById (text "data_a"), .getById (List.replicate 101 'x'),
      .getById (text "data_a")]).log := by decide +kernel
  exact hlong (h _)

end Asapo.Database.CollectionHandle
