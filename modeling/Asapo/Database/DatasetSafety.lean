import Asapo.Database.DatasetIngestion
import Asapo.Json

namespace Asapo.Database.DatasetIngestion

open Interleaving Transition

variable {M : Type} {r : Reader M} {collection : Text} {s t : Stream M} {k m : Client M} {c : Call}
  {document : M} {datasets old new : List (Dataset M)}

variable (r collection) in
structure Inv (K : MessageMeta → Prop) (datasets : List (Dataset M)) (s : Stream M) : Prop
    extends Sound r collection datasets s where
  ids : s.datasets.Pairwise (fun x y => x.id ≠ y.id)
  possible : ∀ x ∈ s.datasets, ∀ a ∈ x.members, Possible r collection K datasets x.id a.value
  tags : ∀ x ∈ s.datasets, ∀ a ∈ x.members, ∀ number, a.addedBy = some number → number < s.started
  numbers : ∀ c err, (c, err) ∈ s.returned → c.number < s.started

variable (r collection) in
def Underway (K : MessageMeta → Prop) (s : Stream M) : Client M → Prop
  | .idle => True
  | .update c document _ => (K c.file ∧ prepare r collection c.file = .ok document) ∧ c.number < s.started ∧
      (∀ x ∈ s.datasets, ∀ a ∈ x.members, a.addedBy ≠ some c.number) ∧
      ∀ c' err, (c', err) ∈ s.returned → c'.number ≠ c.number

def Distinct : Client M → Client M → Prop
  | .update c _ _, .update c' _ _ => c.number ≠ c'.number
  | _, _ => True

variable {K : MessageMeta → Prop}

theorem not_added_of_untagged (h : ∀ x ∈ datasets, ∀ a ∈ x.members, a.addedBy ≠ some c.number) :
    ¬ Added r collection c datasets := by
  rintro ⟨document, -, x, hx, -, hmem⟩
  exact h x hx _ hmem rfl

theorem Inv.untagged (h : Inv r collection K datasets s) :
    ∀ x ∈ s.datasets, ∀ a ∈ x.members, a.addedBy ≠ some s.started := by
  intro x hx a ha he
  exact Nat.lt_irrefl _ (h.tags x hx a ha _ he)

theorem Inv.failed (h : Inv r collection K datasets s) {err : Error} (hnumber : c.number < s.started)
    (huntagged : ∀ x ∈ s.datasets, ∀ a ∈ x.members, a.addedBy ≠ some c.number) :
    Inv r collection K datasets (s.return c (some err)) where
  once := h.once
  exactly c' err' hmem := by
    obtain he | hmem := List.mem_cons.mp hmem
    · cases he
      exact iff_of_false (by simp) (not_added_of_untagged huntagged)
    · exact h.exactly c' err' hmem
  size x hx number hcreated := by
    obtain ⟨c', hc, hmem, hsize⟩ := h.size x hx number hcreated
    exact ⟨c', hc, List.mem_cons_of_mem _ hmem, hsize⟩
  kept := h.kept
  ids := h.ids
  possible := h.possible
  tags := h.tags
  numbers c' err' hmem := by
    obtain he | hmem := List.mem_cons.mp hmem
    · cases he
      exact hnumber
    · exact h.numbers c' err' hmem

theorem Inv.begun (h : Inv r collection K datasets s) :
    Inv r collection K datasets { s with started := s.started + 1 } where
  once := h.once
  exactly := h.exactly
  size := h.size
  kept := h.kept
  ids := h.ids
  possible := h.possible
  tags x hx a ha number he := Nat.lt_succ_of_lt (h.tags x hx a ha number he)
  numbers c' err' hmem := Nat.lt_succ_of_lt (h.numbers c' err' hmem)

theorem inv_start (hb : Before r datasets) : Inv r collection K datasets ⟨datasets, 0, []⟩ where
  once := hb.once
  exactly := by
    rintro _ _ ⟨⟩
  size x hx number he := by
    rw [hb.created x hx] at he
    cases he
  kept := extends_refl datasets
  ids := hb.ids
  possible x hx a ha := .inl ⟨x, hx, rfl, a, ha, rfl⟩
  tags x hx a ha number he := by
    rw [hb.added x hx a ha] at he
    cases he
  numbers := by
    rintro _ _ ⟨⟩

/-- Documents that hold the substream of their message and no other are recognized. -/
theorem recognized_of_own
    (h : ∀ file document, K file → prepare r collection file = .ok document →
      ∀ k, r.holds document k = true ↔ k = file.datasetSubstream) :
    Recognized r collection K datasets := by
  intro file document hK hp
  refine ⟨(h file document hK hp _).mpr rfl, ?_⟩
  rintro value - hlacks k ⟨hvalue, hdocument⟩
  rw [(h file document hK hp k).mp hdocument, hlacks] at hvalue
  cases hvalue

theorem Underway.frame {l : Client M} {number : ℕ} (hl : Underway r collection K s l)
    (hne : ∀ c document second, l = .update c document second → number ≠ c.number)
    (hstarted : s.started ≤ t.started)
    (htags : ∀ x ∈ t.datasets, ∀ a ∈ x.members, (∃ y ∈ s.datasets, a ∈ y.members) ∨ a.addedBy = some number)
    (hreturned : ∀ c err, (c, err) ∈ t.returned → (c, err) ∈ s.returned ∨ c.number = number) :
    Underway r collection K t l := by
  cases l with
  | idle => trivial
  | update c document second =>
    obtain ⟨hprep, hnumber, huntagged, hret⟩ := hl
    have hc := hne c document second rfl
    refine ⟨hprep, Nat.lt_of_lt_of_le hnumber hstarted, fun x hx a ha he => ?_, fun c' err hmem he => ?_⟩
    · obtain ⟨y, hy, hmem⟩ | htag := htags x hx a ha
      · exact huntagged y hy a hmem he
      · exact hc (Option.some.inj (htag.symm.trans he))
    · obtain hmem | hnum := hreturned c' err hmem
      · exact hret c' err hmem he
      · exact hc (hnum.symm.trans he)

theorem mem_return {err : Option Error} {c' : Call} {err' : Option Error}
    (h : (c', err') ∈ (s.return c err).returned) : (c', err') ∈ s.returned ∨ c'.number = c.number := by
  obtain he | h := List.mem_cons.mp h
  · cases he
    exact .inr rfl
  · exact .inl h

theorem distinct_symm {k l : Client M} (h : Distinct k l) : Distinct l k := by
  cases k <;> cases l <;> first | trivial | exact Ne.symm h

theorem started_ne {l : Client M} (hl : Underway r collection K s l) :
    ∀ c document second, l = .update c document second → s.started ≠ c.number := by
  rintro c document second rfl
  exact Nat.ne_of_gt hl.2.1

theorem ne_of_distinct {l : Client M} {second : Bool} (hd : Distinct (.update c document second) l) :
    ∀ c' document' second', l = .update c' document' second' → c.number ≠ c'.number := by
  rintro c' document' second' rfl
  exact hd

variable [DecidableEq M]

theorem Inv.done (hrec : Recognized r collection K datasets) (h : Inv r collection K datasets s)
    {second : Bool} (hc : Underway r collection K s (.update c document second))
    (hup : Upserted r c document s.datasets new) :
    Inv r collection K datasets ({ s with datasets := new }.return c none) := by
  obtain ⟨⟨hK, hprep⟩, hnumber, huntagged, hreturned⟩ := hc
  obtain ⟨hdoc, hapart⟩ := hrec c.file document hK hprep
  refine ⟨⟨?_, ?_, ?_, h.kept.trans hup.extends⟩, hup.ids h.ids, ?_, ?_, ?_⟩
  · refine hup.once h.ids h.once hdoc (fun x hx hid a ha hlacks => ?_)
    exact hapart a.value (hid ▸ h.possible x hx a ha) hlacks
  · intro c' err hmem
    obtain he | hmem := List.mem_cons.mp hmem
    · cases he
      exact iff_of_true rfl ⟨document, hprep, hup.tagged hdoc⟩
    · rw [h.exactly c' err hmem]
      exact (hup.added_iff (hreturned c' err hmem)).symm
  · intro x hx number hcreated
    obtain ⟨y, hy, ⟨-, hsize, hcreated'⟩, -⟩ | rfl := hup.mem_cases hx
    · obtain ⟨c', hc', hmem, hsize'⟩ := h.size y hy number (hcreated' ▸ hcreated)
      exact ⟨c', hc', List.mem_cons_of_mem _ hmem, hsize.trans hsize'⟩
    · exact ⟨c, Option.some.inj hcreated, List.mem_cons_self, rfl⟩
  · intro x hx a ha
    obtain ⟨y, hy, hid, hmem⟩ | ⟨hid, rfl⟩ := hup.mem_members hx ha
    · exact hid ▸ h.possible y hy a hmem
    · exact .inr ⟨c.file, hK, hid.symm, hprep⟩
  · intro x hx a ha number he
    obtain ⟨y, hy, -, hmem⟩ | ⟨-, rfl⟩ := hup.mem_members hx ha
    · exact h.tags y hy a hmem number he
    · exact Option.some.inj he ▸ hnumber
  · intro c' err hmem
    obtain he | hmem := List.mem_cons.mp hmem
    · cases he
      exact hnumber
    · exact h.numbers c' err hmem

theorem Underway.other {l : Client M} {a : Action} (hl : Underway r collection K s l)
    (hd : Distinct k l) (h : Acts r collection s k a t m) :
    Underway r collection K t l ∧ Distinct m l := by
  have hsame : ∀ x ∈ s.datasets, ∀ a ∈ x.members, ∃ y ∈ s.datasets, a ∈ y.members :=
    fun x hx a ha => ⟨x, hx, ha⟩
  cases h with
  | refused _ =>
    refine ⟨hl.frame (started_ne hl) (Nat.le_succ _) (fun x hx a ha => .inl (hsame x hx a ha)) ?_, trivial⟩
    exact fun c' err hmem => mem_return hmem
  | begun _ =>
    refine ⟨hl.frame (started_ne hl) (Nat.le_succ _) (fun x hx a ha => .inl (hsame x hx a ha)) ?_, ?_⟩
    · exact fun c' err hmem => .inl hmem
    · cases l with
      | idle => trivial
      | update c document second => exact started_ne hl c document second rfl
  | again =>
    refine ⟨hl, ?_⟩
    cases l with
    | idle => trivial
    | update c document second => exact hd
  | failed =>
    refine ⟨hl.frame (ne_of_distinct hd) (Nat.le_refl _) (fun x hx a ha => .inl (hsame x hx a ha)) ?_, trivial⟩
    exact fun c' err hmem => mem_return hmem
  | done hup =>
    refine ⟨hl.frame (ne_of_distinct hd) (Nat.le_refl _) (fun x hx a ha => ?_) ?_, trivial⟩
    · obtain ⟨y, hy, -, hmem⟩ | ⟨-, rfl⟩ := hup.mem_members hx ha
      · exact .inl ⟨y, hy, hmem⟩
      · exact .inr rfl
    · exact fun c' err hmem => mem_return hmem

theorem Inv.own (hrec : Recognized r collection K datasets) (hi : Inv r collection K datasets s)
    {a : Action} (hk : Underway r collection K s k) (hc : Calls K s k a)
    (h : Acts r collection s k a t m) :
    Inv r collection K datasets t ∧ Underway r collection K t m := by
  cases h with
  | refused _ => exact ⟨hi.begun.failed (Nat.lt_succ_self _) hi.untagged, trivial⟩
  | begun hprep =>
    refine ⟨hi.begun, ⟨hc, hprep⟩, Nat.lt_succ_self _, hi.untagged, fun c' err hmem => ?_⟩
    exact Nat.ne_of_lt (hi.numbers c' err hmem)
  | again => exact ⟨hi, hk⟩
  | failed => exact ⟨hi.failed hk.2.1 hk.2.2.1, trivial⟩
  | done hup => exact ⟨hi.done hrec hk hup, trivial⟩

theorem keepsApart (hrec : Recognized r collection K datasets) :
    KeepsApart (act r collection) noWorld (Calls K) (Inv r collection K datasets)
      (Underway r collection K) Distinct where
  symm _ _ := distinct_symm
  own _ _ _ _ _ hi hk hc ha := hi.own hrec hk hc (acts_of_act ha)
  other _ _ _ _ _ _ _ _ hl hd _ ha := hl.other hd (acts_of_act ha)
  world _ e := e.elim

theorem sound_of_recognized (hb : Before r datasets) (hrec : Recognized r collection K datasets) (n : ℕ)
    (events : List (Event Action Empty n))
    (hK : Along (step (act r collection) noWorld) (OnThreads (Calls K)) (start n datasets) events) :
    Always (step (act r collection) noWorld) (fun s => Sound r collection datasets s.shared)
      (start n datasets) events := by
  refine (keepsApart hrec).always (fun s hs => hs.shared.toSound) _ _ ⟨⟨inv_start hb, ?_⟩, ?_⟩ hK
  · exact fun _ => trivial
  · exact fun _ _ _ => trivial

def twoCalls (file file' : MessageMeta) : List (Event Action Empty 1) :=
  [.thread ⟨0, Nat.zero_lt_one⟩ (.insertAsDatasetMessage file 0), .thread ⟨0, Nat.zero_lt_one⟩ (.update none),
    .thread ⟨0, Nat.zero_lt_one⟩ (.insertAsDatasetMessage file' 0), .thread ⟨0, Nat.zero_lt_one⟩ (.update none)]

theorem along_twoCalls {file file' : MessageMeta} (h : K file) (h' : K file')
    (s : System (Stream M) (Client M) 1) :
    Along (step (act r collection) noWorld) (OnThreads (Calls K)) s (twoCalls file file') := by
  refine fun _ _ => ⟨h, fun _ _ => ⟨trivial, fun _ _ => ⟨h', fun _ _ => ⟨trivial, trivial⟩⟩⟩⟩

theorem exec_twoCalls {file file' : MessageMeta} {document document' : M} (hid : file'.id = file.id)
    (hp : prepare r collection file = .ok document) (hp' : prepare r collection file' = .ok document')
    (hlacks : r.holds document file'.datasetSubstream = false) :
    ∃ t, exec (step (act r collection) noWorld) (start 1 []) (twoCalls file file') = some t ∧
      t.shared.datasets =
        [(⟨file.id, 0, some 0, [⟨document, some 0⟩]⟩ : Dataset M).addToSet 1 document'] ∧
      ((⟨1, file', 0⟩, none) : Call × Option Error) ∈ t.shared.returned := by
  simp [exec, twoCalls, step, act, start, hp, hp', upsert, hid, hlacks, Stream.return]

/-- The second call finds its document in the array and returns no error. -/
theorem not_sound_same {file file' : MessageMeta} {document : M} (hid : file'.id = file.id)
    (hp : prepare r collection file = .ok document) (hp' : prepare r collection file' = .ok document)
    (hlacks : r.holds document file'.datasetSubstream = false) :
    ¬ Always (step (act r collection) noWorld) (fun s => Sound r collection [] s.shared) (start 1 [])
      (twoCalls file file') := by
  intro h
  obtain ⟨t, ht, hdatasets, hreturned⟩ := exec_twoCalls hid hp hp' hlacks
  obtain ⟨document', -, x, hx, -, hmem⟩ := ((always_exec _ t _ h ht).exactly _ _ hreturned).mp rfl
  rw [hdatasets, List.mem_singleton] at hx
  rw [hx, Dataset.addToSet, if_pos (by simp)] at hmem
  simp at hmem

theorem not_sound_shared {file file' : MessageMeta} {document document' : M} {k : ℕ}
    (hid : file'.id = file.id) (hp : prepare r collection file = .ok document)
    (hp' : prepare r collection file' = .ok document')
    (hlacks : r.holds document file'.datasetSubstream = false)
    (hk : r.holds document k = true) (hk' : r.holds document' k = true) :
    ¬ Always (step (act r collection) noWorld) (fun s => Sound r collection [] s.shared) (start 1 [])
      (twoCalls file file') := by
  by_cases hne : document = document'
  · subst hne
    exact not_sound_same hid hp hp' hlacks
  · intro h
    obtain ⟨t, ht, hdatasets, -⟩ := exec_twoCalls hid hp hp' hlacks
    have honce := (always_exec _ t _ h ht).once _ (hdatasets ▸ List.mem_singleton_self _)
    rw [Once, Dataset.addToSet, if_neg (by simpa using hne)] at honce
    simp only [List.singleton_append, List.pairwise_cons, List.mem_singleton, forall_eq] at honce
    exact honce.1 k ⟨hk, hk'⟩

theorem recognized_of_sound
    (h : ∀ n (events : List (Event Action Empty n)),
      Along (step (act r collection) noWorld) (OnThreads (Calls K)) (start n []) events →
      Always (step (act r collection) noWorld) (fun s => Sound r collection [] s.shared) (start n []) events) :
    Recognized r collection K [] := by
  intro file document hK hp
  refine ⟨?_, ?_⟩
  · by_contra hno
    exact not_sound_same rfl hp hp (Bool.eq_false_iff.mpr hno) (h 1 _ (along_twoCalls hK hK _))
  · rintro value (⟨x, hx, -⟩ | ⟨file', hK', hid, hp'⟩) hlacks k ⟨hvalue, hdocument⟩
    · cases hx
    · exact not_sound_shared hid.symm hp' hp hlacks hvalue hdocument (h 1 _ (along_twoCalls hK' hK _))

/-- Concurrent calls keep the datasets of a stream in order if the documents of the messages
are recognized, and on an empty stream only then. -/
theorem ingestion_sound (r : Reader M) (collection : Text) (K : MessageMeta → Prop) :
    (∀ datasets, Before r datasets → Recognized r collection K datasets →
      ∀ n (events : List (Event Action Empty n)),
        Along (step (act r collection) noWorld) (OnThreads (Calls K)) (start n datasets) events →
        Always (step (act r collection) noWorld) (fun s => Sound r collection datasets s.shared)
          (start n datasets) events) ∧
    ((∀ n (events : List (Event Action Empty n)),
        Along (step (act r collection) noWorld) (OnThreads (Calls K)) (start n []) events →
        Always (step (act r collection) noWorld) (fun s => Sound r collection [] s.shared)
          (start n []) events) → Recognized r collection K []) :=
  ⟨fun _ hb hrec n events hK => sound_of_recognized hb hrec n events hK, recognized_of_sound⟩

section Texts

open JsonText

def signed (k : ℕ) : ℤ := if k < 2 ^ 63 then k else k - 2 ^ 64

/-- A field is compared with a number. An array is equal if an element is. -/
def equalsNumber (k : ℕ) : Value → Bool
  | .integer z => z = signed k
  | .number q => q = signed k
  | .array elements => elements.any (fun v => v = .integer (signed k) || v = .number (signed k))
  | _ => false

/-- The texts are read by the rules of JSON, and of two fields with a name the first counts. -/
def textReader : Reader Value where
  fromJson t := (parse .bytes t).bind (fun v =>
    match v with
    | .object _ => some v
    | _ => none)
  holds v k := k < 2 ^ 64 && (v.get (text "dataset_substream")).any (equalsNumber k)

def messageOf (name metadata : Text) (datasetSubstream : ℕ) : MessageMeta :=
  ⟨name, 0, 5, 1, text "host", metadata, 0, datasetSubstream⟩

theorem prepare_of_text {file : MessageMeta} {document : Value}
    (h : textReader.fromJson file.json = some document) :
    prepare textReader (text "data_s") file = .ok document := by
  have hname : MongoDBClient.updateCurrentCollectionIfNeeded (text "data_s") = none := by decide
  rw [prepare, hname]
  simp only [h]

def plainDocument (datasetSubstream : ℕ) : Value :=
  .object [(text "_id", .integer 1), (text "size", .integer 5), (text "name", .string (text "a")),
    (text "timestamp", .integer 0), (text "source", .string (text "host")), (text "buf_id", .integer 0),
    (text "dataset_substream", .integer datasetSubstream), (text "meta", .object [])]

theorem holds_plainDocument {datasetSubstream : ℕ} (h : datasetSubstream < 2 ^ 63) (k : ℕ) :
    textReader.holds (plainDocument datasetSubstream) k = true ↔ k = datasetSubstream := by
  have heval : textReader.holds (plainDocument datasetSubstream) k =
      (decide (k < 2 ^ 64) && decide ((datasetSubstream : ℤ) = signed k)) := rfl
  rw [heval, Bool.and_eq_true, decide_eq_true_iff, decide_eq_true_iff, signed]
  split <;> omega

def holdsOnly (k other : ℕ) (document : Value) : Bool :=
  textReader.holds document k && !textReader.holds document other

theorem prepare_holdsOnly {file : MessageMeta} {k other : ℕ}
    (h : (textReader.fromJson file.json).any (holdsOnly k other) = true) :
    ∃ document, prepare textReader (text "data_s") file = .ok document ∧
      textReader.holds document k = true ∧ textReader.holds document other = false := by
  obtain ⟨document, hread, hholds⟩ := (Option.any_eq_true _ _).mp h
  obtain ⟨hk, hother⟩ := Bool.and_eq_true_iff.mp hholds
  exact ⟨document, prepare_of_text hread, hk, by simpa using hother⟩

/-- The name of the message ends the string in its text and goes on with fields, of which the
last one takes up the rest of the text. -/
def injectedMessage : MessageMeta :=
  messageOf (text "b\",\"dataset_substream\":7,\"x\":\x7b\"y\":\"c") (text "\x7b\x7d\x7d") 5

theorem ingestion_sound_race :
    Always (step (act textReader (text "data_s")) noWorld)
      (fun s => Sound textReader (text "data_s") [] s.shared) (start 2 [])
      [.thread 0 (.insertAsDatasetMessage (messageOf (text "a") [] 7) 3),
        .thread 1 (.insertAsDatasetMessage (messageOf (text "a") [] 8) 3), .thread 1 (.update none),
        .thread 0 (.update (some .duplicateKey)), .thread 0 (.update none)] := by
  refine (ingestion_sound textReader (text "data_s")
    (fun file => file = messageOf (text "a") [] 7 ∨ file = messageOf (text "a") [] 8)).1 [] ?_ ?_ 2 _ ?_
  · exact ⟨List.Pairwise.nil, by simp, by simp, by simp⟩
  · have h7 : textReader.fromJson (messageOf (text "a") [] 7).json = some (plainDocument 7) := by decide +kernel
    have h8 : textReader.fromJson (messageOf (text "a") [] 8).json = some (plainDocument 8) := by decide +kernel
    refine recognized_of_own (fun file document hK hp k => ?_)
    obtain rfl | rfl := hK
    · cases hp.symm.trans (prepare_of_text h7)
      exact holds_plainDocument (by decide) k
    · cases hp.symm.trans (prepare_of_text h8)
      exact holds_plainDocument (by decide) k
  · exact fun _ _ => ⟨.inl rfl, fun _ _ => ⟨.inr rfl, fun _ _ => ⟨trivial, fun _ _ => ⟨trivial, fun _ _ =>
      ⟨trivial, trivial⟩⟩⟩⟩⟩

theorem ingestion_not_sound :
    ¬ ∀ (n : ℕ) (events : List (Event Action Empty n)),
      Always (step (act textReader (text "data_s")) noWorld)
        (fun s => Sound textReader (text "data_s") [] s.shared) (start n []) events := by
  intro h
  have hplain : (textReader.fromJson (messageOf (text "a") [] 7).json).any (holdsOnly 7 5) = true := by
    decide +kernel
  have hinjected : (textReader.fromJson injectedMessage.json).any (holdsOnly 7 5) = true := by
    decide +kernel
  obtain ⟨document, hp, hk, hlacks⟩ := prepare_holdsOnly hplain
  obtain ⟨document', hp', hk', -⟩ := prepare_holdsOnly hinjected
  have hid : injectedMessage.id = (messageOf (text "a") [] 7).id := rfl
  exact not_sound_shared hid hp hp' hlacks hk hk' (h 1 _)

end Texts

end Asapo.Database.DatasetIngestion
