import Asapo.Receiver.Disk

namespace Asapo.Receiver.Resending

open Database MongoDBClient Storing RecordPlace Disk RequestHandlerFileProcess
open RequestHandlerDbCheckRequest

variable {J ω : Type} {json : Json J} {g : Settings} {o : Outside ω} {auth : AuthorizationData} {rounds : ℕ}
  {s t : Served (World J (Machine ω))} {err : Option Error}

def foundIn (json : Json J) (o : Outside ω) (s : Served (World J (Machine ω))) : Option MessageMeta :=
  found (client json o) s.request (docs (dataCollection s.request) s.world)

inductive Compared (json : Json J) (o : Outside ω) (s : Served (World J (Machine ω))) :
    Option Error → Prop
  | missing (short : Short s.request) (record_eq : foundIn json o s = none) : Compared json o s none
  | same (record : MessageMeta) (short : Short s.request) (record_eq : foundIn json o s = some record)
      (equal : sameRequestInRecord s.request record = true) :
      Compared json o s (some (ReceiverErrorTemplates.warningDuplicatedRequest.generate ""))
  | different (record : MessageMeta) (short : Short s.request)
      (record_eq : foundIn json o s = some record)
      (differ : ¬ sameRequestInRecord s.request record = true) :
      Compared json o s (some (ReceiverErrorTemplates.badRequest.generate "already have record with same id"))
  | failed (e : Error) (fromDb : FromDb e) (why : ¬ Short s.request ∨ o.Failing) :
      Compared json o s (some e)

theorem foundIn_congr (hreq : t.request.header = s.request.header) (hdb : t.world.db = s.world.db) :
    foundIn json o t = foundIn json o s := by
  simp only [foundIn, found, dataCollection, docs, hreq, hdb]

theorem same_of_found {record : MessageMeta} (h : foundIn json o s = some record)
    (hsame : sameRequestInRecord s.request record = true) :
    ∀ x, foundIn json o s = some x → sameRequestInRecord s.request x = true := by
  intro x hx
  cases h.symm.trans hx
  exact hsame

theorem Compared.congr (h : Compared json o s err) (hreq : s.request = t.request) (hdb : s.world.db = t.world.db) :
    Compared json o t err := by
  have hfound : foundIn json o s = foundIn json o t := foundIn_congr (by rw [hreq]) hdb
  cases h with
  | missing short record_eq => exact .missing (hreq ▸ short) (hfound ▸ record_eq)
  | same record short record_eq equal => exact .same record (hreq ▸ short) (hfound ▸ record_eq) (hreq ▸ equal)
  | different record short record_eq differ =>
    exact .different record (hreq ▸ short) (hfound ▸ record_eq) (hreq ▸ differ)
  | failed e fromDb why => exact .failed e fromDb (hreq ▸ why)

theorem connect_files (h : RequestHandlerDb.processRequest (receiver json g o auth) s = (err, t)) :
    t.world.rest.files = s.world.rest.files ∧ ∀ e, err = some e → o.Failing := by
  unfold RequestHandlerDb.processRequest at h
  split at h
  rename_i fault s₁ hc
  cases h
  have hl := lift_inv (f := (Machine.backend o auth).connectToDb s.request) hc
  generalize ha : s.world.rest.attempt o DBErrorTemplates.connectionError = a at hl
  obtain ⟨e, m⟩ := a
  obtain ⟨hfiles, -, hf⟩ := attempt_files ha
  simp only [Machine.backend, ha] at hl
  cases hl
  refine ⟨hfiles, fun x hx => ?_⟩
  cases e with
  | none => cases hx
  | some e => exact (hf e rfl).2

theorem check_compared
    (h : RequestHandlerDbCheckRequest.processRequest (receiver json g o auth) s = (err, t)) :
    t.world.rest.files = s.world.rest.files ∧ Compared json o s err := by
  unfold RequestHandlerDbCheckRequest.processRequest at h
  split at h
  · rename_i e s₁ hc
    obtain ⟨-, hf⟩ := connect_cases (keeps_db json g o auth) hc
    obtain ⟨hfiles, hfail⟩ := connect_files hc
    cases h
    exact ⟨hfiles, .failed e (hf e rfl) (.inr (hfail e rfl))⟩
  · rename_i s₁ hc
    obtain ⟨hq, -⟩ := connect_cases (keeps_db json g o auth) hc
    obtain ⟨hfiles, -⟩ := connect_files hc
    have hdb : s₁.world.db = s.world.db := hq.world
    have hdocs : docs (dataCollection s.request) s₁.world = docs (dataCollection s.request) s.world := by
      rw [docs, docs, hdb]
    split at h
    · rename_i e s₂ hg
      obtain ⟨hget, -, -⟩ := call_inv hg
      change Storing.getRecordFromDb (client json o) s₁.request s₁.world = _ at hget
      rw [hq.request] at hget
      have hfiles₂ := rest_of_getRecordFromDb (K := fun m => m.files) (fun _ => rfl) hget
      have hlooked := getRecordFromDb_looked hget
      cases h
      refine ⟨hfiles₂.trans hfiles, ?_⟩
      cases hlooked with
      | missing e code short record_eq =>
        rw [hdocs] at record_eq
        rw [if_pos ((ErrorTemplate.equals_some _ _).mpr code.symm)]
        exact .missing short record_eq
      | failed e code why =>
        rw [if_neg (by rw [ErrorTemplate.equals_some]; exact fun hc => code hc.symm)]
        obtain ⟨e', he', hf⟩ := dbErrorToReceiverError_some e
        rw [he']
        exact .failed e' hf (why.imp_right failing_of_unreliable)
    · rename_i record s₂ hg
      obtain ⟨hget, hreq, -⟩ := call_inv hg
      change Storing.getRecordFromDb (client json o) s₁.request s₁.world = _ at hget
      rw [hq.request] at hget
      have hfiles₂ := rest_of_getRecordFromDb (K := fun m => m.files) (fun _ => rfl) hget
      cases getRecordFromDb_looked hget with
      | there record short record_eq =>
        rw [hdocs] at record_eq
        rw [hreq, hq.request] at h
        split at h <;> rename_i hs <;> cases h
        · exact ⟨hfiles₂.trans hfiles, .same record short record_eq hs⟩
        · exact ⟨hfiles₂.trans hfiles, .different record short record_eq hs⟩

def putIn (s : Served (World J (Machine ω))) (d : Document J) : Collection.Upsert J :=
  put s.request (docs (dataCollection s.request) s.world) d

def document (json : Json J) (g : Settings) (r : Request) : Option (Document J) :=
  json.fromJson (explicitMessage g r).json

inductive Recorded (json : Json J) (g : Settings) (o : Outside ω) (s t : Served (World J (Machine ω))) :
    Option Error → Prop
  | processed (before : s.request.alreadyProcessed = true) (unchanged : t = s) : Recorded json g o s t none
  | inserted (d : Document J) (new : Collection J) (short : Short s.request)
      (read : document json g s.request = some d) (result : putIn s d = .done new)
      (db : t.world.db = s.world.db.setCollection (encodeColName (dataCollection s.request)) new)
      (request : t.request = s.request) : Recorded json g o s t none
  | known (d : Document J) (short : Short s.request) (read : document json g s.request = some d)
      (result : putIn s d = .duplicateKey) (record_eq : foundIn json o s = none)
      (db : t.world.db = s.world.db) (request : t.request = s.request) : Recorded json g o s t none
  | same (d : Document J) (record : MessageMeta) (short : Short s.request)
      (read : document json g s.request = some d)
      (result : putIn s d = .duplicateKey) (record_eq : foundIn json o s = some record)
      (equal : sameRequestInRecord s.request record = true) (db : t.world.db = s.world.db)
      (request : t.request = s.request.setResponseMessage
        ("ignoring duplicate record for id " ++ Nat.repr s.request.header.dataId) .warning) :
      Recorded json g o s t none
  | different (d : Document J) (record : MessageMeta) (read : document json g s.request = some d)
      (result : putIn s d = .duplicateKey) (record_eq : foundIn json o s = some record)
      (differ : ¬ sameRequestInRecord s.request record = true) (request : t.request = s.request) :
      Recorded json g o s t
        (some (ReceiverErrorTemplates.badRequest.generate "already have record with same id"))
  | failed (e : Error) (why : ¬ Short s.request ∨ o.Failing ∨
      ∀ d, document json g s.request = some d → putIn s d = .failed) : Recorded json g o s t (some e)

section Insertion

variable {s₁ s₂ : Served (World J (Machine ω))} {first : Option Error}

theorem insert_inserted (hid : s.request.header.dataId ≠ 0)
    (connect : RequestHandlerDb.processRequest (receiver json g o auth) s = (none, s₁))
    (insert : s₁.call ((receiver json g o auth).insertRecordToDb s₁.request) = (first, s₂)) :
    s₂.world.rest.files = s.world.rest.files ∧ s₂.request = s.request ∧
      Inserted (client json o) g s.request s.world s₂.world first := by
  obtain ⟨hq, -⟩ := connect_cases (keeps_db json g o auth) connect
  obtain ⟨hins, hreq, -⟩ := call_inv insert
  change insertRecordToDb (client json o) g s₁.request s₁.world = _ at hins
  rw [hq.request] at hins hreq
  have hfiles := rest_of_insertRecordToDb (K := fun m => m.files) (fun _ => rfl) hid hins
  exact ⟨hfiles.trans (connect_files connect).1, hreq, (insertRecordToDb_inserted hid hins).congr hq.world⟩

theorem duplicate_compared (hid : s.request.header.dataId ≠ 0)
    (connect : RequestHandlerDb.processRequest (receiver json g o auth) s = (none, s₁))
    (insert : s₁.call ((receiver json g o auth).insertRecordToDb s₁.request) = (first, s₂))
    (duplicate : DBErrorTemplates.duplicateID.equals first = true)
    (checked : RequestHandlerDbCheckRequest.processRequest (receiver json g o auth) s₂ = (err, t)) :
    t.world.rest.files = s.world.rest.files ∧ t.world.db = s.world.db ∧ t.request = s.request ∧
      Compared json o s err ∧
      ∃ d, Short s.request ∧ document json g s.request = some d ∧ putIn s d = .duplicateKey := by
  obtain ⟨hfiles, hreq, hinserted⟩ := insert_inserted hid connect insert
  obtain ⟨hq, -⟩ := check_cases (keeps_db json g o auth) checked
  obtain ⟨hfiles', hcompared⟩ := check_compared checked
  cases hinserted with
  | done => cases duplicate
  | failed e code => exact absurd ((ErrorTemplate.equals_some _ _).mp duplicate).symm code
  | duplicate e d code short read result db =>
    exact ⟨hfiles'.trans hfiles, Eq.trans hq.world db, hq.request.trans hreq, hcompared.congr hreq db,
      d, short, read, result⟩

end Insertion

theorem dbWrite_recorded (hid : s.request.header.dataId ≠ 0)
    (h : RequestHandlerDbWrite.processRequest (receiver json g o auth) s = (err, t)) :
    t.world.rest.files = s.world.rest.files ∧ Recorded json g o s t err := by
  cases dbWrite_cases h with
  | processed before => exact ⟨rfl, .processed before rfl⟩
  | unconnected e _ _ connect =>
    obtain ⟨hfiles, hfail⟩ := connect_files connect
    exact ⟨hfiles, .failed e (.inr (.inl (hfail e rfl)))⟩
  | inserted first _ s₁ _ _ connect insert unlike answer =>
    obtain ⟨hfiles, hreq, hinserted⟩ := insert_inserted hid connect insert
    refine ⟨hfiles, ?_⟩
    cases hinserted with
    | done d new short read result db =>
      cases answer
      exact .inserted d new short read result db hreq
    | duplicate e d code => exact absurd ((ErrorTemplate.equals_some _ _).mpr code.symm) unlike
    | failed e code db why =>
      obtain ⟨e', he', -⟩ := dbErrorToReceiverError_some e
      cases he'.symm.trans answer
      exact .failed e' (why.imp_right (fun hw => hw.imp_left failing_of_unreliable))
  | ignored first check s₁ s₂ s₃ _ connect insert duplicate checked warning =>
    obtain ⟨hfiles, hdb, hreq, hcompared, d, short, read, result⟩ :=
      duplicate_compared hid connect insert duplicate checked
    refine ⟨hfiles, ?_⟩
    cases hcompared with
    | missing => cases warning
    | same record _ record_eq equal => exact .same d record short read result record_eq equal hdb (by rw [hreq])
    | different => exact absurd warning (by decide)
    | failed e fromDb => exact absurd warning (fromDb_not_warning fromDb)
  | compared first _ s₁ s₂ _ _ connect insert duplicate checked silent =>
    obtain ⟨hfiles, hdb, hreq, hcompared, d, short, read, result⟩ :=
      duplicate_compared hid connect insert duplicate checked
    refine ⟨hfiles, ?_⟩
    cases hcompared with
    | missing _ record_eq => exact .known d short read result record_eq hdb hreq
    | same => exact absurd rfl silent
    | different record _ record_eq differ => exact .different d record read result record_eq differ hreq
    | failed e _ why => exact .failed e (why.imp_right .inl)

section Frames

theorem putIn_congr (hreq : t.request.header = s.request.header) (hdb : t.world.db = s.world.db) :
    putIn t = putIn s := by
  funext d
  simp only [putIn, put, dataCollection, docs, hreq, hdb]

theorem short_congr {r r' : Request} (h : r'.header = r.header) : Short r' ↔ Short r := by
  simp only [Short, dataCollection, h]

end Frames

section Answers

open RequestsDispatcher

/-- The producer is answered without an error. -/
def Answered (r : Request) (err : Option Error) : Prop :=
  (createResponseToRequest r err).errorCode = .noError ∨ (createResponseToRequest r err).errorCode = .warning

instance (r : Request) (err : Option Error) : Decidable (Answered r err) :=
  inferInstanceAs (Decidable (_ ∨ _))

theorem answered_none (r : Request) : Answered r none := by
  unfold Answered createResponseToRequest
  split
  · exact .inl rfl
  · simp only
    split
    · exact .inr rfl
    · exact .inl rfl

theorem not_answered_different {r : Request} (h : r.responseMessage = []) :
    ¬ Answered r (some (ReceiverErrorTemplates.badRequest.generate "already have record with same id")) := by
  simp only [Answered, createResponseToRequest, h, if_true]
  decide

end Answers

section Again

variable {d : Document J} {u v : Served (World J (Machine ω))}

theorem write_again (ho : ¬ o.Failing) (hid : v.request.header.dataId ≠ 0) (hshort : Short v.request)
    (hnew : v.request.alreadyProcessed = false) (hmessage : foundIn json o v ≠ none → v.request.responseMessage = [])
    (hd : document json g v.request = some d)
    (hput : putIn v d = .duplicateKey ∨ ∃ new, putIn v d = .done new)
    (h : RequestHandlerDbWrite.processRequest (receiver json g o auth) v = (err, t)) :
    t.world.db = v.world.db ∧ Answered t.request err ↔
      (∀ record, foundIn json o v = some record → sameRequestInRecord v.request record = true) ∧
        putIn v d = .duplicateKey := by
  cases (dbWrite_recorded hid h).2 with
  | processed before unchanged => simp [hnew] at before
  | inserted d' new short read result db request =>
    cases hd.symm.trans read
    constructor
    · rintro ⟨hdb, -⟩
      have hcol : docs (dataCollection v.request) v.world = new := by
        have := congrArg (fun b : Db J => b.collections (encodeColName (dataCollection v.request))) (hdb.symm.trans db)
        simpa [docs, Db.setCollection] using this
      exact absurd hcol.symm (put_done_ne result)
    · rintro ⟨-, hdup⟩
      cases hdup.symm.trans result
  | known d' short read result record_eq db request =>
    cases hd.symm.trans read
    exact ⟨fun _ => ⟨by simp [record_eq], result⟩, fun _ => ⟨db, answered_none _⟩⟩
  | same d' record short read result record_eq equal db request =>
    cases hd.symm.trans read
    exact ⟨fun _ => ⟨same_of_found record_eq equal, result⟩, fun _ => ⟨db, answered_none _⟩⟩
  | different d' record read result record_eq differ request =>
    refine ⟨fun hc => ?_, fun hc => absurd (hc.1 record record_eq) differ⟩
    rw [request] at hc
    exact absurd hc.2 (not_answered_different (hmessage (by simp [record_eq])))
  | failed e why =>
    obtain hs | hf | hall := why
    · exact absurd hshort hs
    · exact absurd hf ho
    · obtain hput | ⟨new, hput⟩ := hput <;> simp [hall d hd] at hput

structure FileThere (json : Json J) (o : Outside ω) (rounds : ℕ) (q : Processor) (root : Text)
    (u : Served (World J (Machine ω))) : Prop where
  hroot : FileProcessor.getRootFolder u.request = .ok root
  size : q = .write → u.request.header.dataSize ≠ 0
  there : (u.world.rest.files (fullName root u.request.getFileName)).isSome = true
  /-- A file that will be overwritten has the content that it is overwritten with. -/
  content : foundIn json o u = none → Enough q rounds u ∧
    u.world.rest.files (fullName root u.request.getFileName) = some (payload q u)

inductive FileAgain (json : Json J) (o : Outside ω) (u v : Served (World J (Machine ω))) :
    Option Error → Prop
  | overwritten (record_eq : foundIn json o u = none)
      (request : v.request = u.request.setResponseMessage "file has been overwritten" .warning) :
      FileAgain json o u v none
  | ignored (record : MessageMeta) (record_eq : foundIn json o u = some record)
      (equal : sameRequestInRecord u.request record = true)
      (processed : v.request.alreadyProcessed = true) : FileAgain json o u v none
  | different (record : MessageMeta) (record_eq : foundIn json o u = some record)
      (differ : ¬ sameRequestInRecord u.request record = true) (request : v.request = u.request) :
      FileAgain json o u v
        (some (ReceiverErrorTemplates.badRequest.generate "already have record with same id"))

section SetResponseMessage

variable {s : Served (World J (Machine ω))} {message : String} {type : ResponseMessageType}

theorem enough_setResponseMessage (q : Processor) (hreq : s.request = u.request.setResponseMessage message type)
    (hinput : s.input = u.input) : Enough q rounds s ↔ Enough q rounds u := by
  cases q <;> simp [Enough, hreq, hinput, Request.setResponseMessage]

theorem payload_setResponseMessage (q : Processor) (hreq : s.request = u.request.setResponseMessage message type)
    (hinput : s.input = u.input) : payload q s = payload q u := by
  cases q <;> simp [payload, hreq, hinput, Request.setResponseMessage]

end SetResponseMessage

variable (json g auth) in
theorem file_found {q : Processor} {root : Text} (ho : ¬ o.Failing) (hf : FileThere json o rounds q root u) :
    ∃ e s, processFile (receiver json g o auth) rounds q false u = some (some e, s) ∧
      IOErrorTemplates.fileAlreadyExists.equals (some e) = true ∧ s.request = u.request ∧ s.input = u.input ∧
      s.world.db = u.world.db ∧ s.world.rest.files = u.world.rest.files := by
  obtain ⟨e, s, hfile⟩ : ∃ err t, processFile (receiver json g o auth) rounds q false u = some (err, t) :=
    processFile_isSome ho hf.hroot (.inr ⟨rfl, hf.there⟩)
  have hframe := frame_processFile (keeps_db json g o auth) hfile
  cases processFile_stored hfile with
  | stored root' hroot new enough files =>
    cases hf.hroot.symm.trans hroot
    have hthere := hf.there
    simp [new rfl] at hthere
  | exist e root' hroot code keep old size files input =>
    exact ⟨e, s, hfile, (ErrorTemplate.equals_some _ _).mpr code.symm, hframe.request, input, hframe.world, files⟩
  | failed e code why =>
    obtain hfail | hno | ⟨rfl, hz⟩ := why
    · exact absurd hfail ho
    · exact absurd hf.hroot (hno root)
    · exact absurd hz (hf.size rfl)

variable (json g auth) in
theorem file_overwritten {q : Processor} {root : Text} {s : Served (World J (Machine ω))} (ho : ¬ o.Failing)
    (hroot : FileProcessor.getRootFolder s.request = .ok root) (henough : Enough q rounds s) :
    ∃ t, processFile (receiver json g o auth) rounds q true s = some (none, t) ∧ t.request = s.request ∧
      t.world.db = s.world.db ∧ t.world.rest.files =
        Function.update s.world.rest.files (fullName root s.request.getFileName) (some (payload q s)) := by
  obtain ⟨e, t, hfile⟩ : ∃ err t, processFile (receiver json g o auth) rounds q true s = some (err, t) :=
    processFile_isSome ho hroot (.inl henough)
  have hframe := frame_processFile (keeps_db json g o auth) hfile
  cases processFile_stored hfile with
  | stored root' hroot' new enough files =>
    cases hroot.symm.trans hroot'
    exact ⟨t, hfile, hframe.request, hframe.world, files⟩
  | exist e root' hroot' code keep old size files input => cases keep
  | failed e code why =>
    obtain hfail | hno | ⟨rfl, hz⟩ := why
    · exact absurd hfail ho
    · exact absurd hroot (hno root)
    · exact absurd hz henough

theorem file_again {q : Processor} {root : Text} (ho : ¬ o.Failing) (hshort : Short u.request)
    (hf : FileThere json o rounds q root u) :
    ∃ err v, RequestHandlerFileProcess.processRequest (receiver json g o auth) rounds q u = some (err, v) ∧
      v.world.db = u.world.db ∧ v.world.rest.files = u.world.rest.files ∧ FileAgain json o u v err := by
  obtain ⟨e₁, s₁, hfile, hexist, hreq₁, hinput₁, hdb₁, hfiles₁⟩ := file_found json g auth ho hf
  have heq : RequestHandlerFileProcess.processRequest (receiver json g o auth) rounds q u =
      processFileExistSituation (receiver json g o auth) rounds q s₁ := by
    rw [RequestHandlerFileProcess.processRequest, hfile, Option.bind_some]
    exact if_pos hexist
  obtain ⟨⟨answer, s₂⟩, hcheck⟩ :
    ∃ x, RequestHandlerDbCheckRequest.processRequest (receiver json g o auth) s₁ = x := ⟨_, rfl⟩
  obtain ⟨hq₂, -⟩ := check_cases (keeps_db json g o auth) hcheck
  obtain ⟨hfiles₂, hcompared⟩ := check_compared hcheck
  have hdb₂ : s₂.world.db = u.world.db := Eq.trans hq₂.world hdb₁
  have hreq₂ : s₂.request = u.request := hq₂.request.trans hreq₁
  have hfiles : s₂.world.rest.files = u.world.rest.files := hfiles₂.trans hfiles₁
  rw [heq, processFileExistSituation, hcheck]
  cases hcompared.congr hreq₁ hdb₁ with
  | missing short record_eq =>
    obtain ⟨henough, hcontent⟩ := hf.content record_eq
    dsimp only
    generalize hs₃ : { s₂ with
      request := s₂.request.setResponseMessage "file has been overwritten" .warning } = s₃
    have hreq₃ : s₃.request = u.request.setResponseMessage "file has been overwritten" .warning := by
      rw [← hs₃, hreq₂]
    have hinput₃ : s₃.input = u.input := by
      rw [← hs₃]
      exact hq₂.input.trans hinput₁
    have hroot₃ : FileProcessor.getRootFolder s₃.request = .ok root := by
      rw [hreq₃]
      exact hf.hroot
    have hname : s₃.request.getFileName = u.request.getFileName := by rw [hreq₃]; rfl
    obtain ⟨v, hagain, hreq₄, hdb₄, hfiles₄⟩ := file_overwritten json g auth ho hroot₃
      ((enough_setResponseMessage q hreq₃ hinput₃).mpr henough)
    refine ⟨none, v, hagain, ?_, ?_, .overwritten record_eq (hreq₄.trans hreq₃)⟩
    · rw [hdb₄, ← hs₃, hdb₂]
    · rw [hfiles₄, payload_setResponseMessage q hreq₃ hinput₃, hname, ← hcontent, ← hs₃, hfiles,
        Function.update_eq_self]
  | same record short record_eq equal => exact ⟨none, _, rfl, hdb₂, hfiles, .ignored record record_eq equal rfl⟩
  | different record short record_eq differ =>
    exact ⟨_, _, rfl, hdb₂, hfiles, .different record record_eq differ hreq₂⟩
  | failed e fromDb why =>
    obtain hs | hfail := why
    · exact absurd hshort hs
    · exact absurd hfail ho

def fileHandlers : Option Processor → List Handler
  | none => []
  | some .write => [.fileWrite]
  | some .receive => [.fileReceive]

theorem fileHandler_processRequest (q : Processor) : ∃ x, fileHandlers (some q) = [x] ∧
    ∀ (σ : Type) (b : Backend σ) (rounds : ℕ) (s : Served σ),
      x.processRequest b rounds s = RequestHandlerFileProcess.processRequest b rounds q s := by
  cases q
  · exact ⟨.fileWrite, rfl, fun _ _ _ _ => rfl⟩
  · exact ⟨.fileReceive, rfl, fun _ _ _ _ => rfl⟩

/-- The request is known by its record, or its record cannot be compared. -/
def Known (json : Json J) (o : Outside ω) (u : Served (World J (Machine ω))) : Prop :=
  ∀ record, foundIn json o u = some record → sameRequestInRecord u.request record = true

/-- The document of the request has a result in the collection. -/
def Placed (json : Json J) (g : Settings) (u : Served (World J (Machine ω))) : Prop :=
  ∃ d, document json g u.request = some d ∧ (putIn u d = .duplicateKey ∨ ∃ new, putIn u d = .done new)

theorem handle_dbWrite : handle (receiver json g o auth) rounds [.dbWrite] u =
    some (RequestHandlerDbWrite.processRequest (receiver json g o auth) u) := by
  obtain ⟨⟨err, t⟩, h⟩ : ∃ x, RequestHandlerDbWrite.processRequest (receiver json g o auth) u = x := ⟨_, rfl⟩
  rw [handle, Handler.processRequest, h, Option.bind_some]
  cases err <;> rfl

theorem handle_dbWrite_again {d : Document J} (ho : ¬ o.Failing) (hid : u.request.header.dataId ≠ 0)
    (hshort : Short u.request)
    (hnew : u.request.alreadyProcessed = false) (hmessage : foundIn json o u ≠ none → u.request.responseMessage = [])
    (hd : document json g u.request = some d)
    (hput : putIn u d = .duplicateKey ∨ ∃ new, putIn u d = .done new) :
    ∃ err t, handle (receiver json g o auth) rounds [.dbWrite] u = some (err, t) ∧
      t.world.rest.files = u.world.rest.files ∧
      (t.world.db = u.world.db ∧ Answered t.request err ↔ Known json o u ∧ putIn u d = .duplicateKey) := by
  obtain ⟨⟨err, t⟩, h⟩ : ∃ x, RequestHandlerDbWrite.processRequest (receiver json g o auth) u = x := ⟨_, rfl⟩
  exact ⟨err, t, by rw [handle_dbWrite, h], (dbWrite_recorded hid h).1,
    write_again ho hid hshort hnew hmessage hd hput h⟩

theorem run_again {p : Option Processor} (ho : ¬ o.Failing) (hid : u.request.header.dataId ≠ 0)
    (hshort : Short u.request) (hnew : u.request.alreadyProcessed = false)
    (hmessage : u.request.responseMessage = [])
    (hfile : ∀ q, p = some q → ∃ root, FileThere json o rounds q root u)
    (hrecord : (p ≠ none ∧ foundIn json o u ≠ none ∧ Known json o u) ∨ Placed json g u) :
    ∃ err t, handle (receiver json g o auth) rounds (fileHandlers p ++ [.dbWrite]) u = some (err, t) ∧
      ((t.world.db = u.world.db ∧ t.world.rest.files = u.world.rest.files ∧ Answered t.request err) ↔
        Known json o u ∧ ((p ≠ none ∧ foundIn json o u ≠ none) ∨
          ∃ d, document json g u.request = some d ∧ putIn u d = .duplicateKey)) := by
  cases p with
  | none =>
    obtain ⟨hp, -⟩ | ⟨d, hd, hput⟩ := hrecord
    · exact absurd rfl hp
    obtain ⟨err, t, hrun, hfiles, hiff⟩ := handle_dbWrite_again ho hid hshort hnew (fun _ => hmessage) hd hput
    exact ⟨err, t, hrun, by simpa [hfiles, hd] using hiff⟩
  | some q =>
    obtain ⟨root, hf⟩ := hfile q rfl
    obtain ⟨x, hx, hproc⟩ := fileHandler_processRequest q
    obtain ⟨err, v, hrun, hdb, hfiles, hagain⟩ :
        ∃ err v, RequestHandlerFileProcess.processRequest (receiver json g o auth) rounds q u =
            some (err, v) ∧ v.world.db = u.world.db ∧ v.world.rest.files = u.world.rest.files ∧
          FileAgain json o u v err := file_again ho hshort hf
    rw [hx, List.singleton_append, handle, hproc, hrun, Option.bind_some]
    cases hagain with
    | overwritten record_eq request =>
      obtain ⟨-, hne, -⟩ | ⟨d, hd, hput⟩ := hrecord
      · exact absurd record_eq hne
      have hheader : v.request.header = u.request.header := by rw [request]; rfl
      have hfound : foundIn json o v = none := (foundIn_congr hheader hdb).trans record_eq
      have hd' : document json g v.request = some d := by
        rw [request]
        exact hd
      have hid' : v.request.header.dataId ≠ 0 := by rwa [hheader]
      have hnew' : v.request.alreadyProcessed = false := by rw [request]; exact hnew
      rw [← putIn_congr hheader hdb] at hput ⊢
      obtain ⟨err, t, hwrite, hfiles', hiff⟩ := handle_dbWrite_again ho hid' ((short_congr hheader).mpr hshort) hnew'
        (fun hne => absurd hfound hne) hd' hput
      refine ⟨err, t, hwrite, ?_⟩
      rw [← hdb, ← hfiles]
      simpa [hfiles', hd, Known, hfound, record_eq] using hiff
    | ignored record record_eq equal processed =>
      refine ⟨none, v, ?_, ?_⟩
      · dsimp only
        rw [handle_dbWrite, RequestHandlerDbWrite.processRequest, if_pos processed]
      · have hknown : Known json o u := same_of_found record_eq equal
        simp [hdb, hfiles, answered_none, hknown, record_eq]
    | different record record_eq differ request =>
      refine ⟨_, v, rfl, ?_⟩
      have hno : ¬ Known json o u := fun hk => differ (hk record record_eq)
      have hans := not_answered_different (r := v.request) (by rw [request, hmessage])
      simp [hno, hans]

end Again

section First

variable {u v : Served (World J (Machine ω))}

/-- What a file handler without an error leaves behind: the file with the payload, or a
file that belongs to a known request. -/
structure Filed (json : Json J) (o : Outside ω) (rounds : ℕ) (q : Processor) (root : Text)
    (u v : Served (World J (Machine ω))) : Prop where
  hroot : FileProcessor.getRootFolder u.request = .ok root
  size : q = .write → u.request.header.dataSize ≠ 0
  there : (v.world.rest.files (fullName root u.request.getFileName)).isSome = true
  how : (Enough q rounds u ∧
      v.world.rest.files (fullName root u.request.getFileName) = some (payload q u) ∧
      ∃ message type, v.request = { u.request with
        responseMessage := message, responseMessageType := type }) ∨
    (Short u.request ∧ foundIn json o u ≠ none ∧ Known json o u ∧ v.request.alreadyProcessed = true)

theorem file_exists {q : Processor} (hfile : processFile (receiver json g o auth) rounds q false u =
      some (err, v)) (hexist : IOErrorTemplates.fileAlreadyExists.equals err = true) :
    v.world.rest.files = u.world.rest.files ∧ v.input = u.input ∧
      (q = .write → u.request.header.dataSize ≠ 0) ∧
      ∃ root, FileProcessor.getRootFolder u.request = .ok root ∧
        (u.world.rest.files (fullName root u.request.getFileName)).isSome = true := by
  cases processFile_stored hfile with
  | stored root hroot new enough files => simp at hexist
  | exist e root hroot code keep old size files input => exact ⟨files, input, size, root, hroot, old⟩
  | failed e code why => exact absurd ((ErrorTemplate.equals_some _ _).mp hexist).symm code

theorem file_first {q : Processor}
    (h : RequestHandlerFileProcess.processRequest (receiver json g o auth) rounds q u = some (none, v)) :
    v.world.db = u.world.db ∧ ∃ root, Filed json o rounds q root u v := by
  have hkeep := keeps_db json g o auth
  cases fileProcess_cases h with
  | written _ _ file new =>
    have hframe := frame_processFile hkeep file
    refine ⟨hframe.world, ?_⟩
    cases processFile_stored file with
    | stored root hroot new enough files =>
      refine ⟨root, hroot, fun hq => by subst hq; exact enough, ?_, .inl ⟨enough, ?_, _, _, hframe.request⟩⟩
      · simp [files]
      · simp [files]
  | overwritten _ first s₁ s₂ _ file exist check again =>
    obtain ⟨hfiles₁, hinput₁, hsize, root, hroot, -⟩ := file_exists file exist
    have hframe₁ := frame_processFile hkeep file
    obtain ⟨hq₂, -⟩ := check_cases hkeep check
    obtain ⟨hfiles₂, -⟩ := check_compared check
    have hframe₃ := frame_processFile hkeep again
    have hreq₂ : s₂.request = u.request := hq₂.request.trans hframe₁.request
    have hinput₂ : s₂.input = u.input := hq₂.input.trans hinput₁
    refine ⟨(Eq.trans hframe₃.world hq₂.world).trans hframe₁.world, ?_⟩
    cases processFile_stored again with
    | stored root' hroot' new enough files =>
      rw [hreq₂] at hroot' files
      cases hroot.symm.trans hroot'
      have hwarned : s₂.request.setResponseMessage "file has been overwritten" .warning =
          u.request.setResponseMessage "file has been overwritten" .warning := by rw [hreq₂]
      have henough : Enough q rounds u := (enough_setResponseMessage
        (s := { s₂ with request := s₂.request.setResponseMessage "file has been overwritten" .warning })
        q hwarned hinput₂).mp enough
      have hcontent : v.world.rest.files (fullName root u.request.getFileName) = some (payload q u) := by
        rw [files]
        cases q <;> simp [payload, hinput₂, Request.setResponseMessage, Request.getFileName]
      refine ⟨root, hroot, hsize, by rw [hcontent]; rfl, .inl ⟨henough, hcontent, ?_⟩⟩
      exact ⟨_, _, by rw [hframe₃.request, hreq₂]; rfl⟩
  | duplicate first check s₁ s₂ file exist checked warning =>
    obtain ⟨hfiles₁, hinput₁, hsize, root, hroot, hold⟩ := file_exists file exist
    have hframe₁ := frame_processFile hkeep file
    have hdb₁ : s₁.world.db = u.world.db := hframe₁.world
    obtain ⟨hq₂, -⟩ := check_cases hkeep checked
    obtain ⟨hfiles₂, hcompared⟩ := check_compared checked
    refine ⟨Eq.trans hq₂.world hdb₁, root, hroot, hsize, ?_, .inr ?_⟩
    · rw [hfiles₂, hfiles₁]
      exact hold
    · cases hcompared.congr hframe₁.request hdb₁ with
      | missing short record_eq => simp at warning
      | same record short record_eq equal =>
        exact ⟨short, by simp [record_eq], same_of_found record_eq equal, rfl⟩
      | different record short record_eq differ => exact absurd warning (by decide)
      | failed e fromDb why => exact absurd warning (fromDb_not_warning fromDb)

structure Done (json : Json J) (g : Settings) (o : Outside ω) (rounds : ℕ) (p : Option Processor)
    (u t : Served (World J (Machine ω))) : Prop where
  short : Short u.request
  file : ∀ q, p = some q → ∃ root, FileProcessor.getRootFolder u.request = .ok root ∧
    (q = .write → u.request.header.dataSize ≠ 0) ∧
    (t.world.rest.files (fullName root u.request.getFileName)).isSome = true ∧
    ((foundIn json o u ≠ none ∧ t.world.db = u.world.db) ∨ (Enough q rounds u ∧
      t.world.rest.files (fullName root u.request.getFileName) = some (payload q u)))
  record : (t.world.db = u.world.db ∧ Known json o u ∧ ((p ≠ none ∧ foundIn json o u ≠ none) ∨
      ∃ d, document json g u.request = some d ∧ putIn u d = .duplicateKey)) ∨
    ∃ d new, document json g u.request = some d ∧ putIn u d = .done new ∧
      t.world.db = u.world.db.setCollection (encodeColName (dataCollection u.request)) new

theorem write_first (hid : v.request.header.dataId ≠ 0) (hnew : v.request.alreadyProcessed = false)
    (h : RequestHandlerDbWrite.processRequest (receiver json g o auth) v = (none, t)) :
    Short v.request ∧
      ((t.world.db = v.world.db ∧ Known json o v ∧
        ∃ d, document json g v.request = some d ∧ putIn v d = .duplicateKey) ∨
      ∃ d new, document json g v.request = some d ∧ putIn v d = .done new ∧
        t.world.db = v.world.db.setCollection (encodeColName (dataCollection v.request)) new) := by
  cases (dbWrite_recorded hid h).2 with
  | processed before unchanged => simp [hnew] at before
  | inserted d new short read result db request => exact ⟨short, .inr ⟨d, new, read, result, db⟩⟩
  | known d short read result record_eq db request =>
    exact ⟨short, .inl ⟨db, by simp [Known, record_eq], d, read, result⟩⟩
  | same d record short read result record_eq equal db request =>
    exact ⟨short, .inl ⟨db, same_of_found record_eq equal, d, read, result⟩⟩

theorem run_first {p : Option Processor} (hid : u.request.header.dataId ≠ 0)
    (hnew : u.request.alreadyProcessed = false)
    (h : handle (receiver json g o auth) rounds (fileHandlers p ++ [.dbWrite]) u = some (none, t)) :
    Done json g o rounds p u t := by
  cases p with
  | none =>
    rw [fileHandlers, List.nil_append, handle_dbWrite] at h
    obtain ⟨short, hrecord⟩ := write_first hid hnew (Option.some.inj h)
    exact ⟨short, nofun, hrecord.imp_left (fun ⟨hdb, hk, hd⟩ => ⟨hdb, hk, .inr hd⟩)⟩
  | some q =>
    obtain ⟨x, hx, hproc⟩ := fileHandler_processRequest q
    rw [hx] at h
    obtain ⟨v, hv, hw⟩ := handle_append _ _ h
    have hv' := handle_single hv
    rw [hproc] at hv'
    obtain ⟨hdb, root, hfiled⟩ := file_first hv'
    rw [handle_dbWrite] at hw
    replace hw := Option.some.inj hw
    obtain ⟨henough, hcontent, message, type, hreq⟩ | ⟨hshort, hfound, hknown, hprocessed⟩ := hfiled.how
    · have hheader : v.request.header = u.request.header := by rw [hreq]
      have hid' : v.request.header.dataId ≠ 0 := by rwa [hheader]
      have hfiles := (dbWrite_recorded hid' hw).1
      obtain ⟨short, hrecord⟩ := write_first hid' (by rw [hreq]; exact hnew) hw
      refine ⟨(short_congr hheader).mp short, fun q' hq' => ?_, ?_⟩
      · cases hq'
        rw [hfiles]
        exact ⟨root, hfiled.hroot, hfiled.size, hfiled.there, .inr ⟨henough, hcontent⟩⟩
      · rw [putIn_congr hheader hdb, hdb] at hrecord
        rw [hreq] at hrecord
        refine hrecord.imp_left (fun ⟨hdb', hk, hd⟩ => ⟨hdb', ?_, .inr hd⟩)
        intro record hrecord
        have hk' := hk record ((foundIn_congr hheader hdb).trans hrecord)
        rw [hreq] at hk'
        exact hk'
    · rw [RequestHandlerDbWrite.processRequest, if_pos hprocessed] at hw
      cases hw
      refine ⟨hshort, fun q' hq' => ?_, .inl ⟨hdb, hknown, .inl ⟨by simp, hfound⟩⟩⟩
      cases hq'
      exact ⟨root, hfiled.hroot, hfiled.size, hfiled.there, .inl ⟨hfound, hdb⟩⟩

end First

end Asapo.Receiver.Resending
