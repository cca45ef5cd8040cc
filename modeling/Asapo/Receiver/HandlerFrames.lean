import Asapo.Receiver.Handlers

namespace Asapo.Receiver

variable {σ α : Type} {b : Backend σ} {rounds : ℕ} {s t : Served σ} {err : Option Error} {K : σ → α}

/-- The operations that a transfer of data uses before its record is written leave a part
of the world as it is. -/
structure Backend.Keeps (b : Backend σ) (K : σ → α) : Prop where
  receiveFault : ∀ n w, K (b.receiveFault n w).2 = K w
  secondaryAuthorize : ∀ r w, K (b.secondaryAuthorize r w).2 = K w
  prepareDataBuffer : ∀ n w, K (b.prepareDataBuffer n w).2 = K w
  unlockDataBuffer : ∀ n w, K (b.unlockDataBuffer n w) = K w
  openFile : ∀ root fname overwrite w, K (b.openFile root fname overwrite w).2 = K w
  allocateArray : ∀ n w, K (b.allocateArray n w).2 = K w
  writeFile : ∀ bytes w, K (b.writeFile bytes w).2 = K w
  closeFile : ∀ w, K (b.closeFile w).2 = K w
  connectToDb : ∀ r w, K (b.connectToDb r w).2 = K w
  getRecordFromDb : ∀ r w, K (b.getRecordFromDb r w).2 = K w

theorem Backend.keeps_nothing (b : Backend σ) : b.Keeps (fun _ => ()) := by
  constructor <;> intros <;> rfl

structure Frame (K : σ → α) (s t : Served σ) : Prop where
  world : K t.world = K s.world
  request : t.request = s.request

structure Quiet (K : σ → α) (s t : Served σ) : Prop extends Frame K s t where
  input : t.input = s.input

theorem Frame.trans {u : Served σ} (h : Frame K s t) (h' : Frame K t u) : Frame K s u :=
  ⟨h'.world.trans h.world, h'.request.trans h.request⟩

theorem Quiet.refl (s : Served σ) : Quiet K s s := ⟨⟨rfl, rfl⟩, rfl⟩

theorem Quiet.trans {u : Served σ} (h : Quiet K s t) (h' : Quiet K t u) : Quiet K s u :=
  ⟨h.toFrame.trans h'.toFrame, h'.input.trans h.input⟩

theorem quiet_call {β : Type} {op : σ → β × σ} {x : β} (h : ∀ w, K (op w).2 = K w)
    (hc : s.call op = (x, t)) : Quiet K s t := by
  cases hc
  exact ⟨⟨h s.world, rfl⟩, rfl⟩

/-- A transfer takes at most the bytes that it asked for, and without an error all of them. -/
structure Received (K : σ → α) (s : Served σ) (n : ℕ) (bytes : Bytes) (err : Option Error)
    (t : Served σ) : Prop extends Frame K s t where
  input : s.input = bytes ++ t.input
  length_le : bytes.length ≤ n
  complete : err = none → bytes.length = n

theorem backend_receive_cases {n : ℕ} {input rest bytes : Bytes} {w w' : σ} (hb : b.Keeps K)
    (h : b.receive n input w = ((bytes, err), rest, w')) :
    K w' = K w ∧ input = bytes ++ rest ∧ bytes.length ≤ n ∧ (err = none → bytes.length = n) := by
  have hk := hb.receiveFault n w
  unfold Backend.receive at h
  split at h
  · rename_i hf
    rw [hf] at hk
    cases h
    refine ⟨hk, (List.take_append_drop _ _).symm, ?_, nofun⟩
    rw [List.length_take]
    omega
  · rename_i hf
    rw [hf] at hk
    split at h <;> cases h
    · rename_i hl
      refine ⟨hk, (List.take_append_drop _ _).symm, ?_, fun _ => ?_⟩ <;> rw [List.length_take] <;> omega
    · rename_i hl
      exact ⟨hk, by simp, by omega, nofun⟩

theorem receive_cases {n : ℕ} {bytes : Bytes} (hb : b.Keeps K) (h : s.receive b n = ((bytes, err), t)) :
    Received K s n bytes err t := by
  unfold Served.receive at h
  split at h
  rename_i hr
  cases h
  obtain ⟨hk, hi, hl, hc⟩ := backend_receive_cases hb hr
  exact ⟨⟨hk, rfl⟩, hi, hl, hc⟩

theorem quiet_writeDataToFile {root fname : Text} {data : Bytes} {overwrite : Bool} (hb : b.Keeps K)
    (h : WriteFileProcessor.writeDataToFile b root fname data overwrite s = (err, t)) : Quiet K s t := by
  unfold WriteFileProcessor.writeDataToFile at h
  split at h
  · rename_i ho
    cases h
    exact quiet_call (hb.openFile root fname overwrite) ho
  · rename_i s₁ ho
    have h₁ := quiet_call (hb.openFile root fname overwrite) ho
    split at h
    · rename_i hw
      cases h
      exact h₁.trans (quiet_call (hb.writeFile data) hw)
    · rename_i s₂ hw
      exact (h₁.trans (quiet_call (hb.writeFile data) hw)).trans (quiet_call hb.closeFile h)

theorem quiet_writeFile {overwrite : Bool} (hb : b.Keeps K)
    (h : WriteFileProcessor.processFile b overwrite s = (err, t)) : Quiet K s t := by
  unfold WriteFileProcessor.processFile at h
  split at h
  · cases h
    exact .refl s
  · split at h
    · cases h
      exact .refl s
    · exact quiet_writeDataToFile hb h

inductive Looped (b : Backend σ) (bufSize length : ℕ) :
    ℕ → ℕ → Served σ → Option Error → Served σ → Prop
  | done {rounds written : ℕ} {s : Served σ} (enough : length ≤ written) :
      Looped b bufSize length rounds written s none (s.call b.closeFile).2
  | unread {rounds written : ℕ} {s s₁ : Served σ} {bytes : Bytes} {err : Option Error} (more : written < length)
      (receive : s.receive b (min bufSize (length - written)) = ((bytes, err), s₁))
      (failed : GeneralErrorTemplates.endOfFile.differs err = true) :
      Looped b bufSize length (rounds + 1) written s err (s₁.call b.closeFile).2
  | unwritten {rounds written : ℕ} {s s₁ s₂ : Served σ} {bytes : Bytes} {err : Option Error} {e : Error}
      (more : written < length) (receive : s.receive b (min bufSize (length - written)) = ((bytes, err), s₁))
      (ignored : ¬ GeneralErrorTemplates.endOfFile.differs err = true)
      (write : s₁.call (b.writeFile bytes) = (some e, s₂)) :
      Looped b bufSize length (rounds + 1) written s (some e) (s₂.call b.closeFile).2
  | round {rounds written : ℕ} {s s₁ s₂ t : Served σ} {bytes : Bytes} {err err' : Option Error}
      (more : written < length) (receive : s.receive b (min bufSize (length - written)) = ((bytes, err), s₁))
      (ignored : ¬ GeneralErrorTemplates.endOfFile.differs err = true)
      (write : s₁.call (b.writeFile bytes) = (none, s₂))
      (rest : Looped b bufSize length rounds (written + bytes.length) s₂ err' t) :
      Looped b bufSize length (rounds + 1) written s err' t

theorem looped_of_receiveLoop {bufSize length written : ℕ}
    (h : ReceiveFileProcessor.receiveLoop b bufSize length rounds written s = some (err, t)) :
    Looped b bufSize length rounds written s err t := by
  induction rounds generalizing written s with
  | zero =>
    unfold ReceiveFileProcessor.receiveLoop at h
    split at h <;> cases h
    rename_i hle
    exact .done (Nat.not_lt.mp hle)
  | succ rounds ih =>
    unfold ReceiveFileProcessor.receiveLoop at h
    split at h
    · rename_i hlt
      generalize hr : s.receive b (min bufSize (length - written)) = r at h
      obtain ⟨⟨bytes, e⟩, s₁⟩ := r
      simp only at h
      split at h
      · rename_i hd
        cases h
        exact .unread hlt hr hd
      · rename_i hd
        split at h
        · rename_i hw
          cases h
          exact .unwritten hlt hr hd hw
        · rename_i hw
          exact .round hlt hr hd hw (ih h)
    · rename_i hle
      cases h
      exact .done (Nat.not_lt.mp hle)

theorem receiveLoop_cases {bufSize length written : ℕ} (hb : b.Keeps K) (hle : written ≤ length)
    (h : ReceiveFileProcessor.receiveLoop b bufSize length rounds written s = some (err, t)) :
    Frame K s t ∧
      (err = none → ∃ bytes, s.input = bytes ++ t.input ∧ bytes.length = length - written) := by
  have hclose : ∀ u : Served σ, Quiet K u (u.call b.closeFile).2 := fun u => quiet_call hb.closeFile rfl
  have hlooped := looped_of_receiveLoop h
  clear h
  induction hlooped with
  | @done _ _ s enough => exact ⟨(hclose s).toFrame, fun _ => ⟨[], by simp [(hclose s).input], by simp; omega⟩⟩
  | @unread _ _ _ s₁ _ _ more receive failed =>
    refine ⟨(receive_cases hb receive).toFrame.trans (hclose s₁).toFrame, ?_⟩
    rintro rfl
    cases failed
  | @unwritten _ _ _ _ s₂ bytes _ _ more receive ignored write =>
    have hq := quiet_call (hb.writeFile bytes) write
    exact ⟨((receive_cases hb receive).toFrame.trans hq.toFrame).trans (hclose s₂).toFrame, nofun⟩
  | @round _ _ _ _ _ _ bytes _ _ more receive ignored write rest ih =>
    have hrec := receive_cases hb receive
    have hq := quiet_call (hb.writeFile bytes) write
    have hlen := hrec.length_le
    obtain ⟨hf, hin⟩ := ih (by omega)
    refine ⟨(hrec.toFrame.trans hq.toFrame).trans hf, fun he => ?_⟩
    obtain ⟨rest, hrest, hlength⟩ := hin he
    refine ⟨bytes ++ rest, ?_, ?_⟩
    · rw [hrec.input, ← hq.input, hrest, List.append_assoc]
    · rw [List.length_append]
      omega

theorem frame_receiveFile {overwrite : Bool} (hb : b.Keeps K)
    (h : ReceiveFileProcessor.processFile b rounds overwrite s = some (err, t)) : Frame K s t ∧
      (err = none → ∃ bytes, s.input = bytes ++ t.input ∧ bytes.length = s.request.header.dataSize) := by
  unfold ReceiveFileProcessor.processFile at h
  split at h
  · cases h
    exact ⟨⟨rfl, rfl⟩, nofun⟩
  · rename_i root _
    unfold ReceiveFileProcessor.receiveDataToFile at h
    split at h
    · rename_i ho
      cases h
      exact ⟨(quiet_call (hb.openFile root _ overwrite) ho).toFrame, nofun⟩
    · rename_i s₁ ho
      have h₁ := quiet_call (hb.openFile root _ overwrite) ho
      extract_lets bufSize at h
      split at h
      · rename_i ha
        cases h
        exact ⟨(h₁.trans (quiet_call (hb.allocateArray bufSize) ha)).toFrame, nofun⟩
      · rename_i s₂ ha
        have h₂ := h₁.trans (quiet_call (hb.allocateArray bufSize) ha)
        obtain ⟨hf, hin⟩ := receiveLoop_cases hb (Nat.zero_le _) h
        exact ⟨h₂.toFrame.trans hf, fun he => h₂.input ▸ hin he⟩

open RequestHandlerFileProcess in
theorem frame_processFile {p : Processor} {overwrite : Bool} (hb : b.Keeps K)
    (h : processFile b rounds p overwrite s = some (err, t)) : Frame K s t := by
  cases p with
  | write => exact (quiet_writeFile hb (Option.some.inj h)).toFrame
  | receive => exact (frame_receiveFile hb h).1

def FromDb (e : Error) : Prop :=
  e.code = ReceiverErrorTemplates.badRequest.code ∨ e.code = ReceiverErrorTemplates.internalServerError.code

theorem fromDb_not_warning {e : Error} (h : FromDb e) :
    ¬ ReceiverErrorTemplates.warningDuplicatedRequest.equals (some e) = true := by
  rw [ErrorTemplate.equals_some]
  obtain h | h := h <;> rw [h] <;> decide

open RequestHandlerDb

theorem dbErrorToReceiverError_some (e : Error) :
    ∃ e', dbErrorToReceiverError (some e) = some e' ∧ FromDb e' := by
  refine ⟨_, rfl, ?_⟩
  unfold FromDb
  simp only [Error.setCause_code]
  split
  · exact .inl rfl
  · exact .inr rfl

theorem connect_cases (hb : b.Keeps K) (h : RequestHandlerDb.processRequest b s = (err, t)) :
    Quiet K s t ∧ ∀ e, err = some e → FromDb e := by
  unfold RequestHandlerDb.processRequest at h
  split at h
  rename_i fault s₁ hc
  cases h
  refine ⟨quiet_call (hb.connectToDb _) hc, fun e he => ?_⟩
  obtain ⟨f, -, rfl⟩ := Option.map_eq_some_iff.mp he
  cases f with
  | discovery message => exact .inr rfl
  | connect e =>
    obtain ⟨e', he', hf⟩ := dbErrorToReceiverError_some e
    simpa [connectError, he'] using hf

/-- What the search for a duplicate can end with: no record was found, the same request
was found, or an error. -/
inductive Checked (b : Backend σ) (s t : Served σ) : Option Error → Prop
  | noRecord (s₁ : Served σ) (e : Error) (same : s₁.request = s.request)
      (answer : s₁.call (b.getRecordFromDb s.request) = (.error e, t))
      (code : e.code = DBErrorTemplates.noRecord.code) : Checked b s t none
  | duplicate (s₁ : Served σ) (record : MessageMeta) (same : s₁.request = s.request)
      (answer : s₁.call (b.getRecordFromDb s.request) = (.ok record, t))
      (equal : RequestHandlerDbCheckRequest.sameRequestInRecord s.request record = true) :
      Checked b s t (some (ReceiverErrorTemplates.warningDuplicatedRequest.generate ""))
  | failed (e : Error) (fromDb : FromDb e) : Checked b s t (some e)

theorem check_cases (hb : b.Keeps K) (h : RequestHandlerDbCheckRequest.processRequest b s = (err, t)) :
    Quiet K s t ∧ Checked b s t err := by
  unfold RequestHandlerDbCheckRequest.processRequest at h
  split at h
  · rename_i e s₁ hc
    obtain ⟨hq, hf⟩ := connect_cases hb hc
    cases h
    exact ⟨hq, .failed e (hf e rfl)⟩
  · rename_i s₁ hc
    obtain ⟨hq, -⟩ := connect_cases hb hc
    split at h
    · rename_i e s₂ hg
      have hq' := hq.trans (quiet_call (hb.getRecordFromDb _) hg)
      cases h
      refine ⟨hq', ?_⟩
      split
      · rename_i hn
        refine .noRecord s₁ e hq.request (hq.request ▸ hg) ?_
        exact ((ErrorTemplate.equals_some _ _).mp hn).symm
      · obtain ⟨e', he', hf⟩ := dbErrorToReceiverError_some e
        exact he' ▸ .failed e' hf
    · rename_i record s₂ hg
      have hq₂ := quiet_call (hb.getRecordFromDb _) hg
      rw [hq.request] at hg
      split at h <;> cases h
      · rename_i hs
        rw [hq₂.request, hq.request] at hs
        exact ⟨hq.trans hq₂, .duplicate s₁ record hq.request hg hs⟩
      · exact ⟨hq.trans hq₂, .failed _ (.inl rfl)⟩

open RequestHandlerFileProcess

inductive FileServed (b : Backend σ) (rounds : ℕ) (p : Processor) (s : Served σ) :
    Option Error → Served σ → Prop
  | written (err : Option Error) (t : Served σ) (file : processFile b rounds p false s = some (err, t))
      (new : ¬ IOErrorTemplates.fileAlreadyExists.equals err = true) : FileServed b rounds p s err t
  | overwritten (err first : Option Error) (s₁ s₂ t : Served σ)
      (file : processFile b rounds p false s = some (first, s₁))
      (exist : IOErrorTemplates.fileAlreadyExists.equals first = true)
      (check : RequestHandlerDbCheckRequest.processRequest b s₁ = (none, s₂))
      (again : processFile b rounds p true
        { s₂ with request := s₂.request.setResponseMessage "file has been overwritten" .warning } =
          some (err, t)) : FileServed b rounds p s err t
  | duplicate (first check : Option Error) (s₁ s₂ : Served σ)
      (file : processFile b rounds p false s = some (first, s₁))
      (exist : IOErrorTemplates.fileAlreadyExists.equals first = true)
      (checked : RequestHandlerDbCheckRequest.processRequest b s₁ = (check, s₂))
      (warning : ReceiverErrorTemplates.warningDuplicatedRequest.equals check = true) :
      FileServed b rounds p s none { s₂ with
        request := { s₂.request with alreadyProcessed := true }.setResponseMessage
          "duplicated request, ignored" .warning }
  | failed (first : Option Error) (e : Error) (s₁ s₂ : Served σ)
      (file : processFile b rounds p false s = some (first, s₁))
      (exist : IOErrorTemplates.fileAlreadyExists.equals first = true)
      (checked : RequestHandlerDbCheckRequest.processRequest b s₁ = (some e, s₂)) :
      FileServed b rounds p s (some e) s₂

theorem fileProcess_cases {p : Processor}
    (h : RequestHandlerFileProcess.processRequest b rounds p s = some (err, t)) :
    FileServed b rounds p s err t := by
  unfold RequestHandlerFileProcess.processRequest at h
  obtain ⟨⟨first, s₁⟩, hf, h⟩ := Option.bind_eq_some_iff.mp h
  simp only at h
  split at h
  · rename_i hexist
    unfold processFileExistSituation at h
    split at h
    · rename_i s₂ hc
      exact .overwritten err first s₁ s₂ t hf hexist hc h
    · rename_i e s₂ hc
      split at h <;> cases h
      · rename_i hw
        exact .duplicate first (some e) s₁ s₂ hf hexist hc hw
      · exact .failed first e s₁ _ hf hexist hc
  · rename_i hnew
    cases h
    exact .written err t hf hnew

inductive Written (b : Backend σ) (s : Served σ) : Option Error → Served σ → Prop
  | processed (before : s.request.alreadyProcessed = true) : Written b s none s
  | unconnected (e : Error) (t : Served σ) (new : s.request.alreadyProcessed = false)
      (connect : RequestHandlerDb.processRequest b s = (some e, t)) : Written b s (some e) t
  | inserted (first err : Option Error) (s₁ t : Served σ) (new : s.request.alreadyProcessed = false)
      (connect : RequestHandlerDb.processRequest b s = (none, s₁))
      (insert : s₁.call (b.insertRecordToDb s₁.request) = (first, t))
      (unlike : ¬ DBErrorTemplates.duplicateID.equals first = true)
      (answer : RequestHandlerDb.dbErrorToReceiverError first = err) : Written b s err t
  | ignored (first check : Option Error) (s₁ s₂ s₃ : Served σ) (new : s.request.alreadyProcessed = false)
      (connect : RequestHandlerDb.processRequest b s = (none, s₁))
      (insert : s₁.call (b.insertRecordToDb s₁.request) = (first, s₂))
      (duplicate : DBErrorTemplates.duplicateID.equals first = true)
      (checked : RequestHandlerDbCheckRequest.processRequest b s₂ = (check, s₃))
      (warning : ReceiverErrorTemplates.warningDuplicatedRequest.equals check = true) :
      Written b s none { s₃ with
        request := s₃.request.setResponseMessage
          ("ignoring duplicate record for id " ++ Nat.repr s₃.request.header.dataId) .warning }
  | compared (first err : Option Error) (s₁ s₂ t : Served σ) (new : s.request.alreadyProcessed = false)
      (connect : RequestHandlerDb.processRequest b s = (none, s₁))
      (insert : s₁.call (b.insertRecordToDb s₁.request) = (first, s₂))
      (duplicate : DBErrorTemplates.duplicateID.equals first = true)
      (checked : RequestHandlerDbCheckRequest.processRequest b s₂ = (err, t))
      (silent : ¬ ReceiverErrorTemplates.warningDuplicatedRequest.equals err = true) : Written b s err t

theorem dbWrite_cases (h : RequestHandlerDbWrite.processRequest b s = (err, t)) : Written b s err t := by
  unfold RequestHandlerDbWrite.processRequest at h
  split at h
  · rename_i hp
    cases h
    exact .processed hp
  · rename_i hp
    have hnew := Bool.eq_false_iff.mpr hp
    split at h
    · rename_i e s₁ hc
      cases h
      exact .unconnected e _ hnew hc
    · rename_i s₁ hc
      split at h
      rename_i first s₂ hi
      split at h
      · rename_i hdup
        unfold RequestHandlerDbWrite.processDuplicateRecordSituation at h
        split at h
        rename_i check s₃ hd
        split at h <;> cases h
        · rename_i hw
          exact .ignored first check s₁ s₂ s₃ hnew hc hi hdup hd hw
        · rename_i hw
          exact .compared first _ s₁ s₂ _ hnew hc hi hdup hd hw
      · rename_i hother
        cases h
        exact .inserted first _ s₁ _ hnew hc hi hother rfl

theorem handle_cons_cases {x : Handler} {hs : List Handler} (h : handle b rounds (x :: hs) s = some (err, t)) :
    (∃ e, err = some e ∧ x.processRequest b rounds s = some (some e, t)) ∨
      ∃ u, x.processRequest b rounds s = some (none, u) ∧ handle b rounds hs u = some (err, t) := by
  rw [handle, Option.bind_eq_some_iff] at h
  obtain ⟨⟨e, u⟩, hx, h⟩ := h
  cases e with
  | some e =>
    cases h
    exact .inl ⟨e, rfl, hx⟩
  | none => exact .inr ⟨u, hx, h⟩

theorem handle_preserves {P : Served σ → Prop} (hs : List Handler)
    (hstep : ∀ h ∈ hs, ∀ s err t, P s → h.processRequest b rounds s = some (err, t) → P t)
    (hp : P s) (h : handle b rounds hs s = some (err, t)) : P t := by
  induction hs generalizing s with
  | nil =>
    cases h
    exact hp
  | cons x hs ih =>
    obtain ⟨e, -, hx⟩ | ⟨u, hx, h⟩ := handle_cons_cases h
    · exact hstep x (by simp) s _ t hp hx
    · exact ih (fun y hy => hstep y (by simp [hy])) (hstep x (by simp) s _ u hp hx) h

theorem handle_append (hs hs' : List Handler) (h : handle b rounds (hs ++ hs') s = some (none, t)) :
    ∃ u, handle b rounds hs s = some (none, u) ∧ handle b rounds hs' u = some (none, t) := by
  induction hs generalizing s with
  | nil => exact ⟨s, rfl, h⟩
  | cons x hs ih =>
    rw [List.cons_append] at h
    obtain ⟨e, he, -⟩ | ⟨s₁, hx, h⟩ := handle_cons_cases h
    · cases he
    · obtain ⟨u, hu, hu'⟩ := ih h
      exact ⟨u, by rw [handle, hx]; exact hu, hu'⟩

theorem handle_single {x : Handler} (h : handle b rounds [x] s = some (none, t)) :
    x.processRequest b rounds s = some (none, t) := by
  obtain ⟨e, he, -⟩ | ⟨u, hx, h⟩ := handle_cons_cases h
  · cases he
  · cases h
    exact hx

theorem handle_append_of_eq {u : Served σ} (hs hs' : List Handler)
    (h : handle b rounds hs s = some (none, u)) :
    handle b rounds (hs ++ hs') s = handle b rounds hs' u := by
  induction hs generalizing s with
  | nil =>
    cases h
    rfl
  | cons x hs ih =>
    obtain ⟨e, he, -⟩ | ⟨s₁, hx, h⟩ := handle_cons_cases h
    · cases he
    · rw [List.cons_append, handle, hx]
      exact ih h

open RequestFactory

inductive WriteChain (thresholdMb : ℕ) (header : GenericRequestHeader) : List Handler → Prop
  | buffer (small : receiveDirectToFile thresholdMb header = false) :
      WriteChain thresholdMb header [.receiveData]
  | bufferToFile (small : receiveDirectToFile thresholdMb header = false) :
      WriteChain thresholdMb header [.receiveData, .fileWrite]
  | direct (large : receiveDirectToFile thresholdMb header = true)
      (file : hasFlag header.ingestMode IngestModeFlags.storeInFilesystem = true) :
      WriteChain thresholdMb header [.fileReceive]

theorem transfer_chain {thresholdMb : ℕ} {header : GenericRequestHeader} {handlers : List Handler}
    (hop : header.opCode = .transferData ∨ header.opCode = .transferDatasetData)
    (h : addHandlersToRequest thresholdMb header = .ok handlers) :
    ∃ write, WriteChain thresholdMb header write ∧
      handlers = [.secondaryAuthorize, .receiveMetaData] ++ write ++ dbHandlers header := by
  have hw : ∃ write, addReceiveWriteHandlers thresholdMb header = .ok write ∧
      handlers = [.secondaryAuthorize, .receiveMetaData] ++ write ++ dbHandlers header := by
    unfold addHandlersToRequest at h
    obtain hop | hop := hop <;> rw [hop] at h <;>
    · cases hr : addReceiveWriteHandlers thresholdMb header with
      | error e => simp [hr, Except.map] at h
      | ok write => exact ⟨write, rfl, by simpa [hr, Except.map] using h.symm⟩
  obtain ⟨write, hr, rfl⟩ := hw
  refine ⟨write, ?_, rfl⟩
  unfold addReceiveWriteHandlers addReceiveDirectToFileHandler addReceiveViaBufferHandlers at hr
  split at hr
  · rename_i hlarge
    split at hr <;> cases hr
    rename_i hfile
    exact .direct hlarge hfile
  · rename_i hsmall
    have hsmall := Bool.eq_false_iff.mpr hsmall
    split at hr <;> cases hr
    · exact .bufferToFile hsmall
    · exact .buffer hsmall

end Asapo.Receiver
