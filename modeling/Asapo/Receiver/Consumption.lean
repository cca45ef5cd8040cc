import Asapo.Receiver.HandlerFrames

namespace Asapo.Receiver

variable {σ : Type} {b : Backend σ} {rounds : ℕ} {s t u : Served σ} {err : Option Error}

def Consumes (n : ℕ) (s t : Served σ) : Prop :=
  t.request.header = s.request.header ∧ ∃ bytes, s.input = bytes ++ t.input ∧ bytes.length = n

theorem Consumes.trans {n m : ℕ} (h : Consumes n s t) (h' : Consumes m t u) : Consumes (n + m) s u := by
  obtain ⟨hh, bytes, hi, hl⟩ := h
  obtain ⟨hh', more, hi', hl'⟩ := h'
  refine ⟨hh'.trans hh, bytes ++ more, ?_, ?_⟩
  · rw [hi, hi', List.append_assoc]
  · rw [List.length_append, hl, hl']

theorem Consumes.of_same (hh : t.request.header = s.request.header) (hi : t.input = s.input) :
    Consumes 0 s t := ⟨hh, [], by simp [hi], rfl⟩

theorem Consumes.of_quiet {α : Type} {K : σ → α} (h : Quiet K s t) : Consumes 0 s t :=
  .of_same (by rw [h.request]) h.input

theorem Consumes.input_drop {n : ℕ} (h : Consumes n s t) : t.input = s.input.drop n := by
  obtain ⟨-, bytes, hi, hl⟩ := h
  rw [hi, ← hl, List.drop_left]

theorem consumes_call {β : Type} {op : σ → β × σ} {x : β} (h : s.call op = (x, t)) : Consumes 0 s t := by
  cases h
  exact .of_same rfl rfl

theorem consumes_receiveMetaData (h : RequestHandlerReceiveMetaData.processRequest b s = (none, t)) :
    Consumes s.request.header.metaSize s t := by
  unfold RequestHandlerReceiveMetaData.processRequest at h
  split at h
  · rename_i hz
    cases h
    exact hz ▸ .of_same rfl rfl
  · split at h <;> rename_i hr <;> cases h
    have hrec := receive_cases b.keeps_nothing hr
    exact ⟨by rw [← hrec.request], _, hrec.input, hrec.complete rfl⟩

open RequestHandlerReceiveData in
theorem consumes_receiveData (h : processRequest b s = (none, t)) :
    Consumes (if needReceiveData s.request.header then s.request.header.dataSize else 0) s t := by
  unfold processRequest at h
  split at h
  · rename_i hneed
    rw [if_pos hneed]
    split at h
    · cases h
    · rename_i slotId s₁ hc
      have hq := quiet_call (K := fun _ => ()) (b.keeps_nothing.prepareDataBuffer s.request.header.dataSize) hc
      generalize hr : s₁.receive b s₁.request.header.dataSize = x at h
      obtain ⟨⟨bytes, e⟩, s₂⟩ := x
      have hrec := receive_cases b.keeps_nothing hr
      cases e with
      | some e => cases h
      | none =>
        cases h
        refine ⟨?_, bytes, ?_, ?_⟩
        · simp only [hrec.request, hq.request]
        · rw [← hq.input, hrec.input]
        · rw [hrec.complete rfl, hq.request]
  · rename_i hneed
    rw [if_neg hneed]
    cases h
    exact .of_same rfl rfl

theorem consumes_secondaryAuthorize
    (h : RequestHandlerSecondaryAuthorization.processRequest b s = (none, t)) : Consumes 0 s t := by
  unfold RequestHandlerSecondaryAuthorization.processRequest at h
  split at h
  · cases h
  · rename_i hc
    cases h
    exact (consumes_call hc).trans (.of_same rfl rfl)

theorem consumes_connect (h : RequestHandlerDb.processRequest b s = (err, t)) : Consumes 0 s t :=
  .of_quiet (connect_cases b.keeps_nothing h).1

theorem consumes_check (h : RequestHandlerDbCheckRequest.processRequest b s = (err, t)) :
    Consumes 0 s t := .of_quiet (check_cases b.keeps_nothing h).1

theorem consumes_withDb {β : Type} {query : σ → β × σ} {answer : β → Request → Option Error × Request}
    (ha : ∀ x r, (answer x r).2.header = r.header) (h : withDb b query answer s = (err, t)) :
    Consumes 0 s t := by
  unfold withDb at h
  split at h
  · rename_i hc
    cases h
    exact consumes_connect hc
  · rename_i s₁ hc
    refine (consumes_connect hc).trans (m := 0) ?_
    cases h
    exact .of_same (ha (query s₁.world).1 s₁.request) rfl

theorem infoFromDb_header (x : Except Error Text) (r : Request) : (infoFromDb x r).2.header = r.header := by
  cases x <;> rfl

theorem consumes_dbWrite (h : RequestHandlerDbWrite.processRequest b s = (err, t)) : Consumes 0 s t := by
  cases dbWrite_cases h with
  | processed => exact .of_same rfl rfl
  | unconnected _ _ _ connect => exact consumes_connect connect
  | inserted _ _ _ _ _ connect insert => exact (consumes_connect connect).trans (consumes_call insert)
  | ignored _ _ _ _ _ _ connect insert _ checked =>
    exact (((consumes_connect connect).trans (consumes_call insert)).trans (consumes_check checked)).trans
      (.of_same rfl rfl)
  | compared _ _ _ _ _ _ connect insert _ checked =>
    exact ((consumes_connect connect).trans (consumes_call insert)).trans (consumes_check checked)

theorem consumes_deleteStream (h : RequestHandlerDbDeleteStream.processRequest b s = (err, t)) :
    Consumes 0 s t := by
  unfold RequestHandlerDbDeleteStream.processRequest at h
  extract_lets options at h
  split at h
  · exact consumes_withDb (fun _ _ => rfl) h
  · exact consumes_connect h

theorem consumes_getMeta (h : RequestHandlerDbGetMeta.processRequest b s = (err, t)) : Consumes 0 s t := by
  refine consumes_withDb (fun x r => ?_) h
  cases x with
  | error e => simp only; split <;> rfl
  | ok info => rfl

/-- Only the opening of a file reports that the file exists. -/
structure Backend.OpenReportsExisting (b : Backend σ) : Prop where
  receive : ∀ n w k e, (b.receiveFault n w).1 = some (k, e) →
    e.code ≠ IOErrorTemplates.fileAlreadyExists.code
  allocate : ∀ n w e, (b.allocateArray n w).1 = some e → e.code ≠ IOErrorTemplates.fileAlreadyExists.code
  write : ∀ bytes w e, (b.writeFile bytes w).1 = some e →
    e.code ≠ IOErrorTemplates.fileAlreadyExists.code

theorem receive_error {n : ℕ} {bytes : Bytes} {e : Error} (hb : b.OpenReportsExisting)
    (h : s.receive b n = ((bytes, some e), t)) : e.code ≠ IOErrorTemplates.fileAlreadyExists.code := by
  unfold Served.receive Backend.receive at h
  split at h
  rename_i hr
  cases h
  split at hr
  · rename_i hf
    cases hr
    exact hb.receive _ _ _ _ (congrArg Prod.fst hf)
  · split at hr <;> cases hr
    decide

theorem receiveLoop_error {bufSize length written : ℕ} {e : Error} (hb : b.OpenReportsExisting)
    (h : ReceiveFileProcessor.receiveLoop b bufSize length rounds written s = some (some e, t)) :
    e.code ≠ IOErrorTemplates.fileAlreadyExists.code := by
  have hlooped := looped_of_receiveLoop h
  clear h
  generalize hsome : some e = err at hlooped
  induction hlooped with
  | done => cases hsome
  | unread _ receive =>
    cases hsome
    exact receive_error hb receive
  | unwritten _ _ _ write =>
    cases hsome
    exact hb.write _ _ _ (congrArg Prod.fst write)
  | round _ _ _ _ _ ih => exact ih hsome

theorem getRootFolder_code {r : Request} {e : Error} (h : FileProcessor.getRootFolder r = .error e) :
    e.code ≠ IOErrorTemplates.fileAlreadyExists.code := by
  have hcode : e.code = ReceiverErrorTemplates.badRequest.code := by
    unfold FileProcessor.getRootFolder FileProcessor.checkFileNameIsAbsolute
      FileProcessor.checkFileFolderCorrespondsToRequestSourceType
      FileProcessor.getRootFolderFromRequest at h
    grind [ErrorTemplate.generate_code]
  rw [hcode]
  decide

theorem receiveFile_exists {overwrite : Bool} (hb : b.OpenReportsExisting)
    (h : ReceiveFileProcessor.processFile b rounds overwrite s = some (err, t))
    (he : IOErrorTemplates.fileAlreadyExists.equals err = true) : Consumes 0 s t := by
  unfold ReceiveFileProcessor.processFile at h
  split at h
  · rename_i e hroot
    cases h
    exact .of_same rfl rfl
  · unfold ReceiveFileProcessor.receiveDataToFile at h
    split at h
    · rename_i ho
      cases h
      exact consumes_call ho
    · rename_i s₁ ho
      extract_lets bufSize at h
      split at h
      · rename_i ha
        cases h
        rw [ErrorTemplate.equals_some] at he
        exact absurd he.symm (hb.allocate _ _ _ (congrArg Prod.fst ha))
      · cases err with
        | none => simp at he
        | some e =>
          rw [ErrorTemplate.equals_some] at he
          exact absurd he.symm (receiveLoop_error hb h)

theorem consumes_writeFile (h : RequestHandlerFileProcess.processRequest b rounds .write s = some (err, t)) :
    Consumes 0 s t := by
  have hquiet : ∀ {overwrite : Bool} {s t : Served σ} {err : Option Error},
      RequestHandlerFileProcess.processFile b rounds .write overwrite s = some (err, t) →
        Consumes 0 s t :=
    fun h => .of_quiet (quiet_writeFile b.keeps_nothing (Option.some.inj h))
  cases fileProcess_cases h with
  | written _ _ file new => exact hquiet file
  | overwritten _ first s₁ s₂ _ file exist check again =>
    have hset : Consumes 0 s₂ { s₂ with
        request := s₂.request.setResponseMessage "file has been overwritten" .warning } := .of_same rfl rfl
    have hchecked := (hquiet file).trans (consumes_check check)
    exact (hchecked.trans hset).trans (hquiet again)
  | duplicate first check s₁ s₂ file exist checked warning =>
    exact ((hquiet file).trans (consumes_check checked)).trans (.of_same rfl rfl)
  | failed first e s₁ s₂ file exist checked =>
    exact (hquiet file).trans (consumes_check checked)

def existing (b : Backend σ) (s : Served σ) : Option (Served σ) :=
  match FileProcessor.getRootFolder s.request with
  | .error _ => none
  | .ok root =>
    match s.call (b.openFile root s.request.getFileName false) with
    | (err, s) => if IOErrorTemplates.fileAlreadyExists.equals err then some s else none

def recorded (b : Backend σ) (s : Served σ) : Bool :=
  match RequestHandlerDb.processRequest b s with
  | (some _, _) => false
  | (none, s) =>
    match s.call (b.getRecordFromDb s.request) with
    | (.error _, _) => false
    | (.ok record, s) => RequestHandlerDbCheckRequest.sameRequestInRecord s.request record

def payloadIgnored (b : Backend σ) (s : Served σ) : Bool := (existing b s).any (recorded b)

theorem receiveFile_existing (hb : b.OpenReportsExisting)
    (h : ReceiveFileProcessor.processFile b rounds false s = some (err, t)) :
    existing b s = if IOErrorTemplates.fileAlreadyExists.equals err then some t else none := by
  have hother : ∀ e : Error, e.code ≠ IOErrorTemplates.fileAlreadyExists.code →
      IOErrorTemplates.fileAlreadyExists.equals (some e) = false :=
    fun e he => Bool.eq_false_iff.mpr (fun h => he ((ErrorTemplate.equals_some _ _).mp h).symm)
  unfold ReceiveFileProcessor.processFile at h
  split at h
  · rename_i e hroot
    cases h
    rw [existing, hroot, hother e (getRootFolder_code hroot)]
    rfl
  · rename_i root hroot
    rw [existing, hroot]
    dsimp only
    unfold ReceiveFileProcessor.receiveDataToFile at h
    split at h
    · rename_i ho
      cases h
      rw [ho]
    · rename_i s₁ ho
      simp only [ho]
      extract_lets bufSize at h
      split at h
      · rename_i e s₂ ha
        cases h
        simp [hother e (hb.allocate _ _ _ (congrArg Prod.fst ha))]
      · cases err with
        | none => rfl
        | some e => simp [hother e (receiveLoop_error hb h)]

theorem check_recorded (h : RequestHandlerDbCheckRequest.processRequest b s = (err, t)) :
    ReceiverErrorTemplates.warningDuplicatedRequest.equals err = recorded b s := by
  unfold RequestHandlerDbCheckRequest.processRequest at h
  unfold recorded
  obtain ⟨⟨_ | e, s₁⟩, hc⟩ : ∃ x, RequestHandlerDb.processRequest b s = x := ⟨_, rfl⟩
  all_goals
    rw [hc] at h ⊢
    dsimp only at h ⊢
  · obtain ⟨⟨e | record, s₂⟩, hg⟩ : ∃ x, s₁.call (b.getRecordFromDb s₁.request) = x := ⟨_, rfl⟩
    all_goals
      rw [hg] at h ⊢
      dsimp only at h ⊢
    · cases h
      split
      · rfl
      · obtain ⟨e', he', hf⟩ := dbErrorToReceiverError_some e
        rw [he']
        exact Bool.eq_false_iff.mpr (fromDb_not_warning hf)
    · split at h <;> rename_i hsame <;> cases h
      · rw [hsame]
        rfl
      · rw [Bool.eq_false_iff.mpr hsame]
        rfl
  · cases h
    exact Bool.eq_false_iff.mpr (fromDb_not_warning ((connect_cases b.keeps_nothing hc).2 e rfl))

/-- The direct way to the file takes the payload from the socket unless the file and its
record are there already. -/
theorem consumes_receiveFile (hb : b.OpenReportsExisting)
    (h : RequestHandlerFileProcess.processRequest b rounds .receive s = some (none, t)) :
    Consumes (if payloadIgnored b s then 0 else s.request.header.dataSize) s t := by
  have hfile : ∀ {overwrite : Bool} {s t : Served σ},
      RequestHandlerFileProcess.processFile b rounds .receive overwrite s = some (none, t) →
        Consumes s.request.header.dataSize s t := fun h => by
    obtain ⟨hf, hin⟩ := frame_receiveFile b.keeps_nothing h
    exact ⟨by rw [hf.request], hin rfl⟩
  unfold payloadIgnored
  cases fileProcess_cases h with
  | written _ _ file new =>
    rw [receiveFile_existing hb file]
    exact hfile file
  | overwritten _ first s₁ s₂ _ file exist check again =>
    rw [receiveFile_existing hb file, if_pos exist]
    have hc := (receiveFile_exists hb file exist).trans (consumes_check check)
    have hset : Consumes 0 s₂ { s₂ with
        request := s₂.request.setResponseMessage "file has been overwritten" .warning } := .of_same rfl rfl
    have hall := (hc.trans hset).trans (hfile again)
    have hsize := (hc.trans hset).1
    have hno := check_recorded check
    simp only [ErrorTemplate.equals_none] at hno
    simp only [Option.any_some, ← hno]
    rw [hsize] at hall
    simpa using hall
  | duplicate first check s₁ s₂ file exist checked warning =>
    have hc := (receiveFile_exists hb file exist).trans (consumes_check checked)
    rw [receiveFile_existing hb file, if_pos exist, Option.any_some, ← check_recorded checked, warning]
    exact hc.trans (.of_same rfl rfl)

/-- When its turn comes, the handler of a large file finds the file and its record. -/
def ignoresPayload (b : Backend σ) (rounds : ℕ) (s : Served σ) : Bool :=
  match handle b rounds [.secondaryAuthorize, .receiveMetaData] s with
  | some (none, s) => payloadIgnored b s
  | _ => false

theorem handle_cons {x : Handler} {hs : List Handler} (h : handle b rounds (x :: hs) s = some (none, t)) :
    ∃ u, x.processRequest b rounds s = some (none, u) ∧ handle b rounds hs u = some (none, t) := by
  obtain ⟨u, hx, hrest⟩ := handle_append [x] hs h
  exact ⟨u, handle_single hx, hrest⟩

theorem consumes_dbHandlers {header : GenericRequestHeader}
    (h : handle b rounds (RequestFactory.dbHandlers header) s = some (none, t)) : Consumes 0 s t := by
  unfold RequestFactory.dbHandlers at h
  split at h
  · exact consumes_dbWrite (Option.some.inj (handle_single h))
  · cases h
    exact .of_same rfl rfl

open RequestFactory

def payloadTaken (b : Backend σ) (rounds thresholdMb : ℕ) (s : Served σ) : ℕ :=
  if receiveDirectToFile thresholdMb s.request.header then
    if ignoresPayload b rounds s then 0 else s.request.header.dataSize
  else if RequestHandlerReceiveData.needReceiveData s.request.header then s.request.header.dataSize
  else 0

theorem consumes_transfer {thresholdMb : ℕ} {handlers : List Handler} (hb : b.OpenReportsExisting)
    (hop : s.request.header.opCode = .transferData ∨ s.request.header.opCode = .transferDatasetData)
    (hchain : addHandlersToRequest thresholdMb s.request.header = .ok handlers)
    (h : handle b rounds handlers s = some (none, t)) :
    Consumes (s.request.header.metaSize + payloadTaken b rounds thresholdMb s) s t := by
  obtain ⟨write, hwrite, rfl⟩ := transfer_chain hop hchain
  obtain ⟨v, hv, hdb⟩ := handle_append _ _ h
  obtain ⟨u, hu, hw⟩ := handle_append _ _ hv
  obtain ⟨s₁, hauth, hrest⟩ := handle_cons hu
  have h₁ := consumes_secondaryAuthorize (Option.some.inj hauth)
  have h₂ := consumes_receiveMetaData (Option.some.inj (handle_single hrest))
  rw [h₁.1] at h₂
  have hhead := h₁.trans h₂
  rw [Nat.zero_add] at hhead
  refine hhead.trans ?_
  suffices hpay : Consumes (payloadTaken b rounds thresholdMb s) u v from
    hpay.trans (consumes_dbHandlers hdb)
  unfold payloadTaken
  cases hwrite with
  | buffer small =>
    rw [small, ← hhead.1]
    exact consumes_receiveData (Option.some.inj (handle_single hw))
  | bufferToFile small =>
    obtain ⟨u₁, hr, hf⟩ := handle_cons hw
    rw [small, ← hhead.1]
    exact (consumes_receiveData (Option.some.inj hr)).trans (consumes_writeFile (handle_single hf))
  | direct large file =>
    have hi : ignoresPayload b rounds s = payloadIgnored b u := by rw [ignoresPayload, hu]
    rw [large, hi, ← hhead.1]
    exact consumes_receiveFile hb (handle_single hw)

def bytesTaken (b : Backend σ) (rounds thresholdMb : ℕ) (s : Served σ) : ℕ :=
  match s.request.header.opCode with
  | .transferData | .transferDatasetData =>
    s.request.header.metaSize + payloadTaken b rounds thresholdMb s
  | .transferMetaData =>
    if RequestHandlerReceiveData.needReceiveData s.request.header then s.request.header.dataSize else 0
  | .authorize => s.request.header.metaSize
  | _ => 0

theorem consumes_question {x : Handler}
    (hx : x = .dbStreamInfo ∨ x = .deleteStream ∨ x = .dbLastStream ∨ x = .dbGetMeta)
    (h : handle b rounds [.secondaryAuthorize, x] s = some (none, t)) : Consumes 0 s t := by
  obtain ⟨u, hauth, hrest⟩ := handle_cons h
  refine (consumes_secondaryAuthorize (Option.some.inj hauth)).trans (m := 0) ?_
  obtain rfl | rfl | rfl | rfl := hx
  · exact consumes_withDb infoFromDb_header (Option.some.inj (handle_single hrest))
  · exact consumes_deleteStream (Option.some.inj (handle_single hrest))
  · exact consumes_withDb infoFromDb_header (Option.some.inj (handle_single hrest))
  · exact consumes_getMeta (Option.some.inj (handle_single hrest))

theorem consumes_metaData
    (h : handle b rounds [.secondaryAuthorize, .receiveData, .dbMetaWrite] s = some (none, t)) :
    Consumes (if RequestHandlerReceiveData.needReceiveData s.request.header
      then s.request.header.dataSize else 0) s t := by
  obtain ⟨u, hauth, hrest⟩ := handle_cons h
  obtain ⟨v, hdata, hdb⟩ := handle_cons hrest
  have h₁ := consumes_secondaryAuthorize (Option.some.inj hauth)
  have h₂ := h₁.trans (consumes_receiveData (Option.some.inj hdata))
  have h₃ : Consumes 0 v t := consumes_withDb (fun _ _ => rfl) (Option.some.inj (handle_single hdb))
  rw [Nat.zero_add, h₁.1] at h₂
  exact h₂.trans h₃

theorem consumes_authorize (h : handle b rounds [.receiveMetaData, .initialAuthorize] s = some (none, t)) :
    Consumes s.request.header.metaSize s t := by
  obtain ⟨u, hmeta, hrest⟩ := handle_cons h
  exact (consumes_receiveMetaData (Option.some.inj hmeta)).trans
    (consumes_call (Option.some.inj (handle_single hrest)))

theorem consumes_handlers {thresholdMb : ℕ} {handlers : List Handler} (hb : b.OpenReportsExisting)
    (hchain : addHandlersToRequest thresholdMb s.request.header = .ok handlers)
    (h : handle b rounds handlers s = some (none, t)) :
    Consumes (bytesTaken b rounds thresholdMb s) s t := by
  unfold bytesTaken
  cases hop : s.request.header.opCode with
  | transferData => exact consumes_transfer hb (.inl hop) hchain h
  | transferDatasetData => exact consumes_transfer hb (.inr hop) hchain h
  | transferMetaData =>
    simp only [addHandlersToRequest, hop] at hchain
    split at hchain <;> cases hchain
    exact consumes_metaData h
  | authorize =>
    simp only [addHandlersToRequest, hop, Except.ok.injEq] at hchain
    subst hchain
    exact consumes_authorize h
  | streamInfo | deleteStream | lastStream | getMeta =>
    simp only [addHandlersToRequest, hop, Except.ok.injEq] at hchain
    subst hchain
    exact consumes_question (by simp) h
  | unknownOp | getBufferData | other code => simp [addHandlersToRequest, hop] at hchain

end Asapo.Receiver
