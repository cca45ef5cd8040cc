import Asapo.Producer.Response
import Asapo.Receiver.HandlerFrames

namespace Asapo.Acknowledgement

open Receiver Receiver.RequestFactory Receiver.RequestsDispatcher

variable {σ : Type}

def overwrites (b : Backend σ) (rounds : ℕ) (p : RequestHandlerFileProcess.Processor) (s : Served σ) : Bool :=
  match RequestHandlerFileProcess.processFile b rounds p false s with
  | none => false
  | some (err, s) =>
    IOErrorTemplates.fileAlreadyExists.equals err &&
      (RequestHandlerDbCheckRequest.processRequest b s).1.isNone

def overwritesFile (b : Backend σ) (rounds : ℕ) : List Handler → Served σ → Bool
  | [], _ => false
  | .fileWrite :: _, s => overwrites b rounds .write s
  | .fileReceive :: _, s => overwrites b rounds .receive s
  | x :: hs, s =>
    match x.processRequest b rounds s with
    | some (none, s) => overwritesFile b rounds hs s
    | _ => false

def Warned (r : Request) : Prop := r.responseMessage ≠ [] ∧ r.responseMessageType = .warning

variable {b : Backend σ} {rounds : ℕ} {s t : Served σ} {err : Option Error} {e : Error}

theorem response_acknowledges (r : Request) (e : Error) :
    (createResponseToRequest r (some e)).errorCode = .noError ∨
      (createResponseToRequest r (some e)).errorCode = .warning ↔ Warned r := by
  have hcode : getNetworkCodeFromError (some e) ≠ .noError ∧ getNetworkCodeFromError (some e) ≠ .warning := by
    unfold getNetworkCodeFromError
    grind
  unfold createResponseToRequest Warned
  grind

theorem call_request {β : Type} {op : σ → β × σ} {x : β} (h : s.call op = (x, t)) :
    t.request = s.request := by
  cases h
  rfl

theorem connect_request (h : RequestHandlerDb.processRequest b s = (err, t)) : t.request = s.request :=
  (connect_cases b.keeps_nothing h).1.request

theorem check_request (h : RequestHandlerDbCheckRequest.processRequest b s = (err, t)) :
    t.request = s.request := (check_cases b.keeps_nothing h).1.request

theorem not_warned_withDb {β : Type} {query : σ → β × σ} {answer : β → Request → Option Error × Request}
    (ha : ∀ x r, ¬ Warned r → ¬ Warned (answer x r).2) (hs : ¬ Warned s.request)
    (h : withDb b query answer s = (err, t)) : ¬ Warned t.request := by
  unfold withDb at h
  split at h
  · rename_i hc
    cases h
    rwa [connect_request hc]
  · rename_i s₁ hc
    cases h
    exact ha _ _ (connect_request hc ▸ hs)

theorem not_warned_info (x : Except Error Text) (r : Request) (hr : ¬ Warned r) :
    ¬ Warned (infoFromDb x r).2 := by
  cases x with
  | error e => exact hr
  | ok info => exact fun hw => ResponseMessageType.noConfusion hw.2

theorem not_warned_secondaryAuthorization (hs : ¬ Warned s.request)
    (h : RequestHandlerSecondaryAuthorization.processRequest b s = (err, t)) : ¬ Warned t.request := by
  unfold RequestHandlerSecondaryAuthorization.processRequest at h
  split at h <;> rename_i hc <;> have hf := call_request hc <;> cases h
  · rwa [hf]
  · exact hf ▸ hs

theorem not_warned_receiveMetaData (hs : ¬ Warned s.request)
    (h : RequestHandlerReceiveMetaData.processRequest b s = (err, t)) : ¬ Warned t.request := by
  unfold RequestHandlerReceiveMetaData.processRequest at h
  split at h
  · cases h
    exact hs
  · split at h <;> rename_i hr <;> have hf := (receive_cases b.keeps_nothing hr).request <;> cases h
    · rwa [hf]
    · exact hf ▸ hs

theorem not_warned_receiveData (hs : ¬ Warned s.request)
    (h : RequestHandlerReceiveData.processRequest b s = (err, t)) : ¬ Warned t.request := by
  unfold RequestHandlerReceiveData.processRequest at h
  split at h
  · split at h
    · rename_i hc
      cases h
      rwa [call_request hc]
    · rename_i slotId s₁ hc
      generalize hr : s₁.receive b s₁.request.header.dataSize = y at h
      obtain ⟨⟨bytes, e⟩, s₂⟩ := y
      have hf := (receive_cases b.keeps_nothing hr).request.trans (call_request hc)
      cases h
      exact hf ▸ hs
  · cases h
    exact hs

theorem not_warned_other {x : Handler} (hx : x ≠ .fileWrite ∧ x ≠ .fileReceive ∧ x ≠ .dbWrite)
    (hs : ¬ Warned s.request) (h : x.processRequest b rounds s = some (err, t)) : ¬ Warned t.request := by
  cases x with
  | fileWrite | fileReceive | dbWrite => simp at hx
  | secondaryAuthorize => exact not_warned_secondaryAuthorization hs (Option.some.inj h)
  | receiveMetaData => exact not_warned_receiveMetaData hs (Option.some.inj h)
  | receiveData => exact not_warned_receiveData hs (Option.some.inj h)
  | initialAuthorize =>
    rwa [call_request (Option.some.inj h)]
  | dbMetaWrite => exact not_warned_withDb (fun _ _ hr => hr) hs (Option.some.inj h)
  | dbStreamInfo => exact not_warned_withDb not_warned_info hs (Option.some.inj h)
  | dbLastStream => exact not_warned_withDb not_warned_info hs (Option.some.inj h)
  | dbGetMeta =>
    refine not_warned_withDb (fun y r hr => ?_) hs (Option.some.inj h)
    cases y with
    | error e => simp only; split <;> exact not_warned_info _ r hr
    | ok info => exact not_warned_info _ r hr
  | deleteStream =>
    have h := Option.some.inj h
    unfold RequestHandlerDbDeleteStream.processRequest at h
    extract_lets options at h
    split at h
    · exact not_warned_withDb (fun _ _ hr => hr) hs h
    · rwa [connect_request h]

theorem dbWrite_error (h : RequestHandlerDbWrite.processRequest b s = (some e, t)) :
    t.request = s.request ∧ s.request.alreadyProcessed = false := by
  cases dbWrite_cases h with
  | unconnected _ _ new connect => exact ⟨connect_request connect, new⟩
  | inserted _ _ s₁ _ new connect insert =>
    exact ⟨(call_request insert).trans (connect_request connect), new⟩
  | compared _ _ s₁ s₂ _ new connect insert _ checked =>
    exact ⟨(check_request checked).trans ((call_request insert).trans (connect_request connect)), new⟩

/-- The handlers in front of the one for the file, which only the writer of the record may
follow. -/
def FileLast : List Handler → Prop
  | [] => True
  | .fileWrite :: hs => hs = [] ∨ hs = [.dbWrite]
  | .fileReceive :: hs => hs = [] ∨ hs = [.dbWrite]
  | .dbWrite :: hs => hs = []
  | _ :: hs => FileLast hs

theorem fileLast_of_factory {thresholdMb : ℕ} {header : GenericRequestHeader} {handlers : List Handler}
    (h : addHandlersToRequest thresholdMb header = .ok handlers) : FileLast handlers := by
  by_cases hop : header.opCode = .transferData ∨ header.opCode = .transferDatasetData
  · obtain ⟨write, hwrite, rfl⟩ := transfer_chain hop h
    unfold dbHandlers
    cases hwrite <;> split <;> simp [FileLast]
  · unfold addHandlersToRequest at h
    cases hc : header.opCode with
    | transferData | transferDatasetData => simp [hc] at hop
    | transferMetaData =>
      simp only [hc] at h
      split at h <;> cases h
      trivial
    | authorize | streamInfo | deleteStream | lastStream | getMeta =>
      simp only [hc, Except.ok.injEq] at h
      subst h
      trivial
    | unknownOp | getBufferData | other code => simp [hc] at h

section File

variable {p : RequestHandlerFileProcess.Processor}

theorem overwrites_of_file {first : Option Error} {s₁ : Served σ}
    (h : RequestHandlerFileProcess.processFile b rounds p false s = some (first, s₁)) :
    overwrites b rounds p s = (IOErrorTemplates.fileAlreadyExists.equals first &&
      (RequestHandlerDbCheckRequest.processRequest b s₁).1.isNone) := by
  rw [overwrites, h]

theorem warned_file (hs : ¬ Warned s.request)
    (h : RequestHandlerFileProcess.processRequest b rounds p s = some (err, t)) :
    (Warned t.request ↔ overwrites b rounds p s = true) ∨
      (err = none ∧ t.request.alreadyProcessed = true) := by
  have hframe : ∀ {overwrite : Bool} {s t : Served σ} {err : Option Error},
      RequestHandlerFileProcess.processFile b rounds p overwrite s = some (err, t) →
        t.request = s.request := fun h => (frame_processFile b.keeps_nothing h).request
  cases fileProcess_cases h with
  | written _ _ file new =>
    left
    simp [overwrites_of_file file, Bool.eq_false_iff.mpr new, hframe file, hs]
  | overwritten _ first s₁ s₂ _ file exist check again =>
    left
    rw [overwrites_of_file file, exist, check, hframe again]
    simp [Warned, Request.setResponseMessage]
  | duplicate first check s₁ s₂ file exist checked warning =>
    exact .inr ⟨rfl, rfl⟩
  | failed first e s₁ s₂ file exist checked =>
    left
    simp [overwrites_of_file file, checked, check_request checked, hframe file, hs]

end File

theorem handle_error {x : Handler} {hs : List Handler}
    (h : handle b rounds (x :: hs) s = some (some e, t)) :
    x.processRequest b rounds s = some (some e, t) ∨
      ∃ u, x.processRequest b rounds s = some (none, u) ∧ handle b rounds hs u = some (some e, t) := by
  rw [handle, Option.bind_eq_some_iff] at h
  obtain ⟨⟨err, u⟩, hx, h⟩ := h
  cases err with
  | some e' =>
    cases h
    exact .inl hx
  | none => exact .inr ⟨u, hx, h⟩

theorem warned_behind_file {p : RequestHandlerFileProcess.Processor} {x : Handler} {hs : List Handler}
    (hx : ∀ s, x.processRequest b rounds s = RequestHandlerFileProcess.processRequest b rounds p s)
    (hl : hs = [] ∨ hs = [.dbWrite]) (hw : ¬ Warned s.request)
    (h : handle b rounds (x :: hs) s = some (some e, t)) :
    Warned t.request ↔ overwrites b rounds p s = true := by
  obtain h | ⟨u, hu, h⟩ := handle_error h
  · obtain hiff | ⟨he, -⟩ := warned_file hw (hx s ▸ h)
    · exact hiff
    · cases he
  · obtain rfl | rfl := hl
    · cases h
    · obtain h | ⟨v, -, h⟩ := handle_error h
      · obtain ⟨hreq, hnew⟩ := dbWrite_error (Option.some.inj h)
        obtain hiff | ⟨-, hdone⟩ := warned_file hw (hx s ▸ hu)
        · rwa [hreq]
        · simp [hnew] at hdone
      · cases h

theorem warned_iff {hs : List Handler} (hl : FileLast hs) (hw : ¬ Warned s.request)
    (h : handle b rounds hs s = some (some e, t)) :
    Warned t.request ↔ overwritesFile b rounds hs s = true := by
  induction hs generalizing s with
  | nil => cases h
  | cons x hs ih =>
    cases x with
    | fileWrite => exact warned_behind_file (fun _ => rfl) hl hw h
    | fileReceive => exact warned_behind_file (fun _ => rfl) hl hw h
    | dbWrite =>
      cases hl
      obtain h | ⟨u, -, h⟩ := handle_error h
      · simp [overwritesFile, h, (dbWrite_error (Option.some.inj h)).1, hw]
      · cases h
    | _ =>
      obtain h | ⟨u, hu, h⟩ := handle_error h
      · simp [overwritesFile, h, not_warned_other (by simp) hw h]
      · simp only [overwritesFile, hu]
        exact ih hl (not_warned_other (by simp) hw hu) h

/-- A request that failed is answered as such, and not taken as sent by the producer,
exactly if its handlers did not get to overwrite a file. -/
theorem failure_reported_iff (b : Backend σ) (rounds thresholdMb : ℕ) (header : GenericRequestHeader)
    (handlers : List Handler) (input : Bytes) (w : σ) (e : Error) (t : Served σ)
    (hchain : addHandlersToRequest thresholdMb header = .ok handlers)
    (hrun : handle b rounds handlers ⟨Request.ofHeader header, input, w⟩ = some (some e, t)) :
    ((createResponseToRequest t.request (some e)).errorCode ≠ .noError ∧
        (createResponseToRequest t.request (some e)).errorCode ≠ .warning ↔
      overwritesFile b rounds handlers ⟨Request.ofHeader header, input, w⟩ = false) ∧
    (Producer.RequestHandlerTcp.TakenAsSent (createResponseToRequest t.request (some e)) ↔
      overwritesFile b rounds handlers ⟨Request.ofHeader header, input, w⟩ = true) := by
  have hnew : ¬ Warned (Request.ofHeader header) := fun hw => hw.1 rfl
  have hiff := (response_acknowledges t.request e).trans
    (warned_iff (fileLast_of_factory hchain) hnew hrun)
  refine ⟨?_, (Producer.RequestHandlerTcp.takenAsSent_iff _).trans hiff⟩
  rw [← not_or, hiff, Bool.not_eq_true]

def fileHeader : GenericRequestHeader :=
  ⟨.transferData, 1, 4, 0, ![13, 0, 0], text "processed/a", text "s", text "v0.5"⟩

def fileChain : List Handler := [.secondaryAuthorize, .receiveMetaData, .receiveData, .fileWrite, .dbWrite]

def fullBackend (exist : Bool) : Backend Unit := { Backend.calm Unit with
  openFile := fun _ _ overwrite w =>
    (if exist && !overwrite then some (IOErrorTemplates.fileAlreadyExists.generate "") else none, w)
  writeFile := fun _ w => (some (IOErrorTemplates.noSpaceLeft.generate ""), w)
  getRecordFromDb := fun _ w => (.error (DBErrorTemplates.noRecord.generate ""), w) }

theorem failure_reported_new_file :
    ∃ e t, handle (fullBackend false) 0 fileChain ⟨Request.ofHeader fileHeader, [1, 2, 3, 4], ()⟩ =
        some (some e, t) ∧
      ¬ Producer.RequestHandlerTcp.TakenAsSent (createResponseToRequest t.request (some e)) := by
  have hrun : (handle (fullBackend false) 0 fileChain
      ⟨Request.ofHeader fileHeader, [1, 2, 3, 4], ()⟩).any (fun x => x.1.isSome) = true := by decide +kernel
  obtain ⟨⟨err, t⟩, ht, hx⟩ := (Option.any_eq_true _ _).mp hrun
  obtain ⟨e, rfl⟩ := Option.isSome_iff_exists.mp hx
  refine ⟨e, t, ht, ?_⟩
  rw [(failure_reported_iff _ _ 1 _ _ _ _ e t (by decide) ht).2]
  decide +kernel

theorem failure_taken_as_sent :
    ¬ ∀ (σ : Type) (b : Backend σ) (rounds thresholdMb : ℕ) (header : GenericRequestHeader)
      (handlers : List Handler) (input : Bytes) (w : σ) (e : Error) (t : Served σ),
      addHandlersToRequest thresholdMb header = .ok handlers →
      handle b rounds handlers ⟨Request.ofHeader header, input, w⟩ = some (some e, t) →
        (createResponseToRequest t.request (some e)).errorCode ≠ .noError ∧
          (createResponseToRequest t.request (some e)).errorCode ≠ .warning := by
  intro h
  have hrun : (handle (fullBackend true) 0 fileChain
      ⟨Request.ofHeader fileHeader, [1, 2, 3, 4], ()⟩).any (fun x =>
        x.1.isSome && decide ((createResponseToRequest x.2.request x.1).errorCode = .warning)) = true := by
    decide +kernel
  obtain ⟨⟨err, t⟩, ht, hx⟩ := (Option.any_eq_true _ _).mp hrun
  simp only [Bool.and_eq_true, decide_eq_true_eq] at hx
  obtain ⟨e, rfl⟩ := Option.isSome_iff_exists.mp hx.1
  exact (h Unit _ 0 1 fileHeader fileChain _ () e t (by decide) ht).2 hx.2

end Asapo.Acknowledgement
