import Asapo.Receiver.HandlerFrames

namespace Asapo.Receiver

variable {σ α β : Type} {b : Backend σ} {rounds : ℕ} {s t : Served σ} {err : Option Error} {K : σ → α}

structure Backend.Leaves (b : Backend σ) (K : σ → α) : Prop where
  receiveFault : ∀ n w, K (b.receiveFault n w).2 = K w
  send : ∀ response w, K (b.send response w).2 = K w
  prepareDataBuffer : ∀ n w, K (b.prepareDataBuffer n w).2 = K w
  unlockDataBuffer : ∀ n w, K (b.unlockDataBuffer n w) = K w
  openFile : ∀ root fname overwrite w, K (b.openFile root fname overwrite w).2 = K w
  allocateArray : ∀ n w, K (b.allocateArray n w).2 = K w
  writeFile : ∀ bytes w, K (b.writeFile bytes w).2 = K w
  closeFile : ∀ w, K (b.closeFile w).2 = K w
  connectToDb : ∀ r w, K (b.connectToDb r w).2 = K w
  getRecordFromDb : ∀ r w, K (b.getRecordFromDb r w).2 = K w
  insertRecordToDb : ∀ r w, K (b.insertRecordToDb r w).2 = K w
  insertMeta : ∀ r w, K (b.insertMeta r w).2 = K w
  getStreamInfo : ∀ r w, K (b.getStreamInfo r w).2 = K w
  getLastStream : ∀ w, K (b.getLastStream w).2 = K w
  getMetaFromDb : ∀ r w, K (b.getMetaFromDb r w).2 = K w
  deleteStream : ∀ stream w, K (b.deleteStream stream w).2 = K w

def Backend.silent (b : Backend σ) : Backend σ :=
  { b with
    initialAuthorize := fun _ w => (none, w)
    secondaryAuthorize := fun _ w => (.ok ⟨[], [], [], [], [], .processed⟩, w) }

theorem Backend.Leaves.keeps (hb : b.Leaves K) : b.silent.Keeps K where
  receiveFault := hb.receiveFault
  secondaryAuthorize _ _ := rfl
  prepareDataBuffer := hb.prepareDataBuffer
  unlockDataBuffer := hb.unlockDataBuffer
  openFile := hb.openFile
  allocateArray := hb.allocateArray
  writeFile := hb.writeFile
  closeFile := hb.closeFile
  connectToDb := hb.connectToDb
  getRecordFromDb := hb.getRecordFromDb

theorem receiveLoop_silent (bufSize length written : ℕ) (s : Served σ) :
    ReceiveFileProcessor.receiveLoop b.silent bufSize length rounds written s =
      ReceiveFileProcessor.receiveLoop b bufSize length rounds written s := by
  induction rounds generalizing written s with
  | zero => rfl
  | succ rounds ih =>
    unfold ReceiveFileProcessor.receiveLoop
    simp only [ih]
    rfl

theorem receiveFile_silent (overwrite : Bool) (s : Served σ) :
    ReceiveFileProcessor.processFile b.silent rounds overwrite s =
      ReceiveFileProcessor.processFile b rounds overwrite s := by
  unfold ReceiveFileProcessor.processFile ReceiveFileProcessor.receiveDataToFile
  simp only [receiveLoop_silent]
  rfl

theorem processFile_silent (p : RequestHandlerFileProcess.Processor) (overwrite : Bool) (s : Served σ) :
    RequestHandlerFileProcess.processFile b.silent rounds p overwrite s =
      RequestHandlerFileProcess.processFile b rounds p overwrite s := by
  cases p with
  | write => rfl
  | receive => exact receiveFile_silent overwrite s

theorem fileProcess_silent (p : RequestHandlerFileProcess.Processor) (s : Served σ) :
    RequestHandlerFileProcess.processRequest b.silent rounds p s =
      RequestHandlerFileProcess.processRequest b rounds p s := by
  unfold RequestHandlerFileProcess.processRequest RequestHandlerFileProcess.processFileExistSituation
  simp only [processFile_silent]
  rfl

structure Left (K : σ → α) (s t : Served σ) : Prop where
  world : K t.world = K s.world
  authorization : t.request.authorization = s.request.authorization

theorem Left.trans {u : Served σ} (h : Left K s t) (h' : Left K t u) : Left K s u :=
  ⟨h'.world.trans h.world, h'.authorization.trans h.authorization⟩

theorem Frame.left (h : Frame K s t) : Left K s t := ⟨h.world, congrArg Request.authorization h.request⟩

theorem left_fileProcess {p : RequestHandlerFileProcess.Processor} (hb : b.Leaves K)
    (h : RequestHandlerFileProcess.processRequest b rounds p s = some (err, t)) : Left K s t := by
  rw [← fileProcess_silent] at h
  cases fileProcess_cases h with
  | written _ _ file _ => exact (frame_processFile hb.keeps file).left
  | overwritten _ _ s₁ s₂ _ file _ check again =>
    have h₁ := (frame_processFile hb.keeps file).left
    have h₂ := h₁.trans (check_cases hb.keeps check).1.left
    have h₃ := (frame_processFile hb.keeps again).left
    exact h₂.trans ⟨h₃.world, h₃.authorization⟩
  | duplicate _ _ s₁ s₂ file _ checked _ =>
    have h₂ := (frame_processFile hb.keeps file).left.trans (check_cases hb.keeps checked).1.left
    exact ⟨h₂.world, h₂.authorization⟩
  | failed _ _ s₁ _ file _ checked =>
    exact (frame_processFile hb.keeps file).left.trans (check_cases hb.keeps checked).1.left

theorem left_connect (hb : b.Leaves K) (h : RequestHandlerDb.processRequest b s = (err, t)) : Left K s t :=
  (connect_cases (b := b.silent) hb.keeps h).1.left

theorem left_check (hb : b.Leaves K) (h : RequestHandlerDbCheckRequest.processRequest b s = (err, t)) :
    Left K s t :=
  (check_cases (b := b.silent) hb.keeps h).1.left

theorem left_dbWrite (hb : b.Leaves K) (h : RequestHandlerDbWrite.processRequest b s = (err, t)) : Left K s t := by
  have hinsert {first : Option Error} {s₁ s₂ : Served σ} (hc : RequestHandlerDb.processRequest b s = (none, s₁))
      (hi : s₁.call (b.insertRecordToDb s₁.request) = (first, s₂)) : Left K s s₂ :=
    (left_connect hb hc).trans (quiet_call (hb.insertRecordToDb _) hi).left
  cases dbWrite_cases h with
  | processed => exact ⟨rfl, rfl⟩
  | unconnected _ _ _ connect => exact left_connect hb connect
  | inserted _ _ _ _ _ connect insert => exact hinsert connect insert
  | ignored _ _ _ _ _ _ connect insert _ checked =>
    have h₃ := (hinsert connect insert).trans (left_check hb checked)
    exact ⟨h₃.world, h₃.authorization⟩
  | compared _ _ _ _ _ _ connect insert _ checked => exact (hinsert connect insert).trans (left_check hb checked)

theorem left_withDb {query : σ → β × σ} {answer : β → Request → Option Error × Request}
    (hb : b.Leaves K) (hq : ∀ w, K (query w).2 = K w)
    (ha : ∀ x r, (answer x r).2.authorization = r.authorization) (h : withDb b query answer s = (err, t)) :
    Left K s t := by
  unfold withDb at h
  split at h
  · rename_i hc
    cases h
    exact left_connect hb hc
  · rename_i hc
    have h₁ := left_connect hb hc
    split at h
    rename_i x s₂ hx
    have h₂ := h₁.trans (quiet_call hq hx).left
    cases h
    exact ⟨h₂.world, (ha x s₂.request).trans h₂.authorization⟩

theorem left_infoFromDb (x : Except Error Text) (r : Request) : (infoFromDb x r).2.authorization = r.authorization := by
  cases x <;> rfl

theorem left_deleteStream (hb : b.Leaves K) (h : RequestHandlerDbDeleteStream.processRequest b s = (err, t)) :
    Left K s t := by
  unfold RequestHandlerDbDeleteStream.processRequest at h
  extract_lets options at h
  split at h
  · exact left_withDb hb (hb.deleteStream _) (fun _ _ => rfl) h
  · exact left_connect hb h

theorem left_getMeta (hb : b.Leaves K) (h : RequestHandlerDbGetMeta.processRequest b s = (err, t)) : Left K s t := by
  refine left_withDb hb (hb.getMetaFromDb _) (fun x r => ?_) h
  cases x with
  | ok info => rfl
  | error e =>
    dsimp only
    split <;> exact left_infoFromDb _ r

theorem left_receiveMetaData (hb : b.Leaves K) (h : RequestHandlerReceiveMetaData.processRequest b s = (err, t)) :
    Left K s t := by
  unfold RequestHandlerReceiveMetaData.processRequest at h
  split at h
  · cases h
    exact ⟨rfl, rfl⟩
  · split at h <;> rename_i hr <;> have hl := (receive_cases (b := b.silent) hb.keeps hr).left <;> cases h
    · exact hl
    · exact ⟨hl.world, hl.authorization⟩

theorem left_receiveData (hb : b.Leaves K) (h : RequestHandlerReceiveData.processRequest b s = (err, t)) :
    Left K s t := by
  unfold RequestHandlerReceiveData.processRequest at h
  split at h
  · split at h
    · rename_i hp
      cases h
      exact (quiet_call (hb.prepareDataBuffer _) hp).left
    · rename_i slotId s₁ hp
      have h₁ := (quiet_call (hb.prepareDataBuffer _) hp).left
      generalize hr : s₁.receive b s₁.request.header.dataSize = r at h
      obtain ⟨⟨bytes, e⟩, s₂⟩ := r
      have h₂ := h₁.trans (receive_cases (b := b.silent) hb.keeps hr).left
      cases h
      exact ⟨(hb.unlockDataBuffer slotId s₂.world).trans h₂.world, h₂.authorization⟩
  · cases h
    exact ⟨rfl, rfl⟩

theorem left_handler {x : Handler} (hb : b.Leaves K) (hs : x ≠ .secondaryAuthorize)
    (hi : x ≠ .initialAuthorize) (h : x.processRequest b rounds s = some (err, t)) : Left K s t := by
  cases x with
  | secondaryAuthorize => exact absurd rfl hs
  | initialAuthorize => exact absurd rfl hi
  | receiveMetaData => exact left_receiveMetaData hb (Option.some.inj h)
  | receiveData => exact left_receiveData hb (Option.some.inj h)
  | fileWrite => exact left_fileProcess hb h
  | fileReceive => exact left_fileProcess hb h
  | dbWrite => exact left_dbWrite hb (Option.some.inj h)
  | dbMetaWrite => exact left_withDb hb (hb.insertMeta _) (fun _ _ => rfl) (Option.some.inj h)
  | dbStreamInfo => exact left_withDb hb (hb.getStreamInfo _) left_infoFromDb (Option.some.inj h)
  | deleteStream => exact left_deleteStream hb (Option.some.inj h)
  | dbLastStream => exact left_withDb hb hb.getLastStream left_infoFromDb (Option.some.inj h)
  | dbGetMeta => exact left_getMeta hb (Option.some.inj h)

theorem left_handle {hs : List Handler} (hb : b.Leaves K)
    (hhs : ∀ x ∈ hs, x ≠ .secondaryAuthorize ∧ x ≠ .initialAuthorize)
    (h : handle b rounds hs s = some (err, t)) : Left K s t := by
  refine handle_preserves (P := Left K s) hs ?_ ⟨rfl, rfl⟩ h
  intro x hx u e v hu hv
  exact hu.trans (left_handler hb (hhs x hx).1 (hhs x hx).2 hv)

/-- A handler of a chain is executed, on the request in the state that the handlers in front
of it have left. -/
inductive Executed (b : Backend σ) (rounds : ℕ) : List Handler → Served σ → Handler → Served σ → Prop
  | here (x : Handler) (hs : List Handler) (s : Served σ) : Executed b rounds (x :: hs) s x s
  | behind {x y : Handler} {hs : List Handler} {s u t : Served σ}
      (passed : x.processRequest b rounds s = some (none, u)) (later : Executed b rounds hs u y t) :
      Executed b rounds (x :: hs) s y t

theorem left_executed {hs : List Handler} {y : Handler} (hb : b.Leaves K)
    (hhs : ∀ x ∈ hs, x ≠ .secondaryAuthorize ∧ x ≠ .initialAuthorize) (h : Executed b rounds hs s y t) :
    Left K s t := by
  induction h with
  | here x hs s => exact ⟨rfl, rfl⟩
  | @behind x y hs s u t passed later ih =>
    obtain ⟨hsecondary, hinitial⟩ := hhs x List.mem_cons_self
    exact (left_handler hb hsecondary hinitial passed).trans (ih (fun x hx => hhs x (List.mem_cons_of_mem _ hx)))

theorem chain_cases {thresholdMb : ℕ} {header : GenericRequestHeader} {handlers : List Handler}
    (h : RequestFactory.addHandlersToRequest thresholdMb header = .ok handlers) :
    (header.opCode = .authorize ∧ handlers = [.receiveMetaData, .initialAuthorize]) ∨
      header.opCode ≠ .authorize ∧ ∃ rest, handlers = .secondaryAuthorize :: rest ∧
        ∀ x ∈ rest, x ≠ .secondaryAuthorize ∧ x ≠ .initialAuthorize := by
  by_cases hop : header.opCode = .transferData ∨ header.opCode = .transferDatasetData
  · obtain ⟨write, hw, rfl⟩ := transfer_chain hop h
    refine .inr ⟨by obtain hop | hop := hop <;> simp [hop],
      .receiveMetaData :: (write ++ RequestFactory.dbHandlers header), rfl, ?_⟩
    have hdb : ∀ x ∈ RequestFactory.dbHandlers header, x = .dbWrite := by
      unfold RequestFactory.dbHandlers
      split <;> simp
    intro x hx
    rw [List.mem_cons, List.mem_append] at hx
    obtain rfl | hx | hx := hx
    · simp
    · cases hw <;> simp at hx <;> grind
    · simp [hdb x hx]
  · unfold RequestFactory.addHandlersToRequest at h
    grind

end Asapo.Receiver
