import Asapo.Producer.Submission
import Asapo.Receiver.Consumption
import Asapo.Transition

namespace Asapo.Framing

open Producer Producer.RequestHandlerTcp Receiver Receiver.RequestFactory Transition

/-- A connection between a producer and a receiver, between two requests: the bytes that
were sent and not read yet, and the world of the receiver. -/
structure Channel (σ : Type) where
  pending : Bytes
  world : σ

/-- A call of the producer, with what is in the memory of the numbers it does not set. -/
abbrev Label := (Fin 3 → ℕ) × Call

variable {σ : Type} (b : Backend σ) (thresholdMb rounds : ℕ)

/-- One request on the connection: the producer sends it, and the receiver handles it and
goes on reading. -/
def step (s : Channel σ) (l : Label) : Option (Channel σ) :=
  match submitted l.1 l.2 with
  | .error _ => none
  | .ok r =>
    -- the numbers of the program have 64 bits
    if r.header.Fits then
      (sendRequestContent rounds r).bind (fun content =>
        (Connection.listenOnce b thresholdMb rounds (s.pending ++ content) s.world).bind (fun
          | (none, input, w) => some ⟨input, w⟩
          | (some _, _, _) => none))
    else none

/-- The next bytes are those of the next request. -/
def Aligned (s : Channel σ) : Prop := s.pending = []

def atHandlers (w : σ) (r : ProducerRequest) : Served σ :=
  ⟨Request.ofHeader (.ofBytes r.header.toBytes),
    sentMetaData r ++ (sentData rounds r).getD [], (b.receiveFault GenericRequestHeader.size w).2⟩

/-- A file is sent in whole buffers or to its end, and a large file is not there already
with its record. -/
def RequestSafe (w : σ) (r : ProducerRequest) : Prop :=
  WholeBuffers r ∧
    ((r.header.opCode = .transferData ∨ r.header.opCode = .transferDatasetData) →
      receiveDirectToFile thresholdMb r.header = true →
        ignoresPayload b rounds (atHandlers b rounds w r) = false)

def FrameSafe (s : Channel σ) (l : Label) : Prop :=
  ∀ r, submitted l.1 l.2 = .ok r → RequestSafe b thresholdMb rounds s.world r

instance (w : σ) (r : ProducerRequest) : Decidable (RequestSafe b thresholdMb rounds w r) :=
  inferInstanceAs (Decidable (_ ∧ (_ → _ → _)))

instance (s : Channel σ) (l : Label) : Decidable (FrameSafe b thresholdMb rounds s l) :=
  match h : submitted l.1 l.2 with
  | .error _ => .isTrue (fun r hr => by simp [h] at hr)
  | .ok r => decidable_of_iff (RequestSafe b thresholdMb rounds s.world r)
      ⟨fun hs r' hr' => by cases h.symm.trans hr'; exact hs, fun hs => hs r h⟩

variable {b thresholdMb rounds} {w w' : σ} {r : ProducerRequest} {input rest : Bytes}

theorem getNextRequest_sent {h header : GenericRequestHeader} {handlers : List Handler}
    (hn : RequestsDispatcher.getNextRequest b thresholdMb (h.toBytes ++ rest) w =
      (.ok (header, handlers), input, w')) :
    header = .ofBytes h.toBytes ∧ addHandlersToRequest thresholdMb header = .ok handlers ∧
      input = rest ∧ w' = (b.receiveFault GenericRequestHeader.size w).2 := by
  unfold RequestsDispatcher.getNextRequest at hn
  generalize hr : b.receive GenericRequestHeader.size (h.toBytes ++ rest) w = x at hn
  obtain ⟨⟨bytes, err⟩, input₁, w₁⟩ := x
  cases err with
  | some e => cases hn
  | none =>
    obtain ⟨-, hi, -, hl⟩ := backend_receive_cases b.keeps_nothing hr
    have hlen := h.length_toBytes.trans (hl rfl).symm
    have hw : w₁ = (b.receiveFault GenericRequestHeader.size w).2 := by
      unfold Backend.receive at hr
      split at hr
      · cases hr
      · rename_i hf
        split at hr <;> cases hr
        rw [hf]
    obtain ⟨rfl, rfl⟩ := List.append_inj hi hlen
    simp only [Prod.mk.injEq] at hn
    obtain ⟨hok, rfl, rfl⟩ := hn
    cases hh : addHandlersToRequest thresholdMb (.ofBytes h.toBytes) with
    | error e => simp [hh, Except.map] at hok
    | ok hs =>
      simp only [hh, Except.map, Except.ok.injEq, Prod.mk.injEq] at hok
      obtain ⟨rfl, rfl⟩ := hok
      exact ⟨rfl, hh, rfl, hw⟩

theorem processRequest_handled {handlers : List Handler} {s t : Served σ}
    (h : RequestsDispatcher.processRequest b rounds handlers s = some (none, t)) :
    ∃ u, handle b rounds handlers s = some (none, u) ∧ t.input = u.input := by
  unfold RequestsDispatcher.processRequest at h
  obtain ⟨⟨err, u⟩, hu, h⟩ := Option.map_eq_some_iff.mp h
  cases err with
  | some e => cases h
  | none =>
    simp only [Prod.mk.injEq] at h
    obtain ⟨-, rfl⟩ := h
    exact ⟨u, hu, rfl⟩

theorem step_cases {s t : Channel σ} {l : Label} (ha : Aligned s)
    (h : step b thresholdMb rounds s l = some t) :
    ∃ r data handlers u, submitted l.1 l.2 = .ok r ∧ r.header.Fits ∧ sentData rounds r = some data ∧
      addHandlersToRequest thresholdMb (atHandlers b rounds s.world r).request.header = .ok handlers ∧
      handle b rounds handlers (atHandlers b rounds s.world r) = some (none, u) ∧
      t.pending = u.input := by
  unfold step at h
  split at h
  · cases h
  · rename_i r hr
    split at h
    swap
    · cases h
    rename_i hfits
    obtain ⟨content, hc, h⟩ := Option.bind_eq_some_iff.mp h
    obtain ⟨data, hd, rfl⟩ := Option.map_eq_some_iff.mp hc
    obtain ⟨⟨err, input, w⟩, hlisten, h⟩ := Option.bind_eq_some_iff.mp h
    cases err with
    | some e => cases h
    | none =>
      cases h
      rw [ha, List.nil_append, List.append_assoc] at hlisten
      unfold Connection.listenOnce at hlisten
      split at hlisten
      · cases hlisten
      · rename_i header handlers input₁ w₁ hn
        obtain ⟨rfl, hh, rfl, rfl⟩ := getNextRequest_sent hn
        obtain ⟨⟨e, v⟩, hv, hres⟩ := Option.map_eq_some_iff.mp hlisten
        cases hres
        obtain ⟨u, hu, hin⟩ := processRequest_handled hv
        refine ⟨r, data, handlers, u, hr, hfits, hd, hh, ?_, hin⟩
        rw [atHandlers, hd]
        exact hu

structure ReadsBack (g h : GenericRequestHeader) : Prop where
  opCode : g.opCode = h.opCode
  dataSize : g.dataSize = h.dataSize
  metaSize : g.metaSize = h.metaSize
  ingestMode : g.ingestMode = h.ingestMode

theorem accepted_opCode (hr : Accepted r) :
    r.header.opCode.code < 256 ∧ Opcode.ofCode r.header.opCode.code = r.header.opCode := by
  cases hr with
  | transfer opCode => obtain h | h := opCode <;> rw [h] <;> decide
  | metaData opCode | authorize opCode => rw [opCode]; decide
  | question opCode => obtain h | h | h | h := opCode <;> rw [h] <;> decide

theorem atHandlers_header (hr : Accepted r) (hfits : r.header.Fits) :
    ReadsBack (atHandlers b rounds w r).request.header r.header := by
  obtain ⟨hc, ho⟩ := accepted_opCode hr
  exact {
    opCode := GenericRequestHeader.ofBytes_opCode hc ho
    dataSize := GenericRequestHeader.ofBytes_dataSize hfits
    metaSize := GenericRequestHeader.ofBytes_metaSize hfits
    ingestMode := GenericRequestHeader.ofBytes_ingestMode hfits }

theorem payloadTaken_sent {data : Bytes} {handlers : List Handler}
    (hback : ReadsBack (atHandlers b rounds w r).request.header r.header)
    (hop : r.header.opCode = .transferData ∨ r.header.opCode = .transferDatasetData)
    (hmode : hasFlag r.header.ingestMode IngestModeFlags.storeInFilesystem = true →
      hasFlag r.header.ingestMode IngestModeFlags.transferData = true)
    (hd : sentData rounds r = some data)
    (hchain : addHandlersToRequest thresholdMb (atHandlers b rounds w r).request.header =
      .ok handlers) :
    payloadTaken b rounds thresholdMb (atHandlers b rounds w r) ≤ data.length ∧
      (data.length = payloadTaken b rounds thresholdMb (atHandlers b rounds w r) ↔
        RequestSafe b thresholdMb rounds w r) := by
  have hsend : r.needSend = hasFlag r.header.ingestMode IngestModeFlags.transferData := by
    rw [ProducerRequest.needSend, if_pos hop]
  have hdirect : receiveDirectToFile thresholdMb (atHandlers b rounds w r).request.header =
      receiveDirectToFile thresholdMb r.header := by
    rw [receiveDirectToFile, receiveDirectToFile, hback.dataSize]
  unfold payloadTaken RequestSafe
  rw [hdirect]
  by_cases hlarge : receiveDirectToFile thresholdMb r.header = true
  · -- the file processor reads the payload whatever the mode is
    have hstore : hasFlag r.header.ingestMode IngestModeFlags.storeInFilesystem = true := by
      obtain ⟨write, hwrite, -⟩ := transfer_chain (hback.opCode ▸ hop) hchain
      cases hwrite with
      | buffer small | bufferToFile small => simp [hdirect, hlarge] at small
      | direct large file => rwa [hback.ingestMode] at file
    have hpos : 0 < r.header.dataSize := by
      have := of_decide_eq_true hlarge
      omega
    obtain ⟨hle, heq⟩ := sentData_length (hsend.trans (hmode hstore)) hd
    rw [if_pos hlarge, hback.dataSize]
    split
    · rename_i hi
      refine ⟨Nat.zero_le _, fun he => absurd he (by omega), fun hsafe => ?_⟩
      simp [hsafe.2 hop hlarge] at hi
    · rename_i hi
      simp only [Bool.eq_false_iff.mpr hi, implies_true, and_true]
      exact ⟨hle, heq⟩
  · rw [if_neg hlarge]
    simp only [hlarge, Bool.false_eq_true, false_implies, implies_true, and_true]
    unfold RequestHandlerReceiveData.needReceiveData
    rw [hback.dataSize, hback.ingestMode, ← hsend]
    cases hn : r.needSend with
    | false =>
      have hwhole : WholeBuffers r := fun hf => by simp [ProducerRequest.dataFromFile, hn] at hf
      simp [sentData_nil hn hd, hwhole]
    | true =>
      obtain ⟨hle, heq⟩ := sentData_length hn hd
      by_cases hz : r.header.dataSize = 0
      · simpa [hz] using heq
      · have hpos : 0 < r.header.dataSize := by omega
        simpa [hpos] using ⟨hle, heq⟩

theorem safe_of_memory (hop : ¬ (r.header.opCode = .transferData ∨ r.header.opCode = .transferDatasetData))
    (hf : r.file = none) : RequestSafe b thresholdMb rounds w r :=
  ⟨fun h => by simp [ProducerRequest.dataFromFile, hf] at h, fun h => absurd h hop⟩

theorem sentData_memory {data : Bytes}
    (hop : ¬ (r.header.opCode = .transferData ∨ r.header.opCode = .transferDatasetData))
    (hf : r.file = none) (hd : sentData rounds r = some data) : data.length = r.header.dataSize := by
  have hsend : r.needSend = true := by rw [ProducerRequest.needSend, if_neg hop]
  refine ((sentData_length hsend hd).2).mpr (fun h => ?_)
  simp [ProducerRequest.dataFromFile, hf] at h

theorem bytesTaken_sent {data : Bytes} {handlers : List Handler} (hr : Accepted r)
    (hfits : r.header.Fits) (hd : sentData rounds r = some data)
    (hchain : addHandlersToRequest thresholdMb (atHandlers b rounds w r).request.header =
      .ok handlers) :
    bytesTaken b rounds thresholdMb (atHandlers b rounds w r) ≤ (sentMetaData r ++ data).length ∧
      ((sentMetaData r ++ data).length =
          bytesTaken b rounds thresholdMb (atHandlers b rounds w r) ↔
        RequestSafe b thresholdMb rounds w r) := by
  have hback : ReadsBack (atHandlers b rounds w r).request.header r.header := atHandlers_header hr hfits
  unfold bytesTaken
  rw [List.length_append, hback.opCode]
  cases hr with
  | transfer opCode metadata mode =>
    obtain ⟨hle, heq⟩ := payloadTaken_sent hback opCode mode hd hchain
    rw [sentMetaData_length (.inl metadata)]
    obtain opCode | opCode := opCode <;> simp only [opCode, hback.metaSize] <;>
      exact ⟨by omega, Nat.add_left_cancel_iff.trans heq⟩
  | metaData opCode memory metaSize mode =>
    have hop : ¬ (r.header.opCode = .transferData ∨ r.header.opCode = .transferDatasetData) := by simp [opCode]
    rw [sentMetaData_length (.inr metaSize), metaSize, sentData_memory hop memory hd]
    simp only [opCode, RequestHandlerReceiveData.needReceiveData, hback.dataSize,
      hback.ingestMode, mode, Bool.and_true]
    by_cases hz : r.header.dataSize = 0
    · simp [hz, safe_of_memory hop memory]
    · have hpos : 0 < r.header.dataSize := by omega
      simp [hpos, safe_of_memory hop memory]
  | authorize opCode memory metadata dataSize =>
    have hop : ¬ (r.header.opCode = .transferData ∨ r.header.opCode = .transferDatasetData) := by simp [opCode]
    rw [sentMetaData_length (.inl metadata), sentData_memory hop memory hd, dataSize]
    simp [opCode, hback.metaSize, safe_of_memory hop memory]
  | question opCode memory metaSize dataSize =>
    have hop : ¬ (r.header.opCode = .transferData ∨ r.header.opCode = .transferDatasetData) := by
      obtain h | h | h | h := opCode <;> simp [h]
    rw [sentMetaData_length (.inr metaSize), sentData_memory hop memory hd, dataSize, metaSize]
    obtain h | h | h | h := opCode <;> simp [h, safe_of_memory hop memory]

theorem step_aligned {s t : Channel σ} {l : Label} (hb : b.OpenReportsExisting) (ha : Aligned s)
    (h : step b thresholdMb rounds s l = some t) :
    Aligned t ↔ FrameSafe b thresholdMb rounds s l := by
  obtain ⟨r, data, handlers, u, hr, hfits, hd, hchain, hu, hp⟩ := step_cases ha h
  obtain ⟨hle, heq⟩ := bytesTaken_sent (accepted_submitted hr) hfits hd hchain
  have hin := (consumes_handlers hb hchain hu).input_drop
  have hinput : (atHandlers b rounds s.world r).input = sentMetaData r ++ data := by
    rw [atHandlers, hd]
    rfl
  have hsafe : FrameSafe b thresholdMb rounds s l ↔
      RequestSafe b thresholdMb rounds s.world r := by
    refine ⟨fun h => h r hr, fun h r' hr' => ?_⟩
    cases hr.symm.trans hr'
    exact h
  rw [hsafe, ← heq, Aligned, hp, hin, hinput, List.drop_eq_nil_iff]
  omega

/-- The receiver starts every request of a connection at its header exactly in the runs
whose requests are all safe. -/
theorem framing_iff (b : Backend σ) (thresholdMb rounds : ℕ) (w : σ)
    (calls : List Label) (hb : b.OpenReportsExisting) :
    Always (step b thresholdMb rounds) Aligned ⟨[], w⟩ calls ↔
      Along (step b thresholdMb rounds) (FrameSafe b thresholdMb rounds) ⟨[], w⟩ calls := by
  apply always_iff_along (fun s (ha : Aligned s) => ha)
  · exact fun s l t ha hc h => (step_aligned hb ha h).mpr hc
  · exact fun s l t ha hc h => fun ht => hc ((step_aligned hb ha h).mp ht)
  · rfl

structure Disk where
  files : List Text
  records : List (ℕ × MessageMeta)

def diskBackend : Backend Disk := { Backend.calm Disk with
  openFile := fun _ fname overwrite w =>
    if w.files.contains fname ∧ overwrite = false then
      (some (IOErrorTemplates.fileAlreadyExists.generate ""), w)
    else (none, { w with files := fname :: w.files })
  getRecordFromDb := fun r w =>
    match w.records.find? (fun record => record.1 = r.header.dataId) with
    | none => (.error (DBErrorTemplates.noRecord.generate ""), w)
    | some record => (.ok record.2, w)
  insertRecordToDb := fun r w =>
    if w.records.any (fun record => record.1 = r.header.dataId) then
      (some (DBErrorTemplates.duplicateID.generate ""), w)
    else
      let record := { MessageMeta.empty with
        size := r.header.dataSize, name := r.getFileName
        metadata := RequestHandlerDbCheckRequest.storedMetaData r }
      (none, { w with records := (r.header.dataId, record) :: w.records }) }

theorem diskBackend_opens : diskBackend.OpenReportsExisting := ⟨nofun, nofun, nofun⟩

def sendThree (id : ℕ) (name : String) : Label :=
  (fun _ => 0, .send ⟨id, 3, text name, [], 0, 0, false⟩ (some UInt8.ofNat) 13 (text "s"))

theorem framing_two_files :
    Always (step diskBackend 0 1) Aligned ⟨[], [], []⟩
      [sendThree 1 "processed/a", (fun _ => 0, .sendMeta [123, 125] 1 []), sendThree 2 "processed/b"] :=
  (framing_iff diskBackend 0 1 ⟨[], []⟩ _ diskBackend_opens).mpr (by decide +kernel)

theorem framing_lost :
    ¬ ∀ (σ : Type) (b : Backend σ) (thresholdMb rounds : ℕ) (w : σ) (calls : List Label),
      b.OpenReportsExisting → Always (step b thresholdMb rounds) Aligned ⟨[], w⟩ calls := by
  intro h
  have hrun : (exec (step diskBackend 0 1) ⟨[], [], []⟩
      [sendThree 1 "processed/a", sendThree 1 "processed/a"]).any
        (fun t => decide (t.pending = [0, 1, 2])) = true := by decide +kernel
  obtain ⟨t, ht, hp⟩ := (Option.any_eq_true _ _).mp hrun
  have ha := always_exec _ t _ (h Disk diskBackend 0 1 ⟨[], []⟩ _ diskBackend_opens) ht
  rw [Aligned, of_decide_eq_true hp] at ha
  cases ha

end Asapo.Framing
