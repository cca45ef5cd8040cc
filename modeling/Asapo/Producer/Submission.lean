import Asapo.Producer.SendFile

namespace Asapo.Producer

open ProducerImpl RequestHandlerTcp

def submitted (unset : Fin 3 → ℕ) (call : Call) : Except Error ProducerRequest :=
  (call.request unset).map ProducerRequest.updateDataSizeFromFileIfNeeded

inductive Accepted (r : ProducerRequest) : Prop
  | transfer (opCode : r.header.opCode = .transferData ∨ r.header.opCode = .transferDatasetData)
      (metadata : r.metadata.length = r.header.metaSize)
      (mode : hasFlag r.header.ingestMode IngestModeFlags.storeInFilesystem = true →
        hasFlag r.header.ingestMode IngestModeFlags.transferData = true)
  | metaData (opCode : r.header.opCode = .transferMetaData) (memory : r.file = none)
      (metaSize : r.header.metaSize = 0)
      (mode : hasFlag r.header.ingestMode IngestModeFlags.transferData = true)
  | authorize (opCode : r.header.opCode = .authorize) (memory : r.file = none)
      (metadata : r.metadata.length = r.header.metaSize) (dataSize : r.header.dataSize = 0)
  | question (opCode : r.header.opCode = .streamInfo ∨ r.header.opCode = .lastStream ∨
        r.header.opCode = .deleteStream ∨ r.header.opCode = .getMeta)
      (memory : r.file = none) (metaSize : r.header.metaSize = 0) (dataSize : r.header.dataSize = 0)

theorem checkIngestMode_store {mode : ℕ} (h : checkIngestMode mode = none)
    (hs : hasFlag mode IngestModeFlags.storeInFilesystem = true) :
    hasFlag mode IngestModeFlags.transferData = true := by
  unfold checkIngestMode wrongInput at h
  grind

theorem accepted_sendMessage {m : MessageHeader} {stream : Text} {data : Option (ℕ → UInt8)}
    {file : Option Bytes} {mode : ℕ} {unset : Fin 3 → ℕ} {r : ProducerRequest}
    (h : sendMessage m stream data file mode unset = .ok r) : Accepted r := by
  unfold sendMessage at h
  split at h
  · cases h
  · rename_i hc
    have hmode : checkIngestMode mode = none := by
      unfold checkProducerRequest at hc
      split at hc
      · cases hc
      · simp only [Option.or_eq_none_iff] at hc
        exact hc.2.2
    cases h
    unfold generateNextSendRequest
    split
    · exact .transfer (.inr rfl) rfl (checkIngestMode_store hmode)
    · exact .transfer (.inl rfl) rfl (checkIngestMode_store hmode)

theorem accepted_request {unset : Fin 3 → ℕ} {call : Call} {r : ProducerRequest}
    (h : call.request unset = .ok r) : Accepted r := by
  cases call with
  | send m data mode stream =>
    simp only [Call.request] at h
    split at h
    · cases h
    · exact accepted_sendMessage h
  | sendFile m file mode stream => exact accepted_sendMessage h
  | sendStreamFinishedFlag stream lastId nextStream => exact accepted_sendMessage h
  | sendMeta metadata mode stream =>
    cases h
    have hmode : hasFlag (IngestModeFlags.transferData ||| IngestModeFlags.storeInDatabase)
        IngestModeFlags.transferData = true := by decide
    exact .metaData rfl rfl rfl hmode
  | getStreamInfo stream =>
    simp only [Call.request] at h
    split at h <;> cases h
    exact .question (.inl rfl) rfl rfl rfl
  | getLastStream =>
    cases h
    exact .question (.inr (.inl rfl)) rfl rfl rfl
  | deleteStream stream options =>
    cases h
    exact .question (.inr (.inr (.inl rfl))) rfl rfl rfl
  | getMeta stream =>
    cases h
    exact .question (.inr (.inr (.inr rfl))) rfl rfl rfl
  | authorize sourceCredentials =>
    cases h
    exact .authorize rfl rfl rfl rfl

theorem accepted_submitted {unset : Fin 3 → ℕ} {call : Call} {r : ProducerRequest}
    (h : submitted unset call = .ok r) : Accepted r := by
  unfold submitted at h
  cases hr : call.request unset with
  | error e => simp [hr, Except.map] at h
  | ok r₀ =>
    simp only [hr, Except.map, Except.ok.injEq] at h
    subst h
    unfold ProducerRequest.updateDataSizeFromFileIfNeeded
    split
    · rename_i hfile
      have hsome : r₀.file ≠ none := fun hn => by simp [ProducerRequest.dataFromFile, hn] at hfile
      cases accepted_request hr with
      | transfer opCode metadata mode => exact .transfer opCode metadata mode
      | metaData _ memory => exact absurd memory hsome
      | authorize _ memory => exact absurd memory hsome
      | question _ memory => exact absurd memory hsome
    · exact accepted_request hr

/-- The loop that sends a file ends with its last buffer at the size of the data. -/
def WholeBuffers (r : ProducerRequest) : Prop :=
  r.dataFromFile = true → r.header.dataSize ≤ kReadWriteBufSize ∨
    kReadWriteBufSize ∣ r.header.dataSize ∨ (r.file.getD []).length = r.header.dataSize

instance (r : ProducerRequest) : Decidable (WholeBuffers r) := inferInstanceAs (Decidable (_ → _ ∨ _ ∨ _))

variable {rounds : ℕ} {r : ProducerRequest} {data : Bytes}

theorem sentData_nil (hn : r.needSend = false) (h : sentData rounds r = some data) : data = [] := by
  rw [sentData, if_neg (by simp [hn])] at h
  exact (Option.some.inj h).symm

theorem sentData_length (hn : r.needSend = true) (h : sentData rounds r = some data) :
    r.header.dataSize ≤ data.length ∧ (data.length = r.header.dataSize ↔ WholeBuffers r) := by
  rw [sentData, if_pos hn] at h
  unfold WholeBuffers
  split at h
  · rename_i hfile
    simpa [hfile] using sendFile_length h
  · rename_i hmem
    cases h
    simp [hmem, Memory.slice_length]

theorem sentMetaData_length (h : r.metadata.length = r.header.metaSize ∨ r.header.metaSize = 0) :
    (sentMetaData r).length = r.header.metaSize := by
  unfold sentMetaData ProducerRequest.needSendMetaData
  split <;> rename_i hn <;> simp at hn ⊢ <;> omega

end Asapo.Producer
