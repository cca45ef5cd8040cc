import Asapo.Producer.ProducerRequest
import Asapo.Receiver.Request

namespace Asapo

def Receiver.Request.getStream (r : Receiver.Request) : Text := r.header.stream

namespace HeaderTransport

open LittleEndian GenericRequestHeader Producer

/-- The character array that `strncpy` leaves, from one that may have no NUL. -/
def strncpy (size : ℕ) (source : Bytes) : Bytes :=
  (source.takeWhile (· ≠ 0) ++ List.replicate size 0).take size

def messageOffset : ℕ := 56
def streamOffset : ℕ := messageOffset + kMaxMessageSize
def versionOffset : ℕ := streamOffset + kMaxMessageSize

/-- The assignment of headers, and with it the copy constructor. The numbers and the message
are copied as they are, the stream and the version with `strncpy`. -/
def copy (memory : Bytes) : Bytes :=
  memory.take streamOffset ++ (strncpy kMaxMessageSize (field streamOffset kMaxMessageSize memory) ++
    (strncpy kMaxVersionSize (field versionOffset kMaxVersionSize memory) ++ List.replicate 6 0))

/-- The NUL at the end of the string that starts at a field is inside of the field. -/
def StaysInside (offset : ℕ) (memory : Bytes) : Prop := (cBytes (memory.drop offset)).length < kMaxMessageSize

/-- A header as the getters of the receiver see it. A string is read up to its NUL, wherever
that is. -/
def seen (memory : Bytes) : GenericRequestHeader :=
  { GenericRequestHeader.ofBytes memory with
    message := textOfBytes (cBytes (memory.drop messageOffset))
    stream := textOfBytes (cBytes (memory.drop streamOffset)) }

def request (memory : Bytes) : Receiver.Request := Receiver.Request.ofHeader (seen memory)

def NulFree (t : Text) : Prop := ∀ c ∈ t, 0 < c.toNat ∧ c.toNat < 256

variable {t : Text} {width : ℕ} {memory rest : Bytes}

theorem textOfBytes_bytesOfText (h : NulFree t) : textOfBytes (bytesOfText t) = t := by
  unfold textOfBytes bytesOfText
  rw [List.map_map]
  refine (List.map_congr_left fun c hc => ?_).trans (List.map_id t)
  have hlt : c.toNat < 256 := (h c hc).2
  simp [UInt8.toNat_ofNat', Nat.mod_eq_of_lt hlt]

theorem ne_zero_of_mem_bytesOfText (h : NulFree t) {b : UInt8} (hb : b ∈ bytesOfText t) : b ≠ 0 := by
  obtain ⟨c, hc, rfl⟩ := List.mem_map.mp hb
  obtain ⟨hpos, hlt⟩ := h c hc
  intro h0
  have := congrArg UInt8.toNat h0
  rw [UInt8.toNat_ofNat', Nat.mod_eq_of_lt hlt] at this
  simp at this
  omega

@[simp] theorem length_bytesOfText (t : Text) : (bytesOfText t).length = t.length := List.length_map _

theorem takeWhile_chars_of_lt (h : NulFree t) (hlen : t.length < width) (rest : Bytes) :
    (chars width t ++ rest).takeWhile (· ≠ 0) = bytesOfText t := by
  obtain ⟨k, rfl⟩ : ∃ k, width = t.length + (k + 1) := ⟨width - t.length - 1, by omega⟩
  have hchars : chars (t.length + (k + 1)) t = bytesOfText t ++ 0 :: List.replicate k 0 := by
    rw [chars, List.take_append, length_bytesOfText, List.take_of_length_le (by simp), List.take_replicate]
    congr 1
    rw [← List.replicate_succ]
    congr 1
    omega
  rw [hchars, List.append_assoc, List.takeWhile_append_of_pos
    (fun b hb => by simpa using ne_zero_of_mem_bytesOfText h hb)]
  simp

theorem chars_of_le (h : width ≤ t.length) : chars width t = (bytesOfText t).take width := by
  rw [chars, List.take_append_of_le_length (by simpa using h)]

theorem chars_take (width : ℕ) (t : Text) : chars width (t.take width) = chars width t := by
  by_cases hlen : width ≤ t.length
  · rw [chars_of_le hlen, chars_of_le (by rw [List.length_take]; omega), bytesOfText, bytesOfText,
      List.map_take, List.take_take, min_self]
  · rw [List.take_of_length_le (by omega)]

theorem length_takeWhile_chars (h : NulFree t) (hlen : width ≤ t.length) (rest : Bytes) :
    width ≤ ((chars width t ++ rest).takeWhile (· ≠ 0)).length := by
  rw [chars_of_le hlen, List.takeWhile_append_of_pos
    (fun b hb => by simpa using ne_zero_of_mem_bytesOfText h (List.mem_of_mem_take hb)), List.length_append,
    List.length_take, length_bytesOfText]
  omega

theorem length_strncpy (width : ℕ) (source : Bytes) : (strncpy width source).length = width := by
  simp [strncpy]

theorem strncpy_chars (h : NulFree t) : strncpy width (chars width t) = chars width t := by
  by_cases hlen : t.length < width
  · have htake := takeWhile_chars_of_lt h hlen []
    rw [List.append_nil] at htake
    rw [strncpy, htake, chars]
  · have hle : width ≤ t.length := by omega
    have htake : (chars width t).takeWhile (· ≠ 0) = chars width t := by
      rw [chars_of_le hle]
      exact List.takeWhile_eq_self_iff.mpr
        (fun b hb => by simpa using ne_zero_of_mem_bytesOfText h (List.mem_of_mem_take hb))
    rw [strncpy, htake, List.take_append_of_le_length (by simp)]
    exact List.take_of_length_le (by simp)

def Holds (message stream : Text) (memory : Bytes) : Prop :=
  ∃ front rest, front.length = messageOffset ∧
    memory = front ++ (chars kMaxMessageSize message ++ (chars kMaxMessageSize stream ++ rest))

namespace Holds

variable {message stream : Text}

theorem toBytes (h : GenericRequestHeader) : Holds h.message h.stream h.toBytes := by
  refine ⟨LittleEndian.toBytes 1 h.opCode.code ++ (List.replicate 7 0 ++
    (LittleEndian.toBytes 8 h.dataId ++ (LittleEndian.toBytes 8 h.dataSize ++
    (LittleEndian.toBytes 8 h.metaSize ++ (LittleEndian.toBytes 8 (h.customData kPosIngestMode) ++
    (LittleEndian.toBytes 8 (h.customData kPosDataSetId) ++
    LittleEndian.toBytes 8 (h.customData kPosDataSetSize))))))),
    chars kMaxVersionSize h.apiVersion ++ List.replicate 6 0, ?_, ?_⟩
  · simp [messageOffset]
  · simp only [GenericRequestHeader.toBytes, List.append_assoc]

theorem append (h : Holds message stream memory) (beyond : Bytes) :
    Holds message stream (memory ++ beyond) := by
  obtain ⟨front, rest, hfront, rfl⟩ := h
  exact ⟨front, rest ++ beyond, hfront, by simp only [List.append_assoc]⟩

theorem drop_message (h : Holds message stream memory) :
    ∃ rest, memory.drop messageOffset =
      chars kMaxMessageSize message ++ (chars kMaxMessageSize stream ++ rest) := by
  obtain ⟨front, rest, hfront, rfl⟩ := h
  exact ⟨rest, by rw [← hfront, List.drop_left]⟩

theorem drop_stream (h : Holds message stream memory) :
    ∃ rest, memory.drop streamOffset = chars kMaxMessageSize stream ++ rest := by
  obtain ⟨rest, hrest⟩ := h.drop_message
  refine ⟨rest, ?_⟩
  rw [streamOffset, ← List.drop_drop, hrest, List.drop_left' (length_chars _ _)]

theorem copy (h : Holds message stream memory) (hs : NulFree stream) :
    Holds message stream (HeaderTransport.copy memory) := by
  obtain ⟨rest, hstream⟩ := h.drop_stream
  have hfield : field streamOffset kMaxMessageSize memory = chars kMaxMessageSize stream := by
    rw [field, hstream, List.take_left' (length_chars _ _)]
  obtain ⟨front, rest, hfront, rfl⟩ := h
  have htake : (front ++ (chars kMaxMessageSize message ++ (chars kMaxMessageSize stream ++ rest))).take
      streamOffset = front ++ chars kMaxMessageSize message := by
    rw [← List.append_assoc, List.take_left']
    rw [List.length_append, hfront, length_chars, streamOffset]
  rw [HeaderTransport.copy, htake, hfield, strncpy_chars hs, List.append_assoc]
  exact ⟨front, _, hfront, rfl⟩

theorem copies (h : Holds message stream memory) (hs : NulFree stream) (k : ℕ) :
    Holds message stream (HeaderTransport.copy^[k] memory) := by
  induction k with
  | zero => exact h
  | succ k ih =>
    rw [Function.iterate_succ_apply']
    exact ih.copy hs

end Holds

theorem length_copy (h : memory.length = size) : (copy memory).length = size := by
  rw [copy, List.length_append, List.length_append, List.length_append, List.length_take, h,
    length_strncpy, length_strncpy, List.length_replicate]
  rfl

theorem length_copies (h : memory.length = size) (k : ℕ) : (copy^[k] memory).length = size := by
  induction k with
  | zero => exact h
  | succ k ih =>
    rw [Function.iterate_succ_apply']
    exact length_copy ih

/-- The memory at the header of a request in the receiver. The producer makes copies of the
header that it built and sends one in front of the content, the receiver reads it and makes
copies as well. Behind the header lies other memory. -/
def arrived (k l : ℕ) (h : GenericRequestHeader) (content beyond : Bytes) : Bytes :=
  copy^[l] ((copy^[k] h.toBytes ++ content).take size) ++ beyond

theorem holds_arrived {h : GenericRequestHeader} (hs : NulFree h.stream) (k l : ℕ)
    (content beyond : Bytes) : Holds h.message h.stream (arrived k l h content beyond) := by
  have hsent : (copy^[k] h.toBytes ++ content).take size = copy^[k] h.toBytes :=
    List.take_left' (length_copies (length_toBytes h) k)
  rw [arrived, hsent]
  exact (((Holds.toBytes h).copies hs k).copies hs l).append beyond

section Field

variable {offset : ℕ} {name : Text}

theorem cBytes_of_lt (hmemory : memory.drop offset = chars kMaxMessageSize name ++ rest)
    (hname : NulFree name) (hlen : name.length < kMaxMessageSize) : cBytes (memory.drop offset) = bytesOfText name := by
  rw [cBytes, hmemory, takeWhile_chars_of_lt hname hlen]

/-- What is read from a field without a NUL goes on in the memory behind it. -/
theorem cBytes_of_eq (hmemory : memory.drop offset = chars kMaxMessageSize name ++ rest)
    (hname : NulFree name) (hlen : name.length = kMaxMessageSize) :
    cBytes (memory.drop offset) = bytesOfText name ++ rest.takeWhile (· ≠ 0) := by
  have hfull : (bytesOfText name).take kMaxMessageSize = bytesOfText name :=
    List.take_of_length_le (by rw [length_bytesOfText, hlen])
  rw [cBytes, hmemory, chars_of_le hlen.ge, hfull, List.takeWhile_append_of_pos
    (fun b hb => by simpa using ne_zero_of_mem_bytesOfText hname hb)]

theorem staysInside_iff (hmemory : memory.drop offset = chars kMaxMessageSize name ++ rest)
    (hname : NulFree name) : StaysInside offset memory ↔ name.length < kMaxMessageSize := by
  constructor
  · intro hinside
    by_contra hlen
    have hlong := length_takeWhile_chars hname (not_lt.mp hlen) rest
    rw [← hmemory] at hlong
    exact absurd hinside (not_lt.mpr hlong)
  · intro hlen
    rw [StaysInside, cBytes_of_lt hmemory hname hlen, length_bytesOfText]
    exact hlen

/-- A name that fits into its field with a NUL comes back, and no other one is read inside of
the field. -/
theorem field_survives_iff (hmemory : memory.drop offset = chars kMaxMessageSize name ++ rest)
    (hname : NulFree name) (f : Text → Text) :
    f (textOfBytes (cBytes (memory.drop offset))) = f name ∧ StaysInside offset memory ↔
      name.length < kMaxMessageSize := by
  rw [staysInside_iff hmemory hname]
  constructor
  · exact And.right
  · intro hlen
    rw [cBytes_of_lt hmemory hname hlen, textOfBytes_bytesOfText hname]
    exact ⟨rfl, hlen⟩

end Field

open ProducerImpl

variable {m : MessageHeader} {name : Text} {ingestMode : ℕ} {unset : Fin 3 → ℕ}

theorem generateNextSendRequest_message :
    (generateNextSendRequest m name ingestMode unset).message = m.fileName.take kMaxMessageSize := by
  unfold generateNextSendRequest
  split <;> rfl

theorem generateNextSendRequest_stream :
    (generateNextSendRequest m name ingestMode unset).stream = name.take kMaxMessageSize := by
  unfold generateNextSendRequest
  split <;> rfl

theorem length_fileName_of_accepted (h : checkProducerRequest m ingestMode name = none) :
    m.fileName.length ≤ kMaxMessageSize := by
  by_contra hlen
  have hfile : checkFileNameInRequest m = wrongInput "too long filename" := if_pos (not_le.mp hlen)
  rw [checkProducerRequest, hfile] at h
  split at h <;> simp [wrongInput] at h

theorem holds_sent (hstream : NulFree name) (k l : ℕ) (content beyond : Bytes) :
    Holds m.fileName name
      (arrived k l (generateNextSendRequest m name ingestMode unset) content beyond) := by
  have hsent : NulFree (generateNextSendRequest m name ingestMode unset).stream := by
    rw [generateNextSendRequest_stream]
    exact fun c hc => hstream c (List.mem_of_mem_take hc)
  have h := holds_arrived hsent k l content beyond
  rw [generateNextSendRequest_message, generateNextSendRequest_stream] at h
  unfold Holds at h
  rwa [chars_take, chars_take] at h

/-- The check of the producer lets through a file name that fills its field and a stream of
any length. Names survive the header exactly if there is space for a NUL behind both. -/
theorem names_survive_iff (haccepted : checkProducerRequest m ingestMode name = none)
    (hfile : NulFree m.fileName) (hstream : NulFree name) (k l : ℕ) (content beyond : Bytes) :
    let memory := arrived k l (generateNextSendRequest m name ingestMode unset) content beyond
    ((request memory).getFileName = m.fileName.map (fun c => if c = '\\' then '/' else c) ∧
        StaysInside messageOffset memory) ∧
      ((request memory).getStream = name ∧ StaysInside streamOffset memory) ↔
    m.fileName.length ≠ kMaxMessageSize ∧ name.length < kMaxMessageSize := by
  intro memory
  have holds : Holds m.fileName name memory := holds_sent hstream k l content beyond
  obtain ⟨behindMessage, hmessage⟩ := holds.drop_message
  obtain ⟨behindStream, hname⟩ := holds.drop_stream
  have hle : m.fileName.length ≤ kMaxMessageSize := length_fileName_of_accepted haccepted
  have hlt : m.fileName.length < kMaxMessageSize ↔ m.fileName.length ≠ kMaxMessageSize := by omega
  rw [← hlt]
  exact and_congr
    (field_survives_iff hmessage hfile (List.map (fun c => if c = '\\' then '/' else c)))
    (field_survives_iff hname hstream id)

theorem names_survive_short :
    checkProducerRequest ⟨1, 4, text "a\\b", [], 0, 0, false⟩ 9 (text "s") = none ∧
      NulFree (text "a\\b") ∧ NulFree (text "s") ∧
      let memory := arrived 2 2 (generateNextSendRequest ⟨1, 4, text "a\\b", [], 0, 0, false⟩ (text "s") 9
        (fun _ => 0)) [1] [1]
      ((request memory).getFileName = text "a/b" ∧ StaysInside messageOffset memory) ∧
        ((request memory).getStream = text "s" ∧ StaysInside streamOffset memory) := by
  have hfile : NulFree (text "a\\b") := by simp [NulFree, text]
  have hstream : NulFree (text "s") := by simp [NulFree, text]
  refine ⟨by decide, hfile, hstream, ?_⟩
  exact (names_survive_iff (by decide) hfile hstream 2 2 [1] [1]).mpr ⟨by decide, by decide⟩

/-- A file name of exactly the size of its field is accepted. The receiver reads on behind
the field and takes the stream as a part of the name. -/
theorem full_name_overruns :
    let m : MessageHeader := ⟨1, 4, List.replicate kMaxMessageSize 'a', [], 0, 0, false⟩
    let memory := arrived 0 0 (generateNextSendRequest m (text "s") 9 (fun _ => 0)) [] []
    checkProducerRequest m 9 (text "s") = none ∧ NulFree m.fileName ∧ NulFree (text "s") ∧
      (request memory).getFileName = m.fileName ++ text "s" ∧ ¬ StaysInside messageOffset memory := by
  intro m memory
  have hfile : NulFree m.fileName := by
    intro c hc
    rw [List.eq_of_mem_replicate hc]
    decide
  have hstream : NulFree (text "s") := by simp [NulFree, text]
  have hlen : m.fileName.length = kMaxMessageSize := List.length_replicate
  have hnonempty : m.fileName ≠ [] := List.ne_nil_of_length_pos (by rw [hlen]; decide)
  have hcheck : checkFileNameInRequest m = none := by
    rw [checkFileNameInRequest, if_neg (by omega), if_neg hnonempty]
  have haccepted : checkProducerRequest m 9 (text "s") = none := by
    rw [checkProducerRequest, hcheck]
    rfl
  obtain ⟨rest, hmessage⟩ := (holds_sent (m := m) hstream 0 0 [] []).drop_message
  have hread : textOfBytes (cBytes (memory.drop messageOffset)) = m.fileName ++ text "s" := by
    rw [cBytes_of_eq hmessage hfile hlen, takeWhile_chars_of_lt hstream (by decide), textOfBytes,
      List.map_append, ← textOfBytes, ← textOfBytes, textOfBytes_bytesOfText hfile,
      textOfBytes_bytesOfText hstream]
  refine ⟨haccepted, hfile, hstream, ?_, ?_⟩
  · change (textOfBytes (cBytes (memory.drop messageOffset))).map _ = _
    rw [hread, List.map_append, List.map_replicate]
    rfl
  · rw [staysInside_iff hmessage hfile]
    omega

end HeaderTransport

end Asapo
