import Asapo.Common.SystemIO
import Asapo.Producer.SendFile

namespace Asapo.FileStreaming

open Progress SystemIO

/-- The system says that it is busy, or that it was interrupted, which has the same code. -/
def Busy : Outcome → Prop
  | .amount _ => False
  | .failed err => IOErrorTemplates.resourceTemporarilyUnavailable.equals (some err) = true

/-- The calls to the system are busy finitely often, and do not fail because of the
descriptor, whose error has the code of the end of a file. -/
structure Fair (outcomes : ℕ → Outcome) : Prop where
  busy : ∃ N, ∀ n, N ≤ n → ¬ Busy (outcomes n)
  descriptor : ∀ n err, outcomes n = .failed err → GeneralErrorTemplates.endOfFile.differs (some err) = true

/-- A call comes to its end, and without an error the bytes that it was to move are moved. -/
def Exact (run : Option Error → (ℕ → Outcome) → ℕ → State) (bytes : Bytes) : Prop :=
  ∀ setup outcomes, Fair outcomes →
    (∃ n err, (run setup outcomes n).phase = .returned err) ∧
      ∀ n, (run setup outcomes n).phase = .returned none → (run setup outcomes n).sink = bytes

inductive Inv (request : ℕ → ℕ) (length : ℕ) (input : Bytes) : State → Prop
  | reading {source sink buffer : Bytes} (content : sink ++ buffer ++ source = input)
      (less : sink.length < length) (room : buffer.length < request sink.length) :
      Inv request length input ⟨source, sink, sink.length, .reading buffer⟩
  | writing {source sink rest : Bytes} {total size : ℕ} (content : sink ++ rest ++ source = input)
      (sum : total + size = sink.length + rest.length) (less : total < length) (nonempty : rest ≠ [])
      (fits : size ≤ request total) : Inv request length input ⟨source, sink, total, .writing rest size⟩
  | finished {source sink : Bytes} (content : sink ++ source = input) (enough : length ≤ sink.length)
      (bound : (∀ t < length, t + request t ≤ length) → sink.length ≤ length) :
      Inv request length input ⟨source, sink, sink.length, .returned none⟩
  | failed {source sink : Bytes} {total : ℕ} (err : Error) :
      Inv request length input ⟨source, sink, total, .returned (some err)⟩

variable {request : ℕ → ℕ} {length : ℕ} {input : Bytes} {source sink buffer rest : Bytes} {s : State}
  {total size k : ℕ} {o : Outcome} {phase : Phase}

def Returned (s : State) : Prop := ∃ err, s.phase = .returned err

inductive Moves (request : ℕ → ℕ) (length : ℕ) (o : Outcome) (s : State) : State → Prop
  | stays (h : Busy o ∨ Returned s) : Moves request length o s s
  | fails (err : Error) : Moves request length o s { s with phase := .returned (some err) }
  | ends {buffer : Bytes} (h : s.phase = .reading buffer)
      (hend : s.source = [] ∨ ∃ err, o = .failed err ∧ GeneralErrorTemplates.endOfFile.differs (some err) = false) :
      Moves request length o s (write length buffer s)
  | reads {buffer : Bytes} {n : ℕ} (h : s.phase = .reading buffer) (hsource : s.source ≠ []) (hn : 1 ≤ n)
      (hless : (buffer ++ s.source.take n).length < request s.total) :
      Moves request length o s { s with source := s.source.drop n, phase := .reading (buffer ++ s.source.take n) }
  | fills {buffer : Bytes} {n : ℕ} (h : s.phase = .reading buffer) (hsource : s.source ≠ []) (hn : 1 ≤ n)
      (hroom : n ≤ max 1 (request s.total - buffer.length))
      (hfull : request s.total ≤ (buffer ++ s.source.take n).length) :
      Moves request length o s (write length (buffer ++ s.source.take n) { s with source := s.source.drop n })
  | writes {rest : Bytes} {size n : ℕ} (h : s.phase = .writing rest size) (hn : 1 ≤ n) (hless : n < rest.length) :
      Moves request length o s { s with sink := s.sink ++ rest.take n, phase := .writing (rest.drop n) size }
  | flushes {rest : Bytes} {size : ℕ} (h : s.phase = .writing rest size) :
      Moves request length o s (loop length { s with sink := s.sink ++ rest, total := s.total + size })

theorem moves_readSome (h : s.phase = .reading buffer) (k : ℕ) :
    Moves request length o s (readSome request length buffer k s) := by
  have hn : 1 ≤ readAmount k (request s.total - buffer.length) := le_max_left ..
  have hroom : readAmount k (request s.total - buffer.length) ≤ max 1 (request s.total - buffer.length) := by
    rw [readAmount]
    omega
  unfold readSome
  split
  · rename_i hsource
    exact .ends h (.inl hsource)
  · rename_i hsource
    dsimp only
    split
    · rename_i hless
      exact .reads h hsource hn hless
    · rename_i hfull
      exact .fills h hsource hn hroom (Nat.not_lt.mp hfull)

theorem moves_writeSome (h : s.phase = .writing rest size) (k : ℕ) :
    Moves request length o s (writeSome length rest size k s) := by
  unfold writeSome
  split
  · exact .fails _
  · rename_i hk
    have hmax : 0 < kMaxTransferChunkSize := by decide
    dsimp only
    split
    · rename_i hless
      exact .writes h (by omega) hless
    · rename_i hall
      rw [List.take_of_length_le (Nat.not_lt.mp hall)]
      exact .flushes h

theorem moves_step (request : ℕ → ℕ) (length : ℕ) (o : Outcome) (s : State) :
    Moves request length o s (step request length o s) := by
  unfold step
  split
  · rename_i buffer k hphase
    exact moves_readSome hphase k
  · rename_i rest size k hphase
    exact moves_writeSome hphase k
  · rename_i buffer err hphase
    split
    · rename_i hbusy
      exact .stays (.inl hbusy)
    · unfold readError
      split
      · exact .fails err
      · rename_i hend
        exact .ends hphase (.inr ⟨err, rfl, Bool.of_not_eq_true hend⟩)
  · rename_i rest size err hphase
    split
    · rename_i hbusy
      exact .stays (.inl hbusy)
    · exact .fails err
  · rename_i hphase
    exact .stays (.inr ⟨_, hphase⟩)

theorem inv_loop (hpos : ∀ t < length, 0 < request t) (content : sink ++ source = input)
    (bound : (∀ t < length, t + request t ≤ length) → sink.length ≤ length) :
    Inv request length input (loop length ⟨source, sink, sink.length, phase⟩) := by
  unfold loop
  split
  · rename_i hless
    exact .reading (by rw [List.append_nil, content]) hless (hpos _ hless)
  · rename_i hge
    exact .finished content (Nat.not_lt.mp hge) bound

theorem inv_write (hpos : ∀ t < length, 0 < request t) (content : sink ++ buffer ++ source = input)
    (less : sink.length < length) (fits : buffer.length ≤ request sink.length) :
    Inv request length input (write length buffer ⟨source, sink, sink.length, phase⟩) := by
  unfold write
  split
  · rename_i hnil
    subst hnil
    exact inv_loop hpos (by simpa using content) (fun _ => less.le)
  · rename_i hne
    exact .writing content rfl less hne fits

theorem inv_step (hpos : ∀ t < length, 0 < request t) (h : Inv request length input s) (o : Outcome) :
    Inv request length input (step request length o s) := by
  have hmoves := moves_step request length o s
  cases h with
  | @reading source sink buffer content less room =>
    have hcontent (n : ℕ) : sink ++ (buffer ++ source.take n) ++ source.drop n = input := by
      rw [← content, List.append_assoc, List.append_assoc, List.append_assoc, List.take_append_drop]
    generalize step request length o _ = s' at hmoves
    cases hmoves with
    | stays => exact .reading content less room
    | fails err => exact .failed err
    | ends hphase =>
      cases hphase
      exact inv_write hpos content less room.le
    | reads hphase _ _ hless =>
      cases hphase
      exact .reading (hcontent _) less hless
    | fills hphase _ _ hroom =>
      cases hphase
      refine inv_write hpos (hcontent _) less ?_
      simp only [List.length_append, List.length_take] at hroom ⊢
      omega
    | writes hphase => cases hphase
    | flushes hphase => cases hphase
  | @writing source sink rest total size content sum less nonempty fits =>
    generalize step request length o _ = s' at hmoves
    cases hmoves with
    | stays => exact .writing content sum less nonempty fits
    | fails err => exact .failed err
    | ends hphase => cases hphase
    | reads hphase => cases hphase
    | fills hphase => cases hphase
    | writes hphase _ hless =>
      cases hphase
      refine .writing ?_ ?_ less (by simpa using hless) fits
      · rw [← content, List.append_assoc sink, List.take_append_drop]
      · simp only [List.length_append, List.length_take, List.length_drop]
        omega
    | flushes hphase =>
      cases hphase
      have htotal : total + size = (sink ++ rest).length := by rw [List.length_append, sum]
      simp only [htotal]
      refine inv_loop hpos content fun hbound => ?_
      have := hbound total less
      omega
  | finished content enough bound => exact .finished content enough bound
  | failed err => exact .failed err

section Termination

/-- What is left to do: a byte is read and written, and each read may be the last one. -/
def rank (s : State) : ℕ :=
  match s.phase with
  | .reading buffer => 3 * s.source.length + 2 * buffer.length + 1
  | .writing rest _ => 3 * s.source.length + 2 * rest.length
  | .returned _ => 0

theorem rank_loop (s : State) : rank (loop length s) ≤ 3 * s.source.length + 1 := by
  unfold loop
  split <;> simp [rank]

theorem rank_write (h : buffer ≠ []) (s : State) :
    rank (write length buffer s) = 3 * s.source.length + 2 * buffer.length := by
  rw [write, if_neg h]
  rfl

theorem buffer_ne_nil (hinput : length ≤ input.length) (h : Inv request length input s)
    (hphase : s.phase = .reading buffer) (hsource : s.source = []) : buffer ≠ [] := by
  cases h with
  | @reading source sink _ content less =>
    cases hphase
    rintro rfl
    have hlen := congrArg List.length content
    rw [show source = [] from hsource, List.append_nil, List.append_nil] at hlen
    omega
  | writing => cases hphase
  | finished => cases hphase
  | failed => cases hphase

theorem rank_step (hinput : length ≤ input.length) (h : Inv request length input s) (hd : ¬ Returned s)
    (hb : ¬ Busy o)
    (hf : ∀ err, o = .failed err → GeneralErrorTemplates.endOfFile.differs (some err) = true) :
    Returned (step request length o s) ∨ rank (step request length o s) < rank s := by
  have hmoves := moves_step request length o s
  generalize step request length o s = s' at hmoves
  cases hmoves with
  | stays hstays => exact absurd hstays (not_or.mpr ⟨hb, hd⟩)
  | fails err => exact .inl ⟨_, rfl⟩
  | @ends buffer hphase hend =>
    right
    have hsource : s.source = [] := by
      rcases hend with hsource | ⟨err, herr, hdiffers⟩
      · exact hsource
      · rw [hf err herr] at hdiffers
        cases hdiffers
    rw [rank_write (buffer_ne_nil hinput h hphase hsource)]
    simp [rank, hphase]
  | reads hphase hsource hn =>
    right
    have hpos : 0 < s.source.length := List.length_pos_iff.mpr hsource
    simp only [rank, hphase, List.length_append, List.length_take, List.length_drop]
    omega
  | @fills buffer n hphase hsource hn =>
    right
    have hpos : 0 < s.source.length := List.length_pos_iff.mpr hsource
    have hne : buffer ++ s.source.take n ≠ [] := by
      refine List.append_ne_nil_of_right_ne_nil _ fun hnil => ?_
      have := congrArg List.length hnil
      simp only [List.length_take, List.length_nil] at this
      omega
    rw [rank_write hne]
    simp only [rank, hphase, List.length_append, List.length_take, List.length_drop]
    omega
  | writes hphase hn hless =>
    right
    simp only [rank, hphase, List.length_drop]
    omega
  | flushes hphase =>
    right
    refine lt_of_le_of_lt (rank_loop _) ?_
    cases h with
    | writing _ _ _ nonempty =>
      cases hphase
      have hrest := List.length_pos_iff.mpr nonempty
      simp only [rank]
      omega
    | reading => cases hphase
    | finished => cases hphase
    | failed => cases hphase

theorem inv_start (hpos : ∀ t < length, 0 < request t) (setup : Option Error) :
    Inv request length input (start length setup input) := by
  cases setup with
  | some err => exact .failed err
  | none => exact inv_loop hpos (List.nil_append input) (fun _ => Nat.zero_le length)

theorem inv_states (hpos : ∀ t < length, 0 < request t) (input : Bytes) (setup : Option Error)
    (outcomes : ℕ → Outcome) (n : ℕ) :
    Inv request length input (states (step request length) outcomes (start length setup input) n) :=
  states_inv (Inv request length input) (fun n _ h => inv_step hpos h (outcomes n)) (inv_start hpos setup) n

theorem returns (hpos : ∀ t < length, 0 < request t) (hinput : length ≤ input.length) (setup : Option Error)
    {outcomes : ℕ → Outcome} (hfair : Fair outcomes) :
    ∃ n, Returned (states (step request length) outcomes (start length setup input) n) := by
  obtain ⟨N, hN⟩ := hfair.busy
  exact eventually_done (Inv request length input) rank (fun n _ h => inv_step hpos h (outcomes n))
    (fun n _ hn h hd => rank_step hinput h hd (hN n hn) (hfair.descriptor n)) (inv_start hpos setup)

end Termination

section Failures

def slowly : ℕ → Outcome := fun _ => .amount 1

theorem fair_slowly : Fair slowly := ⟨⟨0, fun _ _ h => h⟩, by rintro n err ⟨⟩⟩

def Unfailing (s : State) : Prop := ∀ err, s.phase ≠ .returned (some err)

theorem unfailing_loop : Unfailing (loop length s) := by
  unfold loop
  split <;> rintro err ⟨⟩

theorem unfailing_write : Unfailing (write length buffer s) := by
  unfold write
  split
  · exact unfailing_loop
  · rintro err ⟨⟩

theorem unfailing_step (h : Unfailing s) : Unfailing (step request length (.amount 1) s) := by
  unfold step
  cases hp : s.phase with
  | reading buffer =>
    simp only [readSome]
    split
    · exact unfailing_write
    · split
      · rintro err ⟨⟩
      · exact unfailing_write
  | writing rest size =>
    simp only [writeSome, one_ne_zero, if_false]
    split
    · rintro err ⟨⟩
    · exact unfailing_loop
  | returned err =>
    intro err'
    rw [hp]
    exact hp ▸ h err'

theorem unfailing_states (request : ℕ → ℕ) (length : ℕ) (input : Bytes) (n : ℕ) :
    Unfailing (states (step request length) slowly (start length none input) n) :=
  states_inv Unfailing (fun _ _ h => unfailing_step h) unfailing_loop n

/-- A source that is too short keeps the loop going. -/
theorem never_returns (hpos : ∀ t < length, 0 < request t) (hinput : input.length < length) (n : ℕ) :
    ¬ Returned (states (step request length) slowly (start length none input) n) := by
  rintro ⟨err, herr⟩
  have hun := unfailing_states request length input n
  have hinv := inv_states hpos input none slowly n
  generalize states (step request length) slowly (start length none input) n = s at herr hun hinv
  cases hinv with
  | reading => cases herr
  | writing => cases herr
  | finished content enough bound =>
    have hlen := congrArg List.length content
    rw [List.length_append] at hlen
    omega
  | failed err => exact hun err rfl

end Failures

section Rounds

variable {file : Bytes} {setup : Option Error} {outcomes : ℕ → Outcome}

/-- The rounds of `SendFile` can come to this count, to this rest of the file and to these
bytes sent. -/
def Reaches (length : ℕ) (file : Bytes) (total : ℕ) (rest sink : Bytes) : Prop :=
  ∃ k, ∀ rounds out, Producer.sendFileLoop (min length kReadWriteBufSize) length rounds total rest = some out →
    Producer.sendFileLoop (min length kReadWriteBufSize) length (rounds + k) 0 file = some (sink ++ out)

theorem Reaches.round (h : Reaches length file total rest sink) (hless : total < length) :
    Reaches length file (total + min (min length kReadWriteBufSize) rest.length)
      (rest.drop (min length kReadWriteBufSize)) (sink ++ rest.take (min length kReadWriteBufSize)) := by
  obtain ⟨k, hk⟩ := h
  refine ⟨k + 1, fun rounds out hout => ?_⟩
  have hround := hk (rounds + 1) (rest.take (min length kReadWriteBufSize) ++ out) (by
    unfold Producer.sendFileLoop
    simp only [hless, if_true, List.length_take, hout, Option.map_some])
  rw [List.append_assoc, ← hround]
  congr 1
  omega

theorem Reaches.done (h : Reaches length file total rest sink) (hdone : length ≤ total) :
    ∃ rounds, Producer.sendFile rounds file length = some sink := by
  obtain ⟨k, hk⟩ := h
  refine ⟨0 + k, ?_⟩
  have hend := hk 0 [] (by
    unfold Producer.sendFileLoop
    rw [if_neg (by omega)])
  rw [List.append_nil] at hend
  exact hend

/-- The calls to the system make up the rounds of `SendFile`. A buffer is read whole unless
the file ends. -/
def Tracks (length : ℕ) (file : Bytes) (s : State) : Prop :=
  match s.phase with
  | .reading buffer => Reaches length file s.total (buffer ++ s.source) s.sink
  | .writing rest size => Reaches length file (s.total + size) s.source (s.sink ++ rest)
  | .returned none => ∃ rounds, Producer.sendFile rounds file length = some s.sink
  | .returned (some _) => True

theorem tracks_loop (h : Reaches length file s.total s.source s.sink) : Tracks length file (loop length s) := by
  unfold loop
  split
  · exact h
  · rename_i hdone
    exact h.done (Nat.not_lt.mp hdone)

theorem tracks_write (h : Reaches length file s.total (buffer ++ s.source) s.sink) (hless : s.total < length)
    (hfits : buffer.length ≤ min length kReadWriteBufSize)
    (hwhole : buffer.length = min length kReadWriteBufSize ∨ s.source = []) :
    Tracks length file (write length buffer s) := by
  unfold write
  split
  · rename_i hnil
    subst hnil
    exact tracks_loop h
  · have hround := h.round hless
    have htake : (buffer ++ s.source).take (min length kReadWriteBufSize) = buffer := by
      rcases hwhole with hlen | hsource
      · rw [← hlen, List.take_left]
      · rw [hsource, List.append_nil, List.take_of_length_le hfits]
    have hdrop : (buffer ++ s.source).drop (min length kReadWriteBufSize) = s.source := by
      rcases hwhole with hlen | hsource
      · rw [← hlen, List.drop_left]
      · rw [hsource, List.append_nil, List.drop_eq_nil_of_le hfits]
    rw [htake, hdrop, ← List.length_take, htake] at hround
    exact hround

theorem tracks_step (h : Inv (sendFileRequest length) length file s) (ht : Tracks length file s)
    (hf : ∀ err, o = .failed err → GeneralErrorTemplates.endOfFile.differs (some err) = true) :
    Tracks length file (step (sendFileRequest length) length o s) := by
  have hmoves := moves_step (sendFileRequest length) length o s
  cases h with
  | @reading source sink buffer content less room =>
    have htake (n : ℕ) : Reaches length file sink.length (buffer ++ source.take n ++ source.drop n) sink := by
      rw [List.append_assoc, List.take_append_drop]
      exact ht
    generalize step (sendFileRequest length) length o _ = s' at hmoves
    cases hmoves with
    | stays => exact ht
    | fails err => trivial
    | ends hphase hend =>
      cases hphase
      rcases hend with hsource | ⟨err, herr, hdiffers⟩
      · exact tracks_write ht less room.le (.inr hsource)
      · rw [hf err herr] at hdiffers
        cases hdiffers
    | reads hphase =>
      cases hphase
      exact htake _
    | @fills _ n hphase _ _ hroom hfull =>
      cases hphase
      have hfits : (buffer ++ source.take n).length ≤ sendFileRequest length sink.length := by
        simp only [List.length_append, List.length_take] at hroom ⊢
        omega
      exact tracks_write (htake n) less hfits (.inl (le_antisymm hfits hfull))
    | writes hphase => cases hphase
    | flushes hphase => cases hphase
  | @writing source sink rest total size content sum less nonempty fits =>
    have hreach : Reaches length file (total + size) source (sink ++ rest) := ht
    generalize step (sendFileRequest length) length o _ = s' at hmoves
    cases hmoves with
    | stays => exact ht
    | fails err => trivial
    | ends hphase => cases hphase
    | reads hphase => cases hphase
    | fills hphase => cases hphase
    | writes hphase =>
      cases hphase
      simpa only [Tracks, List.append_assoc, List.take_append_drop] using hreach
    | flushes hphase =>
      cases hphase
      exact tracks_loop hreach
  | finished => exact ht
  | failed err => exact ht

theorem sendFileRequest_pos (t : ℕ) (ht : t < length) : 0 < sendFileRequest length t :=
  Nat.lt_min.mpr ⟨by omega, by decide⟩

theorem receiveRequest_pos (t : ℕ) (ht : t < length) : 0 < receiveRequest length t :=
  Nat.lt_min.mpr ⟨Nat.lt_min.mpr ⟨by omega, by decide⟩, by omega⟩

theorem tracks_sendFile (hfair : Fair outcomes) (n : ℕ) :
    Tracks length file (sendFile length file setup outcomes n) := by
  refine (states_inv (fun s => Inv (sendFileRequest length) length file s ∧ Tracks length file s)
    (fun n _ h => ⟨inv_step sendFileRequest_pos h.1 (outcomes n), tracks_step h.1 h.2 (hfair.descriptor n)⟩)
    ⟨inv_start sendFileRequest_pos setup, ?_⟩ n).2
  cases setup with
  | some err => trivial
  | none => exact tracks_loop ⟨0, fun _ _ h => h⟩

theorem sent_of_returned (h : Inv request length input s) (hr : s.phase = .returned none) :
    s.sink = input.take s.sink.length ∧ length ≤ s.sink.length ∧
      ((∀ t < length, t + request t ≤ length) → s.sink.length ≤ length) := by
  cases h with
  | reading => cases hr
  | writing => cases hr
  | finished content enough bound => exact ⟨by rw [← content, List.take_left], enough, bound⟩
  | failed err => cases hr

theorem sent_length (hfair : Fair outcomes) {n : ℕ}
    (hr : (sendFile length file setup outcomes n).phase = .returned none) :
    (sendFile length file setup outcomes n).sink.length = length ↔
      length ≤ kReadWriteBufSize ∨ kReadWriteBufSize ∣ length ∨ file.length = length := by
  have ht : Tracks length file (sendFile length file setup outcomes n) := tracks_sendFile hfair n
  rw [Tracks, hr] at ht
  obtain ⟨rounds, hrounds⟩ := ht
  exact (Producer.sendFile_length hrounds).2

end Rounds

theorem sends_slowly {file : Bytes} (hfile : length ≤ file.length) :
    ∃ n, (sendFile length file none slowly n).phase = .returned none := by
  obtain ⟨n, err, herr⟩ := returns sendFileRequest_pos hfile none fair_slowly
  refine ⟨n, ?_⟩
  cases err with
  | none => exact herr
  | some err => exact absurd herr (unfailing_states (sendFileRequest length) length file n err)

theorem exact_sendFile_iff (length : ℕ) (file : Bytes) :
    Exact (sendFile length file) (file.take length) ↔
      length ≤ file.length ∧ (length ≤ kReadWriteBufSize ∨ kReadWriteBufSize ∣ length ∨ file.length = length) := by
  constructor
  · intro h
    obtain ⟨⟨n, err, herr⟩, -⟩ := h none slowly fair_slowly
    have hfile : length ≤ file.length := by
      by_contra hshort
      exact never_returns sendFileRequest_pos (Nat.not_le.mp hshort) n ⟨err, herr⟩
    refine ⟨hfile, ?_⟩
    obtain ⟨n, hn⟩ := sends_slowly hfile
    refine (sent_length fair_slowly hn).mp ?_
    rw [(h none slowly fair_slowly).2 n hn, List.length_take, Nat.min_eq_left hfile]
  · rintro ⟨hfile, hlength⟩ setup outcomes hfair
    refine ⟨returns sendFileRequest_pos hfile setup hfair, fun n hn => ?_⟩
    have hsink : (sendFile length file setup outcomes n).sink =
        file.take (sendFile length file setup outcomes n).sink.length :=
      (sent_of_returned (inv_states sendFileRequest_pos file setup outcomes n) hn).1
    rw [hsink, (sent_length hfair hn).mpr hlength]

theorem exact_receiveDataToFile_iff (length : ℕ) (incoming : Bytes) :
    Exact (receiveDataToFile length incoming) (incoming.take length) ↔ length ≤ incoming.length := by
  constructor
  · intro h
    obtain ⟨⟨n, err, herr⟩, -⟩ := h none slowly fair_slowly
    by_contra hshort
    exact never_returns receiveRequest_pos (Nat.not_le.mp hshort) n ⟨err, herr⟩
  · intro hincoming setup outcomes hfair
    refine ⟨returns receiveRequest_pos hincoming setup hfair, fun n hn => ?_⟩
    obtain ⟨hsink, henough, hbound⟩ := sent_of_returned (inv_states receiveRequest_pos incoming setup outcomes n) hn
    have hlength := le_antisymm (hbound fun t ht => by rw [receiveRequest]; omega) henough
    rw [hlength] at hsink
    exact hsink

/-- Both calls come to an end and move the bytes that they were to move exactly if there are
that many bytes and, for `SendFile`, the rounds of the buffer do not go beyond the length. -/
theorem streaming_exact_iff (length : ℕ) (file incoming : Bytes) :
    (Exact (sendFile length file) (file.take length) ↔
      length ≤ file.length ∧ (length ≤ kReadWriteBufSize ∨ kReadWriteBufSize ∣ length ∨ file.length = length)) ∧
    (Exact (receiveDataToFile length incoming) (incoming.take length) ↔ length ≤ incoming.length) :=
  ⟨exact_sendFile_iff length file, exact_receiveDataToFile_iff length incoming⟩

/-- The peer closes the connection before the only byte, or the file is empty: the loops read
an end of file for ever. A file of two bytes more than the buffer is sent whole where one byte
less was asked for. -/
theorem streaming_endless_or_beyond :
    Fair slowly ∧ (∀ n err, (receiveDataToFile 1 [] none slowly n).phase ≠ .returned err) ∧
      (∀ n err, (sendFile 1 [] none slowly n).phase ≠ .returned err) ∧
      ∃ n, (sendFile (kReadWriteBufSize + 1) (List.replicate (kReadWriteBufSize + 2) 0) none slowly n).phase =
          .returned none ∧
        (sendFile (kReadWriteBufSize + 1) (List.replicate (kReadWriteBufSize + 2) 0) none slowly n).sink.length ≠
          kReadWriteBufSize + 1 := by
  refine ⟨fair_slowly, fun n err h => never_returns receiveRequest_pos (by decide) n ⟨err, h⟩,
    fun n err h => never_returns sendFileRequest_pos (by decide) n ⟨err, h⟩, ?_⟩
  have hfile : kReadWriteBufSize + 1 ≤ (List.replicate (kReadWriteBufSize + 2) (0 : UInt8)).length := by
    rw [List.length_replicate]
    omega
  obtain ⟨n, hn⟩ := sends_slowly hfile
  refine ⟨n, hn, fun hlength => ?_⟩
  have hdvd : ¬ kReadWriteBufSize ∣ kReadWriteBufSize + 1 := by decide
  have hor := (sent_length fair_slowly hn).mp hlength
  rw [List.length_replicate] at hor
  omega

end Asapo.FileStreaming
