import Asapo.NextCall

namespace Asapo.NextCall

open Broker Broker.Nacks Consumer History Transition

variable {accepts : Record → Bool} {period : ℤ} {r : NextRequest} {g g' : Group} {i m : ℕ} {now : ℤ}
  {pc : NextPc} {out : NextPc ⊕ Answer} {response : Option Record} {err : DBError} {s t : State}

def EarlyStage (g : Group) : Stage → Prop
  | .asking (.next pc) => EarlyPc g pc
  | .answered answer => EarlyOut g (.inr answer)
  | _ => False

def TakenStage (accepts : Record → Bool) (g : Group) (response : Option Record) (i : ℕ) : Stage → Prop
  | .asking (.next pc) => TakenPc accepts g response i pc
  | .answered answer => TakenAnswer accepts g response i answer
  | _ => False

def AgainAnswer (accepts : Record → Bool) (g : Group) (i : ℕ) : Answer → Prop
  | .ok found => found.1 = i ∧ (accepts found.2 = true ∨ g.MarkerAt i)
  | .error err => Refused g i (consumerErrorFromDb err) ∨ ∃ data, consumerErrorFromDb err = .endOfStream data

def AgainStage (accepts : Record → Bool) (g : Group) (response : Option Record) (i : ℕ) (saved : ConsumerError) :
    Stage → Prop
  | .asking (.idMax id) | .asking (.idRecord id _) => id = i
  | .answered answer => AgainAnswer accepts g i answer ∧ Readable accepts response saved
  | _ => False

structure Opening (s : State) : Prop where
  suffix : s.suffix = .next
  saved : s.saved = none
  log : s.log.findSome? Entry.names = none

/-- The consumer knows the id that was taken from the pointer, and keeps the error that
named it. -/
structure Known (s : State) (i : ℕ) (err : ConsumerError) : Prop where
  positive : i ≠ 0
  advances : s.advances = [i]
  suffix : s.suffix = .byId i
  saved : s.saved = some err
  log : s.log.findSome? Entry.names = some i
  naming : Naming s.group i err

/-- How far a call is: nothing was taken from the pointer, an id was taken that the
consumer does not know of, the consumer asks for that id, or the call has returned. -/
inductive Progress (accepts : Record → Bool) (s : State) : Prop
  | early (advances : s.advances = []) (opening : Opening s) (stage : EarlyStage s.group s.stage)
  | taken (i : ℕ) (positive : i ≠ 0) (advances : s.advances = [i]) (opening : Opening s)
      (stage : TakenStage accepts s.group s.response i s.stage)
  | again (i : ℕ) (err : ConsumerError) (known : Known s i err)
      (stage : AgainStage accepts s.group s.response i err s.stage)
  | returned (result : Result) (stage : s.stage = .returned result) (once : s.advances.length ≤ 1)
      (kept : ∀ i ∈ s.advances, result.Names i ∨ s.group.MarkerAt i)

structure Inv (accepts : Record → Bool) (s : State) : Prop where
  inprocess : s.group.inprocess = []
  progress : Progress accepts s
  asked : Justified AskedRight s.log
  named : ∀ e ∈ s.log, ∀ i, e.names = some i → i ∈ s.advances

theorem EarlyStage.mono {stage : Stage} (h : Grows g g') (hs : EarlyStage g stage) : EarlyStage g' stage := by
  cases stage with
  | asking pc =>
    cases pc with
    | next pc => exact EarlyPc.mono (g := g) h hs
    | _ => exact hs
  | answered answer => cases answer <;> exact hs
  | returned result => exact hs

theorem TakenStage.mono {stage : Stage} (h : Grows g g') (hs : TakenStage accepts g response i stage) :
    TakenStage accepts g' response i stage := by
  cases stage with
  | asking pc =>
    cases pc with
    | next pc => exact TakenPc.mono (g := g) h hs
    | _ => exact hs
  | answered answer => exact TakenAnswer.mono (g := g) h hs
  | returned result => exact hs

theorem AgainStage.mono {stage : Stage} {saved : ConsumerError} (h : Grows g g')
    (hs : AgainStage accepts g response i saved stage) : AgainStage accepts g' response i saved stage := by
  cases stage with
  | asking pc => cases pc <;> exact hs
  | answered answer =>
    refine ⟨?_, hs.2⟩
    cases answer with
    | ok found => exact ⟨hs.1.1, hs.1.2.imp_right h.markerAt⟩
    | error err =>
      have ha : Refused g i (consumerErrorFromDb err) ∨ _ := hs.1
      exact ha.imp_left (Refused.mono h)
  | returned result => exact hs

theorem Progress.mono (h : Grows s.group g) (hp : Progress accepts s) :
    Progress accepts { s with group := g } := by
  cases hp with
  | early advances opening stage =>
    exact .early advances { opening with } (stage.mono h)
  | taken i positive advances opening stage =>
    exact .taken i positive advances { opening with } (stage.mono h)
  | again i err known stage =>
    exact .again i err { known with naming := known.naming.mono h } (stage.mono h)
  | returned result stage once kept =>
    exact .returned result stage once (fun i hi => (kept i hi).imp_right h.markerAt)

theorem insert_inprocess {e : Insertion} (h : insert g e = some g') : g'.inprocess = g.inprocess := by
  cases e with
  | message id record =>
    simp only [insert] at h
    split at h <;> cases h
    rfl
  | member id encodable =>
    simp only [insert, Option.bind_eq_some_iff, Option.ite_none_right_eq_some, Option.some.injEq] at h
    obtain ⟨record, -, -, rfl⟩ := h
    rfl

theorem inv_insert {e : Insertion} (h : insert s.group e = some g) (hi : Inv accepts s) :
    Inv accepts { s with group := g } :=
  ⟨(insert_inprocess h).trans hi.inprocess, hi.progress.mono (grows_insert h), hi.asked, hi.named⟩

theorem earlyStage_answeredBy (h : EarlyOut g out) : EarlyStage g (answeredBy out) := by
  cases out <;> exact h

theorem takenStage_answeredBy (h : TakenOut accepts g response i out) :
    TakenStage accepts g response i (answeredBy out) := by
  cases out <;> exact h

theorem progress_next (h : Plain r s.group) (hfine : AllFine accepts s.group) (hp : Progress accepts s)
    (hpc : s.stage = .asking (.next pc)) (hs : pc.step period r ⟨now, none, false⟩ s.group = some (g', out)) :
    g'.inprocess = [] ∧ Progress accepts { s with
      group := g'
      stage := answeredBy out
      response := readRecord s.group s.response pc
      advances := (pointerValue false pc out).toList ++ s.advances } := by
  cases hp with
  | early advances opening stage =>
    rw [hpc] at stage
    obtain ⟨-, hin, ⟨hv, hout⟩ | ⟨i, hi, hv, hout⟩⟩ := early_step accepts h stage hs
    · exact ⟨hin, .early (by simp [hv, advances]) { opening with }
        (earlyStage_answeredBy hout)⟩
    · exact ⟨hin, .taken i hi (by simp [hv, advances]) { opening with }
        (takenStage_answeredBy (hout (readRecord s.group s.response pc)))⟩
  | taken i positive advances opening stage =>
    rw [hpc] at stage
    obtain ⟨-, hin, hv, hout⟩ := taken_step h hfine stage hs
    exact ⟨hin, .taken i positive (by simp [hv, advances]) { opening with }
      (takenStage_answeredBy hout)⟩
  | again i err known stage =>
    rw [hpc] at stage
    exact stage.elim
  | returned result stage once kept =>
    rw [hpc] at stage
    cases stage

theorem Progress.byId {id : ℕ} (hp : Progress accepts s)
    (hs : s.stage = .asking (.idMax id) ∨ ∃ idMax, s.stage = .asking (.idRecord id idMax)) :
    ∃ err, Known s id err := by
  cases hp with
  | early advances opening stage =>
    obtain hs | ⟨idMax, hs⟩ := hs <;> rw [hs] at stage <;> exact stage.elim
  | taken i positive advances opening stage =>
    obtain hs | ⟨idMax, hs⟩ := hs <;> rw [hs] at stage <;> exact stage.elim
  | again i err known stage =>
    obtain hs | ⟨idMax, hs⟩ := hs <;> rw [hs] at stage <;> cases stage <;> exact ⟨err, known⟩
  | returned result stage once kept =>
    obtain hs | ⟨idMax, hs⟩ := hs <;> rw [hs] at stage <;> cases stage

theorem againAnswer_raw (hfine : AllFine accepts g) (hi : i ≠ 0) :
    AgainAnswer accepts g i ((g.getRecordByIDRaw r i m).map (fun record => (i, record))) := by
  cases hr : g.getRecordByIDRaw r i m with
  | ok record => exact ⟨rfl, read_ok hfine (getRecordByIDRaw_ok hr)⟩
  | error err =>
    have he := getRecordByIDRaw_error hr
    by_cases hm : g.record? i = none → i < m
    · exact .inl (readError_refused hfine hi he hm).1
    · -- the largest id is not above the id, and nothing is there
      obtain ⟨habsent, hle⟩ := Classical.not_imp.mp hm
      rw [Group.getRecordByIDRaw, getRecordFromDb_eq, habsent] at hr
      cases hr
      exact .inr ⟨_, by rw [consumerError_noData, if_pos (Nat.not_lt.mp hle)]⟩

theorem Naming.readable {e : ConsumerError} (hfine : AllFine accepts g) (he : Naming g i e) :
    Readable accepts (g.record? i) e := by
  intro id hid
  cases he with
  | missing idMax => cases hid
  | incomplete plain =>
    obtain ⟨record, hr, hm⟩ := plain
    rw [hr]
    exact ((hfine i record hr).2 hm).2

theorem inv_broker (hr : r.extraParam = []) (hfine : AllFine accepts s.group) (hi : Inv accepts s)
    (h : broker period r now s = some t) : Inv accepts t := by
  have hplain : Plain r s.group := ⟨hr, hi.inprocess⟩
  unfold broker at h
  cases hstage : s.stage with
  | asking pc =>
    simp only [hstage] at h
    cases pc with
    | next pc =>
      obtain ⟨⟨g', out⟩, hs, rfl⟩ := Option.map_eq_some_iff.mp h
      obtain ⟨hin, hprogress⟩ := progress_next hplain hfine hi.progress hstage hs
      exact ⟨hin, hprogress, hi.asked, fun e he i hn => List.mem_append_right _ (hi.named e he i hn)⟩
    | idMax id =>
      cases h
      obtain ⟨err, known⟩ := hi.progress.byId (.inl hstage)
      exact ⟨hi.inprocess, .again id err { known with } rfl, hi.asked, hi.named⟩
    | idRecord id idMax =>
      cases h
      obtain ⟨err, known⟩ := hi.progress.byId (.inr ⟨idMax, hstage⟩)
      exact ⟨hi.inprocess, .again id err { known with }
        ⟨againAnswer_raw hfine known.positive, known.naming.readable hfine⟩, hi.asked, hi.named⟩
  | answered answer => simp [hstage] at h
  | returned result => simp [hstage] at h

theorem askedRight_answered (l : List Entry) (told : Except ConsumerError (ℕ × Record)) :
    AskedRight l (.answered told) := by
  rintro suffix ⟨⟩

theorem returnedError_names {e : ConsumerError} (hn : Naming g i e) (hr : Readable accepts response e) :
    (returnedError accepts response e).Names i := by
  cases hn with
  | missing idMax => rfl
  | incomplete plain =>
    rw [returnedError, if_pos (hr i rfl)]
    rfl

structure Round (s : State) : Prop where
  inprocess : s.group.inprocess = []
  asked : Justified AskedRight s.log
  named : ∀ e ∈ s.log, ∀ i, e.names = some i → i ∈ s.advances

theorem named_asked {suffix : Suffix} (h : ∀ e ∈ s.log, ∀ i, e.names = some i → i ∈ s.advances) :
    ∀ e ∈ s.log ++ [.asked suffix], ∀ i, e.names = some i → i ∈ s.advances := by
  intro e he i hi
  rcases List.mem_append.mp he with he | he
  · exact h e he i hi
  · cases List.mem_singleton.mp he
    cases hi

theorem inv_nextRound_early (timeout : Bool) (e : ConsumerError) (hr : Round s) (hadv : s.advances = [])
    (hopen : Opening s) : Inv accepts (nextRound accepts timeout e s) := by
  cases timeout with
  | true =>
    refine ⟨hr.inprocess, .returned _ rfl (by simp [nextRound, hadv]) ?_, hr.asked, hr.named⟩
    simp [nextRound, hadv]
  | false =>
    have hlog : (s.log ++ [Entry.asked s.suffix]).findSome? Entry.names = none := by
      rw [List.findSome?_append, hopen.log]
      rfl
    refine ⟨hr.inprocess, .early hadv ⟨hopen.suffix, hopen.saved, hlog⟩ ?_,
      justified_concat.mpr ⟨hr.asked, ?_⟩, named_asked hr.named⟩
    · show EarlyStage s.group (.asking s.suffix.request)
      rw [hopen.suffix]
      trivial
    · rintro suffix ⟨⟩
      rw [hopen.log]
      exact hopen.suffix

theorem inv_nextRound_known {e saved : ConsumerError} (timeout : Bool) (hr : Round s) (known : Known s i saved)
    (hread : Readable accepts s.response saved) : Inv accepts (nextRound accepts timeout e s) := by
  cases timeout with
  | true =>
    refine ⟨hr.inprocess, .returned _ rfl (by simp [nextRound, known.advances]) ?_, hr.asked, hr.named⟩
    intro j hj
    obtain rfl : j = i := by simpa [nextRound, known.advances] using hj
    rw [known.saved]
    exact .inl (returnedError_names known.naming hread)
  | false =>
    have hlog : (s.log ++ [Entry.asked s.suffix]).findSome? Entry.names = some i := by
      rw [List.findSome?_append, known.log]
      rfl
    refine ⟨hr.inprocess, .again i saved { known with log := hlog } ?_,
      justified_concat.mpr ⟨hr.asked, ?_⟩, named_asked hr.named⟩
    · show AgainStage accepts s.group s.response i saved (.asking s.suffix.request)
      rw [known.suffix]
      rfl
    · rintro suffix ⟨⟩
      rw [known.log]
      exact known.suffix

theorem inv_returned (hr : Round s) (result : Result) (once : s.advances.length ≤ 1)
    (kept : ∀ i ∈ s.advances, result.Names i ∨ s.group.MarkerAt i) :
    Inv accepts { s with stage := .returned result } :=
  ⟨hr.inprocess, .returned result rfl once kept, hr.asked, hr.named⟩

theorem round_note (hi : Inv accepts s) {told : Except ConsumerError (ℕ × Record)}
    (hn : ∀ i, Entry.names (.answered told) = some i → i ∈ s.advances) : Round (s.note told) := by
  refine ⟨hi.inprocess, justified_concat.mpr ⟨hi.asked, askedRight_answered _ _⟩, ?_⟩
  intro e he i hei
  rcases List.mem_append.mp he with he | he
  · exact hi.named e he i hei
  · cases List.mem_singleton.mp he
    exact hn i hei

theorem handleError_endOfStream (timeout : Bool) (data : ConsumerErrorData) :
    handleError accepts timeout s (.endOfStream data) = nextRound accepts timeout (.endOfStream data) s := by
  simp [handleError, switchToGetById]

theorem handleError_next {e : ConsumerError} (timeout : Bool) (hs : s.suffix = .next) (hn : Naming g i e) :
    handleError accepts timeout s e =
      nextRound accepts timeout e { s with suffix := .byId i, saved := some e } := by
  cases hn <;> simp [handleError, hs, switchToGetById]

theorem handleError_byId {e : ConsumerError} (timeout : Bool) (hs : s.suffix = .byId i) (hn : Naming g i e) :
    handleError accepts timeout s e = nextRound accepts timeout e s := by
  cases hn <;> simp [handleError, hs]

theorem Naming.names {e : ConsumerError} (h : Naming g i e) : Entry.names (.answered (.error e)) = some i := by
  cases h <;> rfl

theorem findSome_note (l : List Entry) (e : Entry) :
    (l ++ [e]).findSome? Entry.names = (l.findSome? Entry.names).or e.names := by
  rw [List.findSome?_append]
  cases h : e.names <;> simp [h]

theorem inv_ok (hi : Inv accepts s) (timeout : Bool) {found : ℕ × Record} (hadv : s.advances = [i])
    (hid : found.1 = i) (ha : accepts found.2 = true ∨ s.group.MarkerAt i) :
    Inv accepts (handleAnswer accepts timeout s (.ok found)) := by
  refine inv_returned (round_note hi (by rintro j ⟨⟩)) _ (by simp [State.note, hadv]) ?_
  intro j hj
  obtain rfl : j = i := by simpa [State.note, hadv] using hj
  refine ha.imp_left fun ha => ?_
  rw [decode, if_pos ha]
  exact hid

theorem inv_finished (hi : Inv accepts s) (timeout : Bool) (data : ConsumerErrorData)
    (hadv : s.advances = [] ∨ ∃ i, s.advances = [i] ∧ s.group.MarkerAt i) :
    Inv accepts (handleAnswer accepts timeout s (.error (.streamFinished data))) := by
  have hround : Round (s.note (.error (.streamFinished data))) := round_note hi (by rintro j ⟨⟩)
  obtain hadv | ⟨i, hadv, hm⟩ := hadv
  · exact inv_returned hround _ (by simp [State.note, hadv]) (by simp [State.note, hadv])
  · refine inv_returned hround _ (by simp [State.note, hadv]) fun j hj => ?_
    obtain rfl : j = i := by simpa [State.note, hadv] using hj
    exact .inr hm

theorem inv_ended (hi : Inv accepts s) (timeout : Bool) (hadv : s.advances = []) (hopen : Opening s)
    (he : Ended err) : Inv accepts (handleAnswer accepts timeout s (.error (consumerErrorFromDb err))) := by
  obtain ⟨data, he | he⟩ := he
  · rw [he, handleAnswer, handleError_endOfStream]
    refine inv_nextRound_early timeout _ (round_note hi (by rintro j ⟨⟩)) hadv
      ⟨hopen.suffix, hopen.saved, ?_⟩
    rw [State.note, findSome_note, hopen.log]
    rfl
  · rw [he]
    exact inv_finished hi timeout data (.inl hadv)

theorem inv_refused {e : ConsumerError} (hi : Inv accepts s) (timeout : Bool) (hpos : i ≠ 0)
    (hadv : s.advances = [i]) (hopen : Opening s) (he : Refused s.group i e)
    (hread : Readable accepts s.response e) : Inv accepts (handleAnswer accepts timeout s (.error e)) := by
  cases he with
  | naming naming =>
    rw [handleAnswer, handleError_next (s := s.note (.error e)) timeout hopen.suffix naming]
    have hround : Round (s.note (.error e)) := by
      refine round_note hi fun j hj => ?_
      cases naming.names.symm.trans hj
      simp [hadv]
    refine inv_nextRound_known timeout { hround with } ⟨hpos, hadv, rfl, rfl, ?_, naming⟩ hread
    rw [State.note, findSome_note, hopen.log]
    exact naming.names
  | finished marker data => exact inv_finished hi timeout data (.inr ⟨i, hadv, marker⟩)

theorem inv_again {e saved : ConsumerError} (hi : Inv accepts s) (timeout : Bool) (known : Known s i saved)
    (he : Refused s.group i e ∨ ∃ data, e = .endOfStream data) (hread : Readable accepts s.response saved) :
    Inv accepts (handleAnswer accepts timeout s (.error e)) := by
  have hknown : Known (s.note (.error e)) i saved := by
    refine { known with log := ?_ }
    rw [State.note, findSome_note, known.log]
    rfl
  obtain (⟨naming⟩ | ⟨marker, data⟩) | ⟨data, rfl⟩ := he
  · rw [handleAnswer, handleError_byId (s := s.note (.error e)) timeout known.suffix naming]
    refine inv_nextRound_known timeout (round_note hi fun j hj => ?_) hknown hread
    cases naming.names.symm.trans hj
    simp [known.advances]
  · exact inv_finished hi timeout data (.inr ⟨i, known.advances, marker⟩)
  · rw [handleAnswer, handleError_endOfStream]
    exact inv_nextRound_known timeout (round_note hi (by rintro j ⟨⟩)) hknown hread

theorem inv_poll {timeout : Bool} (hi : Inv accepts s) (h : poll accepts timeout s = some t) :
    Inv accepts t := by
  unfold poll at h
  cases hstage : s.stage with
  | asking pc => simp [hstage] at h
  | returned result => simp [hstage] at h
  | answered answer =>
    simp only [hstage] at h
    cases h
    cases hi.progress with
    | early advances opening stage =>
      rw [hstage] at stage
      cases answer with
      | ok found => exact stage.elim
      | error err => exact inv_ended hi timeout advances opening stage
    | taken i positive advances opening stage =>
      rw [hstage] at stage
      cases answer with
      | ok found => exact inv_ok hi timeout advances stage.1 stage.2
      | error err => exact inv_refused hi timeout positive advances opening stage.1 stage.2
    | again i saved known stage =>
      rw [hstage] at stage
      cases answer with
      | ok found => exact inv_ok hi timeout known.advances stage.1.1 stage.1.2
      | error err => exact inv_again hi timeout known stage.1 stage.2
    | returned result stage once kept =>
      rw [hstage] at stage
      cases stage

theorem inv_step {e : Event} (hr : r.extraParam = []) (hi : Inv accepts s) (hfine : AllFine accepts s.group)
    (h : step accepts period r s e = some t) : Inv accepts t := by
  cases e with
  | insert e =>
    obtain ⟨g, hg, rfl⟩ := Option.map_eq_some_iff.mp h
    exact inv_insert hg hi
  | broker now => exact inv_broker hr hfine hi h
  | poll timeout => exact inv_poll hi h

theorem inv_start (hg : g.inprocess = []) : Inv accepts (start g) :=
  ⟨hg, .early rfl ⟨rfl, rfl, rfl⟩ trivial, justified_concat.mpr ⟨justified_nil, by rintro suffix ⟨⟩; rfl⟩,
    by simp [start, Entry.names]⟩

theorem Inv.consumed (hi : Inv accepts s) : Consumed s := by
  refine ⟨?_, ?_, hi.asked, hi.named⟩
  · cases hi.progress with
    | early advances _ _ => simp [advances]
    | taken i _ advances _ _ => simp [advances]
    | again i err known _ => simp [known.advances]
    | returned _ _ once _ => exact once
  · intro i hmem result hres
    cases hi.progress with
    | early advances _ _ => simp [advances] at hmem
    | taken _ _ _ _ stage => rw [hres] at stage; exact stage.elim
    | again _ _ _ stage => rw [hres] at stage; exact stage.elim
    | returned other stage _ kept =>
      cases hres.symm.trans stage
      exact kept i hmem

/-- Whatever is inserted meanwhile and however often it polls, a call takes one id at most,
and returns it or names it, as long as the finish markers name a next stream and the other
records can be encoded and read. -/
theorem call_consumes_once (accepts : Record → Bool) (period : ℤ) (r : NextRequest) (g : Group)
    (events : List Event) (hr : r.extraParam = []) (hg : g.inprocess = [])
    (hfine : Along (step accepts period r) (fun s _ => AllFine accepts s.group) (start g) events) :
    Always (step accepts period r) Consumed (start g) events :=
  always_of_along (fun _ hi => hi.consumed) (fun _ _ _ hi hf h => inv_step hr hi hf h) _ _
    (inv_start hg) hfine

theorem allFine_of_mem (h : ∀ x ∈ g.data, Fine accepts x.2) : AllFine accepts g := by
  intro id record hr
  obtain ⟨x, hx, rfl⟩ := Option.map_eq_some_iff.mp hr
  exact h x (List.mem_of_find?_eq_some hx)

def sample : Record := ⟨.message, text "image", none, none, none⟩

def finishMarker (next : String) : Record := ⟨.message, Group.finishStreamKeyword, some (text next), none, none⟩

def lateMessage : List Event :=
  List.replicate 8 (.broker 0) ++ [.poll false, .insert (.message 1 sample), .broker 0, .broker 0, .poll false]

theorem call_consumes_late :
    (exec (step (fun _ => true) 10 ⟨false, 0, []⟩) (start ⟨[(2, sample)], none, [], [], 0⟩) lateMessage).map
        State.advances = some [1] ∧
      Always (step (fun _ => true) 10 ⟨false, 0, []⟩) Consumed (start ⟨[(2, sample)], none, [], [], 0⟩)
        lateMessage :=
  ⟨by decide +kernel, call_consumes_once _ 10 ⟨false, 0, []⟩ _ lateMessage rfl rfl
    (along_mono (fun _ _ => allFine_of_mem) _ _ (by decide +kernel))⟩

/-- A marker with an empty next stream is taken for the end of the stream, and the call goes
on to the message that is stored after it. -/
def behindMarker : List Event :=
  List.replicate 8 (.broker 0) ++ [.poll false, .insert (.message 2 sample)] ++ List.replicate 5 (.broker 0)

def dataset : Record := ⟨.message, [], none, some 1, some 1⟩

def firstRecord : List Event := List.replicate 5 (.broker 0) ++ [.poll false]

def unencodable : Record := ⟨.unencodable, text "image", none, none, none⟩

def behindUnencodable : List Event :=
  List.replicate 8 (.broker 0) ++ [.poll false] ++ List.replicate 5 (.broker 0)

theorem call_consumes_twice_or_loses :
    ¬ Always (step (fun _ => true) 10 ⟨false, 0, []⟩) Consumed (start ⟨[(1, finishMarker "")], none, [], [], 0⟩)
        behindMarker ∧
      ¬ Always (step (fun record => record.messages.isNone) 10 ⟨false, 0, []⟩) Consumed
        (start ⟨[(1, dataset)], none, [], [], 0⟩) firstRecord ∧
      ¬ Always (step (fun _ => true) 10 ⟨false, 0, []⟩) Consumed
        (start ⟨[(1, unencodable), (2, sample)], none, [], [], 0⟩) behindUnencodable := by
  refine ⟨fun h => absurd (always_exec _ _ _ h rfl).once (by decide), ?_,
    fun h => absurd (always_exec _ _ _ h rfl).once (by decide)⟩
  · intro h
    have hkept := (always_exec _ _ _ h rfl).kept 1 (by decide) (.error .interruptedTransaction) rfl
    obtain hn | ⟨record, hr, hm⟩ := hkept
    · exact hn
    · cases hr
      exact absurd hm (by decide)

end Asapo.NextCall
