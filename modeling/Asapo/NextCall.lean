import Asapo.Broker.SequentialNext
import Asapo.Broker.StreamRecords
import Asapo.Consumer.ServerErrors
import Asapo.Transition

namespace Asapo.NextCall

open Broker Broker.Nacks Consumer History Transition

/-- The last part of the request that the consumer sends: the operation, or an id. -/
inductive Suffix where
  | next
  | byId (id : ℕ)
  deriving DecidableEq, Repr

inductive BrokerPc where
  | next (pc : NextPc)
  | idMax (id : ℕ)
  | idRecord (id idMax : ℕ)

inductive Result where
  | record (id : ℕ) (record : Record)
  | error (err : ConsumerError)

inductive Stage where
  | asking (pc : BrokerPc)
  | answered (answer : Answer)
  | returned (result : Result)

inductive Entry where
  | asked (suffix : Suffix)
  | answered (told : Except ConsumerError (ℕ × Record))

/-- A call of `GetNext` or `GetNextDataset`, with the documents of the group, the record
that the broker read last, the values that were taken from the pointer, and what was asked
and answered. -/
structure State where
  group : Group
  suffix : Suffix
  saved : Option ConsumerError
  stage : Stage
  response : Option Record
  advances : List ℕ
  log : List Entry

/-- A message is stored, or one is added to a dataset, which can then be encoded or not. -/
inductive Insertion where
  | message (id : ℕ) (record : Record)
  | member (id : ℕ) (encodable : Bool)

inductive Event where
  | insert (e : Insertion)
  | broker (now : ℤ)
  | poll (timeout : Bool)

def insert (g : Group) : Insertion → Option Group
  | .message id record =>
    if id = 0 ∨ (g.record? id).isSome then none else some { g with data := (id, record) :: g.data }
  | .member id encodable =>
    (g.record? id).bind (fun record =>
      if Group.isDataset record then
        some { g with data := (id, Group.addMessage encodable record) :: g.data }
      else none)

section

variable (accepts : Record → Bool) (period : ℤ) (r : NextRequest)

def Suffix.request : Suffix → BrokerPc
  | .next => .next (.lookUp .first)
  | .byId id => .idMax id

def answeredBy : NextPc ⊕ Answer → Stage
  | .inl pc => .asking (.next pc)
  | .inr answer => .answered answer

def readRecord (g : Group) (old : Option Record) : NextPc → Option Record
  | .record nextInd _ => g.record? nextInd
  | _ => old

def broker (now : ℤ) (s : State) : Option State :=
  match s.stage with
  | .asking (.next pc) =>
    (pc.step period r ⟨now, none, false⟩ s.group).map (fun (g, out) =>
      { s with
        group := g
        stage := answeredBy out
        response := readRecord s.group s.response pc
        advances := (pointerValue false pc out).toList ++ s.advances })
  | .asking (.idMax id) => some { s with stage := .asking (.idRecord id s.group.getMaxIndex) }
  | .asking (.idRecord id idMax) =>
    some { s with
      stage := .answered ((s.group.getRecordByIDRaw r id idMax).map (fun record => (id, record)))
      response := s.group.record? id }
  | _ => none

def toldBy : Answer → Except ConsumerError (ℕ × Record)
  | .ok found => .ok found
  | .error err => .error (consumerErrorFromDb err)

def State.note (s : State) (told : Except ConsumerError (ℕ × Record)) : State :=
  { s with log := s.log ++ [.answered told] }

/-- `SetFromJson` on the text of the record. -/
def decode (found : ℕ × Record) : Result :=
  if accepts found.2 then .record found.1 found.2 else .error .interruptedTransaction

/-- The error of the call. That of an incomplete dataset is returned with the dataset. -/
def returnedError (response : Option Record) : ConsumerError → Result
  | .partialData id => if response.any accepts then .error (.partialData id) else .error .interruptedTransaction
  | err => .error err

/-- `SwitchToGetByIdIfNoData` and `SwitchToGetByIdIfPartialData`, with the error that is
saved. -/
def switchToGetById (s : State) (err : ConsumerError) : State :=
  match err with
  | .noData data => { s with suffix := .byId data.id, saved := some err }
  | .partialData id => { s with suffix := .byId id, saved := some err }
  | _ => s

def nextRound (timeout : Bool) (err : ConsumerError) (s : State) : State :=
  if timeout then { s with stage := .returned (returnedError accepts s.response (s.saved.getD err)) }
  else { s with stage := .asking s.suffix.request, log := s.log ++ [.asked s.suffix] }

def handleError (timeout : Bool) (s : State) (err : ConsumerError) : State :=
  match err with
  | .streamFinished data => { s with stage := .returned (.error (.streamFinished data)) }
  | err =>
    if s.suffix = .next then
      if err = .interruptedTransaction then { s with stage := .returned (.error err) }
      else nextRound accepts timeout err (switchToGetById s err)
    else nextRound accepts timeout err s

def handleAnswer (timeout : Bool) (s : State) : Except ConsumerError (ℕ × Record) → State
  | .ok found => { s.note (.ok found) with stage := .returned (decode accepts found) }
  | .error err => handleError accepts timeout (s.note (.error err)) err

def poll (timeout : Bool) (s : State) : Option State :=
  match s.stage with
  | .answered answer => some (handleAnswer accepts timeout s (toldBy answer))
  | _ => none

def step (s : State) : Event → Option State
  | .insert e => (insert s.group e).map (fun g => { s with group := g })
  | .broker now => broker period r now s
  | .poll timeout => poll accepts timeout s

end

def start (g : Group) : State := ⟨g, .next, none, .asking Suffix.next.request, none, [], [.asked .next]⟩

def Entry.names : Entry → Option ℕ
  | .answered (.error (.noData data)) => some data.id
  | .answered (.error (.partialData id)) => some id
  | _ => none

def Result.Names (i : ℕ) : Result → Prop
  | .record id _ => id = i
  | .error (.noData data) => data.id = i
  | .error (.partialData id) => id = i
  | .error _ => False

/-- After an error that names an id only that id is asked for, and before it only the next
message. -/
def AskedRight (before : List Entry) (e : Entry) : Prop :=
  ∀ suffix, e = .asked suffix → suffix = match before.findSome? Entry.names with
    | none => .next
    | some i => .byId i

/-- The pointer is advanced once, and the id is returned or named unless it is that of the
finish marker. -/
structure Consumed (s : State) : Prop where
  once : s.advances.length ≤ 1
  kept : ∀ i ∈ s.advances, ∀ result, s.stage = .returned result → result.Names i ∨ s.group.MarkerAt i
  asked : Justified AskedRight s.log
  named : ∀ e ∈ s.log, ∀ i, e.names = some i → i ∈ s.advances

/-- A finish marker names the next stream, and every other record can be encoded by the
broker and read by the call. -/
def Fine (accepts : Record → Bool) (record : Record) : Prop :=
  (Record.IsMarker record → nextName record ≠ []) ∧
    (¬ Record.IsMarker record → record.encodable = true ∧ accepts record = true)

instance (accepts : Record → Bool) (record : Record) : Decidable (Fine accepts record) :=
  inferInstanceAs (Decidable (_ ∧ _))

def AllFine (accepts : Record → Bool) (g : Group) : Prop :=
  ∀ id record, g.record? id = some record → Fine accepts record

/-! ### What insertions keep -/

def Grows (g g' : Group) : Prop :=
  ∀ id record, g.record? id = some record →
    ∃ record', g'.record? id = some record' ∧ (Record.IsMarker record' ↔ Record.IsMarker record)

def PlainAt (g : Group) (id : ℕ) : Prop := ∃ record, g.record? id = some record ∧ ¬ Record.IsMarker record

variable {accepts : Record → Bool} {period : ℤ} {r : NextRequest} {g g' : Group} {i m : ℕ} {now : ℤ}
  {pc : NextPc} {out : NextPc ⊕ Answer} {response : Option Record} {err : DBError} {s t : State}

theorem record_cons (id j : ℕ) (record : Record) :
    Group.record? { g with data := (id, record) :: g.data } j =
      if id = j then some record else g.record? j := by
  unfold Group.record?
  by_cases h : id = j <;> simp [h]

theorem not_marker_of_dataset {record : Record} (h : Group.isDataset record = true) :
    ¬ Record.IsMarker record := by
  intro hm
  simp [Group.isDataset, hm.2] at h

theorem not_marker_addMessage {record : Record} {encodable : Bool} (h : Group.isDataset record = true) :
    ¬ Record.IsMarker (Group.addMessage encodable record) := by
  intro hm
  have hname : record.name = Group.finishStreamKeyword := hm.2
  simp [Group.isDataset, hname] at h

theorem grows_insert {e : Insertion} (h : insert g e = some g') : Grows g g' := by
  intro j old hj
  cases e with
  | message id record =>
    simp only [insert] at h
    split at h
    · cases h
    · rename_i hfree
      cases h
      have hne : id ≠ j := by
        rintro rfl
        exact hfree (.inr (by rw [hj]; rfl))
      exact ⟨old, by rw [record_cons, if_neg hne, hj], Iff.rfl⟩
  | member id encodable =>
    simp only [insert, Option.bind_eq_some_iff, Option.ite_none_right_eq_some, Option.some.injEq] at h
    obtain ⟨record, hrecord, hdataset, rfl⟩ := h
    by_cases hid : id = j
    · subst hid
      cases hrecord.symm.trans hj
      exact ⟨Group.addMessage encodable old, by rw [record_cons, if_pos rfl], iff_of_false
        (not_marker_addMessage hdataset) (not_marker_of_dataset hdataset)⟩
    · exact ⟨old, by rw [record_cons, if_neg hid, hj], Iff.rfl⟩

theorem grows_of_data (h : g'.data = g.data) : Grows g g' := by
  intro id record hr
  exact ⟨record, by rw [Group.record?, h]; exact hr, Iff.rfl⟩

theorem Grows.isSome (h : Grows g g') (hi : (g.record? i).isSome) : (g'.record? i).isSome := by
  obtain ⟨record, hr⟩ := Option.isSome_iff_exists.mp hi
  obtain ⟨record', hr', -⟩ := h i record hr
  rw [hr']
  rfl

theorem Grows.markerAt (h : Grows g g') (hi : g.MarkerAt i) : g'.MarkerAt i := by
  obtain ⟨record, hr, hm⟩ := hi
  obtain ⟨record', hr', hiff⟩ := h i record hr
  exact ⟨record', hr', hiff.mpr hm⟩

theorem Grows.plainAt (h : Grows g g') (hi : PlainAt g i) : PlainAt g' i := by
  obtain ⟨record, hr, hm⟩ := hi
  obtain ⟨record', hr', hiff⟩ := h i record hr
  exact ⟨record', hr', fun h' => hm (hiff.mp h')⟩

/-! ### The broker -/

def Ended (err : DBError) : Prop :=
  ∃ data, consumerErrorFromDb err = .endOfStream data ∨ consumerErrorFromDb err = .streamFinished data

def EarlyPhase : Phase → Prop
  | .first => True
  | .afterNoData err => Ended err
  | .afterRecord _ _ => False

def EarlyPc (g : Group) : NextPc → Prop
  | .lookUp phase | .unprocessed phase | .noteRead phase => EarlyPhase phase
  | .pointerMax => True
  | .upsert m | .retry m | .explain m => m ≠ 0 ∧ (g.record? m).isSome
  | _ => False

def EarlyOut (g : Group) : NextPc ⊕ Answer → Prop
  | .inl pc => EarlyPc g pc
  | .inr (.ok _) => False
  | .inr (.error err) => Ended err

inductive Naming (g : Group) (i : ℕ) : ConsumerError → Prop
  | missing (idMax : ℕ) : Naming g i (.noData ⟨i, idMax, []⟩)
  | incomplete (plain : PlainAt g i) : Naming g i (.partialData i)

inductive Refused (g : Group) (i : ℕ) : ConsumerError → Prop
  | naming {err : ConsumerError} (naming : Naming g i err) : Refused g i err
  | finished (marker : g.MarkerAt i) (data : ConsumerErrorData) : Refused g i (.streamFinished data)

/-- An incomplete dataset can be returned with its error. -/
def Readable (accepts : Record → Bool) (response : Option Record) (err : ConsumerError) : Prop :=
  ∀ id, err = .partialData id → response.any accepts = true

def TakenAnswer (accepts : Record → Bool) (g : Group) (response : Option Record) (i : ℕ) : Answer → Prop
  | .ok found => found.1 = i ∧ (accepts found.2 = true ∨ g.MarkerAt i)
  | .error err => Refused g i (consumerErrorFromDb err) ∧ Readable accepts response (consumerErrorFromDb err)

def TakenPhase (accepts : Record → Bool) (g : Group) (response : Option Record) (i : ℕ) : Phase → Prop
  | .afterRecord _ err => TakenAnswer accepts g response i (.error err)
  | _ => False

def TakenPc (accepts : Record → Bool) (g : Group) (response : Option Record) (i : ℕ) : NextPc → Prop
  | .record v m => v = i ∧ i ≠ 0 ∧ i ≤ m ∧ (g.record? m).isSome
  | .lookUp phase | .unprocessed phase | .noteRead phase => TakenPhase accepts g response i phase
  | _ => False

def TakenOut (accepts : Record → Bool) (g : Group) (response : Option Record) (i : ℕ) : NextPc ⊕ Answer → Prop
  | .inl pc => TakenPc accepts g response i pc
  | .inr answer => TakenAnswer accepts g response i answer

theorem EarlyPc.mono (h : Grows g g') (hpc : EarlyPc g pc) : EarlyPc g' pc := by
  cases pc with
  | upsert m => exact ⟨hpc.1, h.isSome hpc.2⟩
  | retry m => exact ⟨hpc.1, h.isSome hpc.2⟩
  | explain m => exact ⟨hpc.1, h.isSome hpc.2⟩
  | _ => exact hpc

theorem Naming.mono {e : ConsumerError} (h : Grows g g') (he : Naming g i e) : Naming g' i e := by
  cases he with
  | missing idMax => exact .missing idMax
  | incomplete plain => exact .incomplete (h.plainAt plain)

theorem Refused.mono {e : ConsumerError} (h : Grows g g') (he : Refused g i e) : Refused g' i e := by
  cases he with
  | naming naming => exact .naming (naming.mono h)
  | finished marker data => exact .finished (h.markerAt marker) data

theorem TakenAnswer.mono {answer : Answer} (h : Grows g g') (ha : TakenAnswer accepts g response i answer) :
    TakenAnswer accepts g' response i answer := by
  cases answer with
  | ok found => exact ⟨ha.1, ha.2.imp_right h.markerAt⟩
  | error err => exact ⟨ha.1.mono h, ha.2⟩

theorem TakenPhase.mono {phase : Phase} (h : Grows g g') (hp : TakenPhase accepts g response i phase) :
    TakenPhase accepts g' response i phase := by
  cases phase with
  | afterRecord v err =>
    have ha : TakenAnswer accepts g response i (.error err) := hp
    exact ha.mono h
  | _ => exact hp

theorem TakenPc.mono (h : Grows g g') (hpc : TakenPc accepts g response i pc) :
    TakenPc accepts g' response i pc := by
  cases pc with
  | record v m => exact ⟨hpc.1, hpc.2.1, hpc.2.2.1, h.isSome hpc.2.2.2⟩
  | lookUp phase => exact TakenPhase.mono h hpc
  | unprocessed phase => exact TakenPhase.mono h hpc
  | noteRead phase => exact TakenPhase.mono h hpc
  | _ => exact hpc

theorem ended_noData (m : ℕ) : Ended (.noData m m []) :=
  ⟨⟨m, m, []⟩, .inl (by rw [consumerError_noData, if_pos le_rfl])⟩

theorem ended_errorWhenCannotSetField (hm : m ≠ 0) (h : (g.record? m).isSome) :
    Ended (g.errorWhenCannotSetField m) := by
  obtain ⟨record, hr⟩ := Option.isSome_iff_exists.mp h
  rw [errorWhenCannotSetField_eq hr]
  split
  · unfold Ended
    rw [consumerError_marker (Nat.pos_of_ne_zero hm)]
    split
    · exact ⟨_, .inl rfl⟩
    · exact ⟨_, .inr rfl⟩
  · exact ended_noData m

theorem lookUp_cases (h : Plain r g) {phase : Phase} {tick : Tick}
    (hs : (NextPc.lookUp phase).step period r tick g = some (g', out)) :
    g' = g ∧ (out = .inl (.unprocessed phase) ∨ out = .inl (.noteRead phase)) := by
  simp only [NextPc.step, NextPc.resendParams, h.extraParam, if_true] at hs
  split at hs <;> cases hs
  · exact ⟨rfl, .inl rfl⟩
  · exact ⟨rfl, .inr rfl⟩

theorem unprocessed_cases (h : Plain r g) {phase : Phase}
    (hs : (NextPc.unprocessed phase).step period r ⟨now, none, false⟩ g = some (g', out)) :
    g' = g ∧ out = .inl (.noteRead phase) := by
  rw [noteRead_of_unprocessed h ⟨rfl, rfl⟩] at hs
  cases hs
  exact ⟨rfl, rfl⟩

theorem incPointer_cases (g : Group) (upsert : Bool) (hm : m ≠ 0) :
    g.incPointer upsert m = none ∨
      ∃ v, v ≠ 0 ∧ v ≤ m ∧ g.incPointer upsert m = some (v, { g with pointer := some v }) := by
  unfold Group.incPointer
  cases g.pointer with
  | none =>
    cases upsert with
    | false => exact .inl rfl
    | true => exact .inr ⟨1, one_ne_zero, Nat.one_le_iff_ne_zero.mpr hm, rfl⟩
  | some v =>
    by_cases hv : v < m
    · exact .inr ⟨v + 1, Nat.succ_ne_zero v, hv, by simp [hv]⟩
    · exact .inl (by simp [hv])

/-- An operation changes nothing of the data, and takes a value from the pointer or
nothing. -/
theorem early_step (accepts : Record → Bool) (h : Plain r g) (hpc : EarlyPc g pc)
    (hs : pc.step period r ⟨now, none, false⟩ g = some (g', out)) :
    g'.data = g.data ∧ g'.inprocess = [] ∧
      (pointerValue false pc out = none ∧ EarlyOut g' out ∨
        ∃ i, i ≠ 0 ∧ pointerValue false pc out = some i ∧ ∀ response, TakenOut accepts g' response i out) := by
  cases pc with
  | lookUp phase =>
    obtain ⟨rfl, rfl | rfl⟩ := lookUp_cases h hs <;> exact ⟨rfl, h.inprocess, .inl ⟨rfl, hpc⟩⟩
  | unprocessed phase =>
    obtain ⟨rfl, rfl⟩ := unprocessed_cases h hs
    exact ⟨rfl, h.inprocess, .inl ⟨rfl, hpc⟩⟩
  | noteRead phase =>
    cases hs
    refine ⟨rfl, h.inprocess, .inl ⟨rfl, ?_⟩⟩
    cases phase with
    | first => trivial
    | afterNoData err => exact hpc
    | afterRecord v err => exact hpc.elim
  | pointerMax =>
    by_cases hmax : g.getMaxIndex = 0
    · simp only [NextPc.step, hmax, Bool.false_eq_true, if_true, if_false] at hs
      cases hs
      exact ⟨rfl, h.inprocess, .inl ⟨rfl, ended_noData 0⟩⟩
    · simp only [NextPc.step, hmax, Bool.false_eq_true, if_false] at hs
      cases hs
      exact ⟨rfl, h.inprocess, .inl ⟨rfl, hmax, Option.isSome_iff_exists.mpr (record_at_max hmax)⟩⟩
  | upsert m =>
    simp only [NextPc.step, Bool.false_eq_true, if_false] at hs
    obtain hnone | ⟨v, hv, hle, hsome⟩ := incPointer_cases g true hpc.1
    · rw [hnone] at hs
      cases hs
      exact ⟨rfl, h.inprocess, .inl ⟨rfl, hpc⟩⟩
    · rw [hsome] at hs
      cases hs
      exact ⟨rfl, h.inprocess, .inr ⟨v, hv, rfl, fun _ => ⟨rfl, hv, hle, hpc.2⟩⟩⟩
  | retry m =>
    simp only [NextPc.step, Bool.false_eq_true, if_false] at hs
    obtain hnone | ⟨v, hv, hle, hsome⟩ := incPointer_cases g false hpc.1
    · rw [hnone] at hs
      cases hs
      exact ⟨rfl, h.inprocess, .inl ⟨rfl, hpc⟩⟩
    · rw [hsome] at hs
      cases hs
      exact ⟨rfl, h.inprocess, .inr ⟨v, hv, rfl, fun _ => ⟨rfl, hv, hle, hpc.2⟩⟩⟩
  | explain m =>
    cases hs
    exact ⟨rfl, h.inprocess, .inl ⟨rfl, ended_errorWhenCannotSetField hpc.1 hpc.2⟩⟩
  | inprocessMax => exact hpc.elim
  | record => exact hpc.elim
  | otherRecord => exact hpc.elim
  | insert => exact hpc.elim

theorem readError_refused (hfine : AllFine accepts g) (hi : i ≠ 0) (he : ReadError g r i m err)
    (hm : (g.record? i = none → i < m)) :
    TakenAnswer accepts g (g.record? i) i (.error err) := by
  cases he with
  | missing absent =>
    refine ⟨.naming ?_, ?_⟩
    · rw [consumerError_noData, if_neg (Nat.not_le.mpr (hm absent))]
      exact .missing m
    · intro id hid
      rw [consumerError_noData, if_neg (Nat.not_le.mpr (hm absent))] at hid
      cases hid
  | finished record found last marker =>
    have hnext : cString (record.nextStream.getD (text "asapo_no_next")) ≠ [] :=
      (hfine i record found).1 marker
    have herr := consumerError_marker (Nat.pos_of_ne_zero hi) (record.nextStream.getD (text "asapo_no_next"))
    rw [if_neg hnext] at herr
    refine ⟨herr ▸ .finished ⟨record, found, marker⟩ _, ?_⟩
    intro id hid
    rw [herr] at hid
    cases hid
  | unencodable record found encodable =>
    have hplain := not_marker_of_unencodable encodable
    exact absurd encodable (by simp [((hfine i record found).2 hplain).1])
  | incomplete record found size =>
    have hplain := not_marker_of_partial size
    refine ⟨.naming (.incomplete ⟨record, found, hplain⟩), ?_⟩
    intro id _
    rw [found]
    exact ((hfine i record found).2 hplain).2

theorem read_ok (hfine : AllFine accepts g) {record : Record} (hr : g.record? i = some record) :
    accepts record = true ∨ g.MarkerAt i := by
  by_cases hm : Record.IsMarker record
  · exact .inr ⟨record, hr, hm⟩
  · exact .inl ((hfine i record hr).2 hm).2

theorem taken_step (h : Plain r g) (hfine : AllFine accepts g) (hpc : TakenPc accepts g response i pc)
    (hs : pc.step period r ⟨now, none, false⟩ g = some (g', out)) :
    g'.data = g.data ∧ g'.inprocess = [] ∧ pointerValue false pc out = none ∧
      TakenOut accepts g' (readRecord g response pc) i out := by
  cases pc with
  | lookUp phase =>
    obtain ⟨rfl, rfl | rfl⟩ := lookUp_cases h hs <;> exact ⟨rfl, h.inprocess, rfl, hpc⟩
  | unprocessed phase =>
    obtain ⟨rfl, rfl⟩ := unprocessed_cases h hs
    exact ⟨rfl, h.inprocess, rfl, hpc⟩
  | noteRead phase =>
    cases hs
    have hphase : TakenPhase accepts { g with lastRead := now / 1000000000 } response i phase :=
      TakenPhase.mono (g := g) (grows_of_data rfl) hpc
    refine ⟨rfl, h.inprocess, rfl, ?_⟩
    cases phase with
    | afterRecord v err => exact hphase
    | first => exact hpc.elim
    | afterNoData err => exact hpc.elim
  | record v m =>
    obtain ⟨rfl, hv, hle, hm⟩ := hpc
    simp only [NextPc.step, Bool.false_eq_true, if_false] at hs
    cases hr : g.getRecordByIDRaw r v m with
    | error err =>
      rw [hr] at hs
      cases hs
      refine ⟨rfl, h.inprocess, rfl, readError_refused hfine hv (getRecordByIDRaw_error hr) ?_⟩
      intro habsent
      refine lt_of_le_of_ne hle ?_
      rintro rfl
      rw [habsent] at hm
      cases hm
    | ok record =>
      rw [hr] at hs
      simp only [NextPc.behindRecord, h.extraParam, if_true] at hs
      cases hs
      exact ⟨rfl, h.inprocess, rfl, rfl, read_ok hfine (getRecordByIDRaw_ok hr)⟩
  | pointerMax => exact hpc.elim
  | upsert => exact hpc.elim
  | retry => exact hpc.elim
  | explain => exact hpc.elim
  | inprocessMax => exact hpc.elim
  | otherRecord => exact hpc.elim
  | insert => exact hpc.elim

end Asapo.NextCall
