import Asapo.Broker.StreamRecords
import Asapo.StreamOperations

namespace Asapo.Broker

namespace Group

def ackRecord (id : ℕ) (g : Group) : Group :=
  match AckPc.insertAck.step id false g with
  | (g, .inl pc) => (pc.step id false g).1
  | (g, .inr _) => g

def negAckRecord (id : ℕ) (now delayMs : ℤ) (g : Group) : Group :=
  { g with inprocess := StreamOperations.insertOrReplace ⟨id, 1, 0, int64 (now + delayMs * 1000000)⟩ g.inprocess }

/-- A message is added to a dataset, which may make the document one that cannot be encoded. -/
def addMessageTo (id : ℕ) (encodable : Bool) (g : Group) : Group :=
  { g with data := g.data.map (fun x =>
      (x.1, if x.1 = id ∧ isDataset x.2 then addMessage encodable x.2 else x.2)) }

end Group

namespace HandedOut

open NextPc Nacks Transition

/-- A group of a stream with the `next` that is under way, the ids that were returned so far
and those that were named in an answer without a record. -/
structure State where
  group : Group
  underway : Option (NextRequest × NextPc)
  returned : List ℕ
  named : List ℤ
  deriving DecidableEq

/-- The requests of the clients do not overlap, but messages are stored at any time. -/
inductive Event where
  | next (r : NextRequest)
  | operation (now : ℤ) (choice : Option ℕ)
  | ack (id : ℕ)
  | negAck (id : ℕ) (now delayMs : ℤ)
  | insert (id : ℕ) (message : Record)
  | addMessage (id : ℕ) (encodable : Bool)

def namedId : DBError → Option ℤ
  | .noData id _ _ => some id
  | .partialData id => some id
  | _ => none

namespace State

def after (s : State) (g : Group) (r : NextRequest) : NextPc ⊕ Answer → State
  | .inl pc => ⟨g, some (r, pc), s.returned, s.named⟩
  | .inr (.ok answer) => ⟨g, none, answer.1 :: s.returned, s.named⟩
  | .inr (.error err) => ⟨g, none, s.returned, (namedId err).toList ++ s.named⟩

def setGroup (s : State) (g : Group) : State := { s with group := g }

def step (period : ℤ) (s : State) : Event → Option State
  | .next r => if s.underway = none then some { s with underway := some (r, .lookUp .first) } else none
  | .operation now choice =>
    match s.underway with
    | none => none
    | some (r, pc) => (pc.step period r ⟨now, choice, false⟩ s.group).map (fun x => s.after x.1 r x.2)
  | .ack id => if s.underway = none then some (s.setGroup (s.group.ackRecord id)) else none
  | .negAck id now delayMs =>
    if s.underway = none then some (s.setGroup (s.group.negAckRecord id now delayMs)) else none
  | .insert id message =>
    if s.group.record? id = none then some (s.setGroup { s.group with data := (id, message) :: s.group.data })
    else none
  | .addMessage id encodable => some (s.setGroup (s.group.addMessageTo id encodable))

def initial (data : List (ℕ × Record)) : State := ⟨(fresh data).group, none, [], []⟩

/-- An id that is not forgotten. -/
def Kept (s : State) (i : ℕ) : Prop :=
  i ∈ s.returned ∨ (i : ℤ) ∈ s.named ∨ i ∈ s.group.acks ∨ s.group.InProcess i ∨ s.group.MarkerAt i

def NothingForgotten (s : State) : Prop :=
  s.underway = none → ∀ i, 1 ≤ i → i ≤ s.group.current → s.Kept i

end State

open State

/-- The message `id` is the answer in place of `v`, which is neither put into the in-process
collection nor named: the record is returned without resend parameters, or the error is
about the other message. -/
def Displaces (g : Group) (r : NextRequest) (v id maxInd : ℕ) : Prop :=
  (∃ found, g.getRecordByIDRaw r id maxInd = .ok found ∧ r.extraParam = [] ∧ id ≠ v) ∨
    ∃ err, g.getRecordByIDRaw r id maxInd = .error err ∧ namedId err ≠ some (v : ℤ)

/-- The `next` has taken an id whose record it could not return. It has found another message
to be sent again and answers with that one, or it has found nothing and answers that the
record could not be encoded, which does not name the id. -/
def Drops (s : State) : Event → Prop
  | .operation _ _ => ∃ r v, ¬ s.Kept v ∧
      ((∃ id maxInd, s.underway = some (r, .otherRecord v id maxInd) ∧ Displaces s.group r v id maxInd) ∨
        s.underway = some (r, .noteRead (.afterRecord v .other)))
  | _ => False

def phaseOf : NextPc → Option Phase
  | .lookUp phase | .unprocessed phase | .inprocessMax phase _ | .noteRead phase => some phase
  | _ => none

def Explains (g : Group) (v : ℕ) (err : DBError) : Prop :=
  namedId err = some (v : ℤ) ∨ g.MarkerAt v ∨ err = .other

/-- In a search, the error that is there for the end explains why the id that the `next` has
taken is not returned, and what is found is kept. Only a request with resend parameters makes
a note. -/
structure Searching (s : State) (r : NextRequest) (pc : NextPc) : Prop where
  explained : ∀ v err, phaseOf pc = some (.afterRecord v err) → Explains s.group v err
  found : ∀ phase id, pc = .inprocessMax phase id → id ≠ 0 ∧ s.Kept id
  noted : ∀ v answer, pc = .insert v answer → r.extraParam ≠ []

structure Open (s : State) (r : NextRequest) (pc : NextPc) : Prop extends Searching s r pc where
  kept : ∀ i, 1 ≤ i → i ≤ s.group.current → i ∈ pc.pending ∨ s.Kept i
  own : ∀ v ∈ pc.pending, s.Kept v ∨ 1 ≤ v ∧ v ≤ s.group.current
  params : pc = .lookUp .first ∨ (resendParams r).isSome

def Inv (s : State) : Prop :=
  s.NothingForgotten ∧ ∀ r pc, s.underway = some (r, pc) → Open s r pc

variable {period : ℤ} {s t : State} {g : Group} {r : NextRequest} {pc pc' : NextPc} {out : NextPc ⊕ Answer}
  {tick : Tick} {i : ℕ}

theorem Explains.mono {g g' : Group} {v : ℕ} {err : DBError} (h : g.MarkerAt v → g'.MarkerAt v)
    (he : Explains g v err) : Explains g' v err :=
  he.imp_right (fun he => he.imp_left h)

theorem markerAt_congr (hd : g.data = s.group.data) : g.MarkerAt i ↔ s.group.MarkerAt i := by
  unfold Group.MarkerAt Group.record?
  rw [hd]

structure Keeps (s : State) (g : Group) : Prop where
  data : g.data = s.group.data
  acks : g.acks = s.group.acks
  inprocess : ∀ i, s.group.InProcess i → g.InProcess i

theorem keeps_same (s : State) : Keeps s s.group := ⟨rfl, rfl, fun _ h => h⟩

theorem Keeps.kept (h : Keeps s g) (hk : s.Kept i) (r : NextRequest) (out : NextPc ⊕ Answer) :
    (s.after g r out).Kept i := by
  have hg : (s.after g r out).group = g := by
    rcases out with pc | answer | answer <;> rfl
  unfold Kept
  rw [hg, h.acks, markerAt_congr h.data]
  obtain hk | hk | hk | hk | hk := hk
  · left
    rcases out with pc | answer | answer
    · exact hk
    · exact hk
    · exact List.mem_cons_of_mem _ hk
  · right; left
    rcases out with pc | answer | answer
    · exact hk
    · exact List.mem_append_right _ hk
    · exact hk
  · exact .inr (.inr (.inl hk))
  · exact .inr (.inr (.inr (.inl (h.inprocess i hk))))
  · exact .inr (.inr (.inr (.inr hk)))

theorem inv_goOn (h : Open s r pc) (hg : Keeps s g) (hle : s.group.current ≤ g.current)
    (hcur : ∀ i, i ≤ g.current → i ≤ s.group.current ∨ i ∈ pc'.pending) (hpend : pc.pending ⊆ pc'.pending)
    (hown : ∀ v ∈ pc'.pending, v ∈ pc.pending ∨ s.Kept v ∨ 1 ≤ v ∧ v ≤ g.current)
    (hparams : (resendParams r).isSome) (hsearch : Searching s r pc') : Inv (s.after g r (.inl pc')) := by
  refine ⟨by rintro ⟨⟩, ?_⟩
  rintro _ _ ⟨⟩
  refine ⟨⟨fun v err hv => ?_, fun phase id hid => ?_, hsearch.noted⟩, ?_, ?_, .inr hparams⟩
  · exact (hsearch.explained v err hv).mono (markerAt_congr hg.data).mpr
  · exact (hsearch.found phase id hid).imp_right (fun hk => hg.kept hk r _)
  · intro i h1 hi
    obtain hi | hi := hcur i hi
    · exact (h.kept i h1 hi).imp (fun hv => hpend hv) (fun hk => hg.kept hk r _)
    · exact .inl hi
  · intro v hv
    obtain hv | hk | hb := hown v hv
    · exact (h.own v hv).imp (fun hk => hg.kept hk r _) (fun hb => ⟨hb.1, hb.2.trans hle⟩)
    · exact .inl (hg.kept hk r _)
    · exact .inr hb

theorem inv_same (h : Open s r pc) (hg : Keeps s g) (hcur : g.current = s.group.current)
    (hpend : pc'.pending = pc.pending) (hparams : (resendParams r).isSome) (hsearch : Searching s r pc') :
    Inv (s.after g r (.inl pc')) :=
  inv_goOn h hg hcur.ge (fun _ hi => .inl (hcur ▸ hi)) (hpend ▸ fun _ hv => hv)
    (fun _ hv => .inl (hpend ▸ hv)) hparams hsearch

theorem inv_answer (h : Open s r pc) (hg : Keeps s g) (hcur : g.current = s.group.current) (answer : Answer)
    (hpend : ∀ v ∈ pc.pending, (s.after g r (.inr answer)).Kept v) : Inv (s.after g r (.inr answer)) := by
  constructor
  · intro _ i h1 hi
    have hgroup : (s.after g r (.inr answer)).group = g := by cases answer <;> rfl
    rw [hgroup, hcur] at hi
    obtain hv | hk := h.kept i h1 hi
    · exact hpend i hv
    · exact hg.kept hk r _
  · intro _ _ hu
    cases answer <;> cases hu

theorem kept_named {err : DBError} {v : ℕ} (h : namedId err = some (v : ℤ)) :
    (s.after g r (.inr (.error err))).Kept v :=
  .inr (.inl (List.mem_append_left _ (by rw [h]; exact List.mem_singleton_self _)))

theorem searching_of_none (h : phaseOf pc = none) (hnote : ∀ v answer, pc = .insert v answer → r.extraParam ≠ []) :
    Searching s r pc := by
  refine ⟨fun v err hv => ?_, ?_, hnote⟩
  · simp [h] at hv
  · rintro phase id rfl
    cases h

theorem searching_noData (err : DBError) : Searching s r (.lookUp (.afterNoData err)) :=
  ⟨by rintro _ _ ⟨⟩, by rintro _ _ ⟨⟩, by rintro _ _ ⟨⟩⟩

theorem Searching.goOn (h : Searching s r pc) (hp : phaseOf pc' = phaseOf pc)
    (hfound : ∀ phase id, pc' = .inprocessMax phase id → id ≠ 0 ∧ s.Kept id)
    (hnote : ∀ v answer, pc' ≠ .insert v answer) : Searching s r pc' :=
  ⟨fun v err hv => h.explained v err (hp.symm.trans hv), hfound, fun v answer hpc => absurd hpc (hnote v answer)⟩

theorem inProcess_unprocessed {now d n : ℤ} {choice : Option ℕ} {id : ℕ} {g g' : Group}
    (h : g.getUnProcessedId now d n choice = some (id, g')) (hi : g.InProcess i) : g'.InProcess i := by
  unfold Group.getUnProcessedId at h
  split at h
  · split at h <;> cases h
    exact hi
  · split at h <;> cases h
    obtain ⟨found, hm, rfl⟩ := hi
    refine ⟨_, List.mem_map_of_mem hm, ?_⟩
    split <;> rfl

theorem keeps_insert (now d n : ℤ) (id : ℕ) : Keeps s (s.group.insertRecordToInprocess now id d n) ∧
    (s.group.insertRecordToInprocess now id d n).InProcess id ∧
    (s.group.insertRecordToInprocess now id d n).current = s.group.current := by
  unfold Group.insertRecordToInprocess
  split
  · rename_i hany
    obtain ⟨found, hm, hid⟩ := List.any_eq_true.mp hany
    exact ⟨keeps_same s, ⟨found, hm, by simpa using hid⟩, rfl⟩
  · refine ⟨⟨rfl, rfl, ?_⟩, ⟨_, List.mem_append_right _ (List.mem_singleton_self _), rfl⟩, rfl⟩
    rintro i ⟨found, hm, rfl⟩
    exact ⟨found, List.mem_append_left _ hm, rfl⟩

theorem inv_behindInprocessed (h : Open s r pc) (hg : Keeps s g) (hcur : g.current = s.group.current)
    {phase : Phase} (hp : phaseOf pc = some phase) (hpend : pc.pending = (NextPc.lookUp phase).pending)
    (hparams : (resendParams r).isSome) {id maxInd : ℕ} (hid : id = 0 ∨ s.Kept id)
    (hnone : id = 0 → ∀ v, phase = .afterRecord v .other → s.Kept v) :
    Inv (s.after g r (behindInprocessed id maxInd phase)) := by
  by_cases hz : id = 0
  · cases phase with
    | first =>
      rw [behindInprocessed, if_neg (by simpa using hz)]
      exact inv_same h hg hcur hpend.symm hparams (searching_of_none rfl (by rintro _ _ ⟨⟩))
    | afterNoData err =>
      rw [behindInprocessed, if_neg (by simpa using hz)]
      exact inv_answer h hg hcur _ (by rw [hpend]; rintro v ⟨⟩)
    | afterRecord v err =>
      rw [behindInprocessed, if_neg (by simpa using hz)]
      refine inv_answer h hg hcur _ (fun w hw => ?_)
      rw [hpend] at hw
      obtain rfl := List.mem_singleton.mp hw
      obtain hnamed | hmarker | rfl := h.explained w err hp
      · exact kept_named hnamed
      · exact .inr (.inr (.inr (.inr ((markerAt_congr hg.data).mpr hmarker))))
      · exact hg.kept (hnone hz w rfl) r _
  · have hin : s.Kept id := hid.resolve_left hz
    have hnew : pc.pending = [] → Inv (s.after g r (.inl (.record id maxInd))) := by
      intro hnone
      refine inv_goOn h hg hcur.ge (fun i hi => .inl (hcur ▸ hi)) (by simp [hnone]) ?_ hparams
        (searching_of_none rfl (by rintro _ _ ⟨⟩))
      intro v hv
      obtain rfl := List.mem_singleton.mp hv
      exact .inr (.inl hin)
    cases phase with
    | first =>
      rw [behindInprocessed, if_pos hz]
      exact hnew hpend
    | afterNoData err =>
      rw [behindInprocessed, if_pos hz]
      exact hnew hpend
    | afterRecord v err =>
      rw [behindInprocessed, if_pos hz]
      exact inv_same h hg hcur hpend.symm hparams (searching_of_none rfl (by rintro _ _ ⟨⟩))

theorem inv_onward (h : Open s r pc) (hpc : pc'.pending = pc.pending) (hphase : phaseOf pc' = none)
    (hnote : ∀ v answer, pc' = .insert v answer → r.extraParam ≠ []) (hparams : (resendParams r).isSome) :
    Inv (s.after s.group r (.inl pc')) :=
  inv_same h (keeps_same s) rfl hpc hparams (searching_of_none hphase hnote)

theorem inv_counted {upsert : Bool} {maxInd v : ℕ} (h : Open s r pc) (hpc : pc.pending = [])
    (hparams : (resendParams r).isSome) (hi : s.group.incPointer upsert maxInd = some (v, g)) :
    Inv (s.after g r (.inl (.record v maxInd))) := by
  obtain ⟨rfl, hg, -⟩ := incPointer_cases hi
  have hcur : g.current = s.group.current + 1 := by rw [hg]; rfl
  have hkeeps : Keeps s g := by
    rw [hg]
    exact ⟨rfl, rfl, fun _ hi => hi⟩
  refine inv_goOn h hkeeps (by omega) ?_ (by simp [hpc]) ?_ hparams (searching_of_none rfl (by rintro _ _ ⟨⟩))
  · intro i hi
    rw [NextPc.pending, List.mem_singleton]
    omega
  · intro v hv
    rw [NextPc.pending, List.mem_singleton] at hv
    exact .inr (.inr (by omega))

theorem explains_of_error {v maxInd : ℕ} {err : DBError}
    (h : s.group.getRecordByIDRaw r v maxInd = .error err) : Explains s.group v err := by
  cases getRecordByIDRaw_error h with
  | missing => exact .inl rfl
  | finished found hfound hlast hmarker => exact .inr (.inl ⟨found, hfound, hmarker⟩)
  | unencodable => exact .inr (.inr rfl)
  | incomplete => exact .inl rfl

theorem inv_behindRecord {v id : ℕ} {found : Record} (h : Open s r pc) (hpc : pc.pending = [v])
    (hparams : (resendParams r).isSome) (hv : r.extraParam = [] → id = v ∨ s.Kept v) :
    Inv (s.after s.group r (behindRecord r v (id, found))) := by
  unfold behindRecord
  by_cases hextra : r.extraParam = []
  · rw [if_pos hextra]
    refine inv_answer h (keeps_same s) rfl _ (fun w hw => ?_)
    rw [hpc, List.mem_singleton] at hw
    subst hw
    obtain rfl | hk := hv hextra
    · exact .inl List.mem_cons_self
    · exact (keeps_same s).kept hk r _
  · rw [if_neg hextra]
    exact inv_onward h hpc.symm rfl (fun _ _ _ => hextra) hparams

theorem Open.isSome (h : Open s r pc) (hpc : pc ≠ .lookUp .first) : (resendParams r).isSome :=
  h.params.resolve_left hpc

section Operations

variable {now : ℤ} {choice : Option ℕ} {phase : Phase} {v id maxInd : ℕ}

theorem inv_lookUp (hs : Open s r (.lookUp phase))
    (h : (NextPc.lookUp phase).step period r ⟨now, choice, false⟩ s.group = some (g, out)) :
    Inv (s.after g r out) := by
  rw [NextPc.step] at h
  split at h
  · rename_i hnone
    cases h
    refine inv_answer hs (keeps_same s) rfl _ (fun v hv => ?_)
    obtain hpc | hsome := hs.params
    · cases hpc
      cases hv
    · simp [hnone] at hsome
  · rename_i params hsome
    have hsome' : (resendParams r).isSome := by rw [hsome]; rfl
    split at h <;> cases h
    · exact inv_same hs (keeps_same s) rfl (by cases phase <;> rfl) hsome'
        (hs.goOn rfl (by rintro _ _ ⟨⟩) (by rintro _ _ ⟨⟩))
    · exact inv_same hs (keeps_same s) rfl (by cases phase <;> rfl) hsome'
        (hs.goOn rfl (by rintro _ _ ⟨⟩) (by rintro _ _ ⟨⟩))

theorem inv_unprocessed (hs : Open s r (.unprocessed phase))
    (h : (NextPc.unprocessed phase).step period r ⟨now, choice, false⟩ s.group = some (g, out)) :
    Inv (s.after g r out) := by
  have hparams := hs.isSome (by rintro ⟨⟩)
  rw [NextPc.step, if_neg (by simp)] at h
  obtain ⟨⟨d, n⟩, hp, h⟩ := Option.bind_eq_some_iff.mp h
  obtain ⟨⟨id, g₁⟩, hget, h⟩ := Option.map_eq_some_iff.mp h
  obtain ⟨hfound, -, hdata, hacks, hptr⟩ := getUnProcessedId_cases hget
  cases h
  have hg : Keeps s g := ⟨hdata, hacks, fun i hi => inProcess_unprocessed hget hi⟩
  have hcur : g.current = s.group.current := by rw [Group.current, hptr]; rfl
  split
  · rename_i hid
    refine inv_same hs hg hcur (by cases phase <;> rfl) hparams (hs.goOn rfl ?_ (by rintro _ _ ⟨⟩))
    rintro _ _ ⟨⟩
    exact ⟨hid, .inr (.inr (.inr (.inl (hfound.resolve_left hid))))⟩
  · exact inv_same hs hg hcur (by cases phase <;> rfl) hparams
      (hs.goOn rfl (by rintro _ _ ⟨⟩) (by rintro _ _ ⟨⟩))

theorem inv_noteRead (hs : Open s r (.noteRead phase)) (hkept : ∀ v, phase = .afterRecord v .other → s.Kept v)
    (h : (NextPc.noteRead phase).step period r ⟨now, choice, false⟩ s.group = some (g, out)) :
    Inv (s.after g r out) := by
  simp only [NextPc.step, Option.some.injEq, Prod.mk.injEq] at h
  obtain ⟨hg, rfl⟩ := h
  have hkeeps : Keeps s g := by
    rw [← hg]
    exact ⟨rfl, rfl, fun _ hi => hi⟩
  have hcur : g.current = s.group.current := by rw [← hg]; rfl
  exact inv_behindInprocessed hs hkeeps hcur rfl (by cases phase <;> rfl) (hs.isSome (by rintro ⟨⟩)) (.inl rfl)
    (fun _ => hkept)

theorem inv_record (hs : Open s r (.record v maxInd))
    (h : (NextPc.record v maxInd).step period r ⟨now, choice, false⟩ s.group = some (g, out)) :
    Inv (s.after g r out) := by
  have hparams := hs.isSome (by rintro ⟨⟩)
  rw [NextPc.step, if_neg (by simp)] at h
  split at h <;> cases h
  · rename_i herr
    refine inv_same hs (keeps_same s) rfl rfl hparams ⟨?_, by rintro _ _ ⟨⟩, by rintro _ _ ⟨⟩⟩
    rintro _ _ ⟨⟩
    exact explains_of_error herr
  · exact inv_behindRecord hs rfl hparams (fun _ => .inl rfl)

theorem inv_otherRecord (hs : Open s r (.otherRecord v id maxInd))
    (hkept : ¬ s.Kept v → ¬ Displaces s.group r v id maxInd)
    (h : (NextPc.otherRecord v id maxInd).step period r ⟨now, choice, false⟩ s.group = some (g, out)) :
    Inv (s.after g r out) := by
  rw [NextPc.step, if_neg (by simp)] at h
  split at h <;> cases h
  · rename_i err herr
    refine inv_answer hs (keeps_same s) rfl _ (fun w hw => ?_)
    obtain rfl := List.mem_singleton.mp hw
    by_cases hk : s.Kept w
    · exact (keeps_same s).kept hk r _
    · by_contra hnot
      exact hkept hk (.inr ⟨err, herr, fun hnamed => hnot (kept_named hnamed)⟩)
  · rename_i found hfound
    refine inv_behindRecord hs rfl (hs.isSome (by rintro ⟨⟩)) (fun hextra => ?_)
    by_cases hk : s.Kept v
    · exact .inr hk
    · by_contra hnot
      exact hkept hk (.inl ⟨found, hfound, hextra, fun hid => hnot (.inl hid)⟩)

theorem inv_insert {answer} (hs : Open s r (.insert v answer))
    (h : (NextPc.insert v answer).step period r ⟨now, choice, false⟩ s.group = some (g, out)) :
    Inv (s.after g r out) := by
  rw [NextPc.step] at h
  split at h
  · rename_i hnone
    have hsome := hs.isSome (by rintro ⟨⟩)
    rw [resendParams, if_neg (hs.noted v answer rfl), hnone] at hsome
    cases hsome
  · rename_i d n hsome
    rw [if_neg (by simp)] at h
    cases h
    obtain ⟨hkeeps, hin, hcur⟩ := keeps_insert (s := s) now d n v
    refine inv_answer hs hkeeps hcur _ (fun w hw => ?_)
    obtain rfl := List.mem_singleton.mp hw
    exact .inr (.inr (.inr (.inl hin)))

theorem inv_operation (hs : Open s r pc) (hu : s.underway = some (r, pc))
    (hdrop : ¬ Drops s (.operation now choice)) (h : pc.step period r ⟨now, choice, false⟩ s.group = some (g, out)) :
    Inv (s.after g r out) := by
  cases pc with
  | lookUp phase => exact inv_lookUp hs h
  | unprocessed phase => exact inv_unprocessed hs h
  | inprocessMax phase id =>
    rw [NextPc.step, if_neg (by simp)] at h
    cases h
    obtain ⟨hid, hkept⟩ := hs.found phase id rfl
    exact inv_behindInprocessed hs (keeps_same s) rfl rfl (by cases phase <;> rfl) (hs.isSome (by rintro ⟨⟩))
      (.inr hkept) (fun hz => absurd hz hid)
  | noteRead phase =>
    refine inv_noteRead hs (fun v hv => ?_) h
    by_contra hk
    exact hdrop ⟨r, v, hk, .inr (hv ▸ hu)⟩
  | pointerMax =>
    have hparams := hs.isSome (by rintro ⟨⟩)
    rw [NextPc.step, if_neg (by simp)] at h
    split at h <;> cases h
    · exact inv_same hs (keeps_same s) rfl rfl hparams (searching_noData _)
    · exact inv_onward hs rfl rfl (by rintro _ _ ⟨⟩) hparams
  | upsert maxInd =>
    have hparams := hs.isSome (by rintro ⟨⟩)
    rw [NextPc.step, if_neg (by simp)] at h
    split at h <;> cases h
    · rename_i hinc
      exact inv_counted hs rfl hparams hinc
    · exact inv_onward hs rfl rfl (by rintro _ _ ⟨⟩) hparams
  | retry maxInd =>
    have hparams := hs.isSome (by rintro ⟨⟩)
    rw [NextPc.step, if_neg (by simp)] at h
    split at h <;> cases h
    · rename_i hinc
      exact inv_counted hs rfl hparams hinc
    · exact inv_onward hs rfl rfl (by rintro _ _ ⟨⟩) hparams
  | explain maxInd =>
    cases h
    exact inv_same hs (keeps_same s) rfl rfl (hs.isSome (by rintro ⟨⟩)) (searching_noData _)
  | record v maxInd => exact inv_record hs h
  | otherRecord v id maxInd =>
    exact inv_otherRecord hs (fun hk hlost => hdrop ⟨r, v, hk, .inl ⟨id, maxInd, hu, hlost⟩⟩) h
  | insert v answer => exact inv_insert hs h

end Operations

structure Preserves (g g' : Group) : Prop where
  current : g'.current = g.current
  acks : g.acks ⊆ g'.acks
  inprocess : ∀ i, g.InProcess i → g'.InProcess i ∨ i ∈ g'.acks
  marker : ∀ i, g.MarkerAt i → g'.MarkerAt i

theorem Preserves.kept (h : Preserves s.group g) (hk : s.Kept i) : (s.setGroup g).Kept i := by
  obtain hk | hk | hk | hk | hk := hk
  · exact .inl hk
  · exact .inr (.inl hk)
  · exact .inr (.inr (.inl (h.acks hk)))
  · exact .inr (.inr ((h.inprocess i hk).elim (fun hin => .inr (.inl hin)) .inl))
  · exact .inr (.inr (.inr (.inr (h.marker i hk))))

theorem inv_setGroup (hs : Inv s) (h : Preserves s.group g) : Inv (s.setGroup g) := by
  refine ⟨fun hu i h1 hi => h.kept (hs.1 hu i h1 (h.current ▸ hi)), fun r pc hu => ?_⟩
  have hopen := hs.2 r pc hu
  refine ⟨⟨fun v err hv => (hopen.explained v err hv).mono (h.marker v),
    fun phase id hid => (hopen.found phase id hid).imp_right h.kept, hopen.noted⟩, ?_, ?_, hopen.params⟩
  · intro i h1 hi
    exact (hopen.kept i h1 (h.current ▸ hi)).imp_right h.kept
  · intro v hv
    exact (hopen.own v hv).imp h.kept (fun hb => ⟨hb.1, h.current.symm ▸ hb.2⟩)

theorem preserves_ackRecord (id : ℕ) (g : Group) : Preserves g (g.ackRecord id) := by
  unfold Group.ackRecord
  by_cases hid : id ∈ g.acks
  · simp only [AckPc.step, Bool.false_eq_true, if_false, hid, if_true]
    exact ⟨rfl, fun _ h => h, fun _ h => .inl h, fun _ h => h⟩
  · simp only [AckPc.step, Bool.false_eq_true, if_false, hid]
    refine ⟨rfl, fun _ h => List.mem_cons_of_mem _ h, ?_, fun _ h => h⟩
    rintro i ⟨found, hm, rfl⟩
    by_cases hi : found.id = id
    · exact .inr (by rw [hi]; exact List.mem_cons_self)
    · exact .inl ⟨found, List.mem_filter.mpr ⟨hm, by simpa using hi⟩, rfl⟩

theorem preserves_negAckRecord (id : ℕ) (now delayMs : ℤ) (g : Group) :
    Preserves g (g.negAckRecord id now delayMs) := by
  refine ⟨rfl, fun _ h => h, ?_, fun _ h => h⟩
  rintro i ⟨found, hm, rfl⟩
  left
  unfold Group.negAckRecord StreamOperations.insertOrReplace
  split
  · refine ⟨_, List.mem_map_of_mem hm, ?_⟩
    split
    · rename_i hid
      exact hid.symm
    · rfl
  · exact ⟨found, List.mem_append_left _ hm, rfl⟩

theorem preserves_insert {id : ℕ} {message : Record} (h : g.record? id = none) :
    Preserves g { g with data := (id, message) :: g.data } := by
  refine ⟨rfl, fun _ h => h, fun _ h => .inl h, ?_⟩
  rintro i ⟨found, hfound, hm⟩
  refine ⟨found, ?_, hm⟩
  have hne : id ≠ i := by
    rintro rfl
    simp [h] at hfound
  simpa [Group.record?, hne] using hfound

theorem record?_addMessageTo (g : Group) (id i : ℕ) (encodable : Bool) :
    (g.addMessageTo id encodable).record? i = (g.record? i).map (fun x =>
      if i = id ∧ Group.isDataset x then Group.addMessage encodable x else x) := by
  unfold Group.record? Group.addMessageTo
  simp only
  induction g.data with
  | nil => rfl
  | cons x rest ih =>
    by_cases hx : x.1 = i
    · simp [hx]
    · simpa [hx] using ih

theorem not_isDataset_of_marker {record : Record} (h : Record.IsMarker record) :
    ¬ Group.isDataset record = true := by
  simp [Group.isDataset, h.2]

theorem preserves_addMessageTo (id : ℕ) (encodable : Bool) (g : Group) :
    Preserves g (g.addMessageTo id encodable) := by
  refine ⟨rfl, fun _ h => h, fun _ h => .inl h, ?_⟩
  rintro i ⟨found, hfound, hm⟩
  refine ⟨found, ?_, hm⟩
  rw [record?_addMessageTo, hfound, Option.map_some, if_neg (fun h => not_isDataset_of_marker hm h.2)]

theorem inv_step (s : State) (e : Event) (t : State) (hs : Inv s) (hdrop : ¬ Drops s e)
    (h : s.step period e = some t) : Inv t := by
  cases e with
  | next r =>
    simp only [State.step, Option.ite_none_right_eq_some, Option.some.injEq] at h
    obtain ⟨hu, rfl⟩ := h
    refine ⟨by rintro ⟨⟩, ?_⟩
    rintro _ _ ⟨⟩
    exact ⟨⟨by rintro _ _ ⟨⟩, by rintro _ _ ⟨⟩, by rintro _ _ ⟨⟩⟩, fun i h1 hi => .inr (hs.1 hu i h1 hi),
      by rintro _ ⟨⟩, .inl rfl⟩
  | operation now choice =>
    cases hu : s.underway with
    | none => simp [State.step, hu] at h
    | some x =>
      obtain ⟨r, pc⟩ := x
      simp only [State.step, hu, Option.map_eq_some_iff] at h
      obtain ⟨x, hx, rfl⟩ := h
      exact inv_operation (hs.2 r pc hu) hu hdrop hx
  | ack id =>
    simp only [State.step, Option.ite_none_right_eq_some, Option.some.injEq] at h
    obtain ⟨-, rfl⟩ := h
    exact inv_setGroup hs (preserves_ackRecord id s.group)
  | negAck id now delayMs =>
    simp only [State.step, Option.ite_none_right_eq_some, Option.some.injEq] at h
    obtain ⟨-, rfl⟩ := h
    exact inv_setGroup hs (preserves_negAckRecord id now delayMs s.group)
  | insert id message =>
    simp only [State.step, Option.ite_none_right_eq_some, Option.some.injEq] at h
    obtain ⟨hfree, rfl⟩ := h
    exact inv_setGroup hs (preserves_insert hfree)
  | addMessage id encodable =>
    cases h
    exact inv_setGroup hs (preserves_addMessageTo id encodable s.group)

theorem not_kept_error {err : DBError} {v : ℕ} (hdata : g.data = s.group.data) (hacks : g.acks = s.group.acks)
    (hin : g.inprocess = s.group.inprocess) (hv : ¬ s.Kept v) (hnamed : namedId err ≠ some (v : ℤ)) :
    ¬ (s.after g r (.inr (.error err))).Kept v := by
  rintro (hk | hk | hk | hk | hk)
  · exact hv (.inl hk)
  · obtain hk | hk := List.mem_append.mp hk
    · exact hnamed (Option.mem_toList.mp hk)
    · exact hv (.inr (.inl hk))
  · exact hv (.inr (.inr (.inl (hacks ▸ hk))))
  · obtain ⟨found, hm, hid⟩ := hk
    exact hv (.inr (.inr (.inr (.inl ⟨found, hin ▸ hm, hid⟩))))
  · exact hv (.inr (.inr (.inr (.inr ((markerAt_congr hdata).mp hk)))))

theorem forgotten_of_drops (s : State) (e : Event) (t : State) (hs : Inv s) (hdrop : ¬ ¬ Drops s e)
    (h : s.step period e = some t) : ¬ t.NothingForgotten := by
  cases e with
  | operation now choice =>
    obtain ⟨r, v, hv, ⟨id, maxInd, hu, hdis⟩ | hu⟩ := not_not.mp hdrop
    · have hbound := ((hs.2 r _ hu).own v List.mem_cons_self).resolve_left hv
      simp only [State.step, hu, Option.map_eq_some_iff] at h
      obtain ⟨x, hx, rfl⟩ := h
      obtain ⟨found, hfound, hextra, hne⟩ | ⟨err, herr, hnamed⟩ := hdis
      · simp only [NextPc.step, hfound, behindRecord, hextra, Bool.false_eq_true, if_false, if_true,
          Option.some.injEq] at hx
        subst hx
        intro hall
        obtain hk | hk := hall rfl v hbound.1 hbound.2
        · obtain rfl | hk := List.mem_cons.mp hk
          · exact hne rfl
          · exact hv (.inl hk)
        · exact hv (.inr hk)
      · simp only [NextPc.step, herr, Bool.false_eq_true, if_false, Option.some.injEq] at hx
        subst hx
        exact fun hall => not_kept_error rfl rfl rfl hv hnamed (hall rfl v hbound.1 hbound.2)
    · have hbound := ((hs.2 r _ hu).own v List.mem_cons_self).resolve_left hv
      simp only [State.step, hu, Option.map_eq_some_iff] at h
      obtain ⟨x, hx, rfl⟩ := h
      cases hx
      exact fun hall => not_kept_error (r := r) rfl rfl rfl hv (by rintro ⟨⟩) (hall rfl v hbound.1 hbound.2)
  | _ => exact absurd id hdrop

/-- No id up to the pointer is forgotten along exactly the runs in which no `next` answers
with another message in place of the id that it has taken, or with an error for a record
that cannot be encoded. -/
theorem nothing_forgotten_iff (period : ℤ) (data : List (ℕ × Record)) (events : List Event) :
    Always (State.step period) NothingForgotten (initial data) events ↔
      Along (State.step period) (fun s e => ¬ Drops s e) (initial data) events := by
  refine always_iff_along (fun s hs => hs.1) inv_step forgotten_of_drops (initial data) events ?_
  refine ⟨fun _ i h1 hi => ?_, by rintro _ _ ⟨⟩⟩
  exact absurd hi (by simp [initial, fresh, Group.current]; omega)

def message : Record := ⟨.message, text "a", none, none, none⟩

def operations (choices : List (Option ℕ)) : List Event := choices.map (.operation 10000000000)

/-- The first `next` returns 1 and keeps it to be sent again. The second one has no resend
parameters, takes 2, which is not there, and returns 1 again. -/
def gapEvents : List Event :=
  .next ⟨false, 0, text "0_5"⟩ :: operations (List.replicate 7 none) ++
    .next ⟨false, 0, []⟩ :: operations [none, none, none, none, none, none, some 1, none, none]

def gapState : State where
  group := ⟨[(1, message), (3, message)], some 2, [⟨1, -1, 1, 10000000000⟩], [], 10⟩
  underway := none
  returned := [1, 1]
  named := []

theorem gap_forgotten :
    ¬ ∀ (period : ℤ) (data : List (ℕ × Record)) (events : List Event) (s : State),
      exec (State.step period) (initial data) events = some s → s.NothingForgotten := by
  intro h
  have hall := h 1 [(1, message), (3, message)] gapEvents gapState (by decide +kernel)
  have hkept := hall rfl 2 (by decide) (by decide)
  have hmissing : gapState.group.record? 2 = none := by decide
  obtain hk | hk | hk | ⟨found, hm, hid⟩ | ⟨found, hfound, -⟩ := hkept
  · exact absurd hk (by decide)
  · cases hk
  · cases hk
  · obtain rfl := List.mem_singleton.mp hm
    cases hid
  · simp [hmissing] at hfound

end HandedOut

end Asapo.Broker
