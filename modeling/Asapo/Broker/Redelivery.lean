import Asapo.Broker.Flow
import Asapo.Transition

namespace Asapo.Broker.Redelivery

open NextPc Transition

/-- Operations that do not overlap are those of one client. Messages are stored at any time. -/
def turn (period : ℤ) (s : Shared × Client) : Action ⊕ Store → Option (Shared × Client)
  | .inl a => act period s.1 s.2 a
  | .inr e => (store s.1 e).map (fun t => (t, s.2))

def Allowed (param : Text) : Action ⊕ Store → Prop
  | .inl (.next r) => r.extraParam = param
  | .inl (.ack _) => False
  | _ => True

def limit (n : ℤ) : ℤ := if n = 0 then 2 ^ 31 - 1 else n

/-- A message that was returned is in the in-process collection, and its attempts are used
up exactly if it was returned again as often as the limit says. -/
def Limited (n : ℤ) (s : Shared) : Prop :=
  ∀ id ∈ s.delivered, s.group.InProcess id ∧ ∀ record ∈ s.group.inprocess, record.id = id →
    (record.resendAttempts < record.maxResendAttempts ↔ (s.delivered.count id : ℤ) - 1 < limit n)

/-- A message that was taken from the in-process collection is also returned, and behind a
record that cannot be read nothing is taken from it. -/
def Smooth (g : Group) (r : NextRequest) (tick : Tick) : NextPc → Prop
  | .unprocessed (.afterRecord _ _) => tick.choice = none
  | .inprocessMax _ _ => tick.fault = false
  | .record id maxInd => g.InProcess id →
      tick.fault = false ∧ (g.getRecordByIDRaw r id maxInd).isOk = true
  | .insert id _ => g.InProcess id → tick.fault = false
  | _ => True

def Undisturbed (s : Shared × Client) : Action ⊕ Store → Prop
  | .inl (.run tick) =>
    match s.2 with
    | .next r _ pc => Smooth s.1.group r tick pc
    | _ => True
  | _ => True

def underway : NextPc → Option ℕ
  | .inprocessMax _ id | .record id _ | .insert id _ => some id
  | _ => none

def underwayOf : NextPc ⊕ Answer → Option ℕ
  | .inl pc => underway pc
  | .inr _ => none

def Placed (g : Group) : NextPc → Prop
  | .inprocessMax phase id => g.InProcess id ∧ ∀ nextInd err, phase ≠ .afterRecord nextInd err
  | .record id _ => id ≤ g.current
  | .otherRecord _ _ _ => False
  | .insert id answer => id ≤ g.current ∧ id ≠ 0 ∧ answer.1 = id
  | _ => True

def owed (id : ℕ) (pending : Option ℕ) : ℤ := if pending = some id then 1 else 0

structure Tracked (n : ℤ) (s : Shared) (pending : Option ℕ) : Prop where
  delivered : ∀ id ∈ s.delivered, s.group.InProcess id
  stored : ∀ x ∈ s.group.data, x.1 ≠ 0
  placed : ∀ record ∈ s.group.inprocess, record.id ≠ 0 ∧ record.id ≤ s.group.current
  counted : ∀ record ∈ s.group.inprocess, record.id ∈ s.delivered ∧ record.maxResendAttempts = n ∧
    record.resendAttempts = s.delivered.count record.id - 1 + owed record.id pending

variable {param : Text} {d n period : ℤ} {s t : Shared} {pending : Option ℕ}

theorem Tracked.limited (hn : 0 < n) (h : Tracked n s none) : Limited n s := by
  intro id hid
  refine ⟨h.delivered id hid, ?_⟩
  rintro record hrecord rfl
  obtain ⟨-, hmax, hcount⟩ := h.counted record hrecord
  rw [hmax, hcount, limit, if_neg hn.ne', owed, if_neg (by simp), Int.add_zero]

theorem Tracked.frame {g : Group} {pending' : Option ℕ} {obtained : List ℕ} (h : Tracked n s pending)
    (hin : g.inprocess = s.group.inprocess) (hdata : g.data = s.group.data)
    (hcur : s.group.current ≤ g.current)
    (hp : ∀ id, s.group.InProcess id → owed id pending' = owed id pending) :
    Tracked n { s with group := g, obtained := obtained } pending' where
  delivered id hid := by
    obtain ⟨record, hrecord, he⟩ := h.delivered id hid
    exact ⟨record, hin ▸ hrecord, he⟩
  stored := by
    rw [hdata]
    exact h.stored
  placed record hrecord := by
    obtain ⟨hz, hle⟩ := h.placed record (hin ▸ hrecord)
    exact ⟨hz, hle.trans hcur⟩
  counted record hrecord := by
    have hold : record ∈ s.group.inprocess := hin ▸ hrecord
    rw [hp record.id ⟨record, hold, rfl⟩]
    exact h.counted record hold

theorem owed_of_ne {id : ℕ} {p : Option ℕ} (h : p ≠ some id) : owed id p = 0 := if_neg h

section Steps

variable {r : NextRequest} {tick : Tick} {g' : Group} {pc : NextPc} {out : NextPc ⊕ Answer}

def after (s : Shared) (g' : Group) (fault : Bool) (pc : NextPc) (out : NextPc ⊕ Answer) : Shared :=
  { s with
    group := g'
    delivered := (deliveredId out).toList ++ s.delivered
    obtained := (pointerValue fault pc out).toList ++ s.obtained }

def Kept (n : ℤ) (s : Shared) (fault : Bool) (pc : NextPc) (g' : Group) (out : NextPc ⊕ Answer) : Prop :=
  Tracked n (after s g' fault pc out) (underwayOf out) ∧ ∀ pc', out = .inl pc' → Placed g' pc'

theorem kept_of_same {fault : Bool} (h : Tracked n s (underway pc))
    (hin : g'.inprocess = s.group.inprocess) (hdata : g'.data = s.group.data)
    (hcur : s.group.current ≤ g'.current) (hout : deliveredId out = none)
    (hp : ∀ id, s.group.InProcess id → owed id (underwayOf out) = owed id (underway pc))
    (hplaced : ∀ pc', out = .inl pc' → Placed g' pc') : Kept n s fault pc g' out := by
  refine ⟨?_, hplaced⟩
  rw [after, hout]
  exact h.frame hin hdata hcur hp

theorem Tracked.not_inProcess (h : Tracked n s pending) {id : ℕ} (hid : id = 0 ∨ s.group.current < id) :
    ¬ s.group.InProcess id := by
  rintro ⟨record, hrecord, rfl⟩
  obtain ⟨hz, hle⟩ := h.placed record hrecord
  omega

theorem tracked_resend (now d : ℤ) (id : ℕ) (hn : 0 < n) (h : Tracked n s none) :
    Tracked n { s with group := { s.group with
      inprocess := s.group.inprocess.map (fun record =>
        if record.id = id then Group.resend now d n record else record) } } (some id) := by
  have hid : ∀ record : InProcessingRecord,
      (if record.id = id then Group.resend now d n record else record).id = record.id := by
    intro record
    split <;> rfl
  refine ⟨fun i hi => ?_, h.stored, fun record hrecord => ?_, fun record hrecord => ?_⟩
  · obtain ⟨record, hrecord, rfl⟩ := h.delivered i hi
    exact ⟨_, List.mem_map_of_mem hrecord, hid record⟩
  · obtain ⟨old, hold, rfl⟩ := List.mem_map.mp hrecord
    rw [hid]
    exact h.placed old hold
  · obtain ⟨old, hold, rfl⟩ := List.mem_map.mp hrecord
    obtain ⟨hmem, hmax, hcount⟩ := h.counted old hold
    rw [owed_of_ne (by simp), Int.add_zero] at hcount
    rw [hid]
    refine ⟨hmem, ?_⟩
    by_cases he : old.id = id
    · rw [if_pos he]
      exact ⟨if_neg hn.ne', by rw [owed, if_pos (by rw [he]), ← hcount]; rfl⟩
    · rw [if_neg he]
      exact ⟨hmax, by rw [owed_of_ne (fun hs => he (Option.some.inj hs).symm), hcount, Int.add_zero]⟩

theorem Smooth.fault {id : ℕ} (h : Smooth s.group r tick pc) (hin : s.group.InProcess id)
    (hpc : underway pc = some id) : tick.fault = false := by
  cases pc with
  | inprocessMax phase i => exact h
  | record i maxInd =>
    cases hpc
    exact (h hin).1
  | insert i answer =>
    cases hpc
    exact h hin
  | _ => cases hpc

theorem kept_failed {err : DBError} (h : Tracked n s (underway pc))
    (hpc : ∀ id, s.group.InProcess id → underway pc ≠ some id) :
    Kept n s tick.fault pc s.group (.inr (.error err)) := by
  refine kept_of_same h rfl rfl (Nat.le_refl _) rfl (fun id hid => ?_) (by rintro _ ⟨⟩)
  rw [owed_of_ne (hpc id hid)]
  rfl

theorem kept_goOn {pc' : NextPc} {fault : Bool} (h : Tracked n s (underway pc))
    (hpc : ∀ id, s.group.InProcess id → underway pc ≠ some id) (hpc' : underway pc' = none)
    (hplaced : Placed s.group pc') : Kept n s fault pc s.group (.inl pc') := by
  refine kept_of_same h rfl rfl (Nat.le_refl _) rfl (fun id hid => ?_) ?_
  · rw [owed_of_ne (hpc id hid)]
    exact owed_of_ne (by simp [underwayOf, hpc'])
  · rintro _ ⟨⟩
    exact hplaced

theorem kept_taken {phase : Phase} {id : ℕ} (hn : 0 < n) (h : Tracked n s none)
    (hsmooth : Smooth s.group r tick (.unprocessed phase))
    (hu : s.group.getUnProcessedId tick.now d n tick.choice = some (id, g')) :
    Kept n s tick.fault (.unprocessed phase) g'
      (.inl (if id ≠ 0 then .inprocessMax phase id else .noteRead phase)) := by
  unfold Group.getUnProcessedId at hu
  split at hu
  · split at hu <;> cases hu
    exact kept_goOn h (by rintro _ - ⟨⟩) rfl trivial
  · rename_i choice hchoice
    split at hu <;> cases hu
    rename_i hany
    have hin : s.group.InProcess id := by
      obtain ⟨record, hrecord, he⟩ := List.any_eq_true.mp hany
      exact ⟨record, hrecord, by simpa using (Bool.and_eq_true_iff.mp he).1⟩
    have hz : id ≠ 0 := fun hz => h.not_inProcess (.inl hz) hin
    rw [if_pos hz]
    have htracked := tracked_resend tick.now d id hn h
    refine ⟨htracked.frame rfl rfl (Nat.le_refl _) (fun _ _ => rfl), ?_⟩
    rintro _ ⟨⟩
    refine ⟨?_, ?_⟩
    · obtain ⟨record, hrecord, rfl⟩ := hin
      exact ⟨_, List.mem_map_of_mem hrecord, by rw [if_pos rfl]; rfl⟩
    · rintro nextInd err rfl
      rw [Smooth, hchoice] at hsmooth
      cases hsmooth

theorem kept_bounded {phase : Phase} {id : ℕ} {fault : Bool} (h : Tracked n s (some id))
    (hplaced : Placed s.group (.inprocessMax phase id)) :
    Kept n s fault (.inprocessMax phase id) s.group
      (behindInprocessed id s.group.getMaxIndex phase) := by
  obtain ⟨⟨record, hrecord, rfl⟩, hphase⟩ := hplaced
  obtain ⟨hz, hle⟩ := h.placed record hrecord
  have hout : behindInprocessed record.id s.group.getMaxIndex phase =
      .inl (.record record.id s.group.getMaxIndex) := by
    cases phase with
    | first => simp [behindInprocessed, hz]
    | afterNoData err => simp [behindInprocessed, hz]
    | afterRecord nextInd err => exact absurd rfl (hphase nextInd err)
  rw [hout]
  refine kept_of_same h rfl rfl (Nat.le_refl _) rfl (fun _ _ => rfl) ?_
  rintro _ ⟨⟩
  exact hle

theorem kept_noted {phase : Phase} {fault : Bool} {now : ℤ} (h : Tracked n s none) :
    Kept n s fault (.noteRead phase) { s.group with lastRead := now } (behindInprocessed 0 0 phase) := by
  refine kept_of_same h rfl rfl (Nat.le_refl _) (by cases phase <;> rfl) (fun _ _ => ?_) ?_
  · cases phase <;> rfl
  · cases phase <;> rintro _ ⟨⟩
    trivial

theorem kept_quiet {pc' : NextPc} {fault : Bool} (h : Tracked n s (underway pc))
    (hq : Quiet s.group pc pc') : Kept n s fault pc s.group (.inl pc') := by
  cases hq <;> exact kept_goOn h (by rintro _ - ⟨⟩) rfl trivial

theorem kept_record {id maxInd : ℕ} {fault : Bool} (h : Tracked n s none) (hpc : underway pc = none)
    (hin : g'.inprocess = s.group.inprocess) (hdata : g'.data = s.group.data)
    (hcur : s.group.current ≤ g'.current) (hid : id ≤ g'.current) (hnew : ¬ s.group.InProcess id) :
    Kept n s fault pc g' (.inl (.record id maxInd)) := by
  refine kept_of_same (hpc ▸ h) hin hdata hcur rfl (fun i hi => ?_) ?_
  · have hne : underwayOf (.inl (.record id maxInd)) ≠ some i := by
      rintro ⟨⟩
      exact hnew hi
    rw [hpc, owed_of_ne hne, owed_of_ne (by simp)]
  · rintro _ ⟨⟩
    exact hid

theorem kept_pointer {maxInd v : ℕ} {upsert fault : Bool} (h : Tracked n s none)
    (hpc : underway pc = none) (hi : s.group.incPointer upsert maxInd = some (v, g')) :
    Kept n s fault pc g' (.inl (.record v maxInd)) := by
  obtain ⟨rfl, rfl, -⟩ := incPointer_cases hi
  exact kept_record h hpc rfl rfl (Nat.le_succ _) (Nat.le_refl _)
    (h.not_inProcess (.inr (Nat.lt_succ_self _)))

theorem tracked_insert (now d : ℤ) {id : ℕ} (h : Tracked n s (some id)) (hid : id ≤ s.group.current)
    (hz : id ≠ 0) :
    Tracked n { s with
      group := s.group.insertRecordToInprocess now id d n
      delivered := id :: s.delivered } none := by
  unfold Group.insertRecordToInprocess
  split
  · rename_i hany
    obtain ⟨record, hrecord, he⟩ := List.any_eq_true.mp hany
    have hin : s.group.InProcess id := ⟨record, hrecord, by simpa using he⟩
    refine ⟨fun i hi => ?_, h.stored, h.placed, fun record hrecord => ?_⟩
    · obtain rfl | hi := List.mem_cons.mp hi
      · exact hin
      · exact h.delivered i hi
    · obtain ⟨hmem, hmax, hcount⟩ := h.counted record hrecord
      refine ⟨List.mem_cons_of_mem _ hmem, hmax, ?_⟩
      rw [hcount, List.count_cons, owed_of_ne (p := none) (by simp)]
      by_cases he : id = record.id
      · simp only [owed, he, beq_self_eq_true, if_true]
        push_cast
        omega
      · rw [owed_of_ne (by simpa using he)]
        simp [he]
  · rename_i hany
    have hnew : ∀ record ∈ s.group.inprocess, record.id ≠ id := by simpa using hany
    have hout : id ∉ s.delivered := fun hmem => by
      obtain ⟨record, hrecord, he⟩ := h.delivered id hmem
      exact hnew record hrecord he
    refine ⟨fun i hi => ?_, h.stored, fun record hrecord => ?_, fun record hrecord => ?_⟩
    · obtain rfl | hi := List.mem_cons.mp hi
      · exact ⟨_, List.mem_append_right _ (List.mem_singleton_self _), rfl⟩
      · obtain ⟨record, hrecord, he⟩ := h.delivered i hi
        exact ⟨record, List.mem_append_left _ hrecord, he⟩
    · obtain hrecord | hrecord := List.mem_append.mp hrecord
      · exact h.placed record hrecord
      · rw [List.mem_singleton.mp hrecord]
        exact ⟨hz, hid⟩
    · obtain hrecord | hrecord := List.mem_append.mp hrecord
      · obtain ⟨hmem, hmax, hcount⟩ := h.counted record hrecord
        have he : id ≠ record.id := (hnew record hrecord).symm
        refine ⟨List.mem_cons_of_mem _ hmem, hmax, ?_⟩
        rw [hcount, List.count_cons_of_ne he, owed_of_ne (by simpa using he), owed_of_ne (by simp)]
      · rw [List.mem_singleton.mp hrecord]
        refine ⟨List.mem_cons_self, rfl, ?_⟩
        rw [List.count_cons_self, List.count_eq_zero.mpr hout, owed_of_ne (by simp)]
        rfl

theorem kept_unread {nextInd maxInd : ℕ} {err : DBError} (h : Tracked n s (some nextInd))
    (hsmooth : Smooth s.group r tick (.record nextInd maxInd))
    (herr : tick.fault = true ∨ s.group.getRecordByIDRaw r nextInd maxInd = .error err) :
    Kept n s tick.fault (.record nextInd maxInd) s.group
      (.inl (.lookUp (.afterRecord nextInd err))) := by
  refine kept_goOn h ?_ rfl trivial
  -- a message in process would have been read
  rintro _ hin ⟨⟩
  obtain ⟨hf, hok⟩ := hsmooth hin
  obtain herr | herr := herr
  · cases hf.symm.trans herr
  · rw [herr] at hok
    cases hok

theorem kept_read {nextInd maxInd : ℕ} {found : Record} {fault : Bool} (hne : r.extraParam ≠ [])
    (h : Tracked n s (some nextInd)) (hplaced : nextInd ≤ s.group.current)
    (hread : s.group.getRecordByIDRaw r nextInd maxInd = .ok found) :
    Kept n s fault (.record nextInd maxInd) s.group (behindRecord r nextInd (nextInd, found)) := by
  obtain ⟨x, hx, hxid⟩ := mem_of_getRecordByIDRaw hread
  rw [behindRecord, if_neg hne]
  refine kept_of_same h rfl rfl (Nat.le_refl _) rfl (fun _ _ => rfl) ?_
  rintro _ ⟨⟩
  exact ⟨hplaced, hxid ▸ h.stored x hx, rfl⟩

theorem kept_inserted {nextInd : ℕ} {answer : ℕ × Record} {fault : Bool} {now : ℤ}
    (h : Tracked n s (some nextInd)) (hplaced : Placed s.group (.insert nextInd answer)) :
    Kept n s fault (.insert nextInd answer) (s.group.insertRecordToInprocess now nextInd d n)
      (.inr (.ok answer)) := by
  obtain ⟨hle, hz, hans⟩ := hplaced
  refine ⟨?_, by rintro _ ⟨⟩⟩
  have htracked := tracked_insert now d h hle hz
  rw [← hans] at htracked ⊢
  exact htracked.frame rfl rfl (Nat.le_refl _) (fun _ _ => rfl)

theorem underway_of_bound {maxInd : ℕ} (h : pc.bound = some maxInd) : underway pc = none := by
  cases pc <;> first | rfl | cases h

theorem kept_step (hparam : extractsTwoIntsFromString r.extraParam = some (d, n))
    (hne : r.extraParam ≠ []) (hn : 0 < n) (h : Tracked n s (underway pc)) (hplaced : Placed s.group pc)
    (hsmooth : Smooth s.group r tick pc) (hstep : pc.step period r tick s.group = some (g', out)) :
    Kept n s tick.fault pc g' out := by
  have hresend : resendParams r = some (d, n) := (if_neg hne).trans hparam
  cases took_of_step hstep with
  | quiet hq => exact kept_quiet h hq
  | refused hno => simp [hresend, hparam] at hno
  | failed hf =>
    refine kept_failed h (fun id hin hpc => ?_)
    cases (hsmooth.fault hin hpc).symm.trans hf
  | taken phase hp hu =>
    cases hresend.symm.trans hp
    exact kept_taken hn h hsmooth hu
  | bounded phase id => exact kept_bounded h hplaced
  | noted phase => exact kept_noted h
  | lost hpc _ =>
    have hnone : underway pc = none := by obtain rfl | ⟨maxInd, rfl⟩ := hpc <;> rfl
    exact kept_record (hnone ▸ h) hnone rfl rfl (Nat.le_refl _) (Nat.zero_le _)
      (h.not_inProcess (.inl rfl))
  | counted hb _ hi => exact kept_pointer (underway_of_bound hb ▸ h) (underway_of_bound hb) hi
  | unread nextInd maxInd err herr => exact kept_unread h hsmooth herr
  | read nextInd maxInd hread => exact kept_read hne h hplaced hread
  | unreadOther | readOther => exact hplaced.elim
  | inserted nextInd answer hp _ =>
    cases hparam.symm.trans hp
    exact kept_inserted h hplaced

end Steps

def Inv (param : Text) (n : ℤ) (s : Shared × Client) : Prop :=
  match s.2 with
  | .next r _ pc => r.extraParam = param ∧ Tracked n s.1 (underway pc) ∧ Placed s.1.group pc
  | .ack _ _ => False
  | _ => Tracked n s.1 none

theorem Inv.ready {s : Shared × Client} (h : Inv param n s) (hr : s.2.ready = true) : Tracked n s.1 none := by
  obtain ⟨s, c⟩ := s
  cases c with
  | idle | got => exact h
  | next | ack => cases hr

theorem inv_store {s t : Shared × Client} {e : Store} (h : Inv param n s)
    (ht : (store s.1 e).map (fun t => (t, s.2)) = some t) : Inv param n t := by
  obtain ⟨s, c⟩ := s
  obtain ⟨t', hs, rfl⟩ := Option.map_eq_some_iff.mp ht
  have hkeep : ∀ p, Tracked n s p → Tracked n t' p := by
    intro p hp
    unfold store at hs
    split at hs <;> cases hs
    rename_i hz
    refine ⟨hp.delivered, fun x hx => ?_, hp.placed, hp.counted⟩
    obtain rfl | hx := List.mem_cons.mp hx
    · exact hz
    · exact hp.stored x hx
  have hplaced : ∀ pc, Placed s.group pc → Placed t'.group pc := by
    intro pc hpc
    unfold store at hs
    split at hs <;> cases hs
    cases pc <;> exact hpc
  cases c with
  | next r barred pc => exact ⟨h.1, hkeep _ h.2.1, hplaced pc h.2.2⟩
  | idle | got => exact hkeep _ h
  | ack => exact h

theorem inv_turn (hparam : extractsTwoIntsFromString param = some (d, n)) (hn : 0 < n)
    (s : Shared × Client) (e : Action ⊕ Store) (t : Shared × Client) (h : Inv param n s)
    (hc : Allowed param e ∧ Undisturbed s e) (ht : turn period s e = some t) : Inv param n t := by
  have hne : param ≠ [] := by
    rintro rfl
    cases hparam
  cases e with
  | inr e => exact inv_store h ht
  | inl a =>
    obtain ⟨s, c⟩ := s
    cases a with
    | next r =>
      simp only [turn, act] at ht
      split at ht <;> cases ht
      rename_i hr
      exact ⟨hc.1, h.ready hr, trivial⟩
    | ack id => exact hc.1.elim
    | run tick =>
      cases c with
      | idle | got => cases ht
      | ack => exact h.elim
      | next r barred pc =>
        obtain ⟨rfl, htracked, hplaced⟩ := h
        obtain ⟨⟨g', out⟩, hstep, hx⟩ := Option.map_eq_some_iff.mp ht
        cases hx
        obtain ⟨htracked', hplaced'⟩ := kept_step hparam hne hn htracked hplaced hc.2 hstep
        cases out with
        | inl pc' => exact ⟨rfl, htracked', hplaced' pc' rfl⟩
        | inr answer => exact htracked'

/-- With a positive number of attempts, in every run whose operations are undisturbed, the
messages that were returned are in process and their attempts are counted. -/
theorem redeliveries_limited (param : Text) (d n period : ℤ)
    (hparam : extractsTwoIntsFromString param = some (d, n)) (hn : 0 < n)
    (events : List (Action ⊕ Store)) (hallowed : ∀ e ∈ events, Allowed param e)
    (hc : Along (turn period) Undisturbed (fresh [], .idle) events) :
    Always (turn period) (fun s => s.2.ready = true → Limited n s.1) (fresh [], .idle) events := by
  apply always_of_along (fun s hs hr => (Inv.ready hs hr).limited hn) (inv_turn hparam hn)
  · exact ⟨nofun, nofun, nofun, nofun⟩
  · exact along_and_of_forall _ _ hallowed hc

instance (g : Group) (id : ℕ) : Decidable (g.InProcess id) :=
  inferInstanceAs (Decidable (∃ record ∈ g.inprocess, record.id = id))

instance (n : ℤ) (s : Shared) : Decidable (Limited n s) :=
  inferInstanceAs (Decidable (∀ id ∈ s.delivered, s.group.InProcess id ∧
    ∀ record ∈ s.group.inprocess, record.id = id →
      (record.resendAttempts < record.maxResendAttempts ↔ (s.delivered.count id : ℤ) - 1 < limit n)))

instance (g : Group) (r : NextRequest) (tick : Tick) : ∀ pc, Decidable (Smooth g r tick pc)
  | .unprocessed (.afterRecord _ _) => inferInstanceAs (Decidable (tick.choice = none))
  | .inprocessMax _ _ => inferInstanceAs (Decidable (tick.fault = false))
  | .record id maxInd => inferInstanceAs (Decidable (g.InProcess id →
      tick.fault = false ∧ (g.getRecordByIDRaw r id maxInd).isOk = true))
  | .insert id _ => inferInstanceAs (Decidable (g.InProcess id → tick.fault = false))
  | .unprocessed .first | .unprocessed (.afterNoData _) | .lookUp _ | .noteRead _ | .pointerMax | .upsert _
  | .retry _ | .explain _ | .otherRecord _ _ _ => .isTrue trivial

instance (s : Shared × Client) : ∀ e, Decidable (Undisturbed s e)
  | .inl (.run tick) =>
    match s with
    | (s, .next r _ pc) => inferInstanceAs (Decidable (Smooth s.group r tick pc))
    | (_, .idle) | (_, .got _ _) | (_, .ack _ _) => .isTrue trivial
  | .inl (.next _) | .inl (.ack _) | .inr _ => .isTrue trivial

instance (param : Text) : ∀ e, Decidable (Allowed param e)
  | .inl (.next r) => inferInstanceAs (Decidable (r.extraParam = param))
  | .inl (.ack _) => .isFalse id
  | .inl (.run _) | .inr _ => .isTrue trivial

def plain : Record := ⟨.message, text "a", none, none, none⟩

def takeNew (param : Text) : List (Action ⊕ Store) :=
  .inl (.next ⟨false, 0, param⟩) :: List.replicate 7 (.inl (.run ⟨0, none, false⟩))

def takeAgain (param : Text) (id : ℕ) : List (Action ⊕ Store) :=
  .inl (.next ⟨false, 0, param⟩) :: List.replicate 5 (.inl (.run ⟨2000000000, some id, false⟩))

theorem redelivered_once :
    ∃ t, exec (turn 0) (fresh [], .idle) (.inr ⟨1, plain⟩ :: takeNew (text "0_1") ++ takeAgain (text "0_1") 1) =
        some t ∧ t.1.delivered = [1, 1] ∧ Limited 1 t.1 := by
  have hrun : (exec (turn 0) (fresh [], .idle)
      (.inr ⟨1, plain⟩ :: takeNew (text "0_1") ++ takeAgain (text "0_1") 1)).any (fun t =>
        t.2.ready && t.1.delivered = [1, 1]) = true := by decide +kernel
  obtain ⟨t, ht, hx⟩ := (Option.any_eq_true _ _).mp hrun
  obtain ⟨hready, hdelivered⟩ := Bool.and_eq_true_iff.mp hx
  have halways := redeliveries_limited (text "0_1") 0 1 0 (by decide +kernel) (by decide)
    (.inr ⟨1, plain⟩ :: takeNew (text "0_1") ++ takeAgain (text "0_1") 1) (by decide +kernel) (by decide +kernel)
  exact ⟨t, ht, of_decide_eq_true hdelivered, always_exec _ t _ halways ht hready⟩

theorem not_redelivered :
    ¬ ∀ (param : Text) (d n period : ℤ), extractsTwoIntsFromString param = some (d, n) → 0 ≤ d → 0 ≤ n →
      ∀ events : List (Action ⊕ Store), (∀ e ∈ events, Allowed param e) →
        Always (turn period) (fun s => s.2.ready = true → Limited n s.1) (fresh [], .idle) events := by
  intro h
  have hrun : (exec (turn 0) (fresh [], .idle) (.inr ⟨1, plain⟩ :: takeNew (text "0_0"))).any (fun t =>
      t.2.ready && !decide (Limited 0 t.1)) = true := by decide +kernel
  obtain ⟨t, ht, hx⟩ := (Option.any_eq_true _ _).mp hrun
  obtain ⟨hready, hnot⟩ := Bool.and_eq_true_iff.mp hx
  have halways := h (text "0_0") 0 0 0 (by decide +kernel) (by decide) (by decide)
    (.inr ⟨1, plain⟩ :: takeNew (text "0_0")) (by decide +kernel)
  exact of_decide_eq_false (Bool.not_eq_true' _ |>.mp hnot) (always_exec _ t _ halways ht hready)

def takeInstead (param : Text) (id : ℕ) : List (Action ⊕ Store) :=
  .inl (.next ⟨false, 0, param⟩) ::
    (List.replicate 5 (.inl (.run ⟨0, none, false⟩)) ++ List.replicate 5 (.inl (.run ⟨0, some id, false⟩)))

-- With one attempt: the message 2 is missing when the pointer comes to it, so that the
-- message 1 is sent again and 2 put into the collection. Its first delivery then uses up
-- its attempt.
example :
    (exec (turn 1) (fresh [], .idle)
      (.inr ⟨1, plain⟩ :: .inr ⟨3, plain⟩ :: .inl (.next ⟨false, 0, text "0_1"⟩) ::
        (List.replicate 6 (.inl (.run ⟨0, none, false⟩)) ++
          (takeInstead (text "0_1") 1 ++ .inr ⟨2, plain⟩ :: takeAgain (text "0_1") 2)))).any (fun t =>
      t.2.ready && t.1.delivered = [2, 1, 1] && !decide (Limited 1 t.1)) = true := by decide +kernel

end Asapo.Broker.Redelivery
