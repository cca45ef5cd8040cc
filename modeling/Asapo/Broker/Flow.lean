import Asapo.Broker.NextRecord

namespace Asapo.Broker

namespace NextPc

def candidates : NextPc → List ℕ
  | .inprocessMax _ id => [id]
  | .record nextInd _ => [nextInd]
  | .otherRecord _ id _ => [id]
  | .insert _ answer => [answer.1]
  | _ => []

def pending : NextPc → List ℕ
  | .lookUp (.afterRecord nextInd _) | .unprocessed (.afterRecord nextInd _)
  | .inprocessMax (.afterRecord nextInd _) _ | .noteRead (.afterRecord nextInd _) => [nextInd]
  | .record nextInd _ => [nextInd]
  | .otherRecord nextInd _ _ => [nextInd]
  | .insert nextInd _ => [nextInd]
  | _ => []

def bound : NextPc → Option ℕ
  | .upsert maxInd | .retry maxInd => some maxInd
  | _ => none

def candidatesOf : NextPc ⊕ Answer → List ℕ
  | .inl pc => pc.candidates
  | .inr (.ok answer) => [answer.1]
  | .inr (.error _) => []

def pendingOf : NextPc ⊕ Answer → List ℕ
  | .inl pc => pc.pending
  | .inr _ => []

def boundOf : NextPc ⊕ Answer → Option ℕ
  | .inl pc => pc.bound
  | .inr _ => none

def answerOf : NextPc ⊕ Answer → Option (ℕ × Record)
  | .inl (.insert _ answer) => some answer
  | .inr (.ok answer) => some answer
  | _ => none

end NextPc

open NextPc

def Group.current (g : Group) : ℕ := g.pointer.getD 0

def Group.InProcess (g : Group) (id : ℕ) : Prop := ∃ record ∈ g.inprocess, record.id = id

/-- An operation takes the next value from the pointer. -/
structure Counts (g : Group) (pc : NextPc) (g' : Group) (out : NextPc ⊕ Answer) : Prop where
  pointer : g'.pointer = some (g.current + 1)
  below : ∃ maxInd, pc.bound = some maxInd ∧ (g.pointer = none ∨ g.current < maxInd)
  out : candidatesOf out = [g.current + 1]

theorem Counts.current {g g' : Group} {pc : NextPc} {out : NextPc ⊕ Answer} (h : Counts g pc g' out) :
    g'.current = g.current + 1 := by
  rw [Group.current, h.pointer]
  rfl

inductive Quiet (g : Group) : NextPc → NextPc → Prop
  | search (phase : Phase) : Quiet g (.lookUp phase) (.unprocessed phase)
  | wait (phase : Phase) : Quiet g (.lookUp phase) (.noteRead phase)
  | noData : Quiet g .pointerMax (.lookUp (.afterNoData (.noData 0 0 [])))
  | count (h : g.getMaxIndex ≠ 0) : Quiet g .pointerMax (.upsert g.getMaxIndex)
  | again (maxInd : ℕ) : Quiet g (.upsert maxInd) (.retry maxInd)
  | giveUp (maxInd : ℕ) : Quiet g (.retry maxInd) (.explain maxInd)
  | explained (maxInd : ℕ) (err : DBError) : Quiet g (.explain maxInd) (.lookUp (.afterNoData err))

inductive Took (r : NextRequest) (tick : Tick) (g : Group) : NextPc → Group → NextPc ⊕ Answer → Prop
  | quiet {pc pc' : NextPc} (h : Quiet g pc pc') : Took r tick g pc g (.inl pc')
  | refused {pc : NextPc} (h : resendParams r = none ∨ extractsTwoIntsFromString r.extraParam = none) :
      Took r tick g pc g (.inr (.error .other))
  | failed {pc : NextPc} (hf : tick.fault = true) : Took r tick g pc g (.inr (.error .other))
  | taken (phase : Phase) {d n : ℤ} {id : ℕ} {g' : Group} (hparam : resendParams r = some (d, n))
      (h : g.getUnProcessedId tick.now d n tick.choice = some (id, g')) :
      Took r tick g (.unprocessed phase) g'
        (.inl (if id ≠ 0 then .inprocessMax phase id else .noteRead phase))
  | bounded (phase : Phase) (id : ℕ) :
      Took r tick g (.inprocessMax phase id) g (behindInprocessed id g.getMaxIndex phase)
  | noted (phase : Phase) :
      Took r tick g (.noteRead phase) { g with lastRead := tick.now / 1000000000 }
        (behindInprocessed 0 0 phase)
  | lost {pc : NextPc} (hpc : pc = .pointerMax ∨ ∃ maxInd, pc = .upsert maxInd) (hf : tick.fault = true) :
      Took r tick g pc g (.inl (.record 0 0))
  | counted {pc : NextPc} {upsert : Bool} {maxInd v : ℕ} {g' : Group} (hb : pc.bound = some maxInd)
      (hf : tick.fault = false) (h : g.incPointer upsert maxInd = some (v, g')) :
      Took r tick g pc g' (.inl (.record v maxInd))
  | unread (nextInd maxInd : ℕ) (err : DBError)
      (h : tick.fault = true ∨ g.getRecordByIDRaw r nextInd maxInd = .error err) :
      Took r tick g (.record nextInd maxInd) g (.inl (.lookUp (.afterRecord nextInd err)))
  | read (nextInd maxInd : ℕ) {found : Record} (h : g.getRecordByIDRaw r nextInd maxInd = .ok found) :
      Took r tick g (.record nextInd maxInd) g (behindRecord r nextInd (nextInd, found))
  | unreadOther (nextInd id maxInd : ℕ) (err : DBError) :
      Took r tick g (.otherRecord nextInd id maxInd) g (.inr (.error err))
  | readOther (nextInd id maxInd : ℕ) {found : Record} (h : g.getRecordByIDRaw r id maxInd = .ok found) :
      Took r tick g (.otherRecord nextInd id maxInd) g (behindRecord r nextInd (id, found))
  | inserted (nextInd : ℕ) (answer : ℕ × Record) {d n : ℤ}
      (hparam : extractsTwoIntsFromString r.extraParam = some (d, n)) (hf : tick.fault = false) :
      Took r tick g (.insert nextInd answer) (g.insertRecordToInprocess tick.now nextInd d n)
        (.inr (.ok answer))

/-- What an operation of `getNextRecord` does to the documents of the group, and where the
ids come from that it goes on with. -/
structure Flow (g : Group) (pc : NextPc) (fault : Bool) (g' : Group) (out : NextPc ⊕ Answer) : Prop where
  data : g'.data = g.data
  acks : g'.acks = g.acks
  inprocess : ∀ id, g'.InProcess id → g.InProcess id ∨ ∃ answer, pc = .insert id answer
  pointer : g'.pointer = g.pointer ∧ pointerValue fault pc out = none ∨
    Counts g pc g' out ∧ pointerValue fault pc out = some (g.current + 1)
  candidates : ∀ id ∈ candidatesOf out, id = 0 ∨ id ∈ pc.candidates ∨ g.InProcess id ∨ Counts g pc g' out
  pending : ∀ id ∈ pendingOf out, id ∈ pc.pending ∨ id ∈ candidatesOf out
  bound : ∀ m, boundOf out = some m → pc.bound = some m ∨ m = g.getMaxIndex ∧ m ≠ 0
  answer : ∀ a, answerOf out = some a → (∃ x ∈ g.data, x.1 = a.1) ∨ ∃ nextInd, pc = .insert nextInd a

variable {period : ℤ} {r : NextRequest} {tick : Tick} {g g' : Group} {out : NextPc ⊕ Answer}

section Read

variable {fault : Bool} {lost : DBError} {read : Except DBError Record}

theorem ok_of_read {found : Record} (h : (if fault then .error lost else read) = Except.ok found) :
    read = .ok found := by
  cases fault with
  | false => exact h
  | true => cases h

theorem error_of_read {err : DBError} (h : (if fault then .error lost else read) = Except.error err) :
    fault = true ∨ read = .error err := by
  cases fault with
  | false => exact .inr h
  | true => exact .inl rfl

end Read

theorem took_of_step {pc : NextPc} (h : pc.step period r tick g = some (g', out)) :
    Took r tick g pc g' out := by
  cases pc with
  | lookUp phase =>
    rw [NextPc.step] at h
    split at h
    · rename_i hp
      cases h
      exact .refused (.inl hp)
    · split at h <;> cases h
      · exact .quiet (.search phase)
      · exact .quiet (.wait phase)
  | unprocessed phase =>
    rw [NextPc.step] at h
    split at h
    · rename_i hf
      cases h
      exact .failed hf
    · obtain ⟨⟨d, n⟩, hp, h⟩ := Option.bind_eq_some_iff.mp h
      obtain ⟨⟨id, g₁⟩, hu, h⟩ := Option.map_eq_some_iff.mp h
      cases h
      exact .taken phase hp hu
  | inprocessMax phase id =>
    rw [NextPc.step] at h
    split at h <;> cases h
    · rename_i hf
      exact .failed hf
    · exact .bounded phase id
  | noteRead phase =>
    cases h
    exact .noted phase
  | pointerMax =>
    rw [NextPc.step] at h
    split at h
    · rename_i hf
      cases h
      exact .lost (.inl rfl) hf
    · split at h <;> cases h
      · exact .quiet .noData
      · rename_i hmax
        exact .quiet (.count hmax)
  | upsert maxInd =>
    rw [NextPc.step] at h
    split at h
    · rename_i hf
      cases h
      exact .lost (.inr ⟨maxInd, rfl⟩) hf
    · rename_i hf
      split at h <;> cases h
      · rename_i hi
        exact .counted rfl (Bool.eq_false_iff.mpr hf) hi
      · exact .quiet (.again maxInd)
  | retry maxInd =>
    rw [NextPc.step] at h
    split at h
    · cases h
      exact .quiet (.giveUp maxInd)
    · rename_i hf
      split at h <;> cases h
      · rename_i hi
        exact .counted rfl (Bool.eq_false_iff.mpr hf) hi
      · exact .quiet (.giveUp maxInd)
  | explain maxInd =>
    cases h
    exact .quiet (.explained maxInd _)
  | record nextInd maxInd =>
    rw [NextPc.step] at h
    split at h <;> cases h <;> rename_i hans
    · exact .unread nextInd maxInd _ (error_of_read hans)
    · exact .read nextInd maxInd (ok_of_read hans)
  | otherRecord nextInd id maxInd =>
    rw [NextPc.step] at h
    split at h <;> cases h
    · exact .unreadOther nextInd id maxInd _
    · rename_i hans
      exact .readOther nextInd id maxInd (ok_of_read hans)
  | insert nextInd answer =>
    rw [NextPc.step] at h
    split at h
    · rename_i hp
      cases h
      exact .refused (.inr hp)
    · rename_i hp
      split at h <;> cases h
      · rename_i hf
        exact .failed hf
      · rename_i hf
        exact .inserted nextInd answer hp (Bool.eq_false_iff.mpr hf)

theorem flow_of_same {pc : NextPc} {fault : Bool} (hg : g' = { g with lastRead := g'.lastRead })
    (hv : pointerValue fault pc out = none)
    (hc : ∀ id ∈ candidatesOf out, id = 0 ∨ id ∈ pc.candidates)
    (hp : ∀ id ∈ pendingOf out, id ∈ pc.pending ∨ id ∈ candidatesOf out)
    (hb : ∀ m, boundOf out = some m → pc.bound = some m ∨ m = g.getMaxIndex ∧ m ≠ 0)
    (ha : ∀ a, answerOf out = some a → (∃ x ∈ g.data, x.1 = a.1) ∨ ∃ nextInd, pc = .insert nextInd a) :
    Flow g pc fault g' out := by
  rw [hg]
  exact {
    data := rfl
    acks := rfl
    inprocess := fun _ h => .inl h
    pointer := .inl ⟨rfl, hv⟩
    candidates := fun id h => (hc id h).imp_right .inl
    pending := hp
    bound := hb
    answer := ha }

theorem flow_of_error {pc : NextPc} {fault : Bool} {err : DBError} :
    Flow g pc fault g (.inr (.error err)) := by
  apply flow_of_same rfl
  · cases pc <;> rfl
  all_goals simp [candidatesOf, pendingOf, boundOf, answerOf]

theorem flow_behindInprocessed {phase : Phase} {pc : NextPc} {id maxInd : ℕ} {fault : Bool}
    (hg : g' = { g with lastRead := g'.lastRead }) (hv : ∀ out, pointerValue fault pc out = none)
    (hc : id = 0 ∨ id ∈ pc.candidates) (hp : pc.pending = (NextPc.lookUp phase).pending) :
    Flow g pc fault g' (behindInprocessed id maxInd phase) := by
  apply flow_of_same hg (hv _)
  all_goals
    cases phase <;> by_cases hz : id = 0 <;>
      simp_all [behindInprocessed, candidatesOf, pendingOf, boundOf, answerOf, NextPc.candidates,
        NextPc.pending, NextPc.bound]

theorem flow_behindRecord {pc : NextPc} {fault : Bool} {nextInd : ℕ} {answer : ℕ × Record}
    (hv : ∀ out, pointerValue fault pc out = none) (hc : answer.1 ∈ pc.candidates)
    (hp : nextInd ∈ pc.pending) (ha : ∃ x ∈ g.data, x.1 = answer.1) :
    Flow g pc fault g (behindRecord r nextInd answer) := by
  unfold behindRecord
  split
  · apply flow_of_same rfl (hv _) <;> simp_all [candidatesOf, pendingOf, boundOf, answerOf]
  · apply flow_of_same rfl (hv _) <;>
      simp_all [candidatesOf, pendingOf, boundOf, answerOf, NextPc.candidates, NextPc.pending, NextPc.bound]

theorem mem_of_getRecordByIDRaw {id idMax : ℕ} {found : Record}
    (h : g.getRecordByIDRaw r id idMax = .ok found) : ∃ x ∈ g.data, x.1 = id := by
  unfold Group.getRecordByIDRaw Group.getRecordFromDb at h
  cases hf : g.data.find? (fun record => decide (record.1 = id)) with
  | none => simp [hf] at h
  | some x => exact ⟨x, List.mem_of_find?_eq_some hf, by simpa using List.find?_some hf⟩

theorem incPointer_cases {upsert : Bool} {maxInd v : ℕ} (h : g.incPointer upsert maxInd = some (v, g')) :
    v = g.current + 1 ∧ g' = { g with pointer := some (g.current + 1) } ∧
      (g.pointer = none ∨ g.current < maxInd) := by
  unfold Group.incPointer at h
  unfold Group.current
  split at h
  · rename_i hn
    split at h <;> cases h
    simp [hn]
  · rename_i p hp
    split at h <;> cases h
    rename_i hlt
    simp [hp, hlt]

theorem flow_counts {pc : NextPc} {maxInd v : ℕ} {upsert : Bool} (hb : pc.bound = some maxInd)
    (h : g.incPointer upsert maxInd = some (v, g')) : Flow g pc false g' (.inl (.record v maxInd)) := by
  obtain ⟨rfl, rfl, hbelow⟩ := incPointer_cases h
  have hcounts : Counts g pc { g with pointer := some (g.current + 1) }
      (.inl (.record (g.current + 1) maxInd)) := ⟨rfl, ⟨maxInd, hb, hbelow⟩, rfl⟩
  exact {
    data := rfl
    acks := rfl
    inprocess := fun _ h => .inl h
    pointer := .inr ⟨hcounts, by cases pc <;> simp_all [NextPc.bound, pointerValue]⟩
    candidates := fun _ _ => .inr (.inr (.inr hcounts))
    pending := fun _ h => .inr h
    bound := nofun
    answer := nofun }

theorem getUnProcessedId_cases {now delayMs n : ℤ} {choice : Option ℕ} {id : ℕ}
    (h : g.getUnProcessedId now delayMs n choice = some (id, g')) :
    (id = 0 ∨ g.InProcess id) ∧ (∀ i, g'.InProcess i → g.InProcess i) ∧
      g'.data = g.data ∧ g'.acks = g.acks ∧ g'.pointer = g.pointer := by
  unfold Group.getUnProcessedId at h
  split at h
  · split at h <;> cases h
    exact ⟨.inl rfl, fun _ hi => hi, rfl, rfl, rfl⟩
  · split at h <;> cases h
    rename_i hany
    refine ⟨.inr ?_, ?_, rfl, rfl, rfl⟩
    · obtain ⟨record, hm, hr⟩ := List.any_eq_true.mp hany
      simp only [Bool.and_eq_true, decide_eq_true_eq] at hr
      exact ⟨record, hm, hr.1⟩
    · rintro i ⟨record, hm, rfl⟩
      obtain ⟨old, hold, rfl⟩ := List.mem_map.mp hm
      refine ⟨old, hold, ?_⟩
      split <;> rfl

theorem inProcess_insert {now delayMs n : ℤ} {id i : ℕ}
    (h : (g.insertRecordToInprocess now id delayMs n).InProcess i) : g.InProcess i ∨ i = id := by
  unfold Group.insertRecordToInprocess at h
  split at h
  · exact .inl h
  · obtain ⟨record, hm, rfl⟩ := h
    obtain hm | hm := List.mem_append.mp hm
    · exact .inl ⟨record, hm, rfl⟩
    · simp only [List.mem_singleton] at hm
      exact .inr (by rw [hm])

theorem insert_frame {now delayMs n : ℤ} {id : ℕ} :
    (g.insertRecordToInprocess now id delayMs n).data = g.data ∧
      (g.insertRecordToInprocess now id delayMs n).acks = g.acks ∧
      (g.insertRecordToInprocess now id delayMs n).pointer = g.pointer := by
  unfold Group.insertRecordToInprocess
  split <;> simp

theorem flow_taken {phase : Phase} {d n : ℤ} {id : ℕ}
    (h : g.getUnProcessedId tick.now d n tick.choice = some (id, g')) :
    Flow g (.unprocessed phase) tick.fault g'
      (.inl (if id ≠ 0 then .inprocessMax phase id else .noteRead phase)) := by
  obtain ⟨hid, hin, hdata, hacks, hpointer⟩ := getUnProcessedId_cases h
  exact {
    data := hdata
    acks := hacks
    inprocess := fun i hi => .inl (hin i hi)
    pointer := .inl ⟨hpointer, rfl⟩
    candidates := fun i hi => by
      by_cases hz : id = 0 <;> simp_all [candidatesOf, NextPc.candidates]
    pending := fun i hi => .inl (by
      by_cases hz : id = 0 <;> cases phase <;> simp_all [pendingOf, NextPc.pending])
    bound := fun m hm => by by_cases hz : id = 0 <;> simp_all [boundOf, NextPc.bound]
    answer := fun a ha => by by_cases hz : id = 0 <;> simp_all [answerOf] }

theorem flow_quiet {pc pc' : NextPc} {fault : Bool} (h : Quiet g pc pc') :
    Flow g pc fault g (.inl pc') := by
  cases h with
  | search phase | wait phase =>
    apply flow_of_same rfl rfl <;> cases phase <;> simp [candidatesOf, pendingOf, boundOf, answerOf,
      NextPc.candidates, NextPc.pending, NextPc.bound]
  | count hmax =>
    apply flow_of_same rfl rfl <;>
      simp [candidatesOf, pendingOf, boundOf, answerOf, NextPc.candidates, NextPc.pending, NextPc.bound, hmax]
  | noData | again | giveUp | explained =>
    apply flow_of_same rfl rfl <;>
      simp [candidatesOf, pendingOf, boundOf, answerOf, NextPc.candidates, NextPc.pending, NextPc.bound]

theorem flow_inserted {nextInd : ℕ} {answer : ℕ × Record} {d n : ℤ} {fault : Bool} :
    Flow g (.insert nextInd answer) fault (g.insertRecordToInprocess tick.now nextInd d n)
      (.inr (.ok answer)) := by
  obtain ⟨hdata, hacks, hpointer⟩ := insert_frame (g := g)
  exact {
    data := hdata
    acks := hacks
    inprocess := fun i hi => (inProcess_insert hi).imp_right (fun he => ⟨answer, by rw [he]⟩)
    pointer := .inl ⟨hpointer, rfl⟩
    candidates := fun i hi => .inr (.inl hi)
    pending := nofun
    bound := nofun
    answer := fun a ha => .inr ⟨nextInd, by rw [Option.some.inj ha]⟩ }

theorem flow_step {pc : NextPc} (h : pc.step period r tick g = some (g', out)) :
    Flow g pc tick.fault g' out := by
  cases took_of_step h with
  | quiet hq => exact flow_quiet hq
  | refused | failed | unreadOther => exact flow_of_error
  | taken phase _ hu => exact flow_taken hu
  | bounded phase id =>
    exact flow_behindInprocessed rfl (fun _ => rfl) (by simp [NextPc.candidates]) (by cases phase <;> rfl)
  | noted phase => exact flow_behindInprocessed rfl (fun _ => rfl) (.inl rfl) (by cases phase <;> rfl)
  | lost _ hf =>
    apply flow_of_same rfl (by cases pc <;> simp [pointerValue, hf]) <;>
      simp [candidatesOf, pendingOf, boundOf, answerOf, NextPc.candidates, NextPc.pending, NextPc.bound]
  | counted hb hf hi =>
    rw [hf]
    exact flow_counts hb hi
  | unread nextInd maxInd err =>
    apply flow_of_same rfl rfl <;>
      simp [candidatesOf, pendingOf, boundOf, answerOf, NextPc.candidates, NextPc.pending, NextPc.bound]
  | read nextInd maxInd hread | readOther nextInd id maxInd hread =>
    exact flow_behindRecord (fun _ => rfl) (by simp [NextPc.candidates]) (by simp [NextPc.pending])
      (mem_of_getRecordByIDRaw hread)
  | inserted nextInd answer => exact flow_inserted

theorem ack_cases {id : ℕ} {fault : Bool} {pc : AckPc} {res : AckPc ⊕ Except DBError Unit}
    (h : pc.step id fault g = (g', res)) :
    g'.data = g.data ∧ g'.pointer = g.pointer ∧ (∀ i, g'.InProcess i → g.InProcess i) ∧
      (res = .inr (.ok ()) → ¬ g'.InProcess id) := by
  cases pc with
  | insertAck =>
    rw [AckPc.step] at h
    split at h
    · cases h
      exact ⟨rfl, rfl, fun _ hi => hi, nofun⟩
    · split at h <;> cases h <;> exact ⟨rfl, rfl, fun _ hi => hi, nofun⟩
  | deleteInprocess =>
    rw [AckPc.step] at h
    split at h <;> cases h
    · exact ⟨rfl, rfl, fun _ hi => hi, nofun⟩
    · refine ⟨rfl, rfl, ?_, ?_⟩
      · rintro i ⟨record, hm, rfl⟩
        exact ⟨record, (List.mem_filter.mp hm).1, rfl⟩
      · rintro - ⟨record, hm, rfl⟩
        simp at hm

end Asapo.Broker
