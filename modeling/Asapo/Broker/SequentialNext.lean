import Asapo.Broker.Flow

namespace Asapo.Broker

open NextPc

/-- A whole `getNextRecord`, with what the clock and the database do at each operation. -/
def NextPc.run (period : ℤ) (r : NextRequest) : List Tick → NextPc → Group → Option (Group × Answer)
  | [], _, _ => none
  | tick :: ticks, pc, g =>
    match pc.step period r tick g with
    | none => none
    | some (g, .inl pc) => run period r ticks pc g
    | some (g, .inr answer) => some (g, answer)

/-- The database does not fail and has no message to choose. -/
structure Tick.Calm (tick : Tick) : Prop where
  fault : tick.fault = false
  choice : tick.choice = none

/-- A client that does not ask for messages to be sent again, and a group without messages
that are being processed. -/
structure Plain (r : NextRequest) (g : Group) : Prop where
  extraParam : r.extraParam = []
  inprocess : g.inprocess = []

/-- The answer of a `next` that nothing comes in between. -/
def Group.nextAnswer (g : Group) (r : NextRequest) : Answer :=
  if g.getMaxIndex = 0 then .error (.noData 0 0 [])
  else if g.pointer = none ∨ g.current < g.getMaxIndex then
    (g.getRecordByIDRaw r (g.current + 1) g.getMaxIndex).map (fun record => (g.current + 1, record))
  else .error (g.errorWhenCannotSetField g.getMaxIndex)

variable {period : ℤ} {r : NextRequest} {g g' : Group} {ticks : List Tick} {tick : Tick} {pc pc' : NextPc}
  {answer : Answer}

structure Enough (n : ℕ) (ticks : List Tick) : Prop where
  calm : ∀ tick ∈ ticks, tick.Calm
  length : n ≤ ticks.length

theorem Enough.cons {n : ℕ} (h : Enough (n + 1) ticks) :
    ∃ tick rest, ticks = tick :: rest ∧ tick.Calm ∧ Enough n rest := by
  cases ticks with
  | nil => exact absurd h.length (by simp)
  | cons tick rest =>
    exact ⟨tick, rest, rfl, h.calm tick List.mem_cons_self,
      fun t ht => h.calm t (List.mem_cons_of_mem tick ht), Nat.le_of_succ_le_succ h.length⟩

theorem Enough.mono {n m : ℕ} (h : Enough n ticks) (hm : m ≤ n) : Enough m ticks :=
  ⟨h.calm, hm.trans h.length⟩

theorem run_step (h : pc.step period r tick g = some (g', .inl pc')) :
    NextPc.run period r (tick :: ticks) pc g = NextPc.run period r ticks pc' g' := by
  rw [NextPc.run, h]

theorem run_answer (h : pc.step period r tick g = some (g', .inr answer)) :
    NextPc.run period r (tick :: ticks) pc g = some (g', answer) := by
  rw [NextPc.run, h]

theorem getUnProcessedId_empty (hg : g.inprocess = []) (now d n : ℤ) :
    g.getUnProcessedId now d n none = some (0, g) := by
  simp [Group.getUnProcessedId, hg]

theorem noteRead_of_unprocessed (h : Plain r g) (ht : tick.Calm) (phase : Phase) :
    (NextPc.unprocessed phase).step period r tick g = some (g, .inl (.noteRead phase)) := by
  simp [NextPc.step, ht.fault, ht.choice, resendParams, h.extraParam, getUnProcessedId_empty h.inprocess]

theorem run_lookUp {n : ℕ} (period : ℤ) (h : Plain r g) (ht : Enough (n + 2) ticks) (phase : Phase) :
    ∃ rest, Enough n rest ∧
      NextPc.run period r ticks (.lookUp phase) g = NextPc.run period r rest (.noteRead phase) g := by
  obtain ⟨tick, rest, rfl, htick, hrest⟩ := ht.cons
  obtain ⟨tick', rest', rfl, htick', hrest'⟩ := hrest.cons
  by_cases hread : g.lastRead ≤ tick.now / 1000000000 - period ∨ ignoreTimeout phase
  · have hstep : (NextPc.lookUp phase).step period r tick g = some (g, .inl (.unprocessed phase)) := by
      simp [NextPc.step, resendParams, h.extraParam, hread]
    exact ⟨rest', hrest', by rw [run_step hstep, run_step (noteRead_of_unprocessed h htick' phase)]⟩
  · have hstep : (NextPc.lookUp phase).step period r tick g = some (g, .inl (.noteRead phase)) := by
      simp [NextPc.step, resendParams, h.extraParam, hread]
    exact ⟨tick' :: rest', ⟨hrest.calm, (Nat.le_succ n).trans hrest.length⟩, by rw [run_step hstep]⟩

theorem run_search {n : ℕ} (period : ℤ) (h : Plain r g) (ht : Enough (n + 3) ticks) :
    ∃ rest lastRead, Enough n rest ∧ NextPc.run period r ticks (.lookUp .first) g =
      NextPc.run period r rest .pointerMax { g with lastRead := lastRead } := by
  obtain ⟨rest, hrest, hrun⟩ := run_lookUp (n := n + 1) period h ht .first
  obtain ⟨tick, rest, rfl, -, hn⟩ := hrest.cons
  refine ⟨rest, tick.now / 1000000000, hn, ?_⟩
  rw [hrun]
  exact run_step rfl

theorem run_error (h : Plain r g) (ht : Enough 3 ticks) {phase : Phase} {err : DBError}
    (hp : phase = .afterNoData err ∨ ∃ nextInd, phase = .afterRecord nextInd err) :
    ∃ g', NextPc.run period r ticks (.lookUp phase) g = some (g', .error err) := by
  obtain ⟨rest, hrest, hrun⟩ := run_lookUp (n := 1) period h ht phase
  obtain ⟨tick, rest, rfl, -, -⟩ := hrest.cons
  refine ⟨{ g with lastRead := tick.now / 1000000000 }, ?_⟩
  rw [hrun]
  obtain rfl | ⟨nextInd, rfl⟩ := hp <;> exact run_answer rfl

theorem run_record (h : Plain r g) (ht : Enough 4 ticks) (nextInd maxInd : ℕ) :
    ∃ g', NextPc.run period r ticks (.record nextInd maxInd) g =
      some (g', (g.getRecordByIDRaw r nextInd maxInd).map (fun record => (nextInd, record))) := by
  obtain ⟨tick, rest, rfl, htick, hrest⟩ := ht.cons
  cases hr : g.getRecordByIDRaw r nextInd maxInd with
  | error err =>
    have hstep : (NextPc.record nextInd maxInd).step period r tick g =
        some (g, .inl (.lookUp (.afterRecord nextInd err))) := by
      simp [NextPc.step, htick.fault, hr]
    rw [run_step hstep]
    exact run_error h hrest (.inr ⟨nextInd, rfl⟩)
  | ok record =>
    have hstep : (NextPc.record nextInd maxInd).step period r tick g =
        some (g, .inr (.ok (nextInd, record))) := by
      simp [NextPc.step, htick.fault, hr, behindRecord, h.extraParam]
    exact ⟨g, run_answer hstep⟩

theorem incPointer_eq (g : Group) (maxInd : ℕ) (h : g.pointer = none ∨ g.current < maxInd) :
    g.incPointer true maxInd = some (g.current + 1, { g with pointer := some (g.current + 1) }) := by
  unfold Group.incPointer Group.current
  cases hp : g.pointer with
  | none => rfl
  | some v =>
    have hlt : v < maxInd := by simpa [Group.current, hp] using h
    simp [hlt]

theorem incPointer_none {upsert : Bool} {maxInd : ℕ} (h : ¬ (g.pointer = none ∨ g.current < maxInd)) :
    g.incPointer upsert maxInd = none := by
  unfold Group.incPointer
  cases hp : g.pointer with
  | none => exact absurd (.inl hp) h
  | some v =>
    have hle : ¬ v < maxInd := fun hlt => h (.inr (by simpa [Group.current, hp] using hlt))
    simp [hle]

theorem run_pointer (h : Plain r g) (ht : Enough 7 ticks) :
    ∃ g', NextPc.run period r ticks .pointerMax g = some (g', g.nextAnswer r) := by
  obtain ⟨tick, rest, rfl, htick, hrest⟩ := ht.cons
  unfold Group.nextAnswer
  by_cases hmax : g.getMaxIndex = 0
  · have hstep : NextPc.pointerMax.step period r tick g =
        some (g, .inl (.lookUp (.afterNoData (.noData 0 0 [])))) := by
      simp [NextPc.step, htick.fault, hmax]
    rw [run_step hstep, if_pos hmax]
    exact run_error h (hrest.mono (by decide)) (.inl rfl)
  · have hstep : NextPc.pointerMax.step period r tick g = some (g, .inl (.upsert g.getMaxIndex)) := by
      simp [NextPc.step, htick.fault, hmax]
    rw [run_step hstep, if_neg hmax]
    obtain ⟨tick', rest', rfl, htick', hrest'⟩ := hrest.cons
    by_cases hlt : g.pointer = none ∨ g.current < g.getMaxIndex
    · have hup : (NextPc.upsert g.getMaxIndex).step period r tick' g =
          some ({ g with pointer := some (g.current + 1) },
            .inl (.record (g.current + 1) g.getMaxIndex)) := by
        simp [NextPc.step, htick'.fault, incPointer_eq g _ hlt]
      rw [run_step hup, if_pos hlt]
      exact run_record (g := { g with pointer := some (g.current + 1) }) ⟨h.extraParam, h.inprocess⟩
        (hrest'.mono (by decide)) _ _
    · have hup : (NextPc.upsert g.getMaxIndex).step period r tick' g =
          some (g, .inl (.retry g.getMaxIndex)) := by
        simp [NextPc.step, htick'.fault, incPointer_none hlt]
      obtain ⟨tick₂, rest₂, rfl, htick₂, hrest₂⟩ := hrest'.cons
      have hre : (NextPc.retry g.getMaxIndex).step period r tick₂ g =
          some (g, .inl (.explain g.getMaxIndex)) := by
        simp [NextPc.step, htick₂.fault, incPointer_none hlt]
      obtain ⟨tick₃, rest₃, rfl, htick₃, hrest₃⟩ := hrest₂.cons
      have hex : (NextPc.explain g.getMaxIndex).step period r tick₃ g =
          some (g, .inl (.lookUp (.afterNoData (g.errorWhenCannotSetField g.getMaxIndex)))) := by
        simp [NextPc.step, htick₃.fault]
      rw [run_step hup, run_step hre, run_step hex, if_neg hlt]
      exact run_error h hrest₃ (.inl rfl)

theorem run_next (period : ℤ) (h : Plain r g) (ht : Enough 10 ticks) :
    ∃ g', NextPc.run period r ticks (.lookUp .first) g = some (g', g.nextAnswer r) := by
  obtain ⟨rest, lastRead, hrest, hrun⟩ := run_search (n := 7) period h ht
  rw [hrun]
  exact run_pointer (g := { g with lastRead := lastRead }) ⟨h.extraParam, h.inprocess⟩ hrest

end Asapo.Broker
