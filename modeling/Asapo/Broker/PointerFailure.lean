import Asapo.Broker.SequentialNext

namespace Asapo.Broker.PointerFailure

open NextPc

def isNoData : DBError → Bool
  | .noData _ _ _ => true
  | _ => false

def Failure (answer : Answer) : Prop := ∃ err, answer = .error err ∧ isNoData err = false

def reach (period : ℤ) (r : NextRequest) : List Tick → NextPc → Group → Option (Group × NextPc)
  | [], pc, g => some (g, pc)
  | tick :: ticks, pc, g =>
    match pc.step period r tick g with
    | some (g, .inl pc) => reach period r ticks pc g
    | _ => none

/-- Reading the largest id and the update of the pointer. When its repetition without upsert
fails, `changeField` has the status `StatusNoData`. -/
inductive Failing : NextPc → Prop
  | inprocessMax (phase : Phase) (id : ℕ) : Failing (.inprocessMax phase id)
  | pointerMax : Failing .pointerMax
  | upsert (maxInd : ℕ) : Failing (.upsert maxInd)

/-- No record is returned, the error is not that of missing data, and the id 0 is not put
into the in-process collection. -/
structure Reported (g g' : Group) (answer : Answer) : Prop where
  failure : Failure answer
  inprocess : g'.InProcess 0 → g.InProcess 0

section Conditions

variable (r : NextRequest)

def NoteFails : List Tick → Prop
  | [] => False
  | tick :: _ => r.extraParam ≠ [] ∧ tick.fault = true

/-- A message was found in the in-process collection: its record is an incomplete dataset or
cannot be encoded, or it is read and the note fails. -/
def ReadFails (g : Group) (id : ℕ) : List Tick → Prop
  | [] => False
  | tick :: ticks => tick.fault = false ∧
      ((∃ found, g.getRecordByIDRaw r id g.getMaxIndex = .ok found ∧ NoteFails r ticks) ∨
        ∃ err, g.getRecordByIDRaw r id g.getMaxIndex = .error err ∧ isNoData err = false)

def MaxFails (g : Group) (id : ℕ) : List Tick → Prop
  | [] => False
  | tick :: ticks => tick.fault = true ∨ ReadFails r g id ticks

def SearchFails (g : Group) (err : DBError) : List Tick → Prop
  | [] => False
  | tick :: ticks => tick.fault = true ∨
      ∃ d n id g', resendParams r = some (d, n) ∧ g.getUnProcessedId tick.now d n tick.choice = some (id, g') ∧
        (id = 0 ∧ isNoData err = false ∨ id ≠ 0 ∧ MaxFails r g' id ticks)

/-- What the record with the id 0 is taken to be. -/
def zeroRecord (g : Group) (tick : Tick) : Except DBError Record :=
  if tick.fault then .error (.noData 0 0 []) else g.getRecordByIDRaw r 0 0

/-- The rest of a `next` that asks for the record with the id 0 fails by itself. -/
def ZeroFails (g : Group) : List Tick → Prop
  | [] => False
  | tick :: ticks =>
    (∃ found, zeroRecord r g tick = .ok found ∧ NoteFails r ticks) ∨
      ∃ err, zeroRecord r g tick = .error err ∧ SearchFails r g err ticks.tail

end Conditions

variable {period : ℤ} {r : NextRequest} {g g₀ g' : Group} {tick : Tick} {ticks before : List Tick}
  {pc pc' : NextPc} {answer : Answer} {id v : ℕ} {err : DBError}

theorem failure_error : Failure (.error err) ↔ isNoData err = false :=
  ⟨fun ⟨_, he, hf⟩ => by cases he; exact hf, fun hf => ⟨err, rfl, hf⟩⟩

theorem not_failure_ok (a : ℕ × Record) : ¬ Failure (.ok a) := by
  rintro ⟨_, ⟨⟩, -⟩

theorem run_cons (h : NextPc.run period r ticks pc g = some (g', answer)) :
    ∃ tick rest, ticks = tick :: rest := by
  cases ticks with
  | nil => cases h
  | cons tick rest => exact ⟨tick, rest, rfl⟩

theorem note_iff {a : ℕ × Record} (hparams : (resendParams r).isSome)
    (hstep : pc.step period r tick g = some (g, behindRecord r v a))
    (hrun : NextPc.run period r (tick :: ticks) pc g = some (g', answer)) :
    Failure answer ↔ NoteFails r ticks := by
  unfold behindRecord at hstep
  by_cases hextra : r.extraParam = []
  · rw [if_pos hextra] at hstep
    rw [run_answer hstep] at hrun
    cases hrun
    refine iff_of_false (not_failure_ok a) ?_
    cases ticks <;> simp [NoteFails, hextra]
  · rw [if_neg hextra] at hstep
    rw [run_step hstep] at hrun
    obtain ⟨tick, rest, rfl⟩ := run_cons hrun
    rw [resendParams, if_neg hextra] at hparams
    obtain ⟨⟨d, n⟩, hp⟩ := Option.isSome_iff_exists.mp hparams
    cases hf : tick.fault with
    | true =>
      have hfail : (NextPc.insert v a).step period r tick g = some (g, .inr (.error .other)) := by
        simp [NextPc.step, hp, hf]
      rw [run_answer hfail] at hrun
      cases hrun
      exact iff_of_true (failure_error.mpr rfl) ⟨hextra, hf⟩
    | false =>
      have hok : (NextPc.insert v a).step period r tick g =
          some (g.insertRecordToInprocess tick.now v d n, .inr (.ok a)) := by
        simp [NextPc.step, hp, hf]
      rw [run_answer hok] at hrun
      cases hrun
      exact iff_of_false (not_failure_ok a) (by simp [NoteFails, hf])

theorem read_iff (hparams : (resendParams r).isSome)
    (hrun : NextPc.run period r ticks (.otherRecord 0 id g.getMaxIndex) g = some (g', answer)) :
    Failure answer ↔ ReadFails r g id ticks := by
  obtain ⟨tick, rest, rfl⟩ := run_cons hrun
  cases hf : tick.fault with
  | true =>
    have hstep : (NextPc.otherRecord 0 id g.getMaxIndex).step period r tick g =
        some (g, .inr (.error (.noData id g.getMaxIndex []))) := by
      simp [NextPc.step, hf]
    rw [run_answer hstep] at hrun
    cases hrun
    exact iff_of_false (by simp [failure_error, isNoData]) (by simp [ReadFails, hf])
  | false =>
    cases hread : g.getRecordByIDRaw r id g.getMaxIndex with
    | error err =>
      have hstep : (NextPc.otherRecord 0 id g.getMaxIndex).step period r tick g =
          some (g, .inr (.error err)) := by
        simp [NextPc.step, hf, hread]
      rw [run_answer hstep] at hrun
      cases hrun
      simp [failure_error, ReadFails, hf, hread]
    | ok found =>
      have hstep : (NextPc.otherRecord 0 id g.getMaxIndex).step period r tick g =
          some (g, behindRecord r 0 (id, found)) := by
        simp [NextPc.step, hf, hread]
      rw [note_iff hparams hstep hrun]
      simp [ReadFails, hf, hread]

theorem max_iff (hparams : (resendParams r).isSome) (hid : id ≠ 0)
    (hrun : NextPc.run period r ticks (.inprocessMax (.afterRecord 0 err) id) g = some (g', answer)) :
    Failure answer ↔ MaxFails r g id ticks := by
  obtain ⟨tick, rest, rfl⟩ := run_cons hrun
  cases hf : tick.fault with
  | true =>
    have hstep : (NextPc.inprocessMax (.afterRecord 0 err) id).step period r tick g =
        some (g, .inr (.error .other)) := by
      simp [NextPc.step, hf]
    rw [run_answer hstep] at hrun
    cases hrun
    exact iff_of_true (failure_error.mpr rfl) (.inl hf)
  | false =>
    have hstep : (NextPc.inprocessMax (.afterRecord 0 err) id).step period r tick g =
        some (g, .inl (.otherRecord 0 id g.getMaxIndex)) := by
      simp [NextPc.step, hf, behindInprocessed, hid]
    rw [run_step hstep] at hrun
    rw [read_iff hparams hrun]
    simp [MaxFails, hf]

theorem search_iff (hparams : (resendParams r).isSome)
    (hrun : NextPc.run period r ticks (.unprocessed (.afterRecord 0 err)) g = some (g', answer)) :
    Failure answer ↔ SearchFails r g err ticks := by
  obtain ⟨tick, rest, rfl⟩ := run_cons hrun
  obtain ⟨⟨d, n⟩, hp⟩ := Option.isSome_iff_exists.mp hparams
  cases hf : tick.fault with
  | true =>
    have hstep : (NextPc.unprocessed (.afterRecord 0 err)).step period r tick g =
        some (g, .inr (.error .other)) := by
      simp [NextPc.step, hf]
    rw [run_answer hstep] at hrun
    cases hrun
    exact iff_of_true (failure_error.mpr rfl) (.inl hf)
  | false =>
    cases hu : g.getUnProcessedId tick.now d n tick.choice with
    | none =>
      have hstep : (NextPc.unprocessed (.afterRecord 0 err)).step period r tick g = none := by
        simp [NextPc.step, hf, hp, hu]
      rw [NextPc.run, hstep] at hrun
      cases hrun
    | some x =>
      obtain ⟨id, g₁⟩ := x
      have hcond : SearchFails r g err (tick :: rest) ↔
          id = 0 ∧ isNoData err = false ∨ id ≠ 0 ∧ MaxFails r g₁ id rest := by
        simp [SearchFails, hf, hp, hu]
      rw [hcond]
      by_cases hid : id = 0
      · have hstep : (NextPc.unprocessed (.afterRecord 0 err)).step period r tick g =
            some (g₁, .inl (.noteRead (.afterRecord 0 err))) := by
          simp [NextPc.step, hf, hp, hu, hid]
        rw [run_step hstep] at hrun
        obtain ⟨tick', rest', rfl⟩ := run_cons hrun
        cases hrun
        simp [failure_error, hid]
      · have hstep : (NextPc.unprocessed (.afterRecord 0 err)).step period r tick g =
            some (g₁, .inl (.inprocessMax (.afterRecord 0 err) id)) := by
          simp [NextPc.step, hf, hp, hu, hid]
        rw [run_step hstep] at hrun
        rw [max_iff hparams hid hrun]
        simp [hid]

theorem zero_iff (hparams : (resendParams r).isSome)
    (hrun : NextPc.run period r ticks (.record 0 0) g = some (g', answer)) :
    Failure answer ↔ ZeroFails r g ticks := by
  obtain ⟨tick, rest, rfl⟩ := run_cons hrun
  cases hzero : zeroRecord r g tick with
  | ok found =>
    have hstep : (NextPc.record 0 0).step period r tick g = some (g, behindRecord r 0 (0, found)) := by
      unfold zeroRecord at hzero
      simp [NextPc.step, hzero]
    rw [note_iff hparams hstep hrun]
    simp [ZeroFails, hzero]
  | error err =>
    have hstep : (NextPc.record 0 0).step period r tick g =
        some (g, .inl (.lookUp (.afterRecord 0 err))) := by
      unfold zeroRecord at hzero
      simp [NextPc.step, hzero]
    rw [run_step hstep] at hrun
    obtain ⟨tick', rest', rfl⟩ := run_cons hrun
    obtain ⟨params, hp⟩ := Option.isSome_iff_exists.mp hparams
    have hlook : (NextPc.lookUp (.afterRecord 0 err)).step period r tick' g =
        some (g, .inl (.unprocessed (.afterRecord 0 err))) := by
      simp [NextPc.step, hp, ignoreTimeout]
    rw [run_step hlook] at hrun
    rw [search_iff hparams hrun]
    simp [ZeroFails, hzero]

theorem run_append (h : reach period r before pc g₀ = some (g, pc')) :
    NextPc.run period r (before ++ ticks) pc g₀ = NextPc.run period r ticks pc' g := by
  induction before generalizing pc g₀ with
  | nil =>
    cases h
    rfl
  | cons tick before ih =>
    rw [reach] at h
    split at h
    · rename_i hstep
      rw [List.cons_append, run_step hstep]
      exact ih h
    · cases h

theorem params_of_reach (h : reach period r before (.lookUp .first) g₀ = some (g, pc)) (hpc : pc ≠ .lookUp .first) :
    (resendParams r).isSome := by
  cases before with
  | nil =>
    cases h
    exact absurd rfl hpc
  | cons tick before =>
    cases hp : resendParams r with
    | none => simp [reach, NextPc.step, hp] at h
    | some params => rfl

theorem inProcess_of_step {out : NextPc ⊕ Answer} (h : pc.step period r tick g = some (g', out))
    (hout : ∀ a, out ≠ .inr (.ok a)) {i : ℕ} (hi : g'.InProcess i) : g.InProcess i := by
  obtain hi | ⟨a, rfl⟩ := (flow_step h).inprocess i hi
  · exact hi
  · rw [NextPc.step] at h
    split at h
    · cases h
      exact hi
    · split at h <;> cases h
      · exact hi
      · exact absurd rfl (hout a)

theorem inProcess_of_error (h : NextPc.run period r ticks pc g = some (g', .error err)) {i : ℕ}
    (hi : g'.InProcess i) : g.InProcess i := by
  induction ticks generalizing pc g with
  | nil => cases h
  | cons tick ticks ih =>
    rw [NextPc.run] at h
    split at h
    · cases h
    · rename_i hstep
      exact inProcess_of_step hstep (by rintro _ ⟨⟩) (ih h)
    · rename_i hstep
      cases h
      exact inProcess_of_step hstep (by rintro _ ⟨⟩) hi

/-- A failure to read the largest id or to update the pointer is reported if and only if the
id came from the in-process collection, or the rest of the `next` fails by itself. Otherwise
the error is dropped, and what is answered is that of the record with the id 0 or of some
message in process. -/
theorem pointer_failure_reported_iff (period : ℤ) (r : NextRequest) (g₀ g g' : Group) (pc : NextPc)
    (before after : List Tick) (tick : Tick) (answer : Answer)
    (hreach : reach period r before (.lookUp .first) g₀ = some (g, pc)) (hpc : Failing pc)
    (hfault : tick.fault = true)
    (hrun : NextPc.run period r (before ++ tick :: after) (.lookUp .first) g₀ = some (g', answer)) :
    Reported g₀ g' answer ↔ (∃ phase id, pc = .inprocessMax phase id) ∨ ZeroFails r g after := by
  have hreported : Reported g₀ g' answer ↔ Failure answer := by
    refine ⟨fun h => h.failure, fun h => ⟨h, fun hi => ?_⟩⟩
    obtain ⟨err, rfl, -⟩ := h
    exact inProcess_of_error hrun hi
  have hparams : (resendParams r).isSome := params_of_reach hreach (by rintro rfl; cases hpc)
  have hrest : NextPc.run period r (tick :: after) pc g = some (g', answer) := by
    rw [← run_append hreach]
    exact hrun
  -- behind the pointer the failure is lost and the record with the id 0 is asked for
  have hlost : pc.step period r tick g = some (g, .inl (.record 0 0)) →
      (Failure answer ↔ ZeroFails r g after) := by
    intro hstep
    rw [run_step hstep] at hrest
    exact zero_iff hparams hrest
  rw [hreported]
  cases hpc with
  | inprocessMax phase id =>
    have hstep : (NextPc.inprocessMax phase id).step period r tick g = some (g, .inr (.error .other)) := by
      simp [NextPc.step, hfault]
    rw [run_answer hstep] at hrest
    cases hrest
    exact iff_of_true (failure_error.mpr rfl) (.inl ⟨phase, id, rfl⟩)
  | pointerMax =>
    rw [hlost (by simp [NextPc.step, hfault])]
    simp
  | upsert maxInd =>
    rw [hlost (by simp [NextPc.step, hfault])]
    simp

def oneMessage : Group := ⟨[(1, ⟨.message, text "a", none, none, none⟩)], none, [], [], 0⟩

def calm : Tick := ⟨10000000000, none, false⟩

def failing : Tick := ⟨10000000000, none, true⟩

theorem failure_reported_twice :
    reach 1 ⟨false, 0, []⟩ [calm, calm, calm] (.lookUp .first) oneMessage =
      some ({ oneMessage with lastRead := 10 }, .pointerMax) ∧
    NextPc.run 1 ⟨false, 0, []⟩ [calm, calm, calm, failing, calm, calm, failing] (.lookUp .first) oneMessage =
      some ({ oneMessage with lastRead := 10 }, .error .other) ∧
    (Reported oneMessage { oneMessage with lastRead := 10 } (.error .other) ↔
      (∃ phase id, NextPc.pointerMax = .inprocessMax phase id) ∨
        ZeroFails ⟨false, 0, []⟩ { oneMessage with lastRead := 10 } [calm, calm, failing]) :=
  ⟨by decide, by decide, pointer_failure_reported_iff 1 ⟨false, 0, []⟩ oneMessage { oneMessage with lastRead := 10 }
    { oneMessage with lastRead := 10 } .pointerMax [calm, calm, calm] [calm, calm, failing] failing
    (.error .other) (by decide) .pointerMax rfl (by decide)⟩

theorem failure_dropped :
    ¬ ∀ (period : ℤ) (r : NextRequest) (g₀ g g' : Group) (pc : NextPc) (before after : List Tick) (tick : Tick)
        (answer : Answer),
      reach period r before (.lookUp .first) g₀ = some (g, pc) → Failing pc → tick.fault = true →
      NextPc.run period r (before ++ tick :: after) (.lookUp .first) g₀ = some (g', answer) →
        Reported g₀ g' answer := by
  intro h
  have hreported := h 1 ⟨false, 0, []⟩ oneMessage { oneMessage with lastRead := 10 }
    { oneMessage with lastRead := 10 } .pointerMax [calm, calm, calm] [calm, calm, calm, calm] failing
    (.error (.noData 0 0 [])) (by decide) .pointerMax rfl (by decide)
  exact absurd (failure_error.mp hreported.failure) (by decide)

end Asapo.Broker.PointerFailure
