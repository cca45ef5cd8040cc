import Asapo.Broker.NextRecord
import Asapo.Interleaving

namespace Asapo.Broker

/-- The filter of `maxIndexQuery` on a document. Without an array of messages the
expression of the filter has no value. -/
def maxIndexQuery (r : NextRequest) (returnIncomplete : Bool) (record : Record) : Option Bool :=
  if r.datasetOp && !returnIncomplete then
    if record.name = Group.finishStreamKeyword then some true
    else record.messages.map (fun n =>
      if r.minDatasetSize > 0 then r.minDatasetSize ≤ n else record.size = some n)
  else some true

/-- The documents are looked at in their order, up to the first one that matches. -/
def firstMatch (r : NextRequest) (returnIncomplete : Bool) : List (ℕ × Record) → Except DBError ℕ
  | [] => .ok 0
  | (id, record) :: rest =>
    match maxIndexQuery r returnIncomplete record with
    | none => .error .other
    | some true => .ok id
    | some false => firstMatch r returnIncomplete rest

namespace GroupedLast

structure State where
  group : Group
  last : Option ℕ

def getMaxIndex (r : NextRequest) (g : Group) : Except DBError ℕ :=
  firstMatch r false (g.data.mergeSort (fun x y => y.1 ≤ x.1))

/-- `FindOneAndUpdate` of the last message, which must be below the maximum. Without the
document and with upsert it is created; otherwise nothing is found, or the key is there
already. -/
def setLast (s : State) (upsert : Bool) (maxInd : ℕ) : Option State :=
  match s.last with
  | none => if upsert then some { s with last := some maxInd } else none
  | some v => if v < maxInd then some { s with last := some maxInd } else none

inductive Pc where
  | maxIndex
  | upsert (maxInd : ℕ)
  | retry (maxInd : ℕ)
  | explain (maxInd : ℕ)
  | record (maxInd : ℕ)
  deriving DecidableEq, Repr

def Pc.step (r : NextRequest) (fault : Bool) (s : State) : Pc → State × (Pc ⊕ Answer)
  | .maxIndex =>
    if fault then (s, .inr (.error .other))
    else
      match getMaxIndex r s.group with
      | .error err => (s, .inr (.error err))
      | .ok maxInd => (s, .inl (.upsert maxInd))
  | .upsert maxInd =>
    if fault then (s, .inr (.error .other))
    else
      match setLast s true maxInd with
      | some s => (s, .inl (.record maxInd))
      | none => (s, .inl (.retry maxInd))
  | .retry maxInd =>
    if fault then (s, .inl (.explain maxInd))
    else
      match setLast s false maxInd with
      | some s => (s, .inl (.record maxInd))
      | none => (s, .inl (.explain maxInd))
  | .explain maxInd =>
    (s, .inr (.error (if fault then .noData maxInd maxInd [] else s.group.errorWhenCannotSetField maxInd)))
  | .record maxInd =>
    if fault then (s, .inr (.error (.noData maxInd maxInd [])))
    else (s, .inr ((s.group.getRecordByIDRaw r maxInd maxInd).map (fun record => (maxInd, record))))

inductive Client where
  | idle
  | running (r : NextRequest) (pc : Pc)

/-- The database, with the changes of the last message so far, each as the value before it
and the value after it, and the ids that were returned. -/
structure Shared where
  state : State
  changes : List (Option ℕ × ℕ)
  returned : List ℕ

inductive Action where
  | start (r : NextRequest)
  | run (fault : Bool)

def returnedId : Pc ⊕ Answer → Option ℕ
  | .inr (.ok answer) => some answer.1
  | _ => none

def change (s : State) : Pc → Pc ⊕ Answer → Option (Option ℕ × ℕ)
  | .upsert _, .inl (.record maxInd) | .retry _, .inl (.record maxInd) => some (s.last, maxInd)
  | _, _ => none

def after (r : NextRequest) : Pc ⊕ Answer → Client
  | .inl pc => .running r pc
  | .inr _ => .idle

def act (s : Shared) : Client → Action → Option (Shared × Client)
  | .idle, .start r => some (s, .running r .maxIndex)
  | .running r pc, .run fault =>
    let (t, out) := pc.step r fault s.state
    some (⟨t, (change s.state pc out).toList ++ s.changes, (returnedId out).toList ++ s.returned⟩, after r out)
  | _, _ => none

/-- A message is stored, or one is added to a dataset, which replaces its document. -/
def store (s : Shared) (e : Store) : Option Shared :=
  let data := (e.id, e.record) :: s.state.group.data.filter (fun x => x.1 ≠ e.id)
  some { s with state := { s.state with group := { s.state.group with data := data } } }

def initial (g : Group) (last : Option ℕ) : Shared := ⟨⟨g, last⟩, [], []⟩

/-- What an operation does: it changes the last message and goes on to read the record, it
returns the record, or it does neither. -/
inductive Stepped (s : State) : Pc → State → Pc ⊕ Answer → Prop
  | created (maxInd : ℕ) (absent : s.last = none) :
      Stepped s (.upsert maxInd) { s with last := some maxInd } (.inl (.record maxInd))
  | raised (pc : Pc) (v maxInd : ℕ) (from_ : pc = .upsert maxInd ∨ pc = .retry maxInd)
      (old : s.last = some v) (less : v < maxInd) :
      Stepped s pc { s with last := some maxInd } (.inl (.record maxInd))
  | found (maxInd : ℕ) (record : Record) :
      Stepped s (.record maxInd) s (.inr (.ok (maxInd, record)))
  | failed (pc : Pc) (err : DBError) : Stepped s pc s (.inr (.error err))
  | goOn (pc pc' : Pc) (notRecord : ∀ maxInd, pc' ≠ .record maxInd) : Stepped s pc s (.inl pc')

theorem setLast_cases {s t : State} {upsert : Bool} {maxInd : ℕ} (h : setLast s upsert maxInd = some t) :
    t = { s with last := some maxInd } ∧
      (s.last = none ∧ upsert = true ∨ ∃ v, s.last = some v ∧ v < maxInd) := by
  unfold setLast at h
  split at h
  · rename_i hl
    split at h <;> cases h
    rename_i hu
    exact ⟨rfl, .inl ⟨hl, hu⟩⟩
  · rename_i v hl
    split at h <;> cases h
    rename_i hlt
    exact ⟨rfl, .inr ⟨v, hl, hlt⟩⟩

theorem step_cases {r : NextRequest} {fault : Bool} {s t : State} {pc : Pc} {out : Pc ⊕ Answer}
    (h : pc.step r fault s = (t, out)) : Stepped s pc t out := by
  cases pc with
  | maxIndex =>
    simp only [Pc.step] at h
    split at h
    · cases h
      exact .failed _ _
    · split at h <;> cases h
      · exact .failed _ _
      · exact .goOn _ _ (by rintro _ ⟨⟩)
  | upsert maxInd =>
    simp only [Pc.step] at h
    split at h
    · cases h
      exact .failed _ _
    · split at h
      · rename_i u hu
        obtain ⟨hset, ⟨hn, -⟩ | ⟨v, hv, hlt⟩⟩ := setLast_cases hu <;> cases h <;> rw [hset]
        · exact .created maxInd hn
        · exact .raised _ v maxInd (.inl rfl) hv hlt
      · cases h
        exact .goOn _ _ (by rintro _ ⟨⟩)
  | retry maxInd =>
    simp only [Pc.step] at h
    split at h
    · cases h
      exact .goOn _ _ (by rintro _ ⟨⟩)
    · split at h
      · rename_i u hu
        obtain ⟨hset, ⟨-, hup⟩ | ⟨v, hv, hlt⟩⟩ := setLast_cases hu <;> cases h
        · cases hup
        · rw [hset]
          exact .raised _ v maxInd (.inr rfl) hv hlt
      · cases h
        exact .goOn _ _ (by rintro _ ⟨⟩)
  | explain maxInd =>
    cases h
    exact .failed _ _
  | record maxInd =>
    simp only [Pc.step] at h
    split at h
    · cases h
      exact .failed _ _
    · cases hr : s.group.getRecordByIDRaw r maxInd maxInd with
      | error err =>
        rw [hr] at h
        cases h
        exact .failed _ _
      | ok record =>
        rw [hr] at h
        cases h
        exact .found maxInd record

def Client.holds : Client → Option ℕ
  | .running _ (.record maxInd) => some maxInd
  | _ => none

def Shared.values (s : Shared) : List ℕ := s.changes.map Prod.snd

/-- Every change but a creation raises the last message, and no id is returned twice. -/
structure Strict (s : Shared) : Prop where
  raised : ∀ c ∈ s.changes, ∀ v, c.1 = some v → v < c.2
  once : s.returned.Nodup

/-- The values that were set are different, at most the present one, and contain what was
returned. -/
structure Inv (s : Shared) : Prop extends Strict s where
  values : s.values.Nodup
  below : ∀ m ∈ s.values, ∃ v, s.state.last = some v ∧ m ≤ v
  returned : ∀ id ∈ s.returned, id ∈ s.values

def Own (s : Shared) (c : Client) : Prop := ∀ m, c.holds = some m → m ∈ s.values ∧ m ∉ s.returned

def Differ (c k : Client) : Prop := ∀ m, c.holds = some m → k.holds ≠ some m

theorem inv_changed {s : Shared} {maxInd : ℕ} (h : Inv s)
    (hlast : s.state.last = none ∨ ∃ v, s.state.last = some v ∧ v < maxInd) :
    maxInd ∉ s.values ∧
      Inv ⟨{ s.state with last := some maxInd }, (s.state.last, maxInd) :: s.changes, s.returned⟩ := by
  have hnew : ∀ m ∈ s.values, m < maxInd := by
    intro m hm
    obtain ⟨v, hv, hle⟩ := h.below m hm
    obtain hn | ⟨w, hw, hlt⟩ := hlast
    · simp [hn] at hv
    · rw [hw, Option.some.injEq] at hv
      omega
  have hfresh : maxInd ∉ s.values := fun hm => lt_irrefl _ (hnew maxInd hm)
  refine ⟨hfresh, ⟨⟨?_, h.once⟩, ?_, ?_, ?_⟩⟩
  · intro c hc v hv
    rw [List.mem_cons] at hc
    obtain rfl | hc := hc
    · obtain hn | ⟨w, hw, hlt⟩ := hlast
      · simp [hn] at hv
      · rw [hw, Option.some.injEq] at hv
        exact hv ▸ hlt
    · exact h.raised c hc v hv
  · exact List.nodup_cons.mpr ⟨hfresh, h.values⟩
  · intro m hm
    obtain rfl | hm := List.mem_cons.mp hm
    · exact ⟨m, rfl, le_refl m⟩
    · exact ⟨maxInd, rfl, (hnew m hm).le⟩
  · exact fun id hid => List.mem_cons_of_mem _ (h.returned id hid)

structure After (s t : Shared) (c m : Client) : Prop where
  inv : Inv t
  own : Own t m
  values : ∀ v ∈ s.values, v ∈ t.values
  returned : ∀ id ∈ t.returned, id ∈ s.returned ∨ c.holds = some id
  new : ∀ v, m.holds = some v → v ∉ s.values

theorem After.of_quiet {s : Shared} {c m : Client} (hs : Inv s) (hm : m.holds = none) : After s s c m where
  inv := hs
  own v hv := by simp [hm] at hv
  values v hv := hv
  returned id hid := .inl hid
  new v hv := by simp [hm] at hv

theorem after_changed {s : Shared} {c : Client} {r : NextRequest} {maxInd : ℕ} (hs : Inv s)
    (hlast : s.state.last = none ∨ ∃ v, s.state.last = some v ∧ v < maxInd) :
    After s ⟨{ s.state with last := some maxInd }, (s.state.last, maxInd) :: s.changes, s.returned⟩ c
      (.running r (.record maxInd)) := by
  obtain ⟨hfresh, hinv⟩ := inv_changed hs hlast
  refine ⟨hinv, ?_, fun v hv => List.mem_cons_of_mem _ hv, fun id hid => .inl hid, ?_⟩
  · rintro _ ⟨⟩
    exact ⟨List.mem_cons_self, fun hr => hfresh (hs.returned _ hr)⟩
  · rintro _ ⟨⟩
    exact hfresh

theorem after_act {s t : Shared} {c m : Client} {a : Action} (hs : Inv s) (hc : Own s c)
    (h : act s c a = some (t, m)) : After s t c m := by
  cases c with
  | idle =>
    cases a with
    | start r =>
      cases h
      exact .of_quiet hs rfl
    | run fault => cases h
  | running r pc =>
    cases a with
    | start r => cases h
    | run fault =>
      simp only [act] at h
      cases hp : pc.step r fault s.state with
      | mk u out =>
        rw [hp] at h
        cases h
        cases step_cases hp with
        | created maxInd habsent => exact after_changed hs (.inl habsent)
        | raised _ v maxInd hfrom hold hlt =>
          have hafter := after_changed (c := .running r pc) (r := r) hs (.inr ⟨v, hold, hlt⟩)
          obtain rfl | rfl := hfrom <;> exact hafter
        | found maxInd record =>
          obtain ⟨hset, hnot⟩ := hc maxInd rfl
          refine ⟨⟨⟨hs.raised, List.nodup_cons.mpr ⟨hnot, hs.once⟩⟩, hs.values, hs.below, ?_⟩, ?_, ?_, ?_, ?_⟩
          · intro id hid
            obtain rfl | hid := List.mem_cons.mp hid
            · exact hset
            · exact hs.returned id hid
          · rintro _ ⟨⟩
          · exact fun v hv => hv
          · intro id hid
            obtain rfl | hid := List.mem_cons.mp hid
            · exact .inr rfl
            · exact .inl hid
          · rintro _ ⟨⟩
        | failed _ err =>
          have hchange : change s.state pc (.inr (.error err)) = none := by cases pc <;> rfl
          rw [hchange]
          exact .of_quiet hs rfl
        | goOn _ pc' hpc' =>
          have hchange : change s.state pc (.inl pc') = none := by
            cases pc' with
            | record maxInd => exact absurd rfl (hpc' maxInd)
            | _ => cases pc <;> rfl
          have hholds : (Client.running r pc').holds = none := by
            cases pc' with
            | record maxInd => exact absurd rfl (hpc' maxInd)
            | _ => rfl
          rw [hchange]
          exact .of_quiet hs hholds

open Interleaving Transition

theorem keepsApart : KeepsApart act store (fun _ _ _ => True) Inv Own Differ where
  symm c k h m hk hc := h m hc hk
  own s c a t m hs hc _ h := ⟨(after_act hs hc h).inv, (after_act hs hc h).own⟩
  other s c k a t m hs hc hk hd _ h := by
    have ha := after_act hs hc h
    refine ⟨fun v hv => ⟨ha.values v (hk v hv).1, fun hr => ?_⟩, fun v hv hkv => ha.new v hv (hk v hkv).1⟩
    obtain hr | hr := ha.returned v hr
    · exact (hk v hv).2 hr
    · exact hd v hr hv
  world s e t hs h := by
    cases h
    exact ⟨⟨⟨hs.raised, hs.once⟩, hs.values, hs.below, hs.returned⟩, fun k hk => hk⟩

theorem last_le_of_act {s t : Shared} {c m : Client} {a : Action} (h : act s c a = some (t, m)) :
    ∀ v, s.state.last = some v → ∃ w, t.state.last = some w ∧ v ≤ w := by
  intro v hv
  cases c with
  | idle =>
    cases a <;> cases h
    exact ⟨v, hv, le_refl v⟩
  | running r pc =>
    cases a with
    | start r => cases h
    | run fault =>
      simp only [act] at h
      cases hp : pc.step r fault s.state with
      | mk u out =>
        rw [hp] at h
        cases h
        cases step_cases hp with
        | created maxInd habsent => simp [habsent] at hv
        | raised _ w maxInd hfrom hold hlt =>
          rw [hold, Option.some.injEq] at hv
          exact ⟨maxInd, rfl, by omega⟩
        | found | failed | goOn => exact ⟨v, hv, le_refl v⟩

theorem last_le_of_step {n : ℕ} {s t : System Shared Client n} {e : Event Action Store n}
    (h : step act store s e = some t) :
    ∀ v, s.shared.state.last = some v → ∃ w, t.shared.state.last = some w ∧ v ≤ w := by
  cases e with
  | world e =>
    cases h
    exact fun v hv => ⟨v, hv, le_refl v⟩
  | thread i a =>
    obtain ⟨⟨u, m⟩, hx, rfl⟩ := Option.map_eq_some_iff.mp h
    exact last_le_of_act hx

theorem last_le_of_exec {n : ℕ} {s t : System Shared Client n} (events : List (Event Action Store n))
    (h : exec (step act store) s events = some t) :
    ∀ v, s.shared.state.last = some v → ∃ w, t.shared.state.last = some w ∧ v ≤ w := by
  induction events generalizing s with
  | nil =>
    cases h
    exact fun v hv => ⟨v, hv, le_refl v⟩
  | cons e events ih =>
    obtain ⟨u, hu, h⟩ := Option.bind_eq_some_iff.mp h
    intro v hv
    obtain ⟨w, hw, hle⟩ := last_le_of_step hu v hv
    obtain ⟨x, hx, hle'⟩ := ih h w hw
    exact ⟨x, hx, hle.trans hle'⟩

/-- Between any two points of a run the last message of the group does not go back, every
change but a creation raises it, and no id is returned twice. -/
theorem groupedlast_strict (n : ℕ) (g : Group) (last : Option ℕ) (events : List (Event Action Store n)) :
    Always (step act store)
      (fun s => Strict s.shared ∧ ∀ more t, exec (step act store) s more = some t →
        ∀ v, s.shared.state.last = some v → ∃ w, t.shared.state.last = some w ∧ v ≤ w)
      ⟨initial g last, fun _ => .idle⟩ events := by
  apply always_of_step (fun s (hs : HoldsApart Inv Own Differ s) =>
    ⟨hs.shared.toStrict, fun more t ht => last_le_of_exec more ht⟩)
  · exact fun s e t hs h => keepsApart.step s e t hs (by cases e <;> trivial) h
  · refine ⟨⟨⟨⟨?_, List.nodup_nil⟩, List.nodup_nil, ?_, ?_⟩, ?_⟩, ?_⟩
    · rintro c ⟨⟩
    · rintro m ⟨⟩
    · rintro id ⟨⟩
    · rintro i m ⟨⟩
    · rintro i j - m ⟨⟩

-- Two clients read the same maximum, and only the first one gets the record.
example :
    let record : Record := ⟨.message, text "a", none, none, none⟩
    let start : Fin 2 → List (Event Action Store 2) := fun i =>
      [.thread i (.start ⟨false, 0, []⟩), .thread i (.run false)]
    let go : Fin 2 → List (Event Action Store 2) := fun i => List.replicate 3 (.thread i (.run false))
    (exec (step act store) ⟨initial ⟨[(1, record)], none, [], [], 0⟩ none, fun _ => .idle⟩
      (start 0 ++ start 1 ++ (go 0).take 2 ++ go 1)).any
        (fun s => s.shared.returned = [1] ∧ s.shared.state.last = some 1) = true := by decide +kernel

end GroupedLast

end Asapo.Broker
