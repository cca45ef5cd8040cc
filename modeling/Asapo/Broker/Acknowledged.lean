import Asapo.Broker.Flow
import Asapo.Interleaving

namespace Asapo.Broker.Acknowledged

open Interleaving NextPc Transition

/-- No client got a record that was acknowledged when its request started. -/
def NotRedelivered {n : ℕ} (s : System Shared Client n) : Prop :=
  ∀ i barred answer, s.threads i = .got barred (.ok answer) → answer.1 ∉ barred

def putBack : Client → Action → Option ℕ
  | .next _ _ (.insert nextInd _), .run tick => if tick.fault then none else some nextInd
  | _, _ => none

/-- A request does not put an id back into the in-process collection whose acknowledgement
has succeeded in the meantime. -/
def PutsBackSafely (s : Shared) (c : Client) (a : Action) : Prop :=
  (putBack c a).all (fun id => id ∉ s.acked) = true

instance (s : Shared) (c : Client) (a : Action) : Decidable (PutsBackSafely s c a) :=
  inferInstanceAs (Decidable (_ = true))

structure Consistent (s : Shared) : Prop where
  data : ∀ x ∈ s.group.data, x.1 ≠ 0
  inprocess : ∀ id, s.group.InProcess id → id ≤ s.group.current
  delivered : ∀ id ∈ s.delivered, id ≠ 0 ∧ id ≤ s.group.current
  acked : ∀ id ∈ s.acked, id ≠ 0 ∧ id ≤ s.group.current ∧ ¬ s.group.InProcess id

structure Unacknowledged (s : Shared) (barred : List ℕ) (pc : NextPc) : Prop where
  known : barred ⊆ s.acked
  candidates : ∀ id ∈ pc.candidates, id ≤ s.group.current ∧ id ∉ barred
  pending : ∀ id ∈ pc.pending, id ≤ s.group.current
  answer : ∀ nextInd answer, pc = .insert nextInd answer → answer.1 ≠ 0

def Follows (s : Shared) : Client → Prop
  | .next _ barred pc => Unacknowledged s barred pc
  | .got barred answer => ∀ a, answer = .ok a → a.1 ∉ barred
  | _ => True

structure Grows (s t : Shared) : Prop where
  acked : s.acked ⊆ t.acked
  current : s.group.current ≤ t.group.current

theorem follows_grows {s t : Shared} (h : Grows s t) {c : Client} (hc : Follows s c) : Follows t c := by
  cases c with
  | next r barred pc =>
    exact {
      known := List.Subset.trans hc.known h.acked
      candidates := fun id hid => ⟨(hc.candidates id hid).1.trans h.current, (hc.candidates id hid).2⟩
      pending := fun id hid => (hc.pending id hid).trans h.current
      answer := hc.answer }
  | idle | got | ack => exact hc

variable {s t : Shared} {g' : Group} {pc : NextPc} {out : NextPc ⊕ Answer} {fault : Bool} {barred : List ℕ}

theorem current_of_flow (h : Flow s.group pc fault g' out) :
    s.group.current ≤ g'.current := by
  obtain ⟨hp, -⟩ | ⟨hc, -⟩ := h.pointer
  · rw [Group.current, Group.current, hp]
  · rw [hc.current]
    exact Nat.le_succ _

/-- An id that a request goes on with was not acknowledged at its start: it was in process,
or it is new. -/
theorem candidates_of_flow (hs : Consistent s) (hu : Unacknowledged s barred pc)
    (h : Flow s.group pc fault g' out) :
    ∀ id ∈ candidatesOf out, id ≤ g'.current ∧ id ∉ barred := by
  intro id hid
  have hcur := current_of_flow h
  obtain rfl | hc | hin | hcounts := h.candidates id hid
  · exact ⟨Nat.zero_le _, fun hb => (hs.acked 0 (hu.known hb)).1 rfl⟩
  · exact ⟨(hu.candidates id hc).1.trans hcur, (hu.candidates id hc).2⟩
  · exact ⟨(hs.inprocess id hin).trans hcur, fun hb => (hs.acked id (hu.known hb)).2.2 hin⟩
  · rw [hcounts.out, List.mem_singleton] at hid
    subst hid
    refine ⟨hcounts.current.ge, fun hb => ?_⟩
    have := (hs.acked _ (hu.known hb)).2.1
    omega

theorem answer_ne_zero (hs : Consistent s) (hu : Unacknowledged s barred pc)
    (h : Flow s.group pc fault g' out) {a : ℕ × Record} (ha : answerOf out = some a) : a.1 ≠ 0 := by
  obtain ⟨x, hx, he⟩ | ⟨nextInd, he⟩ := h.answer a ha
  · exact he ▸ hs.data x hx
  · exact hu.answer nextInd a he

theorem unacknowledged_of_flow (hs : Consistent s) (hu : Unacknowledged s barred pc)
    (h : Flow s.group pc fault g' (.inl pc')) (ht : t.group = g') (ha : t.acked = s.acked) :
    Unacknowledged t barred pc' := by
  have hc := candidates_of_flow hs hu h
  exact {
    known := ha ▸ hu.known
    candidates := ht ▸ hc
    pending := fun id hid => by
      rw [ht]
      obtain hp | hp := h.pending id hid
      · exact (hu.pending id hp).trans (current_of_flow h)
      · exact (hc id hp).1
    answer := fun nextInd answer he => answer_ne_zero hs hu h (by rw [he]; rfl) }

theorem consistent_of_flow (hs : Consistent s) (hu : Unacknowledged s barred pc)
    (hsafe : ∀ nextInd answer, pc = .insert nextInd answer → g'.InProcess nextInd →
      s.group.InProcess nextInd ∨ nextInd ∉ s.acked)
    (h : Flow s.group pc fault g' out) (ht : t.group = g') (ha : t.acked = s.acked)
    (hd : t.delivered = (deliveredId out).toList ++ s.delivered) : Consistent t := by
  have hcur := current_of_flow h
  have hin : ∀ id, g'.InProcess id → id ≤ s.group.current := fun id hid => by
    obtain hold | ⟨answer, rfl⟩ := h.inprocess id hid
    · exact hs.inprocess id hold
    · exact hu.pending id (by simp [NextPc.pending])
  exact {
    data := fun x hx => hs.data x (by rwa [ht, h.data] at hx)
    inprocess := fun id hid => by
      rw [ht] at hid ⊢
      exact (hin id hid).trans hcur
    delivered := fun id hid => by
      rw [hd, List.mem_append, Option.mem_toList] at hid
      rw [ht]
      obtain hid | hid := hid
      · obtain ⟨answer, rfl, rfl⟩ : ∃ answer, out = .inr (.ok answer) ∧ answer.1 = id := by
          unfold deliveredId at hid
          split at hid <;> simp_all
        exact ⟨answer_ne_zero hs hu h rfl, (candidates_of_flow hs hu h _ (by simp [candidatesOf])).1⟩
      · exact ⟨(hs.delivered id hid).1, (hs.delivered id hid).2.trans hcur⟩
    acked := fun id hid => by
      rw [ha] at hid
      obtain ⟨hne, hle, hout⟩ := hs.acked id hid
      refine ⟨hne, ht ▸ hle.trans hcur, fun hid' => ?_⟩
      rw [ht] at hid'
      obtain hold | ⟨answer, rfl⟩ := h.inprocess id hid'
      · exact hout hold
      · exact (hsafe id answer rfl hid').elim hout (fun hn => hn hid) }

/-- The operations of an acknowledgement leave everything in order: what it adds to the
acknowledged ids was delivered and is deleted from the in-process collection. -/
theorem consistent_ack {id : ℕ} {apc : AckPc} {res : AckPc ⊕ Except DBError Unit}
    (hs : Consistent s) (h : apc.step id fault s.group = (g', res)) (ht : t.group = g')
    (hd : t.delivered = s.delivered)
    (ha : t.acked = s.acked ∨ res = .inr (.ok ()) ∧ id ∈ s.delivered ∧ t.acked = id :: s.acked) :
    Consistent t ∧ Grows s t := by
  obtain ⟨hdata, hpointer, hin, hout⟩ := ack_cases h
  have hcur : g'.current = s.group.current := by rw [Group.current, Group.current, hpointer]
  have hacked : ∀ i ∈ t.acked, i ≠ 0 ∧ i ≤ s.group.current ∧ ¬ g'.InProcess i := by
    obtain ha | ⟨hok, hdel, ha⟩ := ha <;> rw [ha]
    · exact fun i hi => ⟨(hs.acked i hi).1, (hs.acked i hi).2.1, fun h => (hs.acked i hi).2.2 (hin i h)⟩
    · rintro i (- | ⟨_, hi⟩)
      · exact ⟨(hs.delivered id hdel).1, (hs.delivered id hdel).2, hout hok⟩
      · exact ⟨(hs.acked i hi).1, (hs.acked i hi).2.1, fun h => (hs.acked i hi).2.2 (hin i h)⟩
  refine ⟨{
    data := fun x hx => hs.data x (by rwa [ht, hdata] at hx)
    inprocess := fun i hi => by
      rw [ht] at hi ⊢
      exact hcur ▸ hs.inprocess i (hin i hi)
    delivered := fun i hi => by
      rw [hd] at hi
      rw [ht, hcur]
      exact hs.delivered i hi
    acked := fun i hi => by
      rw [ht, hcur]
      exact hacked i hi }, ?_, by rw [ht, hcur]⟩
  obtain ha | ⟨-, -, ha⟩ := ha <;> rw [ha]
  · exact List.Subset.refl _
  · exact List.subset_cons_self _ _

variable {period : ℤ} {r : NextRequest} {tick : Tick}

theorem inProcess_put_back {nextInd : ℕ} {answer : ℕ × Record}
    (h : (NextPc.insert nextInd answer).step period r tick s.group = some (g', out))
    (hf : tick.fault = true) (hin : g'.InProcess nextInd) : s.group.InProcess nextInd := by
  rw [NextPc.step] at h
  split at h
  · cases h
    exact hin
  · simp only [hf, if_true] at h
    cases h
    exact hin

theorem run_next (hs : Consistent s) (hu : Unacknowledged s barred pc)
    (hsafe : PutsBackSafely s (.next r barred pc) (.run tick))
    (h : pc.step period r tick s.group = some (g', out)) (ht : t.group = g') (ha : t.acked = s.acked)
    (hd : t.delivered = (deliveredId out).toList ++ s.delivered) :
    (Consistent t ∧ Grows s t) ∧ Follows t (answered barred r out) := by
  have hflow := flow_step h
  have hback : ∀ nextInd answer, pc = .insert nextInd answer → g'.InProcess nextInd →
      s.group.InProcess nextInd ∨ nextInd ∉ s.acked := by
    rintro nextInd answer rfl hin
    cases hf : tick.fault with
    | true => exact .inl (inProcess_put_back h hf hin)
    | false => exact .inr (by simpa [PutsBackSafely, putBack, hf] using hsafe)
  refine ⟨⟨consistent_of_flow hs hu hback hflow ht ha hd, ?_, ?_⟩, ?_⟩
  · rw [ha]
    exact List.Subset.refl _
  · rw [ht]
    exact current_of_flow hflow
  · cases out with
    | inl pc' => exact unacknowledged_of_flow hs hu hflow ht ha
    | inr answer =>
      rintro a rfl
      exact (candidates_of_flow hs hu hflow a.1 (by simp [candidatesOf])).2

theorem act_keeps {c m : Client} {a : Action} (hs : Consistent s) (hc : Follows s c)
    (hsafe : PutsBackSafely s c a) (h : act period s c a = some (t, m)) :
    (Consistent t ∧ Grows s t) ∧ Follows t m := by
  have hrefl : Grows s s := ⟨List.Subset.refl _, Nat.le_refl _⟩
  cases a with
  | next r =>
    rw [act] at h
    split at h <;> cases h
    refine ⟨⟨hs, hrefl⟩, List.Subset.refl _, ?_, ?_, nofun⟩ <;>
      simp [NextPc.candidates, NextPc.pending]
  | ack id =>
    rw [act] at h
    split at h <;> cases h
    exact ⟨⟨hs, hrefl⟩, trivial⟩
  | run tick =>
    cases c with
    | next r barred pc =>
      obtain ⟨⟨g', out⟩, hx, h⟩ := Option.map_eq_some_iff.mp h
      cases h
      exact run_next hs hc hsafe hx rfl rfl rfl
    | ack id apc =>
      simp only [act] at h
      split at h <;> rename_i hx <;> cases h
      · exact ⟨consistent_ack hs hx rfl rfl (.inl rfl), trivial⟩
      · exact ⟨consistent_ack hs hx rfl rfl (.inl rfl), trivial⟩
      · refine ⟨consistent_ack hs hx rfl rfl ?_, trivial⟩
        split
        · rename_i hdel
          exact .inr ⟨rfl, hdel, rfl⟩
        · exact .inl rfl
    | idle | got => cases h

theorem keeps (period : ℤ) : Keeps (act period) store PutsBackSafely Consistent Follows where
  own s c a t m hs hc hsafe h := by
    obtain ⟨⟨ht, -⟩, hm⟩ := act_keeps hs hc hsafe h
    exact ⟨ht, hm⟩
  other s c k a t m hs hc hk hsafe h := follows_grows (act_keeps hs hc hsafe h).1.2 hk
  world s e t hs h := by
    unfold store at h
    split at h <;> cases h
    rename_i hid
    refine ⟨⟨?_, hs.inprocess, hs.delivered, hs.acked⟩, fun k hk => ?_⟩
    · rintro x (- | ⟨_, hx⟩)
      · exact hid
      · exact hs.data x hx
    · have hg : Grows s { s with group := { s.group with data := (e.id, e.record) :: s.group.data } } :=
        ⟨List.Subset.refl _, Nat.le_refl _⟩
      exact follows_grows hg hk

/-- In every run whose requests do not put back acknowledged ids, a record that was
returned and acknowledged is not returned to a request that starts later. -/
theorem not_redelivered_of_safe (n : ℕ) (period : ℤ) (data : List (ℕ × Record))
    (events : List (Event Action Store n)) (hdata : ∀ x ∈ data, x.1 ≠ 0)
    (hsafe : Along (step (act period) store) (OnThreads PutsBackSafely) ⟨fresh data, fun _ => .idle⟩
      events) :
    Always (step (act period) store) NotRedelivered ⟨fresh data, fun _ => .idle⟩ events := by
  apply (keeps period).always
  · intro s hs i barred answer hi
    have hf := hs.threads i
    rw [hi] at hf
    exact hf answer rfl
  · exact ⟨⟨hdata, nofun, nofun, nofun⟩, fun _ => trivial⟩
  · exact hsafe

def resendRequest : NextRequest := ⟨false, 0, text "0_5"⟩

def someRecord : Record := ⟨.message, text "a", none, none, none⟩

section Runs

variable {n : ℕ} (i : Fin n)

def runs (choices : List (Option ℕ)) : List (Event Action Store n) :=
  choices.map (fun choice => .thread i (.run ⟨0, choice, false⟩))

def nextFromPointer : List (Event Action Store n) :=
  .thread i (.next resendRequest) :: runs i (List.replicate 7 none)

def nextPicks (id : ℕ) : List (Event Action Store n) :=
  .thread i (.next resendRequest) :: runs i [none, some id, none]

def acknowledges (id : ℕ) : List (Event Action Store n) :=
  .thread i (.ack id) :: runs i [none, none]

end Runs

theorem not_redelivered_sequential :
    Always (step (act 0) store) NotRedelivered ⟨fresh [(1, someRecord)], fun _ => .idle⟩
      (nextFromPointer (0 : Fin 2) ++ nextPicks 1 1 ++ runs 1 [none, none] ++ acknowledges 0 1 ++
        [.world ⟨2, someRecord⟩] ++ nextFromPointer 1) :=
  not_redelivered_of_safe 2 0 _ _ (by decide) (by decide +kernel)

def gotBarred : Client → Bool
  | .got barred (.ok answer) => decide (answer.1 ∈ barred)
  | _ => false

theorem redelivered :
    ¬ ∀ (n : ℕ) (period : ℤ) (data : List (ℕ × Record)) (events : List (Event Action Store n)),
      (∀ x ∈ data, x.1 ≠ 0) →
        Always (step (act period) store) NotRedelivered ⟨fresh data, fun _ => .idle⟩ events := by
  intro h
  have hrun : (exec (step (act 0) store) ⟨fresh [(1, someRecord)], fun _ => .idle⟩
      (nextFromPointer (0 : Fin 2) ++ nextPicks 1 1 ++ acknowledges 0 1 ++ runs 1 [none, none] ++
        nextPicks 0 1 ++ runs 0 [none, none])).any (fun t => gotBarred (t.threads 0)) = true := by
    decide +kernel
  obtain ⟨t, ht, hx⟩ := (Option.any_eq_true _ _).mp hrun
  have hp := always_exec _ t _ (h 2 0 _ _ (by decide)) ht
  unfold gotBarred at hx
  split at hx
  · rename_i barred answer hgot
    exact hp 0 barred answer hgot (of_decide_eq_true hx)
  · cases hx

end Asapo.Broker.Acknowledged
