import Asapo.Broker.Flow
import Asapo.Interleaving

namespace Asapo.Broker.Pointer

open Interleaving NextPc Transition

/-- The values that were taken from the pointer are the first ones, each of them once, and
the pointer does not run past the messages. -/
structure Gapless (s : Shared) : Prop where
  once : s.obtained.Nodup
  obtained : ∀ v, v ∈ s.obtained ↔ 1 ≤ v ∧ v ≤ s.group.current
  stored : s.group.current ≤ s.group.getMaxIndex

structure Counted (s : Shared) : Prop where
  obtained : s.obtained = (List.range' 1 s.group.current).reverse
  stored : s.group.current ≤ s.group.getMaxIndex

theorem gapless_of_counted {s : Shared} (h : Counted s) : Gapless s where
  once := by
    rw [h.obtained, List.nodup_reverse]
    exact List.nodup_range'
  obtained v := by
    rw [h.obtained, List.mem_reverse, List.mem_range'_1]
    omega
  stored := h.stored

def Bounded (s : Shared) : Client → Prop
  | .next _ _ pc => ∀ m, pc.bound = some m → m ≠ 0 ∧ m ≤ s.group.getMaxIndex
  | _ => True

variable {s t : Shared} {pc : NextPc} {g' : Group} {out : NextPc ⊕ Answer} {fault : Bool}

theorem bounded_mono (h : s.group.getMaxIndex ≤ t.group.getMaxIndex) {c : Client} (hc : Bounded s c) :
    Bounded t c := by
  cases c with
  | next r barred pc => exact fun m hm => ⟨(hc m hm).1, (hc m hm).2.trans h⟩
  | idle | got | ack => trivial

theorem getMaxIndex_of_data {g : Group} (h : g'.data = g.data) : g'.getMaxIndex = g.getMaxIndex := by
  rw [Group.getMaxIndex, Group.getMaxIndex, h]

theorem counted_of_flow (hs : Counted s) (hb : ∀ m, pc.bound = some m → m ≠ 0 ∧ m ≤ s.group.getMaxIndex)
    (h : Flow s.group pc fault g' out) (ht : t.group = g')
    (ho : t.obtained = (pointerValue fault pc out).toList ++ s.obtained) : Counted t := by
  have hmax := getMaxIndex_of_data h.data
  obtain ⟨hp, hv⟩ | ⟨hc, hv⟩ := h.pointer
  · have hcur : g'.current = s.group.current := by rw [Group.current, Group.current, hp]
    refine ⟨?_, ?_⟩
    · rw [ho, hv, ht, hcur]
      exact hs.obtained
    · rw [ht, hcur, hmax]
      exact hs.stored
  · obtain ⟨maxInd, hbound, hbelow⟩ := hc.below
    obtain ⟨hne, hle⟩ := hb maxInd hbound
    refine ⟨?_, ?_⟩
    · rw [ho, hv, ht, hc.current, hs.obtained, List.range'_1_concat, List.reverse_append, Nat.add_comm]
      rfl
    · rw [ht, hc.current, hmax]
      obtain hn | hlt := hbelow
      · rw [Group.current, hn]
        show 1 ≤ _
        omega
      · omega

theorem bounded_of_flow {pc' : NextPc} (hb : ∀ m, pc.bound = some m → m ≠ 0 ∧ m ≤ s.group.getMaxIndex)
    (h : Flow s.group pc fault g' (.inl pc')) : ∀ m, pc'.bound = some m → m ≠ 0 ∧ m ≤ g'.getMaxIndex := by
  rw [getMaxIndex_of_data h.data]
  intro m hm
  obtain hold | ⟨rfl, hne⟩ := h.bound m hm
  · exact hb m hold
  · exact ⟨hne, Nat.le_refl _⟩

theorem act_counted {period : ℤ} {c m : Client} {a : Action} (hs : Counted s) (hc : Bounded s c)
    (h : act period s c a = some (t, m)) :
    (Counted t ∧ s.group.getMaxIndex ≤ t.group.getMaxIndex) ∧ Bounded t m := by
  cases a with
  | next r =>
    rw [act] at h
    split at h <;> cases h
    exact ⟨⟨hs, Nat.le_refl _⟩, nofun⟩
  | ack id =>
    rw [act] at h
    split at h <;> cases h
    exact ⟨⟨hs, Nat.le_refl _⟩, trivial⟩
  | run tick =>
    cases c with
    | next r barred pc =>
      obtain ⟨⟨g', out⟩, hx, h⟩ := Option.map_eq_some_iff.mp h
      cases h
      have hflow := flow_step hx
      refine ⟨⟨counted_of_flow hs hc hflow rfl rfl, (getMaxIndex_of_data hflow.data).ge⟩, ?_⟩
      cases out with
      | inl pc' => exact bounded_of_flow hc hflow
      | inr answer => trivial
    | ack id apc =>
      have hframe : ∀ {g' : Group} {res : AckPc ⊕ Except DBError Unit} (acked : List ℕ),
          apc.step id tick.fault s.group = (g', res) →
            Counted { s with group := g', acked := acked } ∧ s.group.getMaxIndex ≤ g'.getMaxIndex := by
        intro g' res acked hx
        obtain ⟨hdata, hpointer, -, -⟩ := ack_cases hx
        have hcur : g'.current = s.group.current := by rw [Group.current, Group.current, hpointer]
        have hmax := getMaxIndex_of_data hdata
        exact ⟨⟨by rw [hcur]; exact hs.obtained, by rw [hcur, hmax]; exact hs.stored⟩, hmax.ge⟩
      simp only [act] at h
      split at h <;> rename_i hx <;> cases h <;> exact ⟨hframe _ hx, trivial⟩
    | idle | got => cases h

theorem keeps (period : ℤ) : Keeps (act period) store (fun _ _ _ => True) Counted Bounded where
  own s c a t m hs hc _ h := by
    obtain ⟨⟨ht, -⟩, hm⟩ := act_counted hs hc h
    exact ⟨ht, hm⟩
  other s c k a t m hs hc hk _ h := bounded_mono (act_counted hs hc h).1.2 hk
  world s e t hs h := by
    unfold store at h
    split at h <;> cases h
    have hle : s.group.getMaxIndex ≤ max e.id s.group.getMaxIndex := Nat.le_max_right _ _
    exact ⟨⟨hs.obtained, hs.stored.trans hle⟩, fun k hk => bounded_mono hle hk⟩

/-- In every run of any number of clients, the values that were taken from the pointer of a
group are exactly those up to the pointer, each was taken once, and the pointer stays below
the largest id that was stored. -/
theorem pointer_gapless (n : ℕ) (period : ℤ) (data : List (ℕ × Record))
    (events : List (Event Action Store n)) :
    Always (step (act period) store) (fun s => Gapless s.shared) ⟨fresh data, fun _ => .idle⟩ events := by
  apply always_of_step (fun s hs => gapless_of_counted (Holds.shared hs))
  · exact fun s e t hs h => (keeps period).step s e t hs (by cases e <;> trivial) h
  · exact ⟨⟨rfl, Nat.zero_le _⟩, fun _ => trivial⟩

-- Two clients read the bound before the first message is taken; the second one finds the
-- pointer there already and gets the message that was stored in the meantime.
example :
    let run : Fin 2 → Event Action Store 2 := fun i => .thread i (.run ⟨0, none, false⟩)
    let start : Fin 2 → List (Event Action Store 2) := fun i =>
      .thread i (.next ⟨false, 0, []⟩) :: List.replicate 4 (run i)
    let record : Record := ⟨.message, text "a", none, none, none⟩
    (exec (step (act 0) store) ⟨fresh [(1, record)], fun _ => .idle⟩
      (start 0 ++ [.world ⟨2, record⟩] ++ start 1 ++ [run 0, run 1])).any
        (fun s => s.shared.obtained = [2, 1]) = true := by decide +kernel

end Asapo.Broker.Pointer
