import Asapo.Broker.HandedOut

namespace Asapo.Broker

namespace Group

def setCounter (g : Group) (ind : ℕ) : Group := { g with pointer := some ind }

/-- `resetCounter`, with the failures of its two operations on the database. A value below 0
is outside of the model of a group. -/
def resetCounter (extraParam : Text) (setFails : Bool) (deleteFails : Option String) (g : Group) :
    Option (Group × Except DBError Unit) :=
  match atoi extraParam with
  | none => some (g, .error .other)
  | some (.negSucc _) => none
  | some (.ofNat id) =>
    if setFails then some (g, .error .other)
    else
      match deleteFails with
      | some message => some (g.setCounter id, .error (.wrongInput message))
      | none =>
        some ({ g.setCounter id with inprocess := g.inprocess.filter (fun record => ¬ id ≤ record.id) }, .ok ())

end Group

namespace ResetCounter

open HandedOut HandedOut.State Transition

variable {g g' : Group} {v : ℕ} {extraParam : Text} {setFails : Bool} {deleteFails : Option String}

theorem resetCounter_ok (hv : atoi extraParam = some (v : ℤ))
    (h : g.resetCounter extraParam setFails deleteFails = some (g', .ok ())) :
    g'.pointer = some v ∧ ∀ id, g'.InProcess id ↔ g.InProcess id ∧ id < v := by
  unfold Group.resetCounter at h
  rw [hv] at h
  cases setFails with
  | true => cases h
  | false =>
    cases deleteFails with
    | some message => cases h
    | none =>
      cases h
      refine ⟨rfl, fun id => ?_⟩
      constructor
      · rintro ⟨found, hm, rfl⟩
        obtain ⟨hm, hlt⟩ := List.mem_filter.mp hm
        exact ⟨⟨found, hm, rfl⟩, by simpa using hlt⟩
      · rintro ⟨⟨found, hm, rfl⟩, hlt⟩
        exact ⟨found, List.mem_filter.mpr ⟨hm, by simpa using hlt⟩, rfl⟩

/-- A reset loses none of the messages in process if and only if the message at the new
position of the pointer is not one of them: it is deleted, and `next` goes on behind it. -/
theorem reset_keeps_iff (g g' : Group) (v : ℕ) (extraParam : Text) (setFails : Bool) (deleteFails : Option String)
    (hv : atoi extraParam = some (v : ℤ))
    (h : g.resetCounter extraParam setFails deleteFails = some (g', .ok ())) :
    g'.pointer = some v ∧ ((∀ id, g.InProcess id → g'.InProcess id ∨ v < id) ↔ ¬ g.InProcess v) := by
  obtain ⟨hptr, hin⟩ := resetCounter_ok hv h
  refine ⟨hptr, fun hall hmem => ?_, fun hnot id hid => ?_⟩
  · obtain hk | hlt := hall v hmem
    · exact lt_irrefl v ((hin v).mp hk).2
    · exact lt_irrefl v hlt
  · have hne : id ≠ v := fun he => hnot (he ▸ hid)
    by_cases hlt : id < v
    · exact .inl ((hin id).mpr ⟨hid, hlt⟩)
    · exact .inr (by omega)

def firstHandedOut : State where
  group := ⟨[(1, message), (2, message)], some 1, [⟨1, 5, 0, 10000000000⟩], [], 10⟩
  underway := none
  returned := [1]
  named := []

def firstEvents : List Event := .next ⟨false, 0, text "0_5"⟩ :: operations (List.replicate 7 none)

theorem reset_keeps_start :
    atoi (text "0") = some ((0 : ℕ) : ℤ) ∧
    ∃ g', firstHandedOut.group.resetCounter (text "0") false none = some (g', .ok ()) ∧ g'.pointer = some 0 ∧
      ((∀ id, firstHandedOut.group.InProcess id → g'.InProcess id ∨ 0 < id) ↔
        ¬ firstHandedOut.group.InProcess 0) :=
  ⟨by decide, _, rfl, reset_keeps_iff firstHandedOut.group _ 0 (text "0") false none (by decide) rfl⟩

theorem reset_loses :
    ¬ ∀ (period : ℤ) (data : List (ℕ × Record)) (events : List Event) (s : State) (g' : Group) (v : ℕ)
        (extraParam : Text),
      exec (State.step period) (initial data) events = some s → atoi extraParam = some (v : ℤ) →
      s.group.resetCounter extraParam false none = some (g', .ok ()) →
        ∀ id, s.group.InProcess id → g'.InProcess id ∨ v < id := by
  intro h
  have hall := h 1 [(1, message), (2, message)] firstEvents firstHandedOut
    ⟨[(1, message), (2, message)], some 1, [], [], 10⟩ 1 (text "1") (by decide +kernel) (by decide)
    (by decide) 1 ⟨_, List.mem_cons_self, rfl⟩
  obtain ⟨found, hm, -⟩ | hlt := hall
  · cases hm
  · exact lt_irrefl 1 hlt

end ResetCounter

end Asapo.Broker
