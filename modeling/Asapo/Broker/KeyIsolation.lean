import Asapo.Broker.Names

namespace Asapo.Broker.KeyIsolation

open Database Request

/-- Two requests share no database unless they are for the same source, no documents of a
group unless they are also for the same stream and group, and no time of the last reading
unless all of these are the same. -/
structure Isolated (r₁ r₂ e₁ e₂ : Request) : Prop where
  databases : (r₁.beamtime, r₁.dataSource) ≠ (r₂.beamtime, r₂.dataSource) → e₁.dbName ≠ e₂.dbName
  groups : e₁.dbName = e₂.dbName → (r₁.stream, r₁.groupId) ≠ (r₂.stream, r₂.groupId) →
    e₁.acksCollection ≠ e₂.acksCollection ∧ e₁.inprocessCollection ≠ e₂.inprocessCollection ∧
      e₁.pointerId ≠ e₂.pointerId ∧ e₁.lastMessageId ≠ e₂.lastMessageId
  readings : e₁.dbName ≠ e₂.dbName ∨ (r₁.stream, r₁.groupId) ≠ (r₂.stream, r₂.groupId) →
    e₁.inprocessKey ≠ e₂.inprocessKey

/-- A part between underscores belongs to the first name here and to the second one there. -/
def Shifted (a b a' b' : Text) : Prop := ∃ m, a' = join a m ∧ b = join m b'

/-- No part between underscores is on different sides in the two requests, and the same
stream and group are not used for different sources. -/
structure NamesApart (r₁ r₂ : Request) : Prop where
  sources : ¬ Shifted r₁.beamtime r₁.dataSource r₂.beamtime r₂.dataSource ∧
    ¬ Shifted r₂.beamtime r₂.dataSource r₁.beamtime r₁.dataSource
  streams : ¬ Shifted r₁.stream r₁.groupId r₂.stream r₂.groupId ∧
    ¬ Shifted r₂.stream r₂.groupId r₁.stream r₁.groupId
  pointers : (r₁.beamtime, r₁.dataSource) = (r₂.beamtime, r₂.dataSource) →
    ¬ Shifted r₁.groupId r₁.stream r₂.groupId r₂.stream ∧
      ¬ Shifted r₂.groupId r₂.stream r₁.groupId r₁.stream
  readings : (r₁.stream, r₁.groupId) = (r₂.stream, r₂.groupId) →
    (r₁.beamtime, r₁.dataSource) = (r₂.beamtime, r₂.dataSource)

variable {a b a' b' : Text}

theorem join_of_shifted (h : Shifted a b a' b') : join a b = join a' b' := by
  obtain ⟨m, rfl, rfl⟩ := h
  simp [join]

theorem shifted_ne (h : Shifted a b a' b') : (a, b) ≠ (a', b') := by
  obtain ⟨m, rfl, rfl⟩ := h
  intro he
  have hl := congrArg (fun x => List.length x.1) he
  simp only [join, List.length_append, List.length_cons] at hl
  omega

theorem join_eq_iff : join a b = join a' b' ↔
    (a, b) = (a', b') ∨ Shifted a b a' b' ∨ Shifted a' b' a b := by
  constructor
  · intro h
    have hcut : ∀ {a b a' b' x : Text}, a' = a ++ x → '_' :: b = x ++ '_' :: b' →
        (a, b) = (a', b') ∨ Shifted a b a' b' := by
      intro a b a' b' x ha hx
      cases x with
      | nil =>
        simp only [List.append_nil, List.nil_append, List.cons.injEq, true_and] at ha hx
        exact .inl (by rw [ha, hx])
      | cons c m =>
        simp only [List.cons_append, List.cons.injEq] at hx
        obtain ⟨rfl, hb⟩ := hx
        exact .inr ⟨m, ha, hb⟩
    obtain ⟨x, ha, hx⟩ | ⟨x, ha, hx⟩ := List.append_eq_append_iff.mp h
    · exact (hcut ha hx).imp_right .inl
    · exact (hcut ha hx).imp Eq.symm .inr
  · rintro (h | h | h)
    · cases h
      rfl
    · exact join_of_shifted h
    · exact (join_of_shifted h).symm

theorem join_escape_eq_iff {db : Bool} :
    join (escape a db) (escape b db) = join (escape a' db) (escape b' db) ↔
      (a, b) = (a', b') ∨ Shifted a b a' b' ∨ Shifted a' b' a b := by
  rw [← escape_join, ← escape_join, ← join_eq_iff]
  exact (escape_injective db).eq_iff

variable {r₁ r₂ : Request}

theorem dbName_eq_iff : r₁.encoded.dbName = r₂.encoded.dbName ↔
    (r₁.beamtime, r₁.dataSource) = (r₂.beamtime, r₂.dataSource) ∨
      Shifted r₁.beamtime r₁.dataSource r₂.beamtime r₂.dataSource ∨
      Shifted r₂.beamtime r₂.dataSource r₁.beamtime r₁.dataSource := join_escape_eq_iff

theorem inprocessKey_eq_iff : r₁.encoded.inprocessKey = r₂.encoded.inprocessKey ↔
    (r₁.stream, r₁.groupId) = (r₂.stream, r₂.groupId) ∨
      Shifted r₁.stream r₁.groupId r₂.stream r₂.groupId ∨
      Shifted r₂.stream r₂.groupId r₁.stream r₁.groupId := join_escape_eq_iff

theorem pointerId_eq_iff : r₁.encoded.pointerId = r₂.encoded.pointerId ↔
    (r₁.groupId, r₁.stream) = (r₂.groupId, r₂.stream) ∨
      Shifted r₁.groupId r₁.stream r₂.groupId r₂.stream ∨
      Shifted r₂.groupId r₂.stream r₁.groupId r₁.stream := join_escape_eq_iff

theorem pair_comm : (r₁.groupId, r₁.stream) = (r₂.groupId, r₂.stream) ↔
    (r₁.stream, r₁.groupId) = (r₂.stream, r₂.groupId) := by
  simp only [Prod.mk.injEq]
  exact And.comm

theorem collection_eq_iff {e₁ e₂ : Request} (kind : Text) :
    kind ++ join e₁.stream e₁.groupId = kind ++ join e₂.stream e₂.groupId ↔
      e₁.inprocessKey = e₂.inprocessKey := List.append_right_inj kind

theorem apart_of_isolated (h : Isolated r₁ r₂ r₁.encoded r₂.encoded) : NamesApart r₁ r₂ := by
  have hsources : ¬ (Shifted r₁.beamtime r₁.dataSource r₂.beamtime r₂.dataSource ∨
      Shifted r₂.beamtime r₂.dataSource r₁.beamtime r₁.dataSource) := fun hs =>
    h.databases (hs.elim shifted_ne (fun hs => (shifted_ne hs).symm)) (dbName_eq_iff.mpr (.inr hs))
  have hstreams : ¬ (Shifted r₁.stream r₁.groupId r₂.stream r₂.groupId ∨
      Shifted r₂.stream r₂.groupId r₁.stream r₁.groupId) := fun hs =>
    h.readings (.inr (hs.elim shifted_ne (fun hs => (shifted_ne hs).symm)))
      (inprocessKey_eq_iff.mpr (.inr hs))
  refine ⟨not_or.mp hsources, not_or.mp hstreams, fun hsame => not_or.mp (fun hs => ?_), fun hsame => ?_⟩
  · have hne : (r₁.stream, r₁.groupId) ≠ (r₂.stream, r₂.groupId) := fun he =>
      hs.elim shifted_ne (fun hs => (shifted_ne hs).symm) (pair_comm.mpr he)
    obtain ⟨-, -, hpointer, -⟩ := h.groups (dbName_eq_iff.mpr (.inl hsame)) hne
    exact hpointer (pointerId_eq_iff.mpr (.inr hs))
  · have hdb : r₁.encoded.dbName = r₂.encoded.dbName := by
      by_contra hne
      exact h.readings (.inl hne) (inprocessKey_eq_iff.mpr (.inl hsame))
    exact (dbName_eq_iff.mp hdb).resolve_right hsources

theorem isolated_of_apart (h : NamesApart r₁ r₂) : Isolated r₁ r₂ r₁.encoded r₂.encoded := by
  have hdb : r₁.encoded.dbName = r₂.encoded.dbName →
      (r₁.beamtime, r₁.dataSource) = (r₂.beamtime, r₂.dataSource) :=
    fun he => (dbName_eq_iff.mp he).resolve_right (not_or.mpr h.sources)
  have hkey : r₁.encoded.inprocessKey = r₂.encoded.inprocessKey →
      (r₁.stream, r₁.groupId) = (r₂.stream, r₂.groupId) :=
    fun he => (inprocessKey_eq_iff.mp he).resolve_right (not_or.mpr h.streams)
  refine ⟨fun hne he => hne (hdb he), fun hsame hne => ?_, fun hne he => ?_⟩
  · have hpointer : r₁.encoded.pointerId ≠ r₂.encoded.pointerId := fun he =>
      hne (pair_comm.mp ((pointerId_eq_iff.mp he).resolve_right (not_or.mpr (h.pointers (hdb hsame)))))
    exact ⟨fun he => hne (hkey ((collection_eq_iff _).mp he)),
      fun he => hne (hkey ((collection_eq_iff _).mp he)), hpointer, hpointer⟩
  · have hpair := hkey he
    exact hne.elim (fun hn => hn (dbName_eq_iff.mpr (.inl (h.readings hpair)))) (fun hn => hn hpair)

/-- The keys of two requests are isolated exactly if their names are apart. -/
theorem isolated_iff (r₁ r₂ e₁ e₂ : Request) (h₁ : r₁.encodeRequest = .ok e₁)
    (h₂ : r₂.encodeRequest = .ok e₂) : Isolated r₁ r₂ e₁ e₂ ↔ NamesApart r₁ r₂ := by
  obtain ⟨-, rfl⟩ := encodeRequest_ok_iff.mp h₁
  obtain ⟨-, rfl⟩ := encodeRequest_ok_iff.mp h₂
  exact ⟨apart_of_isolated, isolated_of_apart⟩

theorem isolated_plain_names :
    Isolated ⟨text "bt1", text "det", text "s1", text "g"⟩ ⟨text "bt2", text "det", text "s2", text "g"⟩
      ⟨text "bt1", text "det", text "s1", text "g"⟩ ⟨text "bt2", text "det", text "s2", text "g"⟩ := by
  refine (isolated_iff _ _ _ _ (by decide) (by decide)).mpr ⟨⟨?_, ?_⟩, ⟨?_, ?_⟩, ?_, ?_⟩
  · exact fun hs => absurd (join_of_shifted hs) (by decide)
  · exact fun hs => absurd (join_of_shifted hs) (by decide)
  · exact fun hs => absurd (join_of_shifted hs) (by decide)
  · exact fun hs => absurd (join_of_shifted hs) (by decide)
  · exact fun hsame => absurd hsame (by decide)
  · exact fun hsame => absurd hsame (by decide)

theorem not_isolated :
    ¬ ∀ r₁ r₂ e₁ e₂ : Request, r₁.encodeRequest = .ok e₁ → r₂.encodeRequest = .ok e₂ →
      Isolated r₁ r₂ e₁ e₂ := by
  intro h
  have hiso := h ⟨text "bt", text "a_b", text "s", text "g"⟩ ⟨text "bt_a", text "b", text "s", text "g"⟩
    ⟨text "bt", text "a_b", text "s", text "g"⟩ ⟨text "bt_a", text "b", text "s", text "g"⟩
    (by decide) (by decide)
  exact hiso.databases (by decide) (by decide)

end Asapo.Broker.KeyIsolation
