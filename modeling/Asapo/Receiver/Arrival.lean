import Asapo.Receiver.Disk

namespace Asapo.Receiver.Resending

open Database Storing Disk RequestHandlerFileProcess

variable {J ω : Type} {json : Json J} {g : Settings} {o : Outside ω} {auth : AuthorizationData} {rounds : ℕ}
  {s t : Served (World J (Machine ω))} {err : Option Error}

/-! The handlers in front of the file and the database. -/

def metadataOf (header : GenericRequestHeader) (input : Bytes) : Text :=
  if header.metaSize = 0 then [] else textOfBytes (input.take header.metaSize)

/-- The data is received into the data cache. -/
def Buffered (header : GenericRequestHeader) (p : Option Processor) : Prop :=
  p ≠ some .receive ∧ RequestHandlerReceiveData.needReceiveData header = true

instance (header : GenericRequestHeader) (p : Option Processor) : Decidable (Buffered header p) :=
  inferInstanceAs (Decidable (_ ∧ _))

def arrived (header : GenericRequestHeader) (auth : AuthorizationData) (input : Bytes)
    (p : Option Processor) (slot : ℕ) : Request :=
  { Request.ofHeader header with
    authorization := auth
    metadata := metadataOf header input
    data := if Buffered header p then (input.drop header.metaSize).take header.dataSize else []
    slotId := slot }

/-- The producer sends all that is received on the way. -/
def Fits (header : GenericRequestHeader) (input : Bytes) (p : Option Processor) : Prop :=
  header.metaSize ≤ input.length ∧ (Buffered header p → header.dataSize ≤ (input.drop header.metaSize).length)

structure Arrived (header : GenericRequestHeader) (auth : AuthorizationData) (input : Bytes)
    (p : Option Processor) (w : World J (Machine ω)) (u : Served (World J (Machine ω))) : Prop where
  fits : Fits header input p
  request : ∃ slot, u.request = arrived header auth input p slot
  input : u.input = if Buffered header p then (input.drop header.metaSize).drop header.dataSize
    else input.drop header.metaSize
  db : u.world.db = w.db
  files : u.world.rest.files = w.rest.files

def arrivalHandlers (p : Option Processor) : List Handler :=
  [.secondaryAuthorize, .receiveMetaData] ++ if p = some .receive then [] else [.receiveData]

theorem authorize_cases
    (h : RequestHandlerSecondaryAuthorization.processRequest (receiver json g o auth) s = (err, t)) :
    (∀ e, err = some e → o.Failing) ∧ (err = none →
      t.request = { s.request with authorization := auth } ∧ t.input = s.input ∧
        t.world.db = s.world.db ∧ t.world.rest.files = s.world.rest.files) := by
  unfold RequestHandlerSecondaryAuthorization.processRequest at h
  generalize hc : s.call ((receiver json g o auth).secondaryAuthorize s.request) = x at h
  obtain ⟨answer, s₁⟩ := x
  have hq := quiet_call ((keeps_db json g o auth).secondaryAuthorize s.request) hc
  have hdb : s₁.world.db = s.world.db := hq.world
  have hl := lift_inv (f := (Machine.backend o auth).secondaryAuthorize s.request) hc
  simp only [Machine.backend] at hl
  split at hl <;> rename_i ha <;> obtain ⟨hfiles, -, hf⟩ := attempt_files ha <;> cases hl <;> cases h
  · exact ⟨fun _ _ => (hf _ rfl).2, by rintro ⟨⟩⟩
  · exact ⟨by rintro _ ⟨⟩, fun _ => ⟨by rw [hq.request], hq.input, hdb, hfiles⟩⟩

theorem receiveMetaData_cases (hempty : s.request.metadata = [])
    (h : RequestHandlerReceiveMetaData.processRequest (receiver json g o auth) s = (err, t)) :
    (∀ e, err = some e → o.Failing ∨ s.input.length < s.request.header.metaSize) ∧ (err = none →
      s.request.header.metaSize ≤ s.input.length ∧
      t.request = { s.request with metadata := metadataOf s.request.header s.input } ∧
      t.input = s.input.drop s.request.header.metaSize ∧
      t.world.db = s.world.db ∧ t.world.rest.files = s.world.rest.files) := by
  unfold RequestHandlerReceiveMetaData.processRequest at h
  split at h
  · rename_i hz
    cases h
    refine ⟨nofun, fun _ => ⟨by omega, ?_, by rw [hz, List.drop_zero], rfl, rfl⟩⟩
    rw [metadataOf, if_pos hz, ← hempty]
  · rename_i hz
    generalize hr : s.receive (receiver json g o auth) s.request.header.metaSize = x at h
    obtain ⟨⟨bytes, e⟩, s₁⟩ := x
    have hrec := receive_cases (keeps_db json g o auth) hr
    have hdb : s₁.world.db = s.world.db := hrec.world
    obtain ⟨hfiles, -, htransfer⟩ := receive_transfer hr
    cases htransfer with
    | complete enough input =>
      cases h
      refine ⟨nofun, fun _ => ⟨enough, ?_, input, hdb, hfiles⟩⟩
      rw [metadataOf, if_neg hz, hrec.request]
    | ended e code short input =>
      cases h
      exact ⟨fun _ _ => .inr short, nofun⟩
    | failed e code why =>
      cases h
      exact ⟨fun _ _ => .inl why, nofun⟩

open RequestHandlerReceiveData in
theorem receiveData_cases (hempty : s.request.data = [])
    (h : RequestHandlerReceiveData.processRequest (receiver json g o auth) s = (err, t)) :
    (∀ e, err = some e → o.Failing ∨ needReceiveData s.request.header = true ∧
      s.input.length < s.request.header.dataSize) ∧
    (err = none → (needReceiveData s.request.header = true →
        s.request.header.dataSize ≤ s.input.length) ∧
      (∃ slot, t.request = { s.request with
        data := if needReceiveData s.request.header = true then s.input.take s.request.header.dataSize
          else []
        slotId := slot }) ∧
      t.input = (if needReceiveData s.request.header = true then s.input.drop s.request.header.dataSize
        else s.input) ∧
      t.world.db = s.world.db ∧ t.world.rest.files = s.world.rest.files) := by
  unfold RequestHandlerReceiveData.processRequest at h
  split at h
  · rename_i hneed
    generalize hc : s.call ((receiver json g o auth).prepareDataBuffer s.request.header.dataSize) = x at h
    obtain ⟨answer, s₁⟩ := x
    have hq := quiet_call ((keeps_db json g o auth).prepareDataBuffer _) hc
    have hdb₁ : s₁.world.db = s.world.db := hq.world
    have hl := lift_inv (f := Machine.prepareDataBuffer o) hc
    unfold Machine.prepareDataBuffer at hl
    split at hl <;> rename_i ha <;> obtain ⟨hm, -, hf⟩ := attempt_files ha <;>
      obtain ⟨rfl, hrest⟩ := Prod.mk.inj hl
    · cases h
      exact ⟨fun _ _ => .inl (hf _ rfl).2, nofun⟩
    · rename_i m
      have hfiles₁ : s₁.world.rest.files = s.world.rest.files := by rw [← hrest, ← hm]
      dsimp only at h
      generalize hr : s₁.receive (receiver json g o auth) s₁.request.header.dataSize = x at h
      obtain ⟨⟨bytes, e⟩, s₂⟩ := x
      have hrec := receive_cases (keeps_db json g o auth) hr
      have hdb₂ : s₂.world.db = s.world.db := Eq.trans hrec.world hdb₁
      obtain ⟨hfiles₂, -, htransfer⟩ := receive_transfer hr
      have hreq : s₂.request = s.request := hrec.request.trans hq.request
      have hfiles : s₂.world.rest.files = s.world.rest.files := hfiles₂.trans hfiles₁
      rw [hq.request] at htransfer
      cases htransfer with
      | complete enough input =>
        cases h
        rw [hq.input] at enough
        refine ⟨nofun, fun _ => ⟨fun _ => enough, ⟨(o.nextSlot m.outside).1, ?_⟩, ?_, hdb₂, hfiles⟩⟩
        · rw [if_pos hneed, hreq, hq.input]
        · rw [if_pos hneed, ← hq.input]
          exact input
      | ended e code short input =>
        cases h
        rw [hq.input] at short
        exact ⟨fun _ _ => .inr ⟨hneed, short⟩, nofun⟩
      | failed e code why =>
        cases h
        exact ⟨fun _ _ => .inl why, nofun⟩
  · rename_i hneed
    cases h
    refine ⟨nofun, fun _ => ⟨fun hn => absurd hn hneed, ⟨s.request.slotId, ?_⟩, ?_, rfl, rfl⟩⟩
    · rw [if_neg hneed, ← hempty]
    · rw [if_neg hneed]

theorem arrival_cases {header : GenericRequestHeader} {input : Bytes} {p : Option Processor}
    {w : World J (Machine ω)} (h : handle (receiver json g o auth) rounds (arrivalHandlers p)
      ⟨Request.ofHeader header, input, w⟩ = some (err, t)) :
    (∀ e, err = some e → o.Failing ∨ ¬ Fits header input p) ∧
      (err = none → Arrived header auth input p w t) := by
  obtain ⟨e, rfl, h₁⟩ | ⟨s₁, h₁, h⟩ := handle_cons_cases h
  · exact ⟨fun _ _ => .inl ((authorize_cases (Option.some.inj h₁)).1 e rfl), nofun⟩
  obtain ⟨hreq₁, hinput₁, hdb₁, hfiles₁⟩ := (authorize_cases (Option.some.inj h₁)).2 rfl
  have hempty₁ : s₁.request.metadata = [] := by rw [hreq₁]; rfl
  obtain ⟨e, rfl, h₂⟩ | ⟨s₂, h₂, h⟩ := handle_cons_cases h
  · refine ⟨fun _ _ => ?_, nofun⟩
    refine ((receiveMetaData_cases hempty₁ (Option.some.inj h₂)).1 e rfl).imp_right (fun hl hfits => ?_)
    rw [hinput₁, hreq₁] at hl
    exact absurd hfits.1 (Nat.not_le.mpr hl)
  obtain ⟨hmeta, hreq₂, hinput₂, hdb₂, hfiles₂⟩ :=
    (receiveMetaData_cases hempty₁ (Option.some.inj h₂)).2 rfl
  rw [hinput₁, hreq₁] at hmeta hinput₂ hreq₂
  by_cases hp : p = some .receive
  · -- the data stays on the socket for the file
    rw [if_pos hp] at h
    cases h
    have hb : ¬ Buffered header p := fun hb => hb.1 hp
    refine ⟨nofun, fun _ => ⟨⟨hmeta, fun hb' => absurd hb' hb⟩, ⟨0, ?_⟩, ?_, hdb₂.trans hdb₁,
      hfiles₂.trans hfiles₁⟩⟩
    · rw [hreq₂, arrived, if_neg hb]
      rfl
    · rw [if_neg hb]
      exact hinput₂
  · rw [if_neg hp] at h
    have hb : Buffered header p ↔ RequestHandlerReceiveData.needReceiveData header = true :=
      ⟨fun hb => hb.2, fun hn => ⟨hp, hn⟩⟩
    have hempty₂ : s₂.request.data = [] := by rw [hreq₂]; rfl
    have hheader : s₂.request.header = header := by rw [hreq₂]; rfl
    obtain ⟨e, rfl, h₃⟩ | ⟨s₃, h₃, h⟩ := handle_cons_cases h
    · refine ⟨fun _ _ => ?_, nofun⟩
      refine ((receiveData_cases hempty₂ (Option.some.inj h₃)).1 e rfl).imp_right (fun hl hfits => ?_)
      rw [hinput₂, hheader] at hl
      exact absurd (hfits.2 (hb.mpr hl.1)) (Nat.not_le.mpr hl.2)
    obtain ⟨hdata, ⟨slot, hreq₃⟩, hinput₃, hdb₃, hfiles₃⟩ :=
      (receiveData_cases hempty₂ (Option.some.inj h₃)).2 rfl
    cases h
    rw [hheader, hinput₂] at hdata hinput₃
    rw [hinput₂, hreq₂] at hreq₃
    refine ⟨nofun, fun _ => ⟨⟨hmeta, fun hb' => hdata (hb.mp hb')⟩, ⟨slot, ?_⟩, ?_,
      (hdb₃.trans hdb₂).trans hdb₁, (hfiles₃.trans hfiles₂).trans hfiles₁⟩⟩
    · rw [hreq₃, arrived]
      simp only [hb]
      rfl
    · simp only [hb]
      exact hinput₃

end Asapo.Receiver.Resending
