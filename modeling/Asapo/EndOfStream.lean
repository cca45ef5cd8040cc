import Asapo.Broker.SequentialNext
import Asapo.Broker.StreamRecords
import Asapo.Consumer.ServerErrors
import Asapo.Json
import Asapo.Producer.ProducerRequest

namespace Asapo.EndOfStream

open Broker Broker.Nacks Consumer Producer

def stringMember (name : Text) : JsonText.Value → Option Text
  | .object members =>
    match (members.findRev? (fun m => m.1 = name)).map Prod.snd with
    | some (.string s) => some s
    | _ => none
  | _ => none

/-- The record that is stored for a call of `SendStreamFinishedFlag`, whose metadata are
read as JSON. -/
def Produced (record : Record) : Prop :=
  ∃ unset stream lastId nextStream request metadata,
    Call.request unset (.sendStreamFinishedFlag stream lastId nextStream) = .ok request ∧
    JsonText.parse .bytes (textOfBytes request.metadata) = some metadata ∧
    record = ⟨.message, request.header.message, stringMember (text "next_stream") metadata, none, some 0⟩

/-- The ids are positive, and only the record with the largest id may be a finish marker. -/
structure Content (g : Group) : Prop where
  positive : ∀ x ∈ g.data, 0 < x.1
  last : ∀ id, g.MarkerAt id → id = g.getMaxIndex
  produced : ∀ id record, g.record? id = some record → Record.IsMarker record → Produced record

/-- The finish marker, if there is one, names a next stream. -/
def NextNamed (g : Group) : Prop :=
  ∀ record, g.record? g.getMaxIndex = some record → Record.IsMarker record → nextName record ≠ []

/-- The error of the consumer tells what there is behind the pointer. -/
structure Classified (g : Group) (err : ConsumerError) : Prop where
  finished : (∃ data, err = .streamFinished data) ↔
    g.MarkerAt g.getMaxIndex ∧ g.getMaxIndex - 1 ≤ g.current
  ended : (∃ data, err = .endOfStream data) ↔
    (∀ id, ¬ g.MarkerAt id) ∧ (g.data = [] ∨ g.getMaxIndex ≤ g.current)
  missing : (∃ data, err = .noData data) ↔
    g.current + 1 < g.getMaxIndex ∧ g.record? (g.current + 1) = none
  named : ∀ data, err = .noData data → data.id = g.current + 1

/-- Every `next` that nothing comes in between is answered, and an error is classified. -/
def Classifies (g : Group) : Prop :=
  ∀ pointer lastRead r period ticks, r.datasetOp = false → r.extraParam = [] → Enough 10 ticks →
    ∃ g' answer, NextPc.run period r ticks (.lookUp .first)
        { g with pointer := pointer, lastRead := lastRead } = some (g', answer) ∧
      ∀ err, answer = .error err → Classified { g with pointer := pointer } (consumerErrorFromDb err)

variable {g : Group} {r : NextRequest} {id idMax : ℕ} {record : Record} {err : DBError}

theorem data_eq_nil (hc : Content g) (h : g.getMaxIndex = 0) : g.data = [] := by
  by_contra hne
  obtain ⟨x, hx, hmax⟩ := exists_mem_getMaxIndex hne
  exact absurd (hc.positive x hx) (by omega)

theorem classified_marker (hr : g.record? g.getMaxIndex = some record)
    (hm : Record.IsMarker record) (hn : nextName record ≠ []) (hpos : 0 < g.getMaxIndex)
    (hle : g.getMaxIndex - 1 ≤ g.current) :
    Classified g (consumerErrorFromDb (.noData (g.getMaxIndex - 1) (g.getMaxIndex - 1)
      (record.nextStream.getD (text "asapo_no_next")))) := by
  have hname : cString (record.nextStream.getD (text "asapo_no_next")) ≠ [] := hn
  rw [consumerError_marker hpos, if_neg hname]
  refine ⟨⟨fun _ => ⟨⟨record, hr, hm⟩, hle⟩, fun _ => ⟨_, rfl⟩⟩, ⟨?_, ?_⟩, ⟨?_, ?_⟩, ?_⟩
  · rintro ⟨_, ⟨⟩⟩
  · exact fun h => absurd ⟨record, hr, hm⟩ (h.1 _)
  · rintro ⟨_, ⟨⟩⟩
  · rintro ⟨h, -⟩
    omega
  · rintro _ ⟨⟩

theorem classified_ended (hno : ∀ id, ¬ g.MarkerAt id) (hle : g.data = [] ∨ g.getMaxIndex ≤ g.current)
    (hmax : g.getMaxIndex ≤ g.current + 1) (data : ConsumerErrorData) :
    Classified g (.endOfStream data) := by
  refine ⟨⟨?_, ?_⟩, ⟨fun _ => ⟨hno, hle⟩, fun _ => ⟨data, rfl⟩⟩, ⟨?_, ?_⟩, ?_⟩
  · rintro ⟨_, ⟨⟩⟩
  · exact fun h => absurd h.1 (hno _)
  · rintro ⟨_, ⟨⟩⟩
  · rintro ⟨h, -⟩
    omega
  · rintro _ ⟨⟩

theorem classified_missing (hlt : g.current + 1 < g.getMaxIndex) (hr : g.record? (g.current + 1) = none)
    {data : ConsumerErrorData} (hid : data.id = g.current + 1) : Classified g (.noData data) := by
  refine ⟨⟨?_, ?_⟩, ⟨?_, ?_⟩, ⟨fun _ => ⟨hlt, hr⟩, fun _ => ⟨data, rfl⟩⟩, ?_⟩
  · rintro ⟨_, ⟨⟩⟩
  · rintro ⟨-, h⟩
    omega
  · rintro ⟨_, ⟨⟩⟩
  · rintro ⟨-, h | h⟩
    · simp [Group.getMaxIndex, h] at hlt
    · omega
  · rintro _ ⟨⟩
    exact hid

theorem classified_unencodable (hlt : g.current < g.getMaxIndex) (hr : g.record? (g.current + 1) = some record)
    (henc : record.encodable = false) : Classified g .unavailableService := by
  refine ⟨⟨?_, ?_⟩, ⟨?_, ?_⟩, ⟨?_, ?_⟩, ?_⟩
  · rintro ⟨_, ⟨⟩⟩
  · rintro ⟨⟨marker, hmarker, hm⟩, hle⟩
    have hmax : g.getMaxIndex = g.current + 1 := by omega
    rw [hmax, hr, Option.some.injEq] at hmarker
    exact absurd (hmarker ▸ hm) (not_marker_of_unencodable henc)
  · rintro ⟨_, ⟨⟩⟩
  · rintro ⟨-, h | h⟩
    · simp [Group.record?, h] at hr
    · omega
  · rintro ⟨_, ⟨⟩⟩
  · rintro ⟨-, h⟩
    simp [hr] at h
  · rintro _ ⟨⟩

theorem classified_empty (hc : Content g) (hmax : g.getMaxIndex = 0) :
    Classified g (consumerErrorFromDb (.noData 0 0 [])) := by
  have hnil := data_eq_nil hc hmax
  have hno : ∀ id, ¬ g.MarkerAt id := by
    rintro id ⟨record, hrec, -⟩
    simp [Group.record?, hnil] at hrec
  have hzero := consumerError_noData 0 0
  rw [if_pos (le_refl 0)] at hzero
  exact hzero ▸ classified_ended hno (.inl hnil) (by omega) _

theorem classified_handedOut (hn : NextNamed g) (hr : r.datasetOp = false) {last : Record}
    (hlast : g.record? g.getMaxIndex = some last) (hlt : g.current < g.getMaxIndex)
    (h : g.getRecordByIDRaw r (g.current + 1) g.getMaxIndex = .error err) :
    Classified g (consumerErrorFromDb err) := by
  cases getRecordByIDRaw_error h with
  | missing hnone =>
    have hne : g.current + 1 ≠ g.getMaxIndex := by
      intro he
      rw [he, hlast] at hnone
      cases hnone
    rw [consumerError_noData, if_neg (by omega)]
    exact classified_missing (by omega) hnone rfl
  | finished record hrec hid hm =>
    rw [hid] at hrec ⊢
    exact classified_marker hrec hm (hn record hrec hm) (by omega) (by omega)
  | unencodable record hrec henc => exact classified_unencodable hlt hrec henc
  | incomplete record hrec hp => exact absurd hp (not_partial_of_plain hr)

theorem classified_atEnd (hc : Content g) (hn : NextNamed g) {last : Record}
    (hlast : g.record? g.getMaxIndex = some last) (hpos : 0 < g.getMaxIndex) (hge : g.getMaxIndex ≤ g.current) :
    Classified g (consumerErrorFromDb (g.errorWhenCannotSetField g.getMaxIndex)) := by
  rw [errorWhenCannotSetField_eq hlast]
  by_cases hm : Record.IsMarker last
  · rw [if_pos hm]
    exact classified_marker hlast hm (hn last hlast hm) hpos (by omega)
  · have hno : ∀ id, ¬ g.MarkerAt id := by
      rintro id ⟨record, hrec, hmark⟩
      rw [hc.last id ⟨record, hrec, hmark⟩, hlast, Option.some.injEq] at hrec
      exact hm (hrec ▸ hmark)
    rw [if_neg hm, consumerError_noData, if_pos (le_refl _)]
    exact classified_ended hno (.inr hge) (by omega) _

theorem classified_nextAnswer (hc : Content g) (hn : NextNamed g) (hr : r.datasetOp = false)
    (h : g.nextAnswer r = .error err) : Classified g (consumerErrorFromDb err) := by
  unfold Group.nextAnswer at h
  split at h
  · rename_i hmax
    cases h
    exact classified_empty hc hmax
  rename_i hmax
  have hpos := Nat.pos_of_ne_zero hmax
  obtain ⟨last, hlast⟩ := record_at_max hmax
  split at h
  · rename_i hlt
    have hlt : g.current < g.getMaxIndex := by
      obtain hp | hlt := hlt
      · simpa [Group.current, hp] using hpos
      · exact hlt
    cases hraw : g.getRecordByIDRaw r (g.current + 1) g.getMaxIndex with
    | ok record => simp [hraw, Except.map] at h
    | error e =>
      rw [hraw] at h
      cases h
      exact classified_handedOut hn hr hlast hlt hraw
  · rename_i hlt
    cases h
    refine classified_atEnd hc hn hlast hpos ?_
    by_contra hcon
    exact hlt (.inr (by omega))

theorem classifies_of_nextNamed (hi : g.inprocess = []) (hc : Content g) (hn : NextNamed g) : Classifies g := by
  intro pointer lastRead r period ticks hr hextra hticks
  obtain ⟨g', hrun⟩ := run_next period
    (g := { g with pointer := pointer, lastRead := lastRead }) ⟨hextra, hi⟩ hticks
  refine ⟨g', _, hrun, fun err herr => ?_⟩
  have hcontent : Content { g with pointer := pointer } := ⟨hc.positive, hc.last, hc.produced⟩
  exact classified_nextAnswer (g := { g with pointer := pointer }) hcontent hn hr herr

theorem not_classifies (hi : g.inprocess = []) (hc : Content g) (hrec : g.record? g.getMaxIndex = some record)
    (hm : Record.IsMarker record) (hn : nextName record = []) : ¬ Classifies g := by
  intro h
  have hmax : g.getMaxIndex ≠ 0 := by
    intro hz
    simp [Group.record?, data_eq_nil hc hz] at hrec
  let tick : Tick := ⟨0, none, false⟩
  have hticks : Enough 10 (List.replicate 10 tick) :=
    ⟨fun t ht => List.eq_of_mem_replicate ht ▸ ⟨rfl, rfl⟩, by simp⟩
  let full : Group := { g with pointer := some g.getMaxIndex, lastRead := 0 }
  obtain ⟨g', answer, hrun, hclass⟩ := h (some g.getMaxIndex) 0 ⟨false, 0, []⟩ 0 _ rfl rfl hticks
  obtain ⟨g₂, hrun₂⟩ := run_next 0 (r := ⟨false, 0, []⟩) (g := full) ⟨rfl, hi⟩ hticks
  have hanswer : answer = full.nextAnswer ⟨false, 0, []⟩ :=
    (Prod.ext_iff.mp (Option.some.inj (hrun.symm.trans hrun₂))).2
  have hfield : full.nextAnswer ⟨false, 0, []⟩ = .error (g.errorWhenCannotSetField g.getMaxIndex) := by
    have hnot : ¬ (full.pointer = none ∨ full.current < full.getMaxIndex) := by
      rintro (hp | hlt)
      · cases hp
      · exact lt_irrefl _ hlt
    unfold Group.nextAnswer
    rw [if_neg (show full.getMaxIndex ≠ 0 from hmax), if_neg hnot]
    rfl
  have hcl := hclass _ (hanswer.trans hfield)
  rw [errorWhenCannotSetField_eq hrec, if_pos hm,
    consumerError_marker (Nat.pos_of_ne_zero hmax), if_pos (show cString _ = [] from hn)] at hcl
  obtain ⟨data, hdata⟩ := hcl.finished.mpr ⟨⟨record, hrec, hm⟩, Nat.sub_le _ _⟩
  cases hdata

/-- The errors of the consumer are classified for every pointer exactly if a finish marker
at the end of the stream names the next stream. -/
theorem classifies_iff (g : Group) (hi : g.inprocess = []) (hc : Content g) :
    Classifies g ↔ NextNamed g := by
  refine ⟨fun h record hrec hm hn => ?_, classifies_of_nextNamed hi hc⟩
  exact not_classifies hi hc hrec hm hn h

def finished (nextStream : Option Text) : Group :=
  ⟨[(1, ⟨.message, text "a", none, none, some 5⟩),
    (2, ⟨.message, text "asapo_finish_stream", nextStream, none, some 0⟩)], none, [], [], 0⟩

theorem content_finished (nextStream : Text) {next : Option Text}
    (h : (JsonText.parse .bytes (textOfBytes (bytesOfText (text "\x7b\"next_stream\":\"" ++
      (if nextStream = [] then text "asapo_no_next" else nextStream) ++ text "\"\x7d")))).map
        (stringMember (text "next_stream")) = some next) : Content (finished next) := by
  obtain ⟨metadata, hparse, rfl⟩ := Option.map_eq_some_iff.mp h
  have hrecord : ∀ id record, (finished (stringMember (text "next_stream") metadata)).record? id = some record →
      Record.IsMarker record → id = 2 ∧
        record = ⟨.message, text "asapo_finish_stream", stringMember (text "next_stream") metadata, none, some 0⟩ := by
    intro id record hrec hm
    obtain ⟨x, hx, rfl⟩ := Option.map_eq_some_iff.mp hrec
    have hid : x.1 = id := by simpa using List.find?_some hx
    obtain rfl | hmem := List.mem_cons.mp (List.mem_of_find?_eq_some hx)
    · exact absurd hm.2 (by decide)
    · obtain rfl := List.mem_singleton.mp hmem
      exact ⟨hid.symm, rfl⟩
  refine ⟨by simp [finished], ?_, ?_⟩
  · rintro id ⟨record, hrec, hm⟩
    exact (hrecord id record hrec hm).1
  · intro id record hrec hm
    obtain ⟨-, rfl⟩ := hrecord id record hrec hm
    exact ⟨fun _ => 0, text "s", 1, nextStream, _, metadata, rfl, hparse, rfl⟩

theorem classifies_finished :
    (finished (some (text "t"))).inprocess = [] ∧ Content (finished (some (text "t"))) ∧
      (Classifies (finished (some (text "t"))) ↔ NextNamed (finished (some (text "t")))) := by
  have hc : Content (finished (some (text "t"))) := content_finished (text "t") (by decide +kernel)
  exact ⟨rfl, hc, classifies_iff _ rfl hc⟩

/-- The name of the next stream ends the text in the metadata, and the name that is read
is empty. -/
theorem finished_not_classified : Content (finished (some [])) ∧ ¬ Classifies (finished (some [])) := by
  have hc : Content (finished (some [])) :=
    content_finished (text "\",\"x\":\"") (by decide +kernel)
  exact ⟨hc, not_classifies rfl hc rfl ⟨rfl, rfl⟩ rfl⟩

end Asapo.EndOfStream
