import Asapo.Receiver.Arrival
import Asapo.Receiver.Duplicates

namespace Asapo.Receiver.Resending

open Database MongoDBClient Storing RecordPlace Disk RequestHandlerFileProcess
open RequestHandlerDbCheckRequest

variable {J ω : Type} {json : Json J} {g : Settings} {o : Outside ω} {auth : AuthorizationData} {rounds : ℕ}
  {s t : Served (World J (Machine ω))} {err : Option Error}

def sentRequest (header : GenericRequestHeader) (input : Bytes) : Request :=
  { Request.ofHeader header with metadata := metadataOf header input }

/-- A text is read with its id, and the rest of it does not depend on the time and the slot
in it. -/
structure ReadsMessage (json : Json J) (m : MessageMeta) : Prop where
  id : ∀ d, json.fromJson m.json = some d → d.id = m.id
  numbers : ∀ now slot, now < 2 ^ 63 →
    json.fromJson { m with timestamp := now, bufId := slot }.json = json.fromJson m.json

section Runs

open RequestFactory

variable {header : GenericRequestHeader} {input : Bytes} {p : Option Processor} {slot : ℕ}
  {u : Served (World J (Machine ω))}

theorem transfer_stages {thresholdMb : ℕ} {handlers : List Handler}
    (hop : header.opCode = .transferData ∨ header.opCode = .transferDatasetData)
    (hchain : addHandlersToRequest thresholdMb header = .ok handlers) (hdb : .dbWrite ∈ handlers) :
    ∃ p, handlers = arrivalHandlers p ++ (fileHandlers p ++ [.dbWrite]) := by
  obtain ⟨write, hwrite, rfl⟩ := transfer_chain hop hchain
  have hlast : dbHandlers header = [.dbWrite] := by
    unfold dbHandlers at hdb ⊢
    split
    · rfl
    · rename_i hn
      rw [if_neg hn] at hdb
      cases hwrite <;> simp at hdb
  rw [hlast]
  cases hwrite with
  | buffer => exact ⟨none, rfl⟩
  | bufferToFile => exact ⟨some .write, rfl⟩
  | direct => exact ⟨some .receive, rfl⟩

theorem handle_isSome {b : Backend ω} {s : Served ω} (hs : List Handler)
    (h : ∀ x ∈ hs, ∀ s : Served ω, ∃ err t, x.processRequest b rounds s = some (err, t)) :
    ∃ err t, handle b rounds hs s = some (err, t) := by
  induction hs generalizing s with
  | nil => exact ⟨_, _, rfl⟩
  | cons x hs ih =>
    obtain ⟨err, t, hx⟩ := h x (by simp) s
    rw [handle, hx, Option.bind_some]
    cases err with
    | some e => exact ⟨_, _, rfl⟩
    | none => exact ih (fun y hy => h y (by simp [hy]))

theorem arrives {w : World J (Machine ω)} (ho : ¬ o.Failing) (hfits : Fits header input p) :
    ∃ u, handle (receiver json g o auth) rounds (arrivalHandlers p) ⟨Request.ofHeader header, input, w⟩ =
      some (none, u) ∧ Arrived header auth input p w u := by
  obtain ⟨err, u, h⟩ : ∃ err u, handle (receiver json g o auth) rounds (arrivalHandlers p)
      ⟨Request.ofHeader header, input, w⟩ = some (err, u) := by
    refine handle_isSome _ (fun x hx s => ?_)
    have hall : ∀ x ∈ arrivalHandlers p, x = .secondaryAuthorize ∨ x = .receiveMetaData ∨ x = .receiveData := by
      unfold arrivalHandlers
      split <;> decide
    obtain rfl | rfl | rfl := hall x hx <;> exact ⟨_, _, rfl⟩
  obtain ⟨hbad, hgood⟩ := arrival_cases h
  cases err with
  | none => exact ⟨u, h, hgood rfl⟩
  | some e =>
    obtain hf | hn := hbad e rfl
    · exact absurd hf ho
    · exact absurd hfits hn

theorem document_arrived {uri : Text} {now : ℕ} (hnow : now < 2 ^ 63)
    (hreads : ReadsMessage json (explicitMessage ⟨0, uri⟩ (sentRequest header input))) :
    document json ⟨now, uri⟩ (arrived header auth input p slot) =
      document json ⟨0, uri⟩ (sentRequest header input) := by
  have hm : explicitMessage ⟨now, uri⟩ (arrived header auth input p slot) =
      { explicitMessage ⟨0, uri⟩ (sentRequest header input) with timestamp := now, bufId := slot } := by
    by_cases hop : header.opCode = .transferData
    · have h₁ : explicitMessage ⟨now, uri⟩ (arrived header auth input p slot) =
        prepareMessageMeta ⟨now, uri⟩ (arrived header auth input p slot) := if_pos hop
      have h₂ : explicitMessage ⟨0, uri⟩ (sentRequest header input) =
        prepareMessageMeta ⟨0, uri⟩ (sentRequest header input) := if_pos hop
      rw [h₁, h₂]
      rfl
    · have h₁ : explicitMessage ⟨now, uri⟩ (arrived header auth input p slot) =
        { prepareMessageMeta ⟨now, uri⟩ (arrived header auth input p slot) with
          datasetSubstream := header.customData kPosDataSetId } := if_neg hop
      have h₂ : explicitMessage ⟨0, uri⟩ (sentRequest header input) =
        { prepareMessageMeta ⟨0, uri⟩ (sentRequest header input) with
          datasetSubstream := header.customData kPosDataSetId } := if_neg hop
      rw [h₁, h₂]
      rfl
  rw [document, hm]
  exact hreads.numbers now slot hnow

theorem explicitMessage_id (g : Settings) (r : Request) : (explicitMessage g r).id = r.header.dataId := by
  unfold explicitMessage
  split <;> rfl

theorem Done.fileThere {o' : Outside ω} {u' : Served (World J (Machine ω))}
    (h : Done json g o rounds p u t) (hreq : u'.request = { u.request with slotId := slot })
    (hinput : u'.input = u.input) (hdb : u'.world.db = t.world.db)
    (hfiles : u'.world.rest.files = t.world.rest.files) :
    ∀ q, p = some q → ∃ root, FileThere json o' rounds q root u' := by
  intro q hq
  obtain ⟨root, hroot, hsize, hthere, hhow⟩ := h.file q hq
  have hname : u'.request.getFileName = u.request.getFileName := by rw [hreq]; rfl
  refine ⟨root, by rw [hreq]; exact hroot, by rw [hreq]; exact hsize, by rw [hname, hfiles]; exact hthere,
    fun hnone => ?_⟩
  obtain ⟨hfound, hsame⟩ | ⟨henough, hcontent⟩ := hhow
  · have hkept : foundIn json o u' = foundIn json o u := foundIn_congr (by rw [hreq]) (hdb.trans hsame)
    exact absurd (hkept.symm.trans hnone) hfound
  · refine ⟨?_, ?_⟩
    · cases q <;> simpa [Enough, hreq, hinput] using henough
    · rw [hname, hfiles, hcontent]
      cases q <;> simp [payload, hreq, hinput]

theorem Done.again {g' : Settings} (o' : Outside ω) {u' : Served (World J (Machine ω))}
    (h : Done json g o rounds p u t) (hreq : u'.request = { u.request with slotId := slot })
    (hdb : u'.world.db = t.world.db)
    (hdoc : document json g' u'.request = document json g u.request)
    (hid : ∀ d, document json g u.request = some d → d.id = u.request.header.dataId) :
    ((p ≠ none ∧ foundIn json o' u' ≠ none ∧ Known json o' u') ∨ Placed json g' u') ∧
    (Known json o' u' ∧ ((p ≠ none ∧ foundIn json o' u' ≠ none) ∨
        ∃ d, document json g' u'.request = some d ∧ putIn u' d = .duplicateKey) ↔
      Taken u.request (docs (dataCollection u.request) u.world) ∨
        ∃ d, document json g u.request = some d ∧
          Recognized (client json o) u.request (docs (dataCollection u.request) u.world) d) := by
  have hheader : u'.request.header = u.request.header := by rw [hreq]
  have hsame : ∀ record, sameRequestInRecord u'.request record = sameRequestInRecord u.request record := by
    intro record
    rw [hreq]
    rfl
  rw [hdoc, Placed, hdoc]
  obtain ⟨hkept, hknown, hhow⟩ | ⟨d, new, hd, hput, hnew⟩ := h.record
  · -- the first request was known already, so that the second is known in the same way
    have hfound : foundIn json o' u' = foundIn json o u := foundIn_congr hheader (hdb.trans hkept)
    have hputs : putIn u' = putIn u := putIn_congr hheader (hdb.trans hkept)
    have hknown' : Known json o' u' := by
      intro record hrecord
      rw [hsame]
      exact hknown record (hfound.symm.trans hrecord)
    rw [hfound, hputs]
    refine ⟨?_, fun _ => .inl ?_, fun _ => ⟨hknown', hhow⟩⟩
    · obtain ⟨hp, hne⟩ | ⟨d, hd, hdup⟩ := hhow
      · exact .inl ⟨hp, hne, hknown'⟩
      · exact .inr ⟨d, hd, .inl hdup⟩
    · obtain ⟨-, hne⟩ | ⟨d, hd, hdup⟩ := hhow
      · obtain ⟨record, hrecord⟩ := Option.ne_none_iff_exists'.mp hne
        exact taken_of_found hrecord
      · exact (put_duplicateKey_iff (hid d hd)).mp hdup
  · -- the first request has put its document into the collection
    have hdocs : docs (dataCollection u'.request) u'.world = new := by
      rw [docs, hdb, hnew, hreq]
      exact if_pos rfl
    have hfound : foundIn json o' u' = found (client json o) u.request new := by
      rw [foundIn, hdocs, hreq]
      rfl
    have hputs : putIn u' d = put u.request new d := by
      rw [putIn, hdocs, hreq]
      rfl
    have hknown : Known json o' u' ↔ ∀ record, found (client json o) u.request new = some record →
        sameRequestInRecord u.request record = true := by
      simp only [Known, hfound, hsame]
    have hfree : ¬ Taken u.request (docs (dataCollection u.request) u.world) := by
      rw [← put_duplicateKey_iff (hid d hd)]
      intro hdup
      cases hdup.symm.trans hput
    refine ⟨.inr ⟨d, hd, by rw [hputs]; exact put_again (client json o) (hid d hd) hput⟩, ?_⟩
    simp only [hd, Option.some.injEq, exists_eq_left', hfree, false_or]
    rw [← recognized_iff (hid d hd) hput, hknown, hfound, hputs]
    refine and_congr_right (fun _ => ⟨fun hor => ?_, .inr⟩)
    obtain ⟨-, hne⟩ | hdup := hor
    · by_contra hno
      exact hne (found_of_not_duplicateKey (hid d hd) hput hno)
    · exact hdup

/-- A successful request that is sent again leaves the database and the files as they are
and is answered without an error, exactly if its place was taken before the first time or
the stored document is recognized. -/
theorem resend_unchanged_iff (json : Json J) (uri : Text) (now₁ now₂ : ℕ) (o₁ o₂ : Outside ω)
    (auth : AuthorizationData) (rounds thresholdMb : ℕ) (header : GenericRequestHeader)
    (handlers : List Handler) (input : Bytes) (w : World J (Machine ω))
    (t : Served (World J (Machine ω))) (outside : ω)
    (hop : header.opCode = .transferData ∨ header.opCode = .transferDatasetData) (hid : header.dataId ≠ 0)
    (hchain : addHandlersToRequest thresholdMb header = .ok handlers) (hdb : .dbWrite ∈ handlers)
    (hnow₁ : now₁ < 2 ^ 63) (hnow₂ : now₂ < 2 ^ 63) (ho : ¬ o₂.Failing)
    (hreads : ReadsMessage json (explicitMessage ⟨0, uri⟩ (sentRequest header input)))
    (hfirst : handle (receiver json ⟨now₁, uri⟩ o₁ auth) rounds handlers
      ⟨Request.ofHeader header, input, w⟩ = some (none, t)) :
    ∃ err t', handle (receiver json ⟨now₂, uri⟩ o₂ auth) rounds handlers ⟨Request.ofHeader header, input,
        ⟨t.world.db, { t.world.rest with outside := outside }⟩⟩ = some (err, t') ∧
      ((t'.world.db = t.world.db ∧ t'.world.rest.files = t.world.rest.files ∧ Answered t'.request err) ↔
        Taken (sentRequest header input) (docs (dataCollection (sentRequest header input)) w) ∨
        ∃ d, json.fromJson (explicitMessage ⟨0, uri⟩ (sentRequest header input)).json = some d ∧
          Recognized (client json o₁) (sentRequest header input)
            (docs (dataCollection (sentRequest header input)) w) d) := by
  obtain ⟨p, rfl⟩ := transfer_stages hop hchain hdb
  obtain ⟨u₁, harr₁, hrun₁⟩ := handle_append _ _ hfirst
  replace harr₁ := (arrival_cases harr₁).2 rfl
  obtain ⟨u₂, hpre₂, harr₂⟩ : ∃ u, handle (receiver json ⟨now₂, uri⟩ o₂ auth) rounds (arrivalHandlers p)
      ⟨Request.ofHeader header, input, ⟨t.world.db, { t.world.rest with outside := outside }⟩⟩ =
        some (none, u) ∧
      Arrived header auth input p ⟨t.world.db, { t.world.rest with outside := outside }⟩ u :=
    arrives ho harr₁.fits
  obtain ⟨slot₁, hu₁⟩ := harr₁.request
  obtain ⟨slot₂, hu₂⟩ := harr₂.request
  have hdb₂ : u₂.world.db = t.world.db := harr₂.db
  have hfiles₂ : u₂.world.rest.files = t.world.rest.files := harr₂.files
  have hdone := run_first (by rw [hu₁]; exact hid) (by rw [hu₁]; rfl) hrun₁
  have hd₁ : document json ⟨now₁, uri⟩ u₁.request = document json ⟨0, uri⟩ (sentRequest header input) := by
    rw [hu₁]
    exact document_arrived hnow₁ hreads
  have hd₂ : document json ⟨now₂, uri⟩ u₂.request = document json ⟨0, uri⟩ (sentRequest header input) := by
    rw [hu₂]
    exact document_arrived hnow₂ hreads
  have hreq : u₂.request = { u₁.request with slotId := slot₂ } := by
    rw [hu₁, hu₂]
    rfl
  have hid₁ : ∀ d, document json ⟨now₁, uri⟩ u₁.request = some d → d.id = u₁.request.header.dataId := by
    intro d hd
    rw [hreads.id d (hd₁.symm.trans hd), explicitMessage_id, hu₁]
    rfl
  obtain ⟨hrecord, hiff⟩ := hdone.again o₂ hreq hdb₂ (hd₂.trans hd₁.symm) hid₁
  obtain ⟨err, t', hrun₂, hresult⟩ : ∃ err t', handle (receiver json ⟨now₂, uri⟩ o₂ auth) rounds
      (fileHandlers p ++ [.dbWrite]) u₂ = some (err, t') ∧
        ((t'.world.db = u₂.world.db ∧ t'.world.rest.files = u₂.world.rest.files ∧ Answered t'.request err) ↔
          Known json o₂ u₂ ∧ ((p ≠ none ∧ foundIn json o₂ u₂ ≠ none) ∨
            ∃ d, document json ⟨now₂, uri⟩ u₂.request = some d ∧ putIn u₂ d = .duplicateKey)) :=
    run_again ho (by rw [hu₂]; exact hid) ((short_congr (by rw [hreq])).mpr hdone.short)
      (by rw [hu₂]; rfl) (by rw [hu₂]; rfl)
      (hdone.fileThere hreq (harr₂.input.trans harr₁.input.symm) hdb₂ hfiles₂) hrecord
  refine ⟨err, t', by rw [handle_append_of_eq _ _ hpre₂, hrun₂], ?_⟩
  rw [hdb₂, hfiles₂] at hresult
  rw [hresult, hiff, hd₁, hu₁]
  have hdocs : docs (dataCollection (sentRequest header input)) u₁.world =
      docs (dataCollection (sentRequest header input)) w := by rw [docs, docs, harr₁.db]
  rw [← hdocs]
  rfl

end Runs

section Examples

def skip (known t : Text) : Option Text :=
  if t.take known.length = known then some (t.drop known.length) else none

theorem skip_append (known rest : Text) : skip known (known ++ rest) = some rest := by
  rw [skip, List.take_left, if_pos rfl, List.drop_left]

def isNumberChar (c : Char) : Bool := c.isDigit || c = '-'

theorem isNumberChar_decimal (n : ℕ) : ∀ c ∈ decimal n, isNumberChar c = true := by
  intro c hc
  rw [decimal, Nat.toList_repr] at hc
  rw [isNumberChar, Nat.isDigit_of_mem_toDigits (by decide) (by decide) hc, Bool.true_or]

theorem isNumberChar_signedDecimal (n : ℕ) : ∀ c ∈ signedDecimal n, isNumberChar c = true := by
  intro c hc
  unfold signedDecimal at hc
  split at hc
  · exact isNumberChar_decimal _ c hc
  · obtain rfl | hc := List.mem_cons.mp hc
    · rfl
    · exact isNumberChar_decimal _ c hc

def beforeTime : Text := text "\x7b\"_id\":1,\"size\":5,\"name\":\"b\",\"timestamp\":"
def beforeSlot : Text := text "\"source\":\"\",\"buf_id\":"
def behindSlot (metadata : Text) : Text := text "\"dataset_substream\":0,\"meta\":" ++ metadata ++ text "\x7d"

def compactMeta : Text := text "\x7b\"a\":1\x7d"
def spacedMeta : Text := text "\x7b\"a\": 1\x7d"

/-- A JSON library for the messages of one file. It knows one object, in a text with and
one without a blank, and writes it without. -/
def blankJson : Json Unit where
  fromJson t :=
    ((skip beforeTime t).bind (fun t => skip (',' :: beforeSlot) (t.dropWhile isNumberChar))).bind (fun t =>
      let rest := t.dropWhile isNumberChar
      if rest = ',' :: behindSlot compactMeta ∨ rest = ',' :: behindSlot spacedMeta then
        some ⟨1, ⟨some 5, some (text "b"), some 0, some (), true⟩, .missing⟩
      else none)
  parse t := if t = compactMeta ∨ t = spacedMeta then some () else none
  write _ := compactMeta
  isObject _ := true
  parse_write _ := rfl

def blankHeader (metaSize : ℕ) : GenericRequestHeader :=
  ⟨.transferData, 1, 5, metaSize, ![2, 0, 0], text "b", text "s", []⟩

theorem json_eq {metadata : Text} (hm : metadata ≠ []) (now slot : ℕ) :
    (⟨text "b", now, 5, 1, [], metadata, slot, 0⟩ : MessageMeta).json =
      beforeTime ++ (decimal now ++ ',' :: (beforeSlot ++ (signedDecimal slot ++
        ',' :: behindSlot metadata))) := by
  -- the equation lemma of this definition is slow to make
  delta MessageMeta.json
  simp only [List.append_assoc, if_neg hm]
  rfl

theorem fromJson_json {metadata : Text} (hm : metadata = compactMeta ∨ metadata = spacedMeta)
    (now slot : ℕ) : blankJson.fromJson (⟨text "b", now, 5, 1, [], metadata, slot, 0⟩ : MessageMeta).json =
      some ⟨1, ⟨some 5, some (text "b"), some 0, some (), true⟩, .missing⟩ := by
  have hne : metadata ≠ [] := by obtain rfl | rfl := hm <;> decide
  have hnumber : ∀ (digits rest : Text), (∀ c ∈ digits, isNumberChar c = true) →
      (digits ++ ',' :: rest).dropWhile isNumberChar = ',' :: rest := by
    intro digits rest hd
    rw [List.dropWhile_append_of_pos hd]
    rfl
  simp only [blankJson, json_eq hne, skip_append, Option.bind_some, hnumber _ _ (isNumberChar_decimal _)]
  rw [← List.cons_append, skip_append, Option.bind_some, hnumber _ _ (isNumberChar_signedDecimal _)]
  exact if_pos (hm.imp (fun h => by rw [h]) (fun h => by rw [h]))

theorem blankJson_reads {r : Request} {metadata : Text}
    (hr : explicitMessage ⟨0, []⟩ r = ⟨text "b", 0, 5, 1, [], metadata, 0, 0⟩)
    (hm : metadata = compactMeta ∨ metadata = spacedMeta) :
    ReadsMessage blankJson (explicitMessage ⟨0, []⟩ r) := by
  rw [hr]
  refine ⟨fun d hd => ?_, fun now slot _ => ?_⟩
  · rw [fromJson_json hm] at hd
    cases hd
    rfl
  · rw [fromJson_json hm, fromJson_json hm]

def blankChain : List Handler := [.secondaryAuthorize, .receiveMetaData, .receiveData, .dbWrite]

def calmOutside : Outside ℕ := ⟨fun n => (none, n), fun n => (n + 1, n + 1)⟩

theorem calmOutside_calm : ¬ calmOutside.Failing := fun ⟨_, h⟩ => h rfl

def noFiles : World Unit (Machine ℕ) := ⟨⟨fun _ => [], fun _ => 0⟩, ⟨fun _ => none, [], 0⟩⟩

def noPaths : AuthorizationData := ⟨[], [], [], [], [], .processed⟩

def runBlank (now : ℕ) (metadata : Text) (w : World Unit (Machine ℕ)) :
    Option (Option Error × Served (World Unit (Machine ℕ))) :=
  handle (receiver blankJson ⟨now, []⟩ calmOutside noPaths) 0 blankChain
    ⟨Request.ofHeader (blankHeader metadata.length), bytesOfText metadata, w⟩

theorem resend_unchanged_compact :
    ∃ t, runBlank 3 compactMeta noFiles = some (none, t) ∧
      ∃ err t', runBlank 5 compactMeta ⟨t.world.db, { t.world.rest with outside := 9 }⟩ = some (err, t') ∧
        t'.world.db = t.world.db ∧ t'.world.rest.files = t.world.rest.files ∧ Answered t'.request err := by
  have hrun : (runBlank 3 compactMeta noFiles).any (fun x => x.1.isNone) = true := by decide +kernel
  obtain ⟨⟨e, t⟩, ht, hx⟩ := (Option.any_eq_true _ _).mp hrun
  cases Option.isNone_iff_eq_none.mp hx
  have hm : explicitMessage ⟨0, []⟩ (sentRequest (blankHeader compactMeta.length) (bytesOfText compactMeta)) =
      ⟨text "b", 0, 5, 1, [], compactMeta, 0, 0⟩ := by decide +kernel
  obtain ⟨err, t', hrun₂, hiff⟩ := resend_unchanged_iff blankJson [] 3 5 calmOutside calmOutside noPaths 0 1
    (blankHeader compactMeta.length) blankChain (bytesOfText compactMeta) noFiles t 9 (by decide) (by decide)
    (by decide) (by decide) (by decide) (by decide) calmOutside_calm (blankJson_reads hm (.inl rfl)) ht
  refine ⟨t, ht, err, t', hrun₂, hiff.mpr (.inr
    ⟨⟨1, ⟨some 5, some (text "b"), some 0, some (), true⟩, .missing⟩, ?_, ?_⟩)⟩
  · rw [hm]
    exact fromJson_json (.inl rfl) 0 0
  · exact ⟨rfl, rfl, rfl, rfl, (), rfl, rfl, by decide +kernel⟩

theorem resend_refused :
    ¬ ∀ (J ω : Type) (json : Json J) (uri : Text) (now₁ now₂ : ℕ) (o₁ o₂ : Outside ω)
      (auth : AuthorizationData) (rounds thresholdMb : ℕ) (header : GenericRequestHeader)
      (handlers : List Handler) (input : Bytes) (w : World J (Machine ω))
      (t : Served (World J (Machine ω))) (outside : ω),
      (header.opCode = .transferData ∨ header.opCode = .transferDatasetData) → header.dataId ≠ 0 →
      RequestFactory.addHandlersToRequest thresholdMb header = .ok handlers → .dbWrite ∈ handlers →
      now₁ < 2 ^ 63 → now₂ < 2 ^ 63 → ¬ o₂.Failing →
      ReadsMessage json (explicitMessage ⟨0, uri⟩ (sentRequest header input)) →
      (∃ j, json.parse (storedMetaData (sentRequest header input)) = some j ∧ json.isObject j = true) →
      handle (receiver json ⟨now₁, uri⟩ o₁ auth) rounds handlers ⟨Request.ofHeader header, input, w⟩ =
        some (none, t) →
      ∃ err t', handle (receiver json ⟨now₂, uri⟩ o₂ auth) rounds handlers ⟨Request.ofHeader header, input,
          ⟨t.world.db, { t.world.rest with outside := outside }⟩⟩ = some (err, t') ∧
        t'.world.db = t.world.db ∧ t'.world.rest.files = t.world.rest.files ∧ Answered t'.request err := by
  intro h
  have hrun : (runBlank 3 spacedMeta noFiles).any (fun x => x.1.isNone &&
      (runBlank 5 spacedMeta ⟨x.2.world.db, { x.2.world.rest with outside := 9 }⟩).all (fun y =>
        !decide (Answered y.2.request y.1))) = true := by decide +kernel
  obtain ⟨⟨e, t⟩, ht, hx⟩ := (Option.any_eq_true _ _).mp hrun
  obtain ⟨he, hrefused⟩ := Bool.and_eq_true_iff.mp hx
  cases Option.isNone_iff_eq_none.mp he
  have hm : explicitMessage ⟨0, []⟩ (sentRequest (blankHeader spacedMeta.length) (bytesOfText spacedMeta)) =
      ⟨text "b", 0, 5, 1, [], spacedMeta, 0, 0⟩ := by decide +kernel
  obtain ⟨err, t', hrun₂, -, -, hanswered⟩ := h Unit ℕ blankJson [] 3 5 calmOutside calmOutside noPaths 0 1
    (blankHeader spacedMeta.length) blankChain (bytesOfText spacedMeta) noFiles t 9 (by decide) (by decide)
    (by decide) (by decide) (by decide) (by decide) calmOutside_calm (blankJson_reads hm (.inr rfl))
    ⟨(), by decide +kernel, rfl⟩ ht
  rw [runBlank, hrun₂] at hrefused
  simp [hanswered] at hrefused

end Examples

end Asapo.Receiver.Resending
