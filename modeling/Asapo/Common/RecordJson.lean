import Asapo.Common.JsonParser

namespace Asapo

open JsonText (Value Plain Field before weight)
open Consumer (uint64)

section Records

/-- A time point is its number of nanoseconds, a signed one of 64 bits. -/
def nanosecsEpochFromTimePoint (timePoint : ℤ) : ℕ := uint64 timePoint

def timePointFromNanosec (nanoseconds : ℕ) : ℤ :=
  if nanoseconds < 2 ^ 63 then nanoseconds else nanoseconds - 2 ^ 64

def timeFromJson (parser : RapidJson) (name : String) : Except Error ℤ :=
  (parser.getUInt64 name).map timePointFromNanosec

namespace MessageMeta

def ofJson (write : Value → Text) (json : Text) : Except Error MessageMeta := do
  let parser := RapidJson.ofText json
  let id ← parser.getUInt64 "_id"
  let size ← parser.getUInt64 "size"
  let name ← parser.getString "name"
  let source ← parser.getString "source"
  let bufId ← parser.getUInt64 "buf_id"
  let datasetSubstream ← parser.getUInt64 "dataset_substream"
  let metadata ← (parser.embedded "meta").getRawString write
  let timestamp ← timeFromJson parser "timestamp"
  return ⟨name, nanosecsEpochFromTimePoint timestamp, size, id, source, metadata, bufId, datasetSubstream⟩

/-- The message is as before if a field cannot be read. -/
def setFromJson (write : Value → Text) (m : MessageMeta) (json : Text) : Bool × MessageMeta :=
  match ofJson write json with
  | .ok m' => (true, m')
  | .error _ => (false, m)

/-- The numbers of a message have 64 bits. The timestamp is the one of
`NanosecsEpochFromTimePoint`. -/
structure Fits (m : MessageMeta) : Prop where
  id : m.id < 2 ^ 64
  size : m.size < 2 ^ 64
  timestamp : m.timestamp < 2 ^ 64
  bufId : m.bufId < 2 ^ 64
  datasetSubstream : m.datasetSubstream < 2 ^ 64

def metaText (m : MessageMeta) : Text := if m.metadata = [] then text "\x7b\x7d" else m.metadata

end MessageMeta

structure StreamInfo where
  lastId : ℕ
  name : Text
  finished : Bool
  nextStream : Text
  timestampCreated : ℤ
  timestampLastEntry : ℤ
  deriving DecidableEq, Repr

namespace StreamInfo

def json (s : StreamInfo) : Text :=
  text "\x7b\"lastId\":" ++ decimal s.lastId ++ text ",\"name\":\"" ++ s.name ++
    text "\",\"timestampCreated\":" ++ decimal (nanosecsEpochFromTimePoint s.timestampCreated) ++
    text ",\"timestampLast\":" ++ decimal (nanosecsEpochFromTimePoint s.timestampLastEntry) ++
    text ",\"finished\":" ++ (if s.finished then text "true" else text "false") ++
    text ",\"nextStream\":\"" ++ s.nextStream ++ text "\"\x7d"

def ofJson (json : Text) : Except Error StreamInfo := do
  let parser := RapidJson.ofText json
  let lastId ← parser.getUInt64 "lastId"
  let finished ← parser.getBool "finished"
  let nextStream ← parser.getString "nextStream"
  let timestampLastEntry ← timeFromJson parser "timestampLast"
  let name ← parser.getString "name"
  let timestampCreated ← timeFromJson parser "timestampCreated"
  return ⟨lastId, name, finished, nextStream, timestampCreated, timestampLastEntry⟩

def setFromJson (s : StreamInfo) (json : Text) : Bool × StreamInfo :=
  match ofJson json with
  | .ok s' => (true, s')
  | .error _ => (false, s)

structure Fits (s : StreamInfo) : Prop where
  lastId : s.lastId < 2 ^ 64
  timestampCreated : -(2 ^ 63) ≤ s.timestampCreated ∧ s.timestampCreated < 2 ^ 63
  timestampLastEntry : -(2 ^ 63) ≤ s.timestampLastEntry ∧ s.timestampLastEntry < 2 ^ 63

end StreamInfo

/-- A text that the library reads as an object and writes in the same form. -/
def Canonical (write : Value → Text) (t : Text) : Prop :=
  ∃ members, JsonText.parse .bytes t = some (.object members) ∧ cString (write (.object members)) = t

end Records

namespace RecordJson

section Times

variable {n : ℕ} {z : ℤ}

theorem timePointFromNanosec_range (h : n < 2 ^ 64) :
    -(2 ^ 63) ≤ timePointFromNanosec n ∧ timePointFromNanosec n < 2 ^ 63 := by
  unfold timePointFromNanosec
  split <;> omega

theorem nanosecs_timePoint (h : n < 2 ^ 64) : nanosecsEpochFromTimePoint (timePointFromNanosec n) = n := by
  unfold nanosecsEpochFromTimePoint timePointFromNanosec uint64
  split <;> split <;> omega

theorem timePoint_nanosecs (hlow : -(2 ^ 63) ≤ z) (hhigh : z < 2 ^ 63) :
    timePointFromNanosec (nanosecsEpochFromTimePoint z) = z := by
  unfold nanosecsEpochFromTimePoint timePointFromNanosec uint64
  split <;> split <;> omega

theorem nanosecs_lt (hlow : -(2 ^ 63) ≤ z) (hhigh : z < 2 ^ 63) : nanosecsEpochFromTimePoint z < 2 ^ 64 := by
  unfold nanosecsEpochFromTimePoint uint64
  split <;> omega

end Times

section Strings

variable {t : Text}

theorem noNul_of_plain (h : Plain t) : NoNul t := by
  refine List.all_eq_true.mpr fun c hc => ?_
  have hplain := List.all_eq_true.mp h c hc
  simp only [JsonText.plainChar, Bool.and_eq_true, decide_eq_true_eq] at hplain
  simp only [decide_eq_true_eq]
  omega

theorem noNul_decimal (n : ℕ) : NoNul (decimal n) := by
  refine List.all_eq_true.mpr fun c hc => ?_
  rw [decimal, Nat.toList_repr] at hc
  have hdigit := Nat.isDigit_of_mem_toDigits (by decide) (by decide) hc
  simp only [decide_eq_true_eq]
  intro hzero
  have hc : c = Char.ofNat 0 := by rw [← hzero, Char.ofNat_toNat]
  rw [hc] at hdigit
  cases hdigit

theorem noNul_signedDecimal (n : ℕ) : NoNul (signedDecimal n) := by
  unfold signedDecimal
  split
  · exact noNul_decimal n
  · exact noNul_append (s := ['-']).mpr ⟨rfl, noNul_decimal _⟩

theorem weight_cString (t : Text) : weight (cString t) ≤ weight t :=
  (List.takeWhile_sublist _).countP_le

end Strings

section Fields

def natField (name : String) (n : ℕ) : Field := ⟨text name, decimal n, .integer n⟩
def stringField (name : String) (s : Text) : Field := ⟨text name, '"' :: (s ++ ['"']), .string s⟩
def boolField (name : String) (b : Bool) : Field := ⟨text name, if b then text "true" else text "false", .bool b⟩

def signedField (name : String) (n : ℕ) : Field := ⟨text name, signedDecimal n, .integer (timePointFromNanosec n)⟩

variable {name : String}

theorem reads_natField (hname : Plain (text name)) (n : ℕ) : (natField name n).Reads := by
  rw [natField, decimal, Nat.toList_repr]
  exact Field.reads_nat hname n

theorem reads_signedField (hname : Plain (text name)) {n : ℕ} (hn : n < 2 ^ 64) : (signedField name n).Reads := by
  unfold signedField signedDecimal timePointFromNanosec
  split
  · exact reads_natField hname n
  · have h := Field.reads_minus hname (2 ^ 64 - n)
    rw [← Nat.toList_repr] at h
    have hvalue : -((2 ^ 64 - n : ℕ) : ℤ) = (n : ℤ) - 2 ^ 64 := by omega
    rw [hvalue] at h
    exact h

theorem reads_stringField {s : Text} (hname : Plain (text name)) (hs : Plain s) : (stringField name s).Reads :=
  Field.reads_string hname hs

theorem before_stringField (name : String) (s : Text) (fs : List Field) (t : Text) :
    before (stringField name s :: fs) t =
      '"' :: (text name ++ '"' :: ':' :: '"' :: (s ++ '"' :: ',' :: before fs t)) := by
  rw [JsonText.before_cons, stringField]
  simp only [List.cons_append, List.append_assoc, List.nil_append]

theorem reads_boolField (hname : Plain (text name)) (b : Bool) : (boolField name b).Reads :=
  Field.reads_bool hname b

end Fields

theorem ok_of_bind {α β : Type} {x : Except Error α} {f : α → Except Error β} {b : β} (h : x >>= f = .ok b) :
    ∃ a, x = .ok a ∧ f a = .ok b := by
  cases x with
  | error err => cases h
  | ok a => exact ⟨a, rfl, h⟩

section Inserted

variable {key : String} {json inserted after t : Text} {object : Value}

theorem object_ofText (h : (RapidJson.ofText json).object = .ok object) :
    JsonText.parse .bytes (cString json) = some object := by
  change RapidJson.lazyInitialize json = .ok object at h
  unfold RapidJson.lazyInitialize at h
  split at h
  · rename_i hparse
    cases h
    exact hparse
  · cases h

theorem ofText_object {members : List (Text × Value)} (h : JsonText.parse .bytes json = some (.object members))
    (hjson : NoNul json) : (RapidJson.ofText json).object = .ok (.object members) := by
  change RapidJson.lazyInitialize json = _
  rw [RapidJson.lazyInitialize, cString_eq_iff.mpr hjson, h]

theorem getUInt64_nat {p : RapidJson} {n : ℕ} (hobject : p.object = .ok object)
    (hget : object.get (text key) = some (.integer n)) (hn : n < 2 ^ 64) : p.getUInt64 key = .ok n := by
  rw [RapidJson.getUInt64_of_get hobject hget (by omega) (by omega), Consumer.uint64_natCast]

theorem getUInt64_signed {p : RapidJson} {n : ℕ} (hobject : p.object = .ok object)
    (hget : object.get (text key) = some (.integer (timePointFromNanosec n))) (hn : n < 2 ^ 64) :
    p.getUInt64 key = .ok n := by
  obtain ⟨hlow, hhigh⟩ := timePointFromNanosec_range hn
  rw [RapidJson.getUInt64_of_get hobject hget hlow (by omega)]
  exact congrArg Except.ok (nanosecs_timePoint hn)

theorem getString_plain {p : RapidJson} (hobject : p.object = .ok object)
    (hget : object.get (text key) = some (.string t)) (ht : Plain t) : p.getString key = .ok t := by
  rw [RapidJson.getString_of_get hobject hget, cString_eq_iff.mpr (noNul_of_plain ht)]

theorem noNul_of_getString {p : RapidJson} (h : p.getString key = .ok t) : NoNul t := by
  obtain ⟨object, s, -, -, rfl⟩ := RapidJson.get_of_getString h
  exact noNul_cString s

theorem plain_of_getString (fs : List Field) (hjson : json =
      '\x7b' :: before fs ('"' :: (text key ++ '"' :: ':' :: '"' :: (inserted ++ '"' :: after))))
    (hnul : NoNul json) (hfs : ∀ f ∈ fs, f.Reads) (hnames : text key ∉ fs.map Field.name) (hkey : Plain (text key))
    (hafter : ∀ ps rest, JsonText.parts after = some (ps, rest) → JsonText.Dead rest)
    (h : (RapidJson.ofText json).getString key = .ok inserted) : Plain inserted := by
  obtain ⟨object, s, hobject, hget, hs⟩ := RapidJson.get_of_getString h
  have hparse := object_ofText hobject
  rw [cString_eq_iff.mpr hnul, hjson] at hparse
  have hother : ∀ f ∈ fs, f.name ≠ text key := fun f hf heq => hnames (heq ▸ List.mem_map_of_mem hf)
  obtain ⟨s', hget', hlight⟩ := JsonText.get_inserted hfs hother hkey hafter hparse
  cases hget.symm.trans hget'
  refine hlight.resolve_left fun hless => ?_
  have hle := weight_cString s
  rw [← hs] at hle
  omega

theorem plain_of_member (fs : List Field) {g : Field} {gs : List Field}
    (hjson : json = '\x7b' :: before (fs ++ stringField key inserted :: g :: gs) t) (hnul : NoNul json)
    (hfs : ∀ f ∈ fs, f.Reads) (hnames : text key ∉ fs.map Field.name) (hkey : Plain (text key))
    (hdead : JsonText.Dead g.name) (h : (RapidJson.ofText json).getString key = .ok inserted) : Plain inserted := by
  have hsplit : before (fs ++ stringField key inserted :: g :: gs) t =
      before fs ('"' :: (text key ++ '"' :: ':' :: '"' :: (inserted ++ '"' :: ',' :: before (g :: gs) t))) := by
    rw [before, List.foldr_append, ← before, ← before, before_stringField]
  rw [hsplit] at hjson
  exact plain_of_getString fs hjson hnul hfs hnames hkey (fun _ _ => JsonText.dead_of_next hdead) h

end Inserted

section Message

variable {m old : MessageMeta} {write : Value → Text}

def messageFields (m : MessageMeta) : List Field :=
  [natField "_id" m.id, natField "size" m.size, stringField "name" m.name, natField "timestamp" m.timestamp,
    stringField "source" m.source, signedField "buf_id" m.bufId, natField "dataset_substream" m.datasetSubstream]

theorem json_message (m : MessageMeta) : m.json = '\x7b' :: before (messageFields m)
    ('"' :: (text "meta" ++ '"' :: ':' :: (m.metaText ++ ['\x7d']))) := by
  rw [messageFields, JsonText.before_cons, JsonText.before_cons, before_stringField, JsonText.before_cons,
    before_stringField]
  -- the equation lemma of this definition is slow to make
  delta MessageMeta.json
  simp only [List.append_assoc]
  rfl

theorem reads_messageFields (hm : m.Fits) (hname : Plain m.name) (hsource : Plain m.source) :
    ∀ f ∈ messageFields m, f.Reads := by
  simp only [messageFields, List.forall_mem_cons]
  exact ⟨reads_natField (by decide) _, reads_natField (by decide) _, reads_stringField (by decide) hname,
    reads_natField (by decide) _, reads_stringField (by decide) hsource, reads_signedField (by decide) hm.bufId,
    reads_natField (by decide) _, by simp⟩

theorem noNul_metaText (hmeta : m.metadata = [] ∨ Canonical write m.metadata) : NoNul m.metaText := by
  unfold MessageMeta.metaText
  split
  · rfl
  · rename_i hne
    obtain ⟨members, -, hwrite⟩ := hmeta.resolve_left hne
    rw [← hwrite]
    exact noNul_cString _

theorem noNul_message (hmeta : m.metadata = [] ∨ Canonical write m.metadata) (hname : NoNul m.name)
    (hsource : NoNul m.source) : NoNul m.json := by
  have hraw := noNul_metaText hmeta
  unfold MessageMeta.metaText at hraw
  delta MessageMeta.json
  simp only [noNul_append, hname, hsource, hraw, noNul_decimal, noNul_signedDecimal, and_true]
  decide

theorem parse_message (hm : m.Fits) (hname : Plain m.name) (hsource : Plain m.source)
    {members : List (Text × Value)} (hmeta : JsonText.parse .bytes m.metaText = some (.object members)) :
    JsonText.parse .bytes m.json =
      some (.object ((messageFields m).map Field.member ++ [(text "meta", .object members)])) := by
  obtain ⟨fuel, hfuel, hparse⟩ := JsonText.parse_before (reads_messageFields hm hname hsource)
    (text "meta" ++ '"' :: ':' :: (m.metaText ++ ['\x7d']))
  rw [json_message, hparse]
  obtain ⟨fuel, rfl⟩ := Nat.exists_eq_add_of_le' (Nat.zero_lt_of_lt hfuel)
  rw [List.length_append, List.length_cons, List.length_cons, List.length_append] at hfuel
  have hlength : m.metaText.length < fuel := by omega
  obtain ⟨w, hvalue, hskip⟩ := JsonText.value_of_parse hmeta hlength (c := '\x7d') rfl []
  have hname : Plain (text "meta") := by decide
  rw [JsonText.members_last hname hvalue hskip]
  rfl

theorem canonical_metaText (hempty : Canonical write (text "\x7b\x7d"))
    (hmeta : m.metadata = [] ∨ Canonical write m.metadata) : Canonical write m.metaText := by
  unfold MessageMeta.metaText
  split
  · exact hempty
  · rename_i hne
    exact hmeta.resolve_left hne

theorem ofJson_message (hm : m.Fits) (hname : Plain m.name) (hsource : Plain m.source)
    (hempty : Canonical write (text "\x7b\x7d")) (hmeta : m.metadata = [] ∨ Canonical write m.metadata) :
    MessageMeta.ofJson write m.json = .ok { m with metadata := m.metaText } := by
  obtain ⟨members, hparse, hwrite⟩ := canonical_metaText hempty hmeta
  have hobject := ofText_object (parse_message hm hname hsource hparse)
    (noNul_message hmeta (noNul_of_plain hname) (noNul_of_plain hsource))
  have hid : (RapidJson.ofText m.json).getUInt64 "_id" = .ok m.id := getUInt64_nat hobject rfl hm.id
  have hsize : (RapidJson.ofText m.json).getUInt64 "size" = .ok m.size := getUInt64_nat hobject rfl hm.size
  have hnameText : (RapidJson.ofText m.json).getString "name" = .ok m.name := getString_plain hobject rfl hname
  have hsourceText : (RapidJson.ofText m.json).getString "source" = .ok m.source :=
    getString_plain hobject rfl hsource
  have hbufId : (RapidJson.ofText m.json).getUInt64 "buf_id" = .ok m.bufId := getUInt64_signed hobject rfl hm.bufId
  have hsubstream : (RapidJson.ofText m.json).getUInt64 "dataset_substream" = .ok m.datasetSubstream :=
    getUInt64_nat hobject rfl hm.datasetSubstream
  have hraw : ((RapidJson.ofText m.json).embedded "meta").getRawString write = .ok m.metaText :=
    (RapidJson.getRawString_of_get hobject rfl).trans (congrArg Except.ok hwrite)
  have htime : (RapidJson.ofText m.json).getUInt64 "timestamp" = .ok m.timestamp :=
    getUInt64_nat hobject rfl hm.timestamp
  rw [MessageMeta.ofJson]
  simp only [timeFromJson, hid, hsize, hnameText, hsourceText, hbufId, hsubstream, hraw, htime, Except.map]
  change Except.ok _ = _
  rw [nanosecs_timePoint hm.timestamp]

theorem strings_of_ofJson {json : Text} (h : MessageMeta.ofJson write json = .ok m) :
    (RapidJson.ofText json).getString "name" = .ok m.name ∧
      (RapidJson.ofText json).getString "source" = .ok m.source := by
  obtain ⟨id, -, h⟩ := ok_of_bind h
  obtain ⟨size, -, h⟩ := ok_of_bind h
  obtain ⟨name, hname, h⟩ := ok_of_bind h
  obtain ⟨source, hsource, h⟩ := ok_of_bind h
  obtain ⟨bufId, -, h⟩ := ok_of_bind h
  obtain ⟨datasetSubstream, -, h⟩ := ok_of_bind h
  obtain ⟨metadata, -, h⟩ := ok_of_bind h
  obtain ⟨timestamp, -, h⟩ := ok_of_bind h
  cases h
  exact ⟨hname, hsource⟩

theorem plain_of_ofJson {m' : MessageMeta} (hmeta : m.metadata = [] ∨ Canonical write m.metadata)
    (h : MessageMeta.ofJson write m.json = .ok m') (hsame : m'.name = m.name ∧ m'.source = m.source) :
    Plain m.name ∧ Plain m.source := by
  obtain ⟨hname, hsource⟩ := strings_of_ofJson h
  rw [hsame.1] at hname
  rw [hsame.2] at hsource
  have hnul := noNul_message hmeta (noNul_of_getString hname) (noNul_of_getString hsource)
  have hnumbers : ∀ f ∈ [natField "_id" m.id, natField "size" m.size], f.Reads := by
    simp only [List.forall_mem_cons]
    exact ⟨reads_natField (by decide) _, reads_natField (by decide) _, by simp⟩
  have hplain : Plain m.name :=
    plain_of_member [natField "_id" m.id, natField "size" m.size] (json_message m) hnul hnumbers
      (show text "name" ∉ [text "_id", text "size"] by decide) (by decide) ⟨'t', _, rfl, rfl⟩ hname
  refine ⟨hplain, ?_⟩
  have hfront : ∀ f ∈ [natField "_id" m.id, natField "size" m.size, stringField "name" m.name,
      natField "timestamp" m.timestamp], f.Reads := by
    simp only [List.forall_mem_cons]
    exact ⟨reads_natField (by decide) _, reads_natField (by decide) _, reads_stringField (by decide) hplain,
      reads_natField (by decide) _, by simp⟩
  exact plain_of_member [natField "_id" m.id, natField "size" m.size, stringField "name" m.name,
    natField "timestamp" m.timestamp] (json_message m) hnul hfront
    (show text "source" ∉ [text "_id", text "size", text "name", text "timestamp"] by decide) (by decide)
    ⟨'b', _, rfl, rfl⟩ hsource

theorem message_survives_iff (hm : m.Fits) (hempty : Canonical write (text "\x7b\x7d"))
    (hmeta : m.metadata = [] ∨ Canonical write m.metadata) :
    MessageMeta.setFromJson write old m.json = (true, { m with metadata := m.metaText }) ↔
      Plain m.name ∧ Plain m.source := by
  constructor
  · intro h
    unfold MessageMeta.setFromJson at h
    split at h
    · rename_i m' hread
      cases h
      exact plain_of_ofJson hmeta hread ⟨rfl, rfl⟩
    · cases h
  · rintro ⟨hname, hsource⟩
    rw [MessageMeta.setFromJson, ofJson_message hm hname hsource hempty hmeta]

end Message

section Stream

variable {s old : StreamInfo}

def streamFields (s : StreamInfo) : List Field :=
  [natField "lastId" s.lastId, stringField "name" s.name,
    natField "timestampCreated" (nanosecsEpochFromTimePoint s.timestampCreated),
    natField "timestampLast" (nanosecsEpochFromTimePoint s.timestampLastEntry), boolField "finished" s.finished]

theorem json_stream (s : StreamInfo) : s.json = '\x7b' :: before (streamFields s)
    ('"' :: (text "nextStream" ++ '"' :: ':' :: '"' :: (s.nextStream ++ '"' :: ['\x7d']))) := by
  rw [streamFields, JsonText.before_cons, before_stringField]
  simp only [StreamInfo.json, List.append_assoc]
  rfl

theorem reads_streamFields (hname : Plain s.name) : ∀ f ∈ streamFields s, f.Reads := by
  simp only [streamFields, List.forall_mem_cons]
  exact ⟨reads_natField (by decide) _, reads_stringField (by decide) hname, reads_natField (by decide) _,
    reads_natField (by decide) _, reads_boolField (by decide) _, by simp⟩

theorem noNul_stream (hname : NoNul s.name) (hnext : NoNul s.nextStream) : NoNul s.json := by
  have hfinished : NoNul (if s.finished then text "true" else text "false") := by split <;> decide
  simp only [StreamInfo.json, noNul_append, hname, hnext, hfinished, noNul_decimal, and_true]
  decide

theorem parse_stream (hname : Plain s.name) (hnext : Plain s.nextStream) : JsonText.parse .bytes s.json =
    some (.object ((streamFields s).map Field.member ++ [(text "nextStream", .string s.nextStream)])) := by
  obtain ⟨fuel, hfuel, hparse⟩ := JsonText.parse_before (reads_streamFields hname)
    (text "nextStream" ++ '"' :: ':' :: '"' :: (s.nextStream ++ '"' :: ['\x7d']))
  rw [json_stream, hparse]
  rw [List.length_append, List.length_cons, List.length_cons] at hfuel
  obtain ⟨fuel, rfl⟩ := Nat.exists_eq_add_of_le' (show 2 ≤ fuel by omega)
  have hvalue : JsonText.value .bytes (fuel + 1) ('"' :: (s.nextStream ++ '"' :: ['\x7d'])) =
      some (.string s.nextStream, ['\x7d']) := by
    rw [JsonText.value_literal, JsonText.string_of_plain hnext]
    rfl
  have hkey : Plain (text "nextStream") := by decide
  rw [JsonText.members_last hkey hvalue rfl]
  rfl

theorem ofJson_stream (hs : s.Fits) (hname : Plain s.name) (hnext : Plain s.nextStream) :
    StreamInfo.ofJson s.json = .ok s := by
  have hobject := ofText_object (parse_stream hname hnext)
    (noNul_stream (noNul_of_plain hname) (noNul_of_plain hnext))
  obtain ⟨hcreatedLow, hcreatedHigh⟩ := hs.timestampCreated
  obtain ⟨hlastLow, hlastHigh⟩ := hs.timestampLastEntry
  have hlastId : (RapidJson.ofText s.json).getUInt64 "lastId" = .ok s.lastId := getUInt64_nat hobject rfl hs.lastId
  have hfinished : (RapidJson.ofText s.json).getBool "finished" = .ok s.finished :=
    RapidJson.getBool_of_get hobject rfl
  have hnextText : (RapidJson.ofText s.json).getString "nextStream" = .ok s.nextStream :=
    getString_plain hobject rfl hnext
  have hlast : (RapidJson.ofText s.json).getUInt64 "timestampLast" =
      .ok (nanosecsEpochFromTimePoint s.timestampLastEntry) :=
    getUInt64_nat hobject rfl (nanosecs_lt hlastLow hlastHigh)
  have hnameText : (RapidJson.ofText s.json).getString "name" = .ok s.name := getString_plain hobject rfl hname
  have hcreated : (RapidJson.ofText s.json).getUInt64 "timestampCreated" =
      .ok (nanosecsEpochFromTimePoint s.timestampCreated) :=
    getUInt64_nat hobject rfl (nanosecs_lt hcreatedLow hcreatedHigh)
  rw [StreamInfo.ofJson]
  simp only [timeFromJson, hlastId, hfinished, hnextText, hlast, hnameText, hcreated, Except.map]
  change Except.ok _ = _
  rw [timePoint_nanosecs hlastLow hlastHigh, timePoint_nanosecs hcreatedLow hcreatedHigh]

theorem strings_of_stream {json : Text} (h : StreamInfo.ofJson json = .ok s) :
    (RapidJson.ofText json).getString "name" = .ok s.name ∧
      (RapidJson.ofText json).getString "nextStream" = .ok s.nextStream := by
  obtain ⟨lastId, -, h⟩ := ok_of_bind h
  obtain ⟨finished, -, h⟩ := ok_of_bind h
  obtain ⟨nextStream, hnext, h⟩ := ok_of_bind h
  obtain ⟨timestampLast, -, h⟩ := ok_of_bind h
  obtain ⟨name, hname, h⟩ := ok_of_bind h
  obtain ⟨timestampCreated, -, h⟩ := ok_of_bind h
  cases h
  exact ⟨hname, hnext⟩

theorem plain_of_stream (h : StreamInfo.ofJson s.json = .ok s) : Plain s.name ∧ Plain s.nextStream := by
  obtain ⟨hname, hnext⟩ := strings_of_stream h
  have hnul := noNul_stream (noNul_of_getString hname) (noNul_of_getString hnext)
  have hnumber : ∀ f ∈ [natField "lastId" s.lastId], f.Reads := by
    simp only [List.forall_mem_cons]
    exact ⟨reads_natField (by decide) _, by simp⟩
  have hplain : Plain s.name :=
    plain_of_member [natField "lastId" s.lastId] (json_stream s) hnul hnumber
      (show text "name" ∉ [text "lastId"] by decide) (by decide) ⟨'t', _, rfl, rfl⟩ hname
  -- behind the last string there is no quotation mark
  have hlast : ∀ ps rest, JsonText.parts ['\x7d'] = some (ps, rest) → JsonText.Dead rest := by
    rintro t rest ⟨⟩
  exact ⟨hplain, plain_of_getString (streamFields s) (json_stream s) hnul (reads_streamFields hplain)
    (show text "nextStream" ∉ [text "lastId", text "name", text "timestampCreated", text "timestampLast",
      text "finished"] by decide) (by decide) hlast hnext⟩

theorem stream_survives_iff (hs : s.Fits) :
    StreamInfo.setFromJson old s.json = (true, s) ↔ Plain s.name ∧ Plain s.nextStream := by
  constructor
  · intro h
    unfold StreamInfo.setFromJson at h
    split at h
    · rename_i s' hread
      cases h
      exact plain_of_stream hread
    · cases h
  · rintro ⟨hname, hnext⟩
    rw [StreamInfo.setFromJson, ofJson_stream hs hname hnext]

end Stream

/-- A message comes back from its text exactly if its name and its source stand for themselves
in a string literal, and so does a stream with its name and its next stream. The numbers come
back over their whole ranges. -/
theorem records_survive_iff (write : Value → Text) (hempty : Canonical write (text "\x7b\x7d")) :
    (∀ old m : MessageMeta, m.Fits → m.metadata = [] ∨ Canonical write m.metadata →
      (MessageMeta.setFromJson write old m.json = (true, { m with metadata := m.metaText }) ↔
        Plain m.name ∧ Plain m.source)) ∧
    ∀ old s : StreamInfo, s.Fits →
      (StreamInfo.setFromJson old s.json = (true, s) ↔ Plain s.name ∧ Plain s.nextStream) :=
  ⟨fun _ _ hm hmeta => message_survives_iff hm hempty hmeta, fun _ _ hs => stream_survives_iff hs⟩

def writeIntegers : Value → Text := Value.write (fun _ => [])

theorem canonical_empty : Canonical writeIntegers (text "\x7b\x7d") := ⟨[], by decide +kernel, by decide +kernel⟩

theorem records_survive_extremes :
    let m : MessageMeta := ⟨text "a/b c", 2 ^ 63 - 1, 2 ^ 64 - 1, 2 ^ 64 - 1, text "host",
      text "\x7b\"k\":[1,\"q\\\"\"]\x7d", 2 ^ 64 - 1, 2 ^ 63⟩
    let s : StreamInfo := ⟨2 ^ 64 - 1, text "s", true, text "t", -1, 2 ^ 63 - 1⟩
    Canonical writeIntegers (text "\x7b\x7d") ∧ m.Fits ∧ Canonical writeIntegers m.metadata ∧ s.Fits ∧
      MessageMeta.setFromJson writeIntegers .empty m.json = (true, m) ∧
      StreamInfo.setFromJson ⟨0, [], false, [], 0, 0⟩ s.json = (true, s) := by
  intro m s
  have hm : m.Fits := ⟨by decide, by decide, by decide, by decide, by decide⟩
  have hmeta : Canonical writeIntegers m.metadata :=
    ⟨[(text "k", .array [.integer 1, .string (text "q\"")])], by decide +kernel, by decide +kernel⟩
  have hs : s.Fits := ⟨by decide, by decide, by decide⟩
  obtain ⟨hmessage, hstream⟩ := records_survive_iff writeIntegers canonical_empty
  exact ⟨canonical_empty, hm, hmeta, hs, (hmessage .empty m hm (.inr hmeta)).mpr ⟨by decide, by decide⟩,
    (hstream _ s hs).mpr ⟨by decide, by decide⟩⟩

/-- A backslash in the name of a message makes an escape sequence of the character behind it,
and the message is read with another name. -/
theorem backslash_read_as_escape :
    let m : MessageMeta := ⟨text "a\\b", 0, 5, 1, text "host", [], 0, 0⟩
    m.Fits ∧ NoNul m.name ∧ NoNul m.source ∧ Canonical writeIntegers (text "\x7b\x7d") ∧
      MessageMeta.setFromJson writeIntegers .empty m.json =
        (true, { m with name := text "a\x08", metadata := m.metaText }) ∧ text "a\x08" ≠ m.name := by
  refine ⟨⟨by decide, by decide, by decide, by decide, by decide⟩, by decide, by decide, canonical_empty, ?_, by decide⟩
  decide +kernel

end RecordJson

end Asapo
