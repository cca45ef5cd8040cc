import Asapo.Authorizer.SourceCredentials
import Asapo.Receiver.Authorization

namespace Asapo.CredentialTransport

open JsonText EncodingJson Authorizer Receiver Receiver.AuthorizationClient

/-- The credentials of a producer. Their strings are bytes, and with an encoding that is valid
they are characters as well. -/
structure SourceCredentials (S : Type) where
  type : SourceType
  beamtimeId : S
  beamline : S
  dataSource : S
  userToken : S
  deriving DecidableEq, Repr

namespace SourceCredentials

def typeName {S : Type} (c : SourceCredentials S) : Text := if c.type = .raw then text "raw" else text "processed"

def joined {α : Type} (type percent : List α) (c : SourceCredentials (List α)) : List α :=
  type ++ percent ++ c.beamtimeId ++ percent ++ c.beamline ++ percent ++ c.dataSource ++ percent ++ c.userToken

def getString (c : SourceCredentials Bytes) : Bytes := c.joined (utf8 c.typeName) (utf8 (text "%"))

def getText (c : SourceCredentials Runes) : Runes := c.joined c.typeName (text "%")

def encoded (c : SourceCredentials Runes) : SourceCredentials Bytes :=
  ⟨c.type, utf8 c.beamtimeId, utf8 c.beamline, utf8 c.dataSource, utf8 c.userToken⟩

def filled (default : String) (val : Bytes) : Bytes := if val = [] then utf8 (text default) else val

/-- What the authorizer is to know of the credentials: type, beamtime, beamline, data source
and token. -/
def restored (c : SourceCredentials Bytes) : List Bytes :=
  [utf8 c.typeName, filled "auto" c.beamtimeId, filled "auto" c.beamline, filled "detector" c.dataSource, c.userToken]

def restoredText (c : SourceCredentials Runes) : Authorizer.SourceCredentials :=
  ⟨orDefault (text "auto") c.beamtimeId, orDefault (text "auto") c.beamline, orDefault (text "detector") c.dataSource,
    c.userToken, c.typeName⟩

end SourceCredentials

def inMemory (creds : Authorizer.SourceCredentials) : List Bytes :=
  [utf8 creds.type, utf8 creds.beamtimeId, utf8 creds.beamline, utf8 creds.dataSource, utf8 creds.token]

def received (originUri : Text) (c : SourceCredentials Bytes) : Option (List Bytes) :=
  (extractRequest (bytesOfText (getRequestString originUri (textOfBytes c.getString)))).bind
    (fun request => (getSourceCredentials request).toOption.map inMemory)

def receivedText (originUri : Text) (c : SourceCredentials Runes) : Option Authorizer.SourceCredentials :=
  (decodeRequest (getRequestString originUri c.getText)).bind
    (fun request => (getSourceCredentials request).toOption)

variable {originUri credentials : Text} {request request' : AuthorizationRequest} {c : SourceCredentials Runes}
  {ms : List (Runes × Value)} {m : Runes × Value}

section Request

theorem getRequestString_eq (originUri credentials : Text) : getRequestString originUri credentials =
    frame (text "SourceCredentials") (text "OriginHost") originUri credentials := by
  have hopen : text "\x7b\"SourceCredentials\":\"" =
      '\x7b' :: '"' :: (text "SourceCredentials" ++ ['"', ':', '"']) := rfl
  have hmiddle : text "\",\"OriginHost\":\"" = '"' :: ',' :: '"' :: (text "OriginHost" ++ ['"', ':', '"']) := rfl
  have hclose : text "\"\x7d" = ['"', '\x7d'] := rfl
  rw [getRequestString, frame, pair, hopen, hmiddle, hclose]
  simp only [List.append_assoc, List.cons_append, List.nil_append]

theorem plain_sourceCredentials : Plain (text "SourceCredentials") := by decide

theorem plain_originHost : Plain (text "OriginHost") := by decide

theorem dead_originHost : Dead (text "OriginHost") := ⟨'O', _, rfl, rfl⟩

theorem decodeRequest_of_plain (horigin : Plain originUri) (hcredentials : Plain credentials) :
    decodeRequest (getRequestString originUri credentials) = some ⟨credentials, originUri⟩ := by
  have hlength : (getRequestString originUri credentials).length + 1 =
      ((getRequestString originUri credentials).length - 3) + 4 := by
    rw [getRequestString_eq, frame]
    simp only [List.length_cons, List.length_append, pair]
    omega
  rw [decodeRequest, hlength, getRequestString_eq,
    value_frame _ plain_sourceCredentials plain_originHost horigin hcredentials]
  rfl

theorem lighter_of_decodeMember (hm : ∀ s, m.2 = .string s → weight s < weight credentials ∨ m.1 = text "OriginHost")
    (hless : weight request.sourceCredentials < weight credentials) (h : decodeMember request m = some request') :
    weight request'.sourceCredentials < weight credentials := by
  unfold decodeMember at h
  split_ifs at h with hname hhost
  · rw [Option.map_eq_some_iff] at h
    obtain ⟨s, hs, rfl⟩ := h
    unfold intoString at hs
    split at hs
    · rename_i s' hvalue
      cases hs
      rcases hm _ hvalue with hlight | horigin
      · exact hlight
      · rw [horigin] at hname
        exact absurd hname (by decide)
    · cases hs
      exact hless
    · cases hs
  · rw [Option.map_eq_some_iff] at h
    obtain ⟨s, -, rfl⟩ := h
    exact hless
  · cases h
    exact hless

theorem lighter_of_foldlM (hms : Lighter (text "OriginHost") credentials ms)
    (hless : weight request.sourceCredentials < weight credentials)
    (h : ms.foldlM decodeMember request = some request') :
    weight request'.sourceCredentials < weight credentials := by
  induction ms generalizing request with
  | nil =>
    cases h
    exact hless
  | cons m ms ih =>
    rw [List.foldlM_cons] at h
    obtain ⟨request₁, h₁, h⟩ := Option.bind_eq_some_iff.mp h
    exact ih (fun m' hm' => hms m' (List.mem_cons_of_mem _ hm'))
      (lighter_of_decodeMember (hms m List.mem_cons_self) hless h₁) h

theorem lighter_of_decodeRequest (horigin : Plain originUri)
    (h : decodeRequest (getRequestString originUri credentials) = some request) :
    Plain credentials ∨ weight request.sourceCredentials < weight credentials := by
  unfold decodeRequest at h
  split at h
  · rename_i members rest hvalue
    rw [getRequestString_eq] at hvalue
    obtain ⟨ms, hobject, hms⟩ :=
      value_of_frame plain_sourceCredentials plain_originHost horigin dead_originHost hvalue
    cases hobject
    rcases hms with ⟨hplain, -⟩ | ⟨hpos, hlight⟩
    · exact .inl hplain
    · have hempty : weight (AuthorizationRequest.mk [] []).sourceCredentials < weight credentials := hpos
      exact .inr (lighter_of_foldlM hlight hempty h)
  · rename_i rest hvalue
    rw [getRequestString_eq] at hvalue
    obtain ⟨ms, hobject, -⟩ :=
      value_of_frame plain_sourceCredentials plain_originHost horigin dead_originHost hvalue
    cases hobject
  · cases h

end Request

/-- To be found by the authorizer. -/
def Auto (t : Runes) : Prop := t = [] ∨ t = text "auto"

instance (t : Runes) : Decidable (Auto t) := inferInstanceAs (Decidable (_ ∨ _))

theorem orDefault_auto (t : Runes) : orDefault (text "auto") t = text "auto" ↔ Auto t := by
  unfold orDefault Auto
  split <;> simp_all

theorem not_mem_typeName (c : SourceCredentials Runes) : '%' ∉ c.typeName := by
  unfold SourceCredentials.typeName
  split <;> decide

theorem getSourceCredentials_getText (hbeamtime : '%' ∉ c.beamtimeId) (hbeamline : '%' ∉ c.beamline)
    (htoken : '%' ∉ c.userToken) (hauto : ¬ (Auto c.beamtimeId ∧ Auto c.beamline)) (originHost : Runes) :
    getSourceCredentials ⟨c.getText, originHost⟩ = .ok c.restoredText := by
  have hsplit : c.getText.splitOn '%' =
      c.typeName :: c.beamtimeId :: c.beamline :: (c.dataSource.splitOn '%' ++ [c.userToken]) := by
    have hpercent : text "%" = ['%'] := rfl
    rw [SourceCredentials.getText, SourceCredentials.joined, hpercent]
    simp only [List.append_assoc, List.cons_append, List.nil_append]
    rw [List.splitOn_append_cons_self_of_not_mem (not_mem_typeName c),
      List.splitOn_append_cons_self_of_not_mem hbeamtime, List.splitOn_append_cons_self_of_not_mem hbeamline,
      List.splitOn_append_cons_self, List.splitOn_eq_singleton htoken]
  rw [← orDefault_auto, ← orDefault_auto] at hauto
  rw [getSourceCredentials_eq hsplit (List.splitOn_ne_nil _ _), if_neg hauto, List.intercalate_splitOn]
  rfl

theorem plain_append (s t : Runes) : Plain (s ++ t) ↔ Plain s ∧ Plain t := by
  simp only [Plain, List.all_append, Bool.and_eq_true]

theorem plain_getText (c : SourceCredentials Runes) : Plain c.getText ↔
    Plain c.beamtimeId ∧ Plain c.beamline ∧ Plain c.dataSource ∧ Plain c.userToken := by
  have hpercent : Plain (text "%") := by decide
  have htype : Plain c.typeName := by
    unfold SourceCredentials.typeName
    split <;> decide
  simp only [SourceCredentials.getText, SourceCredentials.joined, plain_append, hpercent, htype, and_true, true_and,
    and_assoc]

theorem receivedText_iff (hbeamtime : '%' ∉ c.beamtimeId) (hbeamline : '%' ∉ c.beamline)
    (htoken : '%' ∉ c.userToken) (hauto : ¬ (Auto c.beamtimeId ∧ Auto c.beamline)) (horigin : Plain originUri) :
    receivedText originUri c = some c.restoredText ↔
      Plain c.beamtimeId ∧ Plain c.beamline ∧ Plain c.dataSource ∧ Plain c.userToken := by
  have hrestored := getSourceCredentials_getText hbeamtime hbeamline htoken hauto
  rw [← plain_getText]
  constructor
  · intro h
    obtain ⟨request, hrequest, hoption⟩ := Option.bind_eq_some_iff.mp h
    have hcreds : getSourceCredentials request = .ok c.restoredText := by
      cases hget : getSourceCredentials request with
      | error err =>
        rw [hget] at hoption
        cases hoption
      | ok creds =>
        rw [hget] at hoption
        exact congrArg Except.ok (Option.some.inj hoption)
    rcases lighter_of_decodeRequest horigin hrequest with hplain | hless
    · exact hplain
    · -- the text that the authorizer has split is as heavy as the one of the producer
      have hweight := weight_of_getSourceCredentials hcreds
      have hweight' := weight_of_getSourceCredentials (hrestored originUri)
      exact absurd (hweight.trans hweight'.symm) hless.ne
  · intro hplain
    rw [receivedText, decodeRequest_of_plain horigin hplain, Option.bind_some, hrestored]
    rfl

/-! Strings of bytes. -/

/-- The bytes encode characters without a meaning inside of a JSON string. -/
def Harmless (s : Bytes) : Prop := ∃ t, utf8 t = s ∧ Plain t

def AutoBytes (s : Bytes) : Prop := s = [] ∨ s = utf8 (text "auto")

instance (s : Bytes) : Decidable (AutoBytes s) := inferInstanceAs (Decidable (_ ∨ _))

theorem getString_encoded (c : SourceCredentials Runes) : c.encoded.getString = utf8 c.getText := by
  have htype : c.encoded.typeName = c.typeName := rfl
  simp only [SourceCredentials.getString, SourceCredentials.getText, SourceCredentials.joined, utf8_append, htype]
  rfl

theorem request_encoded (horigin : Ascii originUri) (c : SourceCredentials Runes) :
    bytesOfText (getRequestString originUri (textOfBytes c.encoded.getString)) =
      utf8 (getRequestString originUri c.getText) := by
  have happend : ∀ s t : Text, bytesOfText (s ++ t) = bytesOfText s ++ bytesOfText t := fun s t => List.map_append
  rw [getRequestString, getRequestString]
  simp only [happend, utf8_append, bytesOfText_textOfBytes, getString_encoded, bytesOfText_ascii horigin]
  rfl

theorem received_encoded (horigin : Ascii originUri) (c : SourceCredentials Runes) :
    received originUri c.encoded = (receivedText originUri c).map inMemory := by
  rw [received, request_encoded horigin, extractRequest_utf8, receivedText, Option.map_bind]
  rfl

theorem inMemory_injective {creds creds' : Authorizer.SourceCredentials} (h : inMemory creds = inMemory creds') :
    creds = creds' := by
  simp only [inMemory, List.cons.injEq, utf8_injective.eq_iff] at h
  cases creds
  cases creds'
  simp only [Authorizer.SourceCredentials.mk.injEq]
  tauto

theorem inMemory_restoredText (c : SourceCredentials Runes) : inMemory c.restoredText = c.encoded.restored := by
  have hfilled : ∀ (default : String) (t : Runes),
      SourceCredentials.filled default (utf8 t) = utf8 (orDefault (text default) t) := by
    intro default t
    have hempty : utf8 t = [] ↔ t = [] := utf8_injective.eq_iff (b := [])
    by_cases ht : t = []
    · rw [SourceCredentials.filled, if_pos (hempty.mpr ht), orDefault, if_pos ht]
    · rw [SourceCredentials.filled, if_neg (mt hempty.mp ht), orDefault, if_neg ht]
  simp only [SourceCredentials.restored, SourceCredentials.encoded, hfilled]
  rfl

theorem exists_encoded {c : SourceCredentials Bytes} {creds : Authorizer.SourceCredentials}
    (h : inMemory creds = c.restored) : ∃ t : SourceCredentials Runes, t.encoded = c := by
  have hvalid : ∀ {default : String} {val : Bytes} {t : Runes},
      utf8 t = SourceCredentials.filled default val → ∃ u, utf8 u = val := by
    intro default val t ht
    unfold SourceCredentials.filled at ht
    by_cases hval : val = []
    · exact ⟨[], hval.symm⟩
    · rw [if_neg hval] at ht
      exact ⟨t, ht⟩
  simp only [inMemory, SourceCredentials.restored, List.cons.injEq, and_true] at h
  obtain ⟨-, hbeamtime, hbeamline, hsource, htoken⟩ := h
  obtain ⟨beamtime, hbeamtime⟩ := hvalid hbeamtime
  obtain ⟨beamline, hbeamline⟩ := hvalid hbeamline
  obtain ⟨source, hsource⟩ := hvalid hsource
  obtain ⟨type, beamtimeId, beamline', dataSource, userToken⟩ := c
  exact ⟨⟨type, beamtime, beamline, source, creds.token⟩, by simp_all [SourceCredentials.encoded]⟩

theorem not_mem_of_utf8 {t : Runes} (h : (37 : UInt8) ∉ utf8 t) : '%' ∉ t := by
  intro hmem
  exact h (List.mem_flatMap.mpr ⟨'%', hmem, by decide⟩)

theorem autoBytes_of_auto {t : Runes} (h : Auto t) : AutoBytes (utf8 t) := h.imp (congrArg utf8) (congrArg utf8)

theorem harmless_utf8 (t : Runes) : Harmless (utf8 t) ↔ Plain t := by
  constructor
  · rintro ⟨u, hu, hplain⟩
    rwa [← utf8_injective hu]
  · exact fun hplain => ⟨t, rfl, hplain⟩

theorem received_encoded_iff (hbeamtime : (37 : UInt8) ∉ c.encoded.beamtimeId)
    (hbeamline : (37 : UInt8) ∉ c.encoded.beamline) (htoken : (37 : UInt8) ∉ c.encoded.userToken)
    (hauto : ¬ (AutoBytes c.encoded.beamtimeId ∧ AutoBytes c.encoded.beamline)) (horigin : Plain originUri)
    (hascii : Ascii originUri) :
    received originUri c.encoded = some c.encoded.restored ↔ Harmless c.encoded.beamtimeId ∧
      Harmless c.encoded.beamline ∧ Harmless c.encoded.dataSource ∧ Harmless c.encoded.userToken := by
  have hsame : (receivedText originUri c).map inMemory = some (inMemory c.restoredText) ↔
      receivedText originUri c = some c.restoredText := by
    rw [← Option.map_some]
    exact (Option.map_injective (fun _ _ => inMemory_injective)).eq_iff
  rw [received_encoded hascii, ← inMemory_restoredText, hsame,
    receivedText_iff (not_mem_of_utf8 hbeamtime) (not_mem_of_utf8 hbeamline) (not_mem_of_utf8 htoken)
      (fun h => hauto (h.imp autoBytes_of_auto autoBytes_of_auto)) horigin]
  simp only [SourceCredentials.encoded, harmless_utf8]

/-- The authorizer gets the credentials of a producer exactly if their strings are encodings
of characters, none of which has a meaning inside of a JSON string. -/
theorem credentials_survive_iff (c : SourceCredentials Bytes) (originUri : Text)
    (hbeamtime : (37 : UInt8) ∉ c.beamtimeId) (hbeamline : (37 : UInt8) ∉ c.beamline)
    (htoken : (37 : UInt8) ∉ c.userToken) (hauto : ¬ (AutoBytes c.beamtimeId ∧ AutoBytes c.beamline))
    (horigin : Plain originUri) (hascii : Ascii originUri) :
    received originUri c = some c.restored ↔
      Harmless c.beamtimeId ∧ Harmless c.beamline ∧ Harmless c.dataSource ∧ Harmless c.userToken := by
  constructor
  · intro h
    obtain ⟨request, -, hcreds⟩ := Option.bind_eq_some_iff.mp h
    obtain ⟨creds, -, hmemory⟩ := Option.map_eq_some_iff.mp hcreds
    obtain ⟨t, rfl⟩ := exists_encoded hmemory
    exact (received_encoded_iff hbeamtime hbeamline htoken hauto horigin hascii).mp h
  · rintro ⟨⟨beamtime, hb, hpb⟩, ⟨beamline, hl, hpl⟩, ⟨source, hs, hps⟩, ⟨token, ht, hpt⟩⟩
    obtain ⟨type, _, _, _, _⟩ := c
    subst hb hl hs ht
    exact (received_encoded_iff (c := ⟨type, beamtime, beamline, source, token⟩) hbeamtime hbeamline htoken hauto
      horigin hascii).mpr ⟨⟨beamtime, rfl, hpb⟩, ⟨beamline, rfl, hpl⟩, ⟨source, rfl, hps⟩, ⟨token, rfl, hpt⟩⟩

def sampleCredentials (dataSource : Bytes) : SourceCredentials Bytes :=
  ⟨.raw, utf8 (text "11"), utf8 (text "p0"), dataSource, utf8 (text "t")⟩

theorem credentials_survive_separators :
    received (text "127.0.0.1:20") (sampleCredentials (utf8 (text "a%é"))) =
      some [utf8 (text "raw"), utf8 (text "11"), utf8 (text "p0"), utf8 (text "a%é"), utf8 (text "t")] :=
  (credentials_survive_iff (sampleCredentials (utf8 (text "a%é"))) (text "127.0.0.1:20") (by decide) (by decide)
    (by decide) (by decide) (by decide) (by decide)).mpr
    ⟨⟨text "11", rfl, by decide⟩, ⟨text "p0", rfl, by decide⟩, ⟨text "a%é", rfl, by decide⟩,
      ⟨text "t", rfl, by decide⟩⟩

/-- A quotation mark in the data source makes the request unreadable, a backslash changes the
data source, a text can end the request before the token of the producer, and a byte that is
no character is replaced. -/
theorem credentials_garbled :
    received (text "127.0.0.1:20") (sampleCredentials (utf8 (text "a\"b"))) = none ∧
    received (text "127.0.0.1:20") (sampleCredentials (utf8 (text "a\\nb"))) =
      some [utf8 (text "raw"), utf8 (text "11"), utf8 (text "p0"), utf8 (text "a\nb"), utf8 (text "t")] ∧
    received (text "127.0.0.1:20") (sampleCredentials (utf8 (text "a%b\"\x7d"))) =
      some [utf8 (text "raw"), utf8 (text "11"), utf8 (text "p0"), utf8 (text "a"), utf8 (text "b")] ∧
    received (text "127.0.0.1:20") (sampleCredentials [0xFF]) =
      some [utf8 (text "raw"), utf8 (text "11"), utf8 (text "p0"), [0xEF, 0xBF, 0xBD], utf8 (text "t")] := by
  decide +kernel

end Asapo.CredentialTransport
