import Asapo.Common.EncodingJson
import Asapo.JsonInsertion

namespace Asapo.Authorizer

open JsonText EncodingJson

structure AuthorizationRequest where
  sourceCredentials : Runes
  originHost : Runes
  deriving DecidableEq, Repr

structure SourceCredentials where
  beamtimeId : Runes
  beamline : Runes
  dataSource : Runes
  token : Runes
  type : Runes
  deriving DecidableEq, Repr

section Decoding

def decodeMember (request : AuthorizationRequest) (m : Runes × Value) : Option AuthorizationRequest :=
  if sameName m.1 (text "SourceCredentials") then
    (intoString request.sourceCredentials m.2).map (fun s => { request with sourceCredentials := s })
  else if sameName m.1 (text "OriginHost") then
    (intoString request.originHost m.2).map (fun s => { request with originHost := s })
  else some request

/-- `json.Decoder`: the first value is decoded, and nothing is read behind it. Later members
replace earlier ones. -/
def decodeRequest (body : Runes) : Option AuthorizationRequest :=
  match value .characters (body.length + 1) body with
  | some (.object members, _) => members.foldlM decodeMember ⟨[], []⟩
  | some (.null, _) => some ⟨[], []⟩
  | _ => none

def extractRequest (body : Bytes) : Option AuthorizationRequest := decodeRequest (characters body)

theorem extractRequest_utf8 (body : Runes) : extractRequest (utf8 body) = decodeRequest body := by
  rw [extractRequest, characters_utf8]

end Decoding

def orDefault (default val : Runes) : Runes := if val = [] then default else val

def getSourceCredentials (request : AuthorizationRequest) : Except Text SourceCredentials :=
  let vals := request.sourceCredentials.splitOn '%'
  let nvals := vals.length
  if nvals < 5 then .error (text "cannot get source credentials from " ++ request.sourceCredentials)
  else
    let creds : SourceCredentials :=
      { type := vals.getD 0 []
        beamtimeId := orDefault (text "auto") (vals.getD 1 [])
        beamline := orDefault (text "auto") (vals.getD 2 [])
        token := vals.getD (nvals - 1) []
        dataSource := orDefault (text "detector") (['%'].intercalate ((vals.take (nvals - 1)).drop 3)) }
    if creds.beamtimeId = text "auto" ∧ creds.beamline = text "auto" then
      .error (text "cannot automaticaly detect both beamline and beamtime_id ")
    else .ok creds

variable {request : AuthorizationRequest} {creds : SourceCredentials} {type beamtime beamline token : Runes}
  {sources : List Runes}

theorem getSourceCredentials_eq
    (h : request.sourceCredentials.splitOn '%' = type :: beamtime :: beamline :: (sources ++ [token]))
    (hs : sources ≠ []) :
    getSourceCredentials request =
      if orDefault (text "auto") beamtime = text "auto" ∧ orDefault (text "auto") beamline = text "auto" then
        .error (text "cannot automaticaly detect both beamline and beamtime_id ")
      else .ok ⟨orDefault (text "auto") beamtime, orDefault (text "auto") beamline,
        orDefault (text "detector") (['%'].intercalate sources), token, type⟩ := by
  have hpos : 0 < sources.length := List.length_pos_iff.mpr hs
  unfold getSourceCredentials
  rw [h]
  simp only [List.length_cons, List.length_append, List.length_nil]
  rw [if_neg (by omega)]
  simp

theorem split_of_length {vals : List Runes} (h : ¬ vals.length < 5) :
    ∃ type beamtime beamline sources token, vals = type :: beamtime :: beamline :: (sources ++ [token]) ∧
      sources ≠ [] := by
  rcases vals with _ | ⟨type, _ | ⟨beamtime, _ | ⟨beamline, vals⟩⟩⟩
  · simp at h
  · simp at h
  · simp at h
  · rcases List.eq_nil_or_concat vals with rfl | ⟨sources, token, rfl⟩
    · simp at h
    · refine ⟨type, beamtime, beamline, sources, token, by rw [List.concat_eq_append], ?_⟩
      rintro rfl
      simp at h

theorem weight_intercalate (ls : List Runes) : weight (['%'].intercalate ls) = (ls.map weight).sum := by
  induction ls with
  | nil => rfl
  | cons t ls ih =>
    cases ls with
    | nil => simp
    | cons u ls =>
      rw [List.intercalate_cons_cons, weight_append, weight_append, ih]
      simp
      rfl

theorem weight_orDefault {default : Runes} (h : weight default = 0) (val : Runes) :
    weight (orDefault default val) = weight val := by
  unfold orDefault
  split
  · rename_i hval
    rw [hval, h]
    rfl
  · rfl

theorem weight_of_getSourceCredentials (h : getSourceCredentials request = .ok creds) :
    weight request.sourceCredentials = weight creds.type + (weight creds.beamtimeId + (weight creds.beamline +
      (weight creds.dataSource + weight creds.token))) := by
  by_cases hlen : (request.sourceCredentials.splitOn '%').length < 5
  · unfold getSourceCredentials at h
    rw [if_pos hlen] at h
    cases h
  · obtain ⟨type, beamtime, beamline, sources, token, hsplit, hs⟩ := split_of_length hlen
    rw [getSourceCredentials_eq hsplit hs] at h
    split at h
    · cases h
    · cases h
      have hjoin : ['%'].intercalate (request.sourceCredentials.splitOn '%') = request.sourceCredentials :=
        List.intercalate_splitOn '%'
      rw [hsplit] at hjoin
      rw [← hjoin, weight_intercalate, weight_orDefault rfl, weight_orDefault rfl, weight_orDefault rfl,
        weight_intercalate]
      simp

end Asapo.Authorizer
