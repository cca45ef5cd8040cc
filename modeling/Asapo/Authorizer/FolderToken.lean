import Asapo.Common.DataStructs
import Asapo.Path

namespace Asapo.Authorizer

open Asapo.Path

structure VersionNum where
  id : ℤ
  deriving DecidableEq, Repr

structure ServerError where
  status : ℕ
  message : Text
  deriving DecidableEq, Repr

structure FolderTokenRequest where
  folder : Text
  beamtimeId : Text
  token : Text
  deriving DecidableEq, Repr

structure TokenFolders where
  rootFolder : Text
  secondFolder : Text
  deriving DecidableEq, Repr

structure BeamtimeMeta where
  onlinePath : Text
  offlinePath : Text
  deriving DecidableEq, Repr

def extractFolderTokenRequest (body : Except Text FolderTokenRequest) : Except Text FolderTokenRequest :=
  match body with
  | .error err => .error err
  | .ok request =>
    if request.folder.length = 0 ∨ request.beamtimeId.length = 0 ∨ request.token.length = 0 then
      .error (text "some request fields are empty")
    else .ok request

def checkBeamtimeFolder (findMeta : Text → Except Text BeamtimeMeta) (request : FolderTokenRequest)
    (ver : VersionNum) : Except Text TokenFolders :=
  match findMeta request.beamtimeId with
  | .error err => .error err
  | .ok beamtime =>
    if request.folder = text "auto" ∧ ver.id > 1 then .ok ⟨beamtime.offlinePath, beamtime.onlinePath⟩
    else
      let folder := clean request.folder
      if folder ≠ clean beamtime.onlinePath ∧ folder ≠ clean beamtime.offlinePath then
        .error (folder ++ text " does not match beamtime folders " ++ beamtime.onlinePath ++ text " or " ++
          beamtime.offlinePath)
      else .ok ⟨request.folder, []⟩

/-- The folders of the token that is issued. `checkToken` is `checkBeamtimeToken`. -/
def routeFolderToken (findMeta : Text → Except Text BeamtimeMeta)
    (checkToken : FolderTokenRequest → Option Text) (body : Except Text FolderTokenRequest) (ver : VersionNum) :
    Except ServerError TokenFolders :=
  match extractFolderTokenRequest body with
  | .error err => .error ⟨400, err⟩
  | .ok request =>
    match checkToken request with
    | some err => .error ⟨401, err⟩
    | none =>
      match checkBeamtimeFolder findMeta request ver with
      | .error err => .error ⟨401, err⟩
      | .ok folders => .ok folders

variable {findMeta : Text → Except Text BeamtimeMeta} {checkToken : FolderTokenRequest → Option Text}
  {request : FolderTokenRequest} {body : Except Text FolderTokenRequest} {ver : VersionNum}
  {folders : TokenFolders}

theorem checkBeamtimeFolder_cases (h : checkBeamtimeFolder findMeta request ver = .ok folders) :
    ∃ beamtime, findMeta request.beamtimeId = .ok beamtime ∧
      (folders = ⟨beamtime.offlinePath, beamtime.onlinePath⟩ ∨
        folders = ⟨request.folder, []⟩ ∧
          (clean request.folder = clean beamtime.onlinePath ∨
            clean request.folder = clean beamtime.offlinePath)) := by
  unfold checkBeamtimeFolder at h
  split at h
  · cases h
  · rename_i beamtime hmeta
    refine ⟨beamtime, hmeta, ?_⟩
    split at h
    · cases h
      exact .inl rfl
    · extract_lets folder at h
      by_cases hother : folder ≠ clean beamtime.onlinePath ∧ folder ≠ clean beamtime.offlinePath
      · rw [if_pos hother] at h
        cases h
      · rw [if_neg hother] at h
        cases h
        refine .inr ⟨rfl, ?_⟩
        by_cases honline : folder = clean beamtime.onlinePath
        · exact .inl honline
        · exact .inr (not_not.mp (fun hne => hother ⟨honline, hne⟩))

theorem checkBeamtimeFolder_ok (h : checkBeamtimeFolder findMeta request ver = .ok folders) :
    ∃ beamtime, findMeta request.beamtimeId = .ok beamtime ∧
      (clean folders.rootFolder = clean beamtime.onlinePath ∨
        clean folders.rootFolder = clean beamtime.offlinePath) := by
  obtain ⟨beamtime, hmeta, rfl | ⟨rfl, hfolder⟩⟩ := checkBeamtimeFolder_cases h
  · exact ⟨beamtime, hmeta, .inr rfl⟩
  · exact ⟨beamtime, hmeta, hfolder⟩

theorem routeFolderToken_ok (h : routeFolderToken findMeta checkToken body ver = .ok folders) :
    ∃ request, body = .ok request ∧ checkToken request = none ∧
      checkBeamtimeFolder findMeta request ver = .ok folders := by
  unfold routeFolderToken extractFolderTokenRequest at h
  cases body with
  | error err => cases h
  | ok request =>
    refine ⟨request, rfl, ?_⟩
    dsimp only at h
    by_cases hempty : request.folder.length = 0 ∨ request.beamtimeId.length = 0 ∨ request.token.length = 0
    · rw [if_pos hempty] at h
      cases h
    · rw [if_neg hempty] at h
      dsimp only at h
      split at h
      · cases h
      · rename_i htoken
        split at h <;> cases h
        rename_i hfolder
        exact ⟨htoken, hfolder⟩

end Asapo.Authorizer
