import Asapo.Authorizer.FolderToken

namespace Asapo.FileTransfer

open Asapo.Path Authorizer

structure FileTransferRequest where
  folder : Text
  fileName : Text
  deriving DecidableEq, Repr

structure HttpRequest where
  body : Except Text FileTransferRequest
  claim : Except Text TokenFolders

def checkClaim (r : HttpRequest) (ver : VersionNum) (request : FileTransferRequest) :
    Except ServerError FileTransferRequest :=
  match r.claim with
  | .error err => .error ⟨500, err⟩
  | .ok extraClaim =>
    if ver.id > 1 then .ok { request with folder := extraClaim.rootFolder }
    else if extraClaim.rootFolder ≠ request.folder then
      .error ⟨401, text "access forbidden for folder " ++ request.folder⟩
    else .ok request

def checkFileExists (opens : Text → Bool) (name : Text) : Option ServerError :=
  if opens name then none
  else some ⟨404, text "file " ++ name ++ text " does not exist or cannot be read"⟩

/-- The two versions of the protocol build the name of the file in the same way. -/
def checkRequest (opens : Text → Bool) (r : HttpRequest) (ver : VersionNum) : Except ServerError Text :=
  match r.body with
  | .error err => .error ⟨400, err⟩
  | .ok request =>
    match checkClaim r ver request with
    | .error err => .error err
    | .ok request =>
      let fullName :=
        if ver.id = 1 then clean (request.folder ++ '/' :: request.fileName)
        else clean (request.folder ++ '/' :: request.fileName)
      match checkFileExists opens fullName with
      | some err => .error err
      | none => .ok fullName

/-- A file name comes down again the elements of the folder that it goes up. -/
def ComesBack (folder fileName : Text) : Prop :=
  (walk folder).down.drop ((walk folder).down.length - (walk fileName).up) <+: (walk fileName).down

instance (folder fileName : Text) : Decidable (ComesBack folder fileName) :=
  inferInstanceAs (Decidable (_ <+: _))

variable {opens : Text → Bool} {r : HttpRequest} {ver : VersionNum} {request : FileTransferRequest}
  {extraClaim : TokenFolders} {fullName : Text}

theorem checkClaim_ok {request' : FileTransferRequest} (hclaim : r.claim = .ok extraClaim)
    (h : checkClaim r ver request = .ok request') :
    request' = { request with folder := extraClaim.rootFolder } := by
  unfold checkClaim at h
  rw [hclaim] at h
  dsimp only at h
  split at h
  · cases h
    rfl
  · split at h <;> cases h
    rename_i hfolder
    rw [not_not.mp hfolder]

theorem checkRequest_ok (hclaim : r.claim = .ok extraClaim) (hbody : r.body = .ok request)
    (h : checkRequest opens r ver = .ok fullName) :
    fullName = clean (extraClaim.rootFolder ++ '/' :: request.fileName) ∧ opens fullName = true := by
  unfold checkRequest at h
  rw [hbody] at h
  dsimp only at h
  split at h
  · cases h
  · rename_i request' hok
    rw [checkClaim_ok hclaim hok, ite_self] at h
    unfold checkFileExists at h
    by_cases hopen : opens (clean (extraClaim.rootFolder ++ '/' :: request.fileName)) = true
    · simp only [hopen, if_true, Except.ok.injEq] at h
      subst h
      exact ⟨rfl, hopen⟩
    · simp [hopen] at h

/-- Whoever has a token of a beamtime and asks for a name that comes back is served from the
folders of the beamtime. -/
theorem served_from_beamtime {findMeta : Text → Except Text BeamtimeMeta}
    {checkToken : FolderTokenRequest → Option Text} {tokenBody : Except Text FolderTokenRequest}
    {tokenVer : VersionNum} (hissued : routeFolderToken findMeta checkToken tokenBody tokenVer = .ok extraClaim)
    (hclaim : r.claim = .ok extraClaim) (hroot : Rooted extraClaim.rootFolder)
    (hbody : r.body = .ok request) (h : checkRequest opens r ver = .ok fullName)
    (hback : ComesBack extraClaim.rootFolder request.fileName) :
    ∃ tokenRequest beamtime, tokenBody = .ok tokenRequest ∧ checkToken tokenRequest = none ∧
      findMeta tokenRequest.beamtimeId = .ok beamtime ∧
      (Below beamtime.onlinePath fullName ∨ Below beamtime.offlinePath fullName) := by
  obtain ⟨tokenRequest, hrequest, htoken, hfolder⟩ := routeFolderToken_ok hissued
  obtain ⟨beamtime, hmeta, hclean⟩ := checkBeamtimeFolder_ok hfolder
  obtain ⟨rfl, -⟩ := checkRequest_ok hclaim hbody h
  have hbelow : Below extraClaim.rootFolder (clean (extraClaim.rootFolder ++ '/' :: request.fileName)) := by
    rw [below_clean_iff (hroot.append _), below_append_iff hroot]
    exact hback
  refine ⟨tokenRequest, beamtime, hrequest, htoken, hmeta, ?_⟩
  exact hclean.imp (fun hc => (below_iff_of_clean_eq hroot hc).mp hbelow)
    (fun hc => (below_iff_of_clean_eq hroot hc).mp hbelow)

/-- A file that is served is in the folder of the token, precisely when its name comes back
to the folder. -/
theorem served_below_iff (opens : Text → Bool) (r : HttpRequest) (ver : VersionNum)
    (extraClaim : TokenFolders) (request : FileTransferRequest) (fullName : Text)
    (hclaim : r.claim = .ok extraClaim) (hroot : Rooted extraClaim.rootFolder)
    (hbody : r.body = .ok request) (h : checkRequest opens r ver = .ok fullName) :
    Below extraClaim.rootFolder fullName ↔ ComesBack extraClaim.rootFolder request.fileName := by
  obtain ⟨rfl, -⟩ := checkRequest_ok hclaim hbody h
  rw [below_clean_iff (hroot.append _), below_append_iff hroot]
  rfl

def fileRequest (folder fileName : String) : FileTransferRequest := ⟨text folder, text fileName⟩

def httpRequest (root folder fileName : String) : HttpRequest :=
  { body := .ok (fileRequest folder fileName), claim := .ok ⟨text root, []⟩ }

theorem served_below :
    Below (text "/gpfs/current") (text "/gpfs/current/raw/file") := by
  have hiff := served_below_iff (fun _ => true)
    (httpRequest "/gpfs/current" "/gpfs/current" "raw/../../current/raw//./file") ⟨1⟩
    ⟨text "/gpfs/current", []⟩ (fileRequest "/gpfs/current" "raw/../../current/raw//./file")
    (text "/gpfs/current/raw/file") rfl (by decide) rfl (by decide)
  exact hiff.mpr (by decide)

theorem served_outside :
    ¬ ∀ (opens : Text → Bool) (r : HttpRequest) (ver : VersionNum) (extraClaim : TokenFolders)
      (fullName : Text), (ver.id = 1 ∨ ver.id = 2) → r.claim = .ok extraClaim →
      Rooted extraClaim.rootFolder → checkRequest opens r ver = .ok fullName →
      Below extraClaim.rootFolder fullName := by
  intro h
  have hbelow := h (fun _ => true) (httpRequest "/gpfs/current" "/gpfs/current" "../other/file") ⟨1⟩
    ⟨text "/gpfs/current", []⟩ (text "/gpfs/other/file") (.inl rfl) rfl (by decide) (by decide)
  exact absurd hbelow (by decide)

end Asapo.FileTransfer
