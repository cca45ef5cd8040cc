import Asapo.Authorizer.FolderToken
import Asapo.Authorizer.SourceCredentials

namespace Asapo.Authorizer

open Asapo.Path

structure BeamtimeInfo where
  beamtimeId : Text
  beamline : Text
  dataSource : Text
  offlinePath : Text
  onlinePath : Text
  type : Text
  deriving DecidableEq, Repr

def BeamtimeInfo.paths (found : BeamtimeInfo) : BeamtimeMeta := ⟨found.onlinePath, found.offlinePath⟩

structure CommissioningMeta where
  id : Text
  beamline : Text
  offlinePath : Text
  deriving DecidableEq, Repr

structure Environment where
  rootBeamtimesFolder : Text
  currentBeamlinesFolder : Text
  glob : Text → Except Text (List Text)
  beamtimeFile : Text → Except Text BeamtimeInfo
  commissioningFile : Text → Except Text CommissioningMeta
  toLower : Text → Text

/-- The beamtimes that have been found. They are kept under their own ids, without an online path. -/
structure MetaCache where
  cache : Text → Option BeamtimeInfo
  own : ∀ id found, cache id = some found → found.beamtimeId = id ∧ found.onlinePath = []

namespace MetaCache

def empty : MetaCache := ⟨fun _ => none, fun _ _ h => by cases h⟩

def store (c : MetaCache) (found : BeamtimeInfo) (h : found.onlinePath = []) : MetaCache :=
  ⟨Function.update c.cache found.beamtimeId (some found), by
    intro id info hinfo
    by_cases hid : id = found.beamtimeId
    · subst hid
      rw [Function.update_self] at hinfo
      cases hinfo
      exact ⟨rfl, h⟩
    · rw [Function.update_of_ne hid] at hinfo
      exact c.own id info hinfo⟩

end MetaCache

def trimPrefix (s front : Text) : Text := if front.isPrefixOf s then s.drop front.length else s

def ignoredFoldersAfterGpfs : List Text := [text "common", text "BeamtimeUsers", text "state", text "support"]

def beamtimeMetaFromMatch (env : Environment) (found : Text) : Except Text BeamtimeInfo :=
  let path := trimPrefix (trimPrefix found env.rootBeamtimesFolder) (text "/")
  let vars := path.splitOn '/'
  if vars.length ≠ 6 then .error (text "bad pattern")
  else if ignoredFoldersAfterGpfs.contains (vars.getD 2 []) then .error (text "skipped fodler")
  else .ok ⟨vars.getD 5 [], vars.getD 2 [], [], env.rootBeamtimesFolder ++ text "/" ++ path, [], []⟩

def firstMatch (env : Environment) (beamtimeId : Text) : List Text → Option BeamtimeInfo
  | [] => none
  | found :: rest =>
    match beamtimeMetaFromMatch env found with
    | .error _ => firstMatch env beamtimeId rest
    | .ok info => if info.beamtimeId = beamtimeId then some info else firstMatch env beamtimeId rest

theorem beamtimeMetaFromMatch_ok {env : Environment} {found : Text} {info : BeamtimeInfo}
    (h : beamtimeMetaFromMatch env found = .ok info) :
    info.onlinePath = [] ∧ ∃ path, info.offlinePath = env.rootBeamtimesFolder ++ text "/" ++ path := by
  unfold beamtimeMetaFromMatch at h
  extract_lets path vars at h
  by_cases hlen : vars.length ≠ 6
  · rw [if_pos hlen] at h
    cases h
  · rw [if_neg hlen] at h
    split at h
    · cases h
    · cases h
      exact ⟨rfl, path, rfl⟩

theorem firstMatch_some {env : Environment} {beamtimeId : Text} {found : List Text} {info : BeamtimeInfo}
    (h : firstMatch env beamtimeId found = some info) :
    info.beamtimeId = beamtimeId ∧ info.onlinePath = [] := by
  induction found with
  | nil => cases h
  | cons path rest ih =>
    rw [firstMatch] at h
    cases hinfo : beamtimeMetaFromMatch env path with
    | error err =>
      rw [hinfo] at h
      exact ih h
    | ok i =>
      rw [hinfo] at h
      dsimp only at h
      by_cases hid : i.beamtimeId = beamtimeId
      · rw [if_pos hid] at h
        cases h
        exact ⟨hid, (beamtimeMetaFromMatch_ok hinfo).1⟩
      · rw [if_neg hid] at h
        exact ih h

/-- The error of `Glob` and an empty list of matches are reported in the same way. -/
def findBeamtimeInfoFromId (env : Environment) (cached : MetaCache) (beamtimeId : Text) :
    Except Text BeamtimeInfo × MetaCache :=
  match cached.cache beamtimeId with
  | some info => (.ok info, cached)
  | none =>
    match env.glob (env.rootBeamtimesFolder ++ text "/*/gpfs/*/*/*/" ++ beamtimeId) with
    | .error _ => (.error (text "Cannot find beamline for " ++ beamtimeId), cached)
    | .ok found =>
      match h : firstMatch env beamtimeId found with
      | some info => (.ok info, cached.store info (firstMatch_some h).2)
      | none => (.error (text "Cannot find beamline for " ++ beamtimeId), cached)

def findMetaFileInFolder (env : Environment) (beamline : Text) (iscommissioning : Bool) :
    Except Text (Text × Text) :=
  let pattern := if iscommissioning then text "commissioning-metadata-*.json" else text "beamtime-metadata-*.json"
  let folder := if iscommissioning then text "commissioning" else text "current"
  let onlinePath := env.currentBeamlinesFolder ++ text "/" ++ beamline ++ text "/" ++ folder
  match env.glob (onlinePath ++ text "/" ++ pattern) with
  | .error err => .error err
  | .ok [found] => .ok (found, onlinePath)
  | .ok _ => .error (text "should be one beamtime-metadata file in folder")

def commissioningMetaFromJson (env : Environment) (fname : Text) : Except Text BeamtimeInfo :=
  match env.commissioningFile fname with
  | .error err => .error err
  | .ok comMeta => .ok ⟨comMeta.id, env.toLower comMeta.beamline, [], comMeta.offlinePath, [], []⟩

def findBeamtimeMetaFromBeamline (env : Environment) (beamline : Text) (iscommissioning : Bool) :
    Except Text BeamtimeInfo :=
  match findMetaFileInFolder env beamline iscommissioning with
  | .error err => .error err
  | .ok (fName, onlinePath) =>
    match if iscommissioning then commissioningMetaFromJson env fName else env.beamtimeFile fName with
    | .error err => .error err
    | .ok info =>
      if info.beamtimeId = [] ∨ info.offlinePath = [] ∨ info.beamline = [] then
        .error (text "cannot set meta fields from beamtime file")
      else .ok { info with onlinePath := onlinePath }

def isCommissioning (beamtime : Text) : Bool := beamtime.head? = some 'c'

def withOnlinePath (env : Environment) (creds : SourceCredentials) (info : BeamtimeInfo) : BeamtimeInfo :=
  match findBeamtimeMetaFromBeamline env info.beamline (isCommissioning creds.beamtimeId) with
  | .error _ => info
  | .ok online => if info.beamtimeId = online.beamtimeId then { info with onlinePath := online.onlinePath } else info

def findMeta (env : Environment) (cached : MetaCache) (creds : SourceCredentials) :
    Except Text BeamtimeInfo × MetaCache :=
  let found :=
    if creds.beamtimeId ≠ text "auto" then
      let byId := findBeamtimeInfoFromId env cached creds.beamtimeId
      (byId.1.map (withOnlinePath env creds), byId.2)
    else (findBeamtimeMetaFromBeamline env creds.beamline false, cached)
  (found.1.map (fun info =>
    { info with
      onlinePath := if creds.type = text "processed" then [] else info.onlinePath
      dataSource := creds.dataSource
      type := creds.type }), found.2)

def findPaths (env : Environment) (cached : MetaCache) (beamtimeId : Text) : Except Text BeamtimeMeta :=
  (findMeta env cached ⟨beamtimeId, text "auto", [], [], []⟩).1.map BeamtimeInfo.paths

/-- The root folder is the offline path, or the online path of a beamtime that is online. -/
def BoundTo (beamtime : BeamtimeMeta) (folders : TokenFolders) : Prop :=
  clean folders.rootFolder = clean beamtime.offlinePath ∨
    beamtime.onlinePath ≠ [] ∧ clean folders.rootFolder = clean beamtime.onlinePath

variable {env : Environment} {cached : MetaCache} {request : FolderTokenRequest} {ver : VersionNum}
  {creds : SourceCredentials} {info : BeamtimeInfo} {beamtime : BeamtimeMeta}

theorem findBeamtimeInfoFromId_ok {id : Text} (h : (findBeamtimeInfoFromId env cached id).1 = .ok info) :
    info.beamtimeId = id ∧ info.onlinePath = [] := by
  unfold findBeamtimeInfoFromId at h
  split at h
  · rename_i hcached
    cases h
    exact cached.own id info hcached
  · split at h
    · cases h
    · split at h
      · rename_i hfirst
        cases h
        exact firstMatch_some hfirst
      · cases h

theorem ok_of_map {α β : Type} {f : α → β} {x : Except Text α} {y : β} (h : x.map f = .ok y) :
    ∃ a, x = .ok a ∧ f a = y := by
  cases x with
  | error err => cases h
  | ok a =>
    cases h
    exact ⟨a, rfl, rfl⟩

/-- A beamtime that is asked for by its id has an online path only as the current one of its
beamline. -/
theorem findMeta_online (hid : creds.beamtimeId ≠ text "auto") (h : (findMeta env cached creds).1 = .ok info)
    (honline : info.onlinePath ≠ []) :
    ∃ online, findBeamtimeMetaFromBeamline env info.beamline (isCommissioning creds.beamtimeId) = .ok online ∧
      online.beamtimeId = creds.beamtimeId ∧ info.onlinePath = online.onlinePath := by
  rw [findMeta] at h
  simp only [hid, ne_eq, not_false_eq_true, if_true] at h
  obtain ⟨found, hfound, rfl⟩ := ok_of_map h
  obtain ⟨byId, hbyId, rfl⟩ := ok_of_map hfound
  obtain ⟨hown, hempty⟩ := findBeamtimeInfoFromId_ok hbyId
  by_cases htype : creds.type = text "processed"
  · simp [htype] at honline
  · simp only [htype, if_false] at honline ⊢
    unfold withOnlinePath at honline ⊢
    cases hline : findBeamtimeMetaFromBeamline env byId.beamline (isCommissioning creds.beamtimeId) with
    | error err =>
      rw [hline] at honline
      exact absurd hempty honline
    | ok online =>
      rw [hline] at honline
      dsimp only at honline ⊢
      by_cases hsame : byId.beamtimeId = online.beamtimeId
      · rw [if_pos hsame]
        exact ⟨online, hline, hsame ▸ hown, rfl⟩
      · rw [if_neg hsame] at honline
        exact absurd hempty honline

theorem checkBeamtimeFolder_dot (hmeta : findPaths env cached request.beamtimeId = .ok beamtime)
    (honline : beamtime.onlinePath = []) (hdot : clean request.folder = ['.']) :
    checkBeamtimeFolder (findPaths env cached) request ver = .ok ⟨request.folder, []⟩ := by
  have hauto : ¬ (request.folder = text "auto" ∧ ver.id > 1) := by
    rintro ⟨h, -⟩
    rw [h] at hdot
    revert hdot
    decide
  have hclean : clean [] = ['.'] := by decide
  rw [checkBeamtimeFolder, hmeta]
  dsimp only
  rw [if_neg hauto, if_neg (by simp [honline, hclean, hdot])]

/-- The folder of a token is one of its beamtime, unless the cleaned name of an online path
that is not there is asked for: the dot. -/
theorem folder_bound_iff (env : Environment) (cached : MetaCache) (request : FolderTokenRequest)
    (ver : VersionNum) :
    (∀ folders, checkBeamtimeFolder (findPaths env cached) request ver = .ok folders →
      ∃ beamtime, findPaths env cached request.beamtimeId = .ok beamtime ∧ BoundTo beamtime folders) ↔
    ∀ beamtime, findPaths env cached request.beamtimeId = .ok beamtime → beamtime.onlinePath = [] →
      clean request.folder = ['.'] → clean beamtime.offlinePath = ['.'] := by
  constructor
  · intro h beamtime hmeta honline hdot
    obtain ⟨beamtime', hmeta', hbound⟩ := h _ (checkBeamtimeFolder_dot hmeta honline hdot)
    rw [hmeta] at hmeta'
    cases hmeta'
    obtain hoffline | ⟨hne, -⟩ := hbound
    · rw [← hoffline]
      exact hdot
    · exact absurd honline hne
  · intro h folders hfolders
    obtain ⟨beamtime, hmeta, rfl | ⟨rfl, hfolder⟩⟩ := checkBeamtimeFolder_cases hfolders
    · exact ⟨beamtime, hmeta, .inl rfl⟩
    · refine ⟨beamtime, hmeta, ?_⟩
      obtain honline | hoffline := hfolder
      · by_cases hempty : beamtime.onlinePath = []
        · have hclean : clean [] = ['.'] := by decide
          have hdot : clean request.folder = ['.'] := by rw [honline, hempty, hclean]
          exact .inl (hdot.trans (h beamtime hmeta hempty hdot).symm)
        · exact .inr ⟨hempty, honline⟩
      · exact .inl hoffline

def offlineBeamtime : Environment where
  rootBeamtimesFolder := text "/asap3"
  currentBeamlinesFolder := text "/beamline"
  glob pattern :=
    if pattern = text "/asap3/*/gpfs/*/*/*/11000015" then .ok [text "/asap3/petra3/gpfs/p07/2019/data/11000015"]
    else .ok []
  beamtimeFile _ := .error (text "no such file")
  commissioningFile _ := .error (text "no such file")
  toLower s := s.map Char.toLower

theorem dot_is_a_folder_of_offline_beamtime :
    routeFolderToken (findPaths offlineBeamtime .empty) (fun _ => none)
        (.ok ⟨text ".", text "11000015", text "token"⟩) ⟨3⟩ = .ok ⟨text ".", []⟩ ∧
      findPaths offlineBeamtime .empty (text "11000015") =
        .ok ⟨[], text "/asap3/petra3/gpfs/p07/2019/data/11000015"⟩ ∧
      ¬ BoundTo ⟨[], text "/asap3/petra3/gpfs/p07/2019/data/11000015"⟩ ⟨text ".", []⟩ := by
  have hpaths : findPaths offlineBeamtime .empty (text "11000015") =
      .ok ⟨[], text "/asap3/petra3/gpfs/p07/2019/data/11000015"⟩ := by decide +kernel
  refine ⟨?_, hpaths, ?_⟩
  · rw [routeFolderToken, extractFolderTokenRequest]
    dsimp only
    rw [if_neg (by decide)]
    dsimp only
    rw [checkBeamtimeFolder_dot hpaths rfl (by decide)]
  · rintro (h | ⟨h, -⟩)
    · revert h
      decide +kernel
    · exact h rfl

end Asapo.Authorizer
