import Asapo.Path
import Asapo.Receiver.Disk

namespace Asapo.Receiver.Confinement

open Database FileProcessor RequestHandlerFileProcess Disk

section Names

variable {r : Request} {root : Text}

theorem getRootFolder_ok (h : getRootFolder r = .ok root) :
    ¬ ['.', '.'] <:+: r.getFileName ∧
      (∃ rest, r.getFileName = getStringFromSourceType r.authorization.sourceType ++ '/' :: rest) ∧
      getRootFolderFromRequest r = .ok root := by
  unfold getRootFolder checkFileNameIsAbsolute checkFileFolderCorrespondsToRequestSourceType at h
  by_cases hdots : ['.', '.'] <:+: r.getFileName
  · rw [if_pos hdots] at h
    cases h
  · rw [if_neg hdots] at h
    refine ⟨hdots, ?_⟩
    by_cases hsep : '/' ∈ r.getFileName
    · rw [if_pos hsep] at h
      dsimp only at h
      obtain ⟨folder, rest, hname, hfolder⟩ := List.eq_append_cons_of_mem hsep
      have htake : r.getFileName.takeWhile (· ≠ '/') = folder := by
        rw [hname, List.takeWhile_append_of_pos]
        · simp
        · intro c hc
          exact decide_eq_true (fun heq => hfolder (heq ▸ hc))
      rw [htake] at h
      by_cases htype : folder = getStringFromSourceType r.authorization.sourceType
      · rw [if_pos htype] at h
        exact ⟨⟨rest, htype ▸ hname⟩, h⟩
      · rw [if_neg htype] at h
        cases h
    · rw [if_neg hsep] at h
      cases h

theorem getRootFolderFromRequest_ok (h : getRootFolderFromRequest r = .ok root) :
    if r.authorization.sourceType = .processed ∨
        hasFlag r.header.ingestMode IngestModeFlags.writeRawDataToOffline = true then
      root = r.authorization.offlinePath
    else root = r.authorization.onlinePath ∧ root ≠ [] := by
  unfold getRootFolderFromRequest at h
  extract_lets rawToOffline at h
  by_cases hoffline : r.authorization.sourceType = .processed ∨ rawToOffline = true
  · rw [if_pos hoffline] at h
    rw [if_pos hoffline]
    cases h
    rfl
  · rw [if_neg hoffline] at h
    rw [if_neg hoffline]
    split at h
    · cases h
    · rename_i honline
      cases h
      exact ⟨rfl, honline⟩

theorem elements_sourceType (type : SourceType) :
    ∃ name : Path.Name, Path.elements (getStringFromSourceType type) = [name].map Path.Element.enter := by
  cases type with
  | raw => exact ⟨⟨text "raw", by decide⟩, by decide⟩
  | processed => exact ⟨⟨text "processed", by decide⟩, by decide⟩

theorem liesBelow_of_ok (h : getRootFolder r = .ok root) :
    Path.LiesBelow (root ++ text "/" ++ getStringFromSourceType r.authorization.sourceType)
      (root ++ text "/" ++ r.getFileName) := by
  obtain ⟨hdots, ⟨rest, hname⟩, -⟩ := getRootFolder_ok h
  have hrest : ¬ ['.', '.'] <:+: rest := by
    intro hinside
    refine hdots (hinside.trans ?_)
    rw [hname]
    exact ((List.suffix_cons '/' rest).trans (List.suffix_append _ _)).isInfix
  obtain ⟨names, hnames⟩ := Path.elements_enter hrest
  obtain ⟨name, hfolder⟩ := elements_sourceType r.authorization.sourceType
  have hdown : (Path.walk (root ++ text "/" ++ getStringFromSourceType r.authorization.sourceType)).down ≠ [] := by
    rw [List.append_assoc]
    change (Path.walk (root ++ '/' :: getStringFromSourceType r.authorization.sourceType)).down ≠ []
    rw [Path.walk_append_names (s := root) hfolder]
    simp
  have happend : root ++ text "/" ++ r.getFileName =
      (root ++ text "/" ++ getStringFromSourceType r.authorization.sourceType) ++ '/' :: rest := by
    rw [hname]
    simp only [List.append_assoc]
  rw [happend]
  exact Path.liesBelow_append_names hdown hnames

/-- The path that a file is written to is inside the folder of its source type. -/
theorem path_stays_in_folder (h : getRootFolder r = .ok root) :
    Path.LiesBelow (root ++ text "/" ++ getStringFromSourceType r.authorization.sourceType)
        (root ++ text "/" ++ r.getFileName) ∧
      if r.authorization.sourceType = .processed ∨
          hasFlag r.header.ingestMode IngestModeFlags.writeRawDataToOffline = true then
        root = r.authorization.offlinePath
      else root = r.authorization.onlinePath ∧ root ≠ [] :=
  ⟨liesBelow_of_ok h, getRootFolderFromRequest_ok (getRootFolder_ok h).2.2⟩

def rawFile : Request :=
  { Request.ofHeader ⟨.transferData, 1, 4, 0, fun _ => 0, text "raw\\\\./run1/a.", [], []⟩ with
    authorization := ⟨[], [], [], text "/asap3/offline", text "/beamline/current", .raw⟩ }

theorem path_stays_in_folder_rawFile :
    getRootFolder rawFile = .ok (text "/beamline/current") ∧
      Path.LiesBelow (text "/beamline/current/raw") (text "/beamline/current/raw//./run1/a.") := by
  have hroot : getRootFolder rawFile = .ok (text "/beamline/current") := by decide +kernel
  exact ⟨hroot, (path_stays_in_folder hroot).1⟩

end Names

section Files

variable {J ω : Type} {json : Json J} {g : Storing.Settings} {o : Outside ω} {auth : AuthorizationData}
  {m m' : Machine ω} {s t : Served (World J (Machine ω))} {err : Option Error} {root fname : Text}

def OnlyChanges (name : Text) (m m' : Machine ω) : Prop := ∀ n, n ≠ name → m'.files n = m.files n

theorem OnlyChanges.trans {name : Text} {m₁ m₂ m₃ : Machine ω} (h : OnlyChanges name m₁ m₂)
    (h' : OnlyChanges name m₂ m₃) : OnlyChanges name m₁ m₃ :=
  fun n hn => (h' n hn).trans (h n hn)

theorem onlyChanges_of_files {name : Text} (h : m'.files = m.files) : OnlyChanges name m m' :=
  fun n _ => congrFun h n

theorem openWithCreateFolders_onlyChanges {overwrite : Bool}
    (h : m.openWithCreateFolders o root fname overwrite = (err, m')) :
    OnlyChanges (fullName root fname) m m' ∧ (err = none → m'.opened = fullName root fname) := by
  unfold Machine.openWithCreateFolders at h
  split at h
  · rename_i e m₁ ha
    cases h
    exact ⟨onlyChanges_of_files (attempt_files ha).1, by rintro ⟨⟩⟩
  · rename_i m₁ ha
    have hfiles := (attempt_files ha).1
    split at h
    · cases h
      exact ⟨onlyChanges_of_files hfiles, by rintro ⟨⟩⟩
    · cases h
      refine ⟨fun n hn => ?_, fun _ => rfl⟩
      dsimp only
      rw [Function.update_of_ne hn, hfiles]

theorem write_onlyChanges {bytes : Bytes} (h : m.write o bytes = (err, m')) :
    OnlyChanges m.opened m m' ∧ m'.opened = m.opened := by
  unfold Machine.write at h
  split at h
  · rename_i e m₁ ha
    cases h
    exact ⟨onlyChanges_of_files (attempt_files ha).1, (attempt_files ha).2.1⟩
  · rename_i m₁ ha
    obtain ⟨hfiles, hopened, -⟩ := attempt_files ha
    cases h
    refine ⟨fun n hn => ?_, hopened⟩
    dsimp only
    rw [hopened, Function.update_of_ne hn, hfiles]

theorem openFile_onlyChanges {overwrite : Bool}
    (h : s.call ((receiver json g o auth).openFile root fname overwrite) = (err, t)) :
    OnlyChanges (fullName root fname) s.world.rest t.world.rest ∧
      (err = none → t.world.rest.opened = fullName root fname) :=
  openWithCreateFolders_onlyChanges (lift_inv (f := Machine.openWithCreateFolders o root fname overwrite) h)

theorem writeFile_onlyChanges {bytes : Bytes}
    (h : s.call ((receiver json g o auth).writeFile bytes) = (err, t)) :
    OnlyChanges s.world.rest.opened s.world.rest t.world.rest ∧ t.world.rest.opened = s.world.rest.opened :=
  write_onlyChanges (lift_inv (f := Machine.write o bytes) h)

theorem allocateArray_files {length : ℕ}
    (h : s.call ((receiver json g o auth).allocateArray length) = (err, t)) :
    t.world.rest.files = s.world.rest.files ∧ t.world.rest.opened = s.world.rest.opened := by
  have hattempt := attempt_files
    (lift_inv (f := Machine.attempt o GeneralErrorTemplates.memoryAllocationError) h)
  exact ⟨hattempt.1, hattempt.2.1⟩

theorem receiveLoop_onlyChanges {bufSize length rounds written : ℕ}
    (h : ReceiveFileProcessor.receiveLoop (receiver json g o auth) bufSize length rounds written s =
      some (err, t)) : OnlyChanges s.world.rest.opened s.world.rest t.world.rest := by
  have hlooped := looped_of_receiveLoop h
  clear h
  induction hlooped with
  | done enough => exact onlyChanges_of_files closeFile_files
  | unread more receive failed =>
    obtain ⟨hfiles, -, -⟩ := receive_transfer receive
    exact onlyChanges_of_files (closeFile_files.trans hfiles)
  | unwritten more receive ignored write =>
    obtain ⟨hfiles, hopened, -⟩ := receive_transfer receive
    have hwrite := (writeFile_onlyChanges write).1
    rw [hopened] at hwrite
    exact (onlyChanges_of_files hfiles).trans (hwrite.trans (onlyChanges_of_files closeFile_files))
  | round more receive ignored write rest ih =>
    obtain ⟨hfiles, hopened, -⟩ := receive_transfer receive
    obtain ⟨hwrite, hopened'⟩ := writeFile_onlyChanges write
    rw [hopened', hopened] at ih
    rw [hopened] at hwrite
    exact (onlyChanges_of_files hfiles).trans (hwrite.trans ih)

theorem writeDataToFile_onlyChanges {data : Bytes} {overwrite : Bool}
    (h : WriteFileProcessor.writeDataToFile (receiver json g o auth) root fname data overwrite s = (err, t)) :
    OnlyChanges (fullName root fname) s.world.rest t.world.rest := by
  unfold WriteFileProcessor.writeDataToFile at h
  split at h
  · rename_i e s₁ hopen
    cases h
    exact (openFile_onlyChanges hopen).1
  · rename_i s₁ hopen
    obtain ⟨hnew, hopened⟩ := openFile_onlyChanges hopen
    split at h
    · rename_i e s₂ hwrite
      cases h
      exact hnew.trans (hopened rfl ▸ (writeFile_onlyChanges hwrite).1)
    · rename_i s₂ hwrite
      cases h
      exact hnew.trans ((hopened rfl ▸ (writeFile_onlyChanges hwrite).1).trans
        (onlyChanges_of_files closeFile_files))

theorem receiveDataToFile_onlyChanges {rounds length : ℕ} {overwrite : Bool}
    (h : ReceiveFileProcessor.receiveDataToFile (receiver json g o auth) rounds root fname length overwrite s =
      some (err, t)) : OnlyChanges (fullName root fname) s.world.rest t.world.rest := by
  unfold ReceiveFileProcessor.receiveDataToFile at h
  split at h
  · rename_i e s₁ hopen
    cases h
    exact (openFile_onlyChanges hopen).1
  · rename_i s₁ hopen
    obtain ⟨hnew, hopened⟩ := openFile_onlyChanges hopen
    extract_lets bufSize at h
    split at h
    · rename_i e s₂ halloc
      cases h
      exact hnew.trans (onlyChanges_of_files (allocateArray_files halloc).1)
    · rename_i s₂ halloc
      obtain ⟨hfiles, hopened'⟩ := allocateArray_files halloc
      have hloop := receiveLoop_onlyChanges h
      rw [hopened', hopened rfl] at hloop
      exact hnew.trans ((onlyChanges_of_files hfiles).trans hloop)

/-- A file that either processor changes is the one of the request, in the folder of its
source type. -/
theorem changed_file_stays_in_folder {p : Processor} {rounds : ℕ} {overwrite : Bool} {n : Text}
    (h : processFile (receiver json g o auth) rounds p overwrite s = some (err, t))
    (hn : t.world.rest.files n ≠ s.world.rest.files n) :
    ∃ root, getRootFolder s.request = .ok root ∧ n = fullName root s.request.getFileName ∧
      Path.LiesBelow (root ++ text "/" ++ getStringFromSourceType s.request.authorization.sourceType)
        (root ++ text "/" ++ s.request.getFileName) := by
  have hroot : ∃ root, getRootFolder s.request = .ok root ∧
      OnlyChanges (fullName root s.request.getFileName) s.world.rest t.world.rest := by
    cases p with
    | write =>
      have hwrite : WriteFileProcessor.processFile (receiver json g o auth) overwrite s = (err, t) :=
        Option.some.inj h
      unfold WriteFileProcessor.processFile at hwrite
      split at hwrite
      · cases hwrite
        exact absurd rfl hn
      · split at hwrite
        · cases hwrite
          exact absurd rfl hn
        · rename_i root hroot
          exact ⟨root, hroot, writeDataToFile_onlyChanges hwrite⟩
    | receive =>
      unfold processFile ReceiveFileProcessor.processFile at h
      dsimp only at h
      split at h
      · cases h
        exact absurd rfl hn
      · rename_i root hroot
        exact ⟨root, hroot, receiveDataToFile_onlyChanges h⟩
  obtain ⟨root, hroot, honly⟩ := hroot
  refine ⟨root, hroot, ?_, liesBelow_of_ok hroot⟩
  by_contra hother
  exact hn (honly n hother)

end Files

end Asapo.Receiver.Confinement
