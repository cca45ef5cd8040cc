import Asapo.Common.DataStructs
import Asapo.Common.Error

namespace Asapo.EventMonitor

def systemError : ErrorTemplate := ⟨1, "system error"⟩

def inCloseWrite : ℕ := 0x8
def inMovedFrom : ℕ := 0x40
def inMovedTo : ℕ := 0x80
def inCreate : ℕ := 0x100
def inDeleteSelf : ℕ := 0x400
def inIsdir : ℕ := 0x40000000

structure InotifyEvent where
  mask : ℕ
  wd : ℤ
  name : Text
  deriving DecidableEq, Repr

namespace InotifyEvent

def isDirectoryEvent (e : InotifyEvent) : Bool := hasFlag e.mask inIsdir || hasFlag e.mask inDeleteSelf

def isNewFileInFolderEvent (e : InotifyEvent) : Bool :=
  !e.isDirectoryEvent && (hasFlag e.mask inCloseWrite || hasFlag e.mask inMovedTo)

def isNewDirectoryInFolderEvent (e : InotifyEvent) : Bool :=
  e.isDirectoryEvent && (hasFlag e.mask inCreate || hasFlag e.mask inMovedTo)

def isDeleteDirectoryInFolderEvent (e : InotifyEvent) : Bool :=
  e.isDirectoryEvent && (hasFlag e.mask inDeleteSelf || hasFlag e.mask inMovedFrom)

def isDeleteDirectoryInFolderEventByMove (e : InotifyEvent) : Bool :=
  e.isDeleteDirectoryInFolderEvent && hasFlag e.mask inMovedFrom

end InotifyEvent

structure Inotify where
  fd : ℤ
  watches : List ℤ
  deriving DecidableEq, Repr

namespace Inotify

/-- The watch that the system gives, which can be one that is there already. -/
def addWatch (k : Inotify) (wd : ℤ) : Inotify :=
  { k with watches := if k.watches.contains wd then k.watches else k.watches ++ [wd] }

/-- `inotify_rm_watch` refuses a file descriptor that is not one of inotify. -/
def deleteWatch (k : Inotify) (fd wd : ℤ) : Inotify :=
  if fd = k.fd then { k with watches := k.watches.filter (· ≠ wd) } else k

end Inotify

def kProcessedFilenamesBufLen : ℕ := 1000

/-- `SystemFolderWatch`, whose file descriptor is that of its inotify instance. The folders are a list
without the order of the map, which nothing depends on. -/
structure SystemFolderWatch where
  rootFolder : Text
  watchedFoldersPaths : List (ℤ × Text)
  inotify : Inotify
  processedFilenames : List Text
  processedFilenamesCounter : ℕ
  deriving DecidableEq, Repr

/-- What the disk and the system answer. A watch that cannot be added has no number. -/
structure Environment where
  addWatch : Text → Option ℤ
  getSubDirectories : Text → Except Error (List Text)
  filesInFolder : Text → Except Error (List Text)

namespace SystemFolderWatch

def assign (id : ℤ) (path : Text) (folders : List (ℤ × Text)) : List (ℤ × Text) :=
  folders.filter (fun e => e.1 ≠ id) ++ [(id, path)]

def addFolderToWatch (env : Environment) (folder : Text) (s : SystemFolderWatch) :
    Option Error × SystemFolderWatch :=
  match env.addWatch folder with
  | none => (some (systemError.generate ("cannot add watch for " ++ String.ofList folder)), s)
  | some id =>
    (none, { s with
      watchedFoldersPaths := assign id (folder.drop (s.rootFolder.length + 1)) s.watchedFoldersPaths
      inotify := s.inotify.addWatch id })

def addFoldersToWatch (env : Environment) : List Text → SystemFolderWatch → Option Error × SystemFolderWatch
  | [], s => (none, s)
  | folder :: folders, s =>
    match s.addFolderToWatch env folder with
    | (some err, s) => (some err, s)
    | (none, s) => addFoldersToWatch env folders s

def addFolderAndSubfoldersToWatch (env : Environment) (folder : Text) (s : SystemFolderWatch) :
    Option Error × SystemFolderWatch :=
  match s.addFolderToWatch env folder with
  | (some err, s) => (some err, s)
  | (none, s) =>
    match env.getSubDirectories folder with
    | .error err => (some err, s)
    | .ok subdirs => addFoldersToWatch env subdirs s

def addMonitoredFolders (env : Environment) : List Text → SystemFolderWatch → Option Error × SystemFolderWatch
  | [], s => (none, s)
  | folder :: folders, s =>
    match s.addFolderAndSubfoldersToWatch env (s.rootFolder ++ text "/" ++ folder) with
    | (some err, s) => (some (systemError.generate ("cannot initialize inotify: " ++ err.explain)), s)
    | (none, s) => addMonitoredFolders env folders s

def startFolderMonitor (env : Environment) (init : Option ℤ) (rootFolder : Text) (monitoredFolders : List Text) :
    Except Error SystemFolderWatch :=
  match init with
  | none => .error (systemError.generate "cannot initialize inotify")
  | some fd =>
    match addMonitoredFolders env monitoredFolders
      ⟨rootFolder, [], ⟨fd, []⟩, List.replicate kProcessedFilenamesBufLen [], 0⟩ with
    | (some err, _) => .error err
    | (none, s) => .ok s

def findEventIterator (s : SystemFolderWatch) (event : InotifyEvent) : Except Error (ℤ × Text) :=
  match s.watchedFoldersPaths.find? (fun e => e.1 = event.wd) with
  | none =>
    .error (systemError.generate ("cannot find monitored folder for wd number " ++ toString event.wd))
  | some entry => .ok entry

def processFileEvent (s : SystemFolderWatch) (event : InotifyEvent) :
    Except Error (SystemFolderWatch × List Text) :=
  if !event.isNewFileInFolderEvent then .ok (s, [])
  else
    match s.findEventIterator event with
    | .error err => .error err
    | .ok entry =>
      let fname := entry.2 ++ text "/" ++ event.name
      let counter := s.processedFilenamesCounter + 1
      .ok ({ s with
        processedFilenames := s.processedFilenames.set s.processedFilenamesCounter fname
        processedFilenamesCounter := if counter = kProcessedFilenamesBufLen then 0 else counter }, [fname])

def addExistingFilesToEvents (env : Environment) (s : SystemFolderWatch) (fullPath relPath : Text) :
    Except Error (List Text) :=
  (env.filesInFolder fullPath).map (fun files =>
    (files.map (fun file => relPath ++ text "/" ++ file)).filter (fun fname => !s.processedFilenames.contains fname))

/-- The folder stays added if its files cannot be listed. -/
def processNewDirectoryInFolderEvent (env : Environment) (s : SystemFolderWatch) (event : InotifyEvent) :
    SystemFolderWatch × Except Error (List Text) :=
  match s.findEventIterator event with
  | .error err => (s, .error err)
  | .ok entry =>
    let relativePath := entry.2 ++ text "/" ++ event.name
    let fullPath := s.rootFolder ++ text "/" ++ relativePath
    match s.addFolderAndSubfoldersToWatch env fullPath with
    | (some err, s) => (s, .error err)
    | (none, s) => (s, s.addExistingFilesToEvents env fullPath relativePath)

/-- The source gives the number of the watch as the file descriptor, and the file descriptor
as the number of the watch. -/
def deleteWatchOf (k : Inotify) (entry : ℤ × Text) : Inotify := k.deleteWatch entry.1 k.fd

def removeFolderFromWatch (s : SystemFolderWatch) (entry : ℤ × Text) : SystemFolderWatch :=
  { s with
    watchedFoldersPaths := s.watchedFoldersPaths.filter (fun e => e.1 ≠ entry.1)
    inotify := deleteWatchOf s.inotify entry }

/-- The loop over the map, with the watches that are left: the folders that stay. -/
def removeLoop (path : Text) : List (ℤ × Text) → Inotify → List (ℤ × Text) × Inotify
  | [], k => ([], k)
  | entry :: rest, k =>
    if path.length ≤ entry.2.length ∧ path.isPrefixOf entry.2 then removeLoop path rest (deleteWatchOf k entry)
    else
      let res := removeLoop path rest k
      (entry :: res.1, res.2)

def removeFolderWithSubfoldersFromWatch (s : SystemFolderWatch) (path : Text) : SystemFolderWatch :=
  let res := removeLoop path s.watchedFoldersPaths s.inotify
  { s with watchedFoldersPaths := res.1, inotify := res.2 }

def processDeleteDirectoryInFolderEvent (s : SystemFolderWatch) (event : InotifyEvent) :
    Except Error SystemFolderWatch :=
  match s.findEventIterator event with
  | .error err => .error err
  | .ok entry =>
    if event.isDeleteDirectoryInFolderEventByMove then
      .ok (s.removeFolderWithSubfoldersFromWatch (entry.2 ++ text "/" ++ event.name))
    else .ok (s.removeFolderFromWatch entry)

def processInotifyEvent (env : Environment) (s : SystemFolderWatch) (event : InotifyEvent) :
    SystemFolderWatch × Except Error (List Text) :=
  if event.isDirectoryEvent then
    if event.isNewDirectoryInFolderEvent then s.processNewDirectoryInFolderEvent env event
    else if event.isDeleteDirectoryInFolderEvent then
      match s.processDeleteDirectoryInFolderEvent event with
      | .error err => (s, .error err)
      | .ok s => (s, .ok [])
    else (s, .ok [])
  else
    match s.processFileEvent event with
    | .error err => (s, .error err)
    | .ok (s, files) => (s, .ok files)

def processEvents (env : Environment) : List InotifyEvent → SystemFolderWatch → SystemFolderWatch × List Text × ℕ
  | [], s => (s, [], 0)
  | event :: events, s =>
    let step := s.processInotifyEvent env event
    let rest := processEvents env events step.1
    match step.2 with
    | .error _ => (rest.1, rest.2.1, rest.2.2 + 1)
    | .ok files => (rest.1, files ++ rest.2.1, rest.2.2)

def processInotifyEvents (env : Environment) (events : List InotifyEvent) (s : SystemFolderWatch) :
    SystemFolderWatch × Except Error (List Text) :=
  let res := processEvents env events s
  if res.2.2 < events.length then (res.1, .ok res.2.1)
  else (res.1, .error (systemError.generate "error processing inotify events"))

/-- Every folder has a watch, and a number of its own. -/
structure Valid (s : SystemFolderWatch) : Prop where
  keys : (s.watchedFoldersPaths.map Prod.fst).Nodup
  watched : ∀ e ∈ s.watchedFoldersPaths, e.1 ∈ s.inotify.watches

/-- A folder is another one or inside it. -/
def InFolder (path folder : Text) : Prop := folder = path ∨ path ++ ['/'] <+: folder

instance (path folder : Text) : Decidable (InFolder path folder) := inferInstanceAs (Decidable (_ ∨ _))

/-- The removal of a folder is that of the folders in it, with their watches, and nothing else. -/
structure RemovesExactly (s : SystemFolderWatch) (path : Text) : Prop where
  folders : (s.removeFolderWithSubfoldersFromWatch path).watchedFoldersPaths =
    s.watchedFoldersPaths.filter (fun e => ¬ InFolder path e.2)
  watches : (s.removeFolderWithSubfoldersFromWatch path).inotify.watches =
    s.inotify.watches.filter (fun wd => ¬ ∃ e ∈ s.watchedFoldersPaths, e.1 = wd ∧ InFolder path e.2)
  reported : ∀ e ∈ s.watchedFoldersPaths, ¬ InFolder path e.2 → ∀ event : InotifyEvent, event.wd = e.1 →
    event.isNewFileInFolderEvent = true →
    ∃ s', (s.removeFolderWithSubfoldersFromWatch path).processFileEvent event =
      .ok (s', [e.2 ++ text "/" ++ event.name])

variable {env : Environment} {s s' : SystemFolderWatch} {event : InotifyEvent} {path folder : Text} {err : Option Error}

section Invariant

theorem keys_assign {id : ℤ} {folders : List (ℤ × Text)} (h : (folders.map Prod.fst).Nodup) :
    ((assign id path folders).map Prod.fst).Nodup := by
  rw [assign, List.map_append, List.map_singleton, List.nodup_append]
  refine ⟨(List.filter_sublist.map Prod.fst).nodup h, List.nodup_singleton _, ?_⟩
  intro key hkey id' hid
  obtain ⟨e, he, rfl⟩ := List.mem_map.mp hkey
  rw [List.mem_singleton.mp hid]
  exact of_decide_eq_true (List.mem_filter.mp he).2

theorem mem_addWatch {k : Inotify} {wd wd' : ℤ} : wd ∈ (k.addWatch wd').watches ↔ wd ∈ k.watches ∨ wd = wd' := by
  rw [Inotify.addWatch]
  dsimp only
  split
  · rename_i hmem
    constructor
    · exact .inl
    · rintro (h | rfl)
      · exact h
      · exact List.contains_iff_mem.mp hmem
  · rw [List.mem_append, List.mem_singleton]

theorem Valid.addFolderToWatch (hs : s.Valid) (h : s.addFolderToWatch env folder = (err, s')) : s'.Valid := by
  unfold SystemFolderWatch.addFolderToWatch at h
  split at h
  · cases h
    exact hs
  · rename_i id _
    cases h
    refine ⟨keys_assign hs.keys, ?_⟩
    intro e he
    rw [mem_addWatch]
    obtain he | he := List.mem_append.mp he
    · exact .inl (hs.watched e (List.mem_filter.mp he).1)
    · rw [List.mem_singleton.mp he]
      exact .inr rfl

theorem Valid.addFoldersToWatch {folders : List Text} (hs : s.Valid)
    (h : addFoldersToWatch env folders s = (err, s')) : s'.Valid := by
  induction folders generalizing s with
  | nil =>
    cases h
    exact hs
  | cons folder folders ih =>
    rw [SystemFolderWatch.addFoldersToWatch] at h
    split at h
    · rename_i hadd
      cases h
      exact hs.addFolderToWatch hadd
    · rename_i hadd
      exact ih (hs.addFolderToWatch hadd) h

theorem Valid.addFolderAndSubfoldersToWatch (hs : s.Valid)
    (h : s.addFolderAndSubfoldersToWatch env folder = (err, s')) : s'.Valid := by
  unfold SystemFolderWatch.addFolderAndSubfoldersToWatch at h
  split at h
  · rename_i hadd
    cases h
    exact hs.addFolderToWatch hadd
  · rename_i hadd
    split at h
    · cases h
      exact hs.addFolderToWatch hadd
    · exact (hs.addFolderToWatch hadd).addFoldersToWatch h

theorem mem_deleteWatchOf {k : Inotify} {entry : ℤ × Text} {wd : ℤ} (hwd : wd ≠ entry.1) (h : wd ∈ k.watches) :
    wd ∈ (deleteWatchOf k entry).watches := by
  rw [deleteWatchOf, Inotify.deleteWatch]
  split
  · rename_i hfd
    exact List.mem_filter.mpr ⟨h, decide_eq_true (hfd ▸ hwd)⟩
  · exact h

theorem Valid.removeFolderFromWatch (hs : s.Valid) (entry : ℤ × Text) : (s.removeFolderFromWatch entry).Valid where
  keys := (List.filter_sublist.map Prod.fst).nodup hs.keys
  watched e he := by
    obtain ⟨he, hne⟩ := List.mem_filter.mp he
    exact mem_deleteWatchOf (of_decide_eq_true hne) (hs.watched e he)

end Invariant

section Removal

theorem isPrefixOf_iff : path.length ≤ folder.length ∧ path.isPrefixOf folder = true ↔ path <+: folder := by
  rw [List.isPrefixOf_iff_prefix]
  exact ⟨And.right, fun h => ⟨h.length_le, h⟩⟩

theorem removeLoop_folders (l : List (ℤ × Text)) (k : Inotify) :
    (removeLoop path l k).1 = l.filter (fun e => ¬ path <+: e.2) := by
  induction l generalizing k with
  | nil => rfl
  | cons entry l ih =>
    rw [removeLoop]
    by_cases hentry : path <+: entry.2
    · rw [if_pos (isPrefixOf_iff.mpr hentry), ih, List.filter_cons_of_neg (by simp [hentry])]
    · rw [if_neg (mt isPrefixOf_iff.mp hentry), List.filter_cons_of_pos (by simp [hentry])]
      dsimp only
      rw [ih]

/-- The only watch that can be deleted has the number of the file descriptor. -/
theorem removeLoop_inotify (l : List (ℤ × Text)) (k : Inotify) :
    (removeLoop path l k).2 =
      if ∃ e ∈ l, path <+: e.2 ∧ e.1 = k.fd then { k with watches := k.watches.filter (· ≠ k.fd) } else k := by
  induction l generalizing k with
  | nil => simp [removeLoop]
  | cons entry l ih =>
    rw [removeLoop]
    by_cases hentry : path <+: entry.2
    · rw [if_pos (isPrefixOf_iff.mpr hentry), ih, deleteWatchOf, Inotify.deleteWatch]
      by_cases hfd : entry.1 = k.fd
      · have hhead : ∃ e ∈ entry :: l, path <+: e.2 ∧ e.1 = k.fd := ⟨entry, List.mem_cons_self, hentry, hfd⟩
        rw [if_pos hfd, if_pos hhead]
        dsimp only
        split <;> simp
      · rw [if_neg hfd]
        simp only [List.exists_mem_cons_iff, hfd, and_false, false_or]
    · rw [if_neg (mt isPrefixOf_iff.mp hentry)]
      dsimp only
      rw [ih]
      simp only [List.exists_mem_cons_iff, hentry, false_and, false_or]

theorem InFolder.isPrefix (h : InFolder path folder) : path <+: folder := by
  obtain rfl | h := h
  · exact List.prefix_rfl
  · exact (List.prefix_append path ['/']).trans h

theorem findEventIterator_of_mem (hkeys : (s.watchedFoldersPaths.map Prod.fst).Nodup) {e : ℤ × Text}
    (he : e ∈ s.watchedFoldersPaths) (hwd : event.wd = e.1) : s.findEventIterator event = .ok e := by
  rw [findEventIterator]
  cases hfind : s.watchedFoldersPaths.find? (fun e => e.1 = event.wd) with
  | none => exact absurd (decide_eq_true hwd.symm) (List.find?_eq_none.mp hfind e he)
  | some e' =>
    have hfound : e'.1 = event.wd := by simpa using List.find?_some hfind
    have hkey : e'.1 = e.1 := hfound.trans hwd
    rw [List.inj_on_of_nodup_map hkeys (List.mem_of_find?_eq_some hfind) he hkey]

theorem processFileEvent_of_mem (hkeys : (s.watchedFoldersPaths.map Prod.fst).Nodup) {e : ℤ × Text}
    (he : e ∈ s.watchedFoldersPaths) (hwd : event.wd = e.1) (hnew : event.isNewFileInFolderEvent = true) :
    ∃ s', s.processFileEvent event = .ok (s', [e.2 ++ text "/" ++ event.name]) := by
  rw [processFileEvent, hnew, findEventIterator_of_mem hkeys he hwd]
  exact ⟨_, rfl⟩

theorem watches_eq_filter :
    (s.removeFolderWithSubfoldersFromWatch path).inotify.watches =
      s.inotify.watches.filter (fun wd =>
        ¬ (wd = s.inotify.fd ∧ ∃ e ∈ s.watchedFoldersPaths, path <+: e.2 ∧ e.1 = s.inotify.fd)) := by
  change (removeLoop path s.watchedFoldersPaths s.inotify).2.watches = _
  rw [removeLoop_inotify]
  split
  · rename_i hfd
    refine List.filter_congr (fun wd _ => ?_)
    rw [decide_eq_decide]
    exact not_congr ⟨fun h => ⟨h, hfd⟩, And.left⟩
  · rename_i hfd
    refine (List.filter_eq_self.mpr (fun wd _ => ?_)).symm
    exact decide_eq_true (fun h => hfd h.2)

theorem mem_watches_iff (wd : ℤ) :
    wd ∈ (s.removeFolderWithSubfoldersFromWatch path).inotify.watches ↔
      wd ∈ s.inotify.watches ∧
        ¬ (wd = s.inotify.fd ∧ ∃ e ∈ s.watchedFoldersPaths, path <+: e.2 ∧ e.1 = s.inotify.fd) := by
  rw [watches_eq_filter, List.mem_filter, decide_eq_true_eq]

theorem Valid.removeFolderWithSubfoldersFromWatch (hs : s.Valid) (path : Text) :
    (s.removeFolderWithSubfoldersFromWatch path).Valid where
  keys := by
    change ((removeLoop path s.watchedFoldersPaths s.inotify).1.map Prod.fst).Nodup
    rw [removeLoop_folders]
    exact (List.filter_sublist.map Prod.fst).nodup hs.keys
  watched e he := by
    change e ∈ (removeLoop path s.watchedFoldersPaths s.inotify).1 at he
    rw [removeLoop_folders, List.mem_filter, decide_eq_true_eq] at he
    refine (mem_watches_iff e.1).mpr ⟨hs.watched e he.1, ?_⟩
    -- the removed folder with that number would be this one
    rintro ⟨hfd, e', he', hpath, hfd'⟩
    have hsame := List.inj_on_of_nodup_map hs.keys he.1 he' (hfd.trans hfd'.symm)
    exact he.2 (hsame ▸ hpath)

theorem folders_eq_iff :
    (s.removeFolderWithSubfoldersFromWatch path).watchedFoldersPaths =
        s.watchedFoldersPaths.filter (fun e => ¬ InFolder path e.2) ↔
      ∀ e ∈ s.watchedFoldersPaths, path <+: e.2 → InFolder path e.2 := by
  change (removeLoop path s.watchedFoldersPaths s.inotify).1 = _ ↔ _
  rw [removeLoop_folders]
  constructor
  · intro h e he hpath
    by_contra hother
    have hmem : e ∈ s.watchedFoldersPaths.filter (fun e => ¬ path <+: e.2) := by
      rw [h]
      exact List.mem_filter.mpr ⟨he, decide_eq_true hother⟩
    exact of_decide_eq_true (List.mem_filter.mp hmem).2 hpath
  · intro h
    refine List.filter_congr (fun e he => ?_)
    rw [decide_eq_decide]
    exact not_congr ⟨h e he, InFolder.isPrefix⟩

/-- A removal is exact, precisely when no other folder has a name that begins with the
removed one, and the removed folders have the file descriptor as the number of their watch. -/
theorem removal_exact_iff (s : { s : SystemFolderWatch // s.Valid }) (path : Text) :
    s.1.RemovesExactly path ↔
      (∀ e ∈ s.1.watchedFoldersPaths, path <+: e.2 → InFolder path e.2) ∧
        ∀ e ∈ s.1.watchedFoldersPaths, InFolder path e.2 → e.1 = s.1.inotify.fd := by
  obtain ⟨s, hs⟩ := s
  dsimp only
  constructor
  · intro h
    refine ⟨folders_eq_iff.mp h.folders, fun e he hin => ?_⟩
    by_contra hfd
    have hkept : e.1 ∈ (s.removeFolderWithSubfoldersFromWatch path).inotify.watches :=
      (mem_watches_iff e.1).mpr ⟨hs.watched e he, fun hgone => hfd hgone.1⟩
    rw [h.watches] at hkept
    exact of_decide_eq_true (List.mem_filter.mp hkept).2 ⟨e, he, rfl, hin⟩
  · rintro ⟨hnames, hfds⟩
    refine ⟨folders_eq_iff.mpr hnames, ?_, ?_⟩
    · rw [watches_eq_filter]
      refine List.filter_congr (fun wd _ => ?_)
      rw [decide_eq_decide]
      refine not_congr ⟨?_, ?_⟩
      · rintro ⟨rfl, e, he, hpath, hfd⟩
        exact ⟨e, he, hfd, hnames e he hpath⟩
      · rintro ⟨e, he, rfl, hin⟩
        exact ⟨hfds e he hin, e, he, hin.isPrefix, hfds e he hin⟩
    · intro e he hother event hwd hnew
      have hkept : e ∈ (s.removeFolderWithSubfoldersFromWatch path).watchedFoldersPaths := by
        rw [folders_eq_iff.mpr hnames]
        exact List.mem_filter.mpr ⟨he, decide_eq_true hother⟩
      exact processFileEvent_of_mem (hs.removeFolderWithSubfoldersFromWatch path).keys hkept hwd hnew

def siblings : SystemFolderWatch where
  rootFolder := text "/root"
  watchedFoldersPaths := [(1, text "test1"), (2, text "test1/sub2"), (3, text "test1/sub21")]
  inotify := ⟨5, [1, 2, 3]⟩
  processedFilenames := List.replicate kProcessedFilenamesBufLen []
  processedFilenamesCounter := 0

/-- The folder is moved away, and its sibling is forgotten with it. All watches stay, and what
is written to the sibling cannot be reported. -/
theorem sibling_removed :
    siblings.Valid ∧
      ∃ s, siblings.processDeleteDirectoryInFolderEvent ⟨inIsdir + inMovedFrom, 1, text "sub2"⟩ = .ok s ∧
        s.watchedFoldersPaths = [(1, text "test1")] ∧ s.inotify.watches = [1, 2, 3] ∧
        ∃ err, s.processFileEvent ⟨inCloseWrite, 3, text "file"⟩ = .error err := by
  refine ⟨⟨by decide, by decide⟩, _, rfl, by decide +kernel, by decide +kernel, _, rfl⟩

end Removal

section Events

theorem Valid.processFileEvent {files : List Text} (hs : s.Valid)
    (h : s.processFileEvent event = .ok (s', files)) : s'.Valid := by
  unfold SystemFolderWatch.processFileEvent at h
  split at h
  · cases h
    exact hs
  · split at h
    · cases h
    · cases h
      exact ⟨hs.keys, hs.watched⟩

theorem Valid.processDeleteDirectoryInFolderEvent (hs : s.Valid)
    (h : s.processDeleteDirectoryInFolderEvent event = .ok s') : s'.Valid := by
  unfold SystemFolderWatch.processDeleteDirectoryInFolderEvent at h
  split at h
  · cases h
  · split at h
    · cases h
      exact hs.removeFolderWithSubfoldersFromWatch _
    · cases h
      exact hs.removeFolderFromWatch _

theorem Valid.processNewDirectoryInFolderEvent (hs : s.Valid) :
    (s.processNewDirectoryInFolderEvent env event).1.Valid := by
  unfold SystemFolderWatch.processNewDirectoryInFolderEvent
  split
  · exact hs
  · extract_lets relativePath fullPath
    split
    · rename_i hadd
      exact hs.addFolderAndSubfoldersToWatch hadd
    · rename_i hadd
      exact hs.addFolderAndSubfoldersToWatch hadd

theorem Valid.processInotifyEvent (hs : s.Valid) (env : Environment) (event : InotifyEvent) :
    (s.processInotifyEvent env event).1.Valid := by
  unfold SystemFolderWatch.processInotifyEvent
  split
  · split
    · exact hs.processNewDirectoryInFolderEvent
    · split
      · split
        · exact hs
        · rename_i hdelete
          exact hs.processDeleteDirectoryInFolderEvent hdelete
      · exact hs
  · split
    · exact hs
    · rename_i hfile
      exact hs.processFileEvent hfile

theorem Valid.processEvents (hs : s.Valid) (env : Environment) (events : List InotifyEvent) :
    (processEvents env events s).1.Valid := by
  induction events generalizing s with
  | nil => exact hs
  | cons event events ih =>
    have hrest := ih (hs.processInotifyEvent env event)
    rw [SystemFolderWatch.processEvents]
    split <;> exact hrest

theorem Valid.addMonitoredFolders {folders : List Text} (hs : s.Valid)
    (h : addMonitoredFolders env folders s = (err, s')) : s'.Valid := by
  induction folders generalizing s with
  | nil =>
    cases h
    exact hs
  | cons folder folders ih =>
    rw [SystemFolderWatch.addMonitoredFolders] at h
    split at h
    · rename_i hadd
      cases h
      exact hs.addFolderAndSubfoldersToWatch hadd
    · rename_i hadd
      exact ih (hs.addFolderAndSubfoldersToWatch hadd) h

/-- From the start and behind any events, every folder has a watch and a number of its own. -/
theorem valid_run {init : Option ℤ} {rootFolder : Text} {monitoredFolders : List Text}
    (h : startFolderMonitor env init rootFolder monitoredFolders = .ok s) (events : List InotifyEvent) :
    (processInotifyEvents env events s).1.Valid := by
  have hstart : s.Valid := by
    unfold startFolderMonitor at h
    split at h
    · cases h
    · split at h
      · cases h
      · rename_i hadd
        cases h
        refine Valid.addMonitoredFolders ?_ hadd
        exact ⟨List.nodup_nil, by rintro _ ⟨⟩⟩
  have hevents := hstart.processEvents env events
  rw [processInotifyEvents]
  split <;> exact hevents

end Events

end SystemFolderWatch

end Asapo.EventMonitor
