import Asapo.Receiver.RecordPlace

namespace Asapo.Receiver.Disk

open Database RequestHandlerFileProcess

variable {J ω : Type}

/-- What is outside of a receiver apart from its files and its database. Every call to the
system may fail, and the data cache chooses the slots. -/
structure Outside (ω : Type) where
  fails : ω → Option String × ω
  nextSlot : ω → ℕ × ω

def Outside.Failing (o : Outside ω) : Prop := ∃ x, (o.fails x).1 ≠ none

/-- The files of the machine by their full names, with the file that is being written. -/
structure Machine (ω : Type) where
  files : Text → Option Bytes
  opened : Text
  outside : ω

def fullName (root fname : Text) : Text := if root = [] then fname else root ++ text "/" ++ fname

namespace Machine

def attempt (o : Outside ω) (t : ErrorTemplate) (m : Machine ω) : Option Error × Machine ω :=
  ((o.fails m.outside).1.map t.generate, { m with outside := (o.fails m.outside).2 })

/-- A new file is created, and an existing one is made empty if it may be overwritten. -/
def openWithCreateFolders (o : Outside ω) (root fname : Text) (overwrite : Bool) (m : Machine ω) :
    Option Error × Machine ω :=
  match m.attempt o IOErrorTemplates.unknownIOError with
  | (some err, m) => (some err, m)
  | (none, m) =>
    if overwrite = false ∧ (m.files (fullName root fname)).isSome = true then
      (some (IOErrorTemplates.fileAlreadyExists.generate ""), m)
    else
      (none, { m with
        files := Function.update m.files (fullName root fname) (some [])
        opened := fullName root fname })

def write (o : Outside ω) (bytes : Bytes) (m : Machine ω) : Option Error × Machine ω :=
  match m.attempt o IOErrorTemplates.unknownIOError with
  | (some err, m) => (some err, m)
  | (none, m) =>
    (none, { m with
      files := Function.update m.files m.opened ((m.files m.opened).map (fun old => old ++ bytes)) })

def prepareDataBuffer (o : Outside ω) (m : Machine ω) : Except Error ℕ × Machine ω :=
  match m.attempt o GeneralErrorTemplates.memoryAllocationError with
  | (some err, m) => (.error err, m)
  | (none, m) => (.ok (o.nextSlot m.outside).1, { m with outside := (o.nextSlot m.outside).2 })

def backend (o : Outside ω) (auth : AuthorizationData) : Backend (Machine ω) where
  receiveFault _ m :=
    ((m.attempt o IOErrorTemplates.unknownIOError).1.map (fun err => (0, err)),
      (m.attempt o IOErrorTemplates.unknownIOError).2)
  send _ := attempt o IOErrorTemplates.unknownIOError
  initialAuthorize _ := attempt o ReceiverErrorTemplates.authorizationFailure
  secondaryAuthorize _ m :=
    match m.attempt o ReceiverErrorTemplates.authorizationFailure with
    | (some err, m) => (.error err, m)
    | (none, m) => (.ok auth, m)
  prepareDataBuffer _ := prepareDataBuffer o
  unlockDataBuffer _ m := m
  openFile := openWithCreateFolders o
  allocateArray _ := attempt o GeneralErrorTemplates.memoryAllocationError
  writeFile := write o
  closeFile := attempt o IOErrorTemplates.unknownIOError
  connectToDb _ m :=
    ((m.attempt o DBErrorTemplates.connectionError).1.map .connect,
      (m.attempt o DBErrorTemplates.connectionError).2)
  getRecordFromDb _ m := (.ok MessageMeta.empty, m)
  insertRecordToDb _ := attempt o DBErrorTemplates.insertError
  insertMeta _ := attempt o DBErrorTemplates.insertError
  getStreamInfo _ m := (.ok [], m)
  getLastStream m := (.ok [], m)
  getMetaFromDb _ m := (.ok [], m)
  deleteStream _ := attempt o DBErrorTemplates.dbError

end Machine

def client (json : Json J) (o : Outside ω) : MongoDBClient J (Machine ω) :=
  ⟨json, fun m => ((o.fails m.outside).1, { m with outside := (o.fails m.outside).2 })⟩

def receiver (json : Json J) (g : Storing.Settings) (o : Outside ω) (auth : AuthorizationData) :
    Backend (World J (Machine ω)) :=
  Storing.backend (client json o) g (Machine.backend o auth)

theorem keeps_db (json : Json J) (g : Storing.Settings) (o : Outside ω) (auth : AuthorizationData) :
    (receiver json g o auth).Keeps (fun w => w.db) :=
  Storing.keeps_db (client json o) g (Machine.backend o auth)

theorem failing_of_unreliable {json : Json J} {o : Outside ω}
    (h : RecordPlace.Unreliable (client json o)) : o.Failing := by
  obtain ⟨m, hm⟩ := h
  exact ⟨m.outside, hm⟩

section Operations

variable {json : Json J} {g : Storing.Settings} {o : Outside ω} {auth : AuthorizationData}
  {s t : Served (World J (Machine ω))} {err : Option Error} {m m' : Machine ω}

theorem attempt_files {e : ErrorTemplate} (h : m.attempt o e = (err, m')) :
    m'.files = m.files ∧ m'.opened = m.opened ∧ ∀ x, err = some x → x.code = e.code ∧ o.Failing := by
  cases h
  refine ⟨rfl, rfl, fun x hx => ?_⟩
  obtain ⟨message, hm, rfl⟩ := Option.map_eq_some_iff.mp hx
  exact ⟨rfl, m.outside, by rw [hm]; simp⟩

inductive Opened (o : Outside ω) (name : Text) (overwrite : Bool) (m m' : Machine ω) :
    Option Error → Prop
  | opened (new : overwrite = false → m.files name = none)
      (files : m'.files = Function.update m.files name (some [])) (current : m'.opened = name) :
      Opened o name overwrite m m' none
  | exist (e : Error) (code : e.code = IOErrorTemplates.fileAlreadyExists.code)
      (keep : overwrite = false) (old : (m.files name).isSome = true) (files : m'.files = m.files) :
      Opened o name overwrite m m' (some e)
  | failed (e : Error) (code : e.code = IOErrorTemplates.unknownIOError.code) (why : o.Failing) :
      Opened o name overwrite m m' (some e)

theorem openWithCreateFolders_opened {root fname : Text} {overwrite : Bool}
    (h : m.openWithCreateFolders o root fname overwrite = (err, m')) :
    Opened o (fullName root fname) overwrite m m' err := by
  unfold Machine.openWithCreateFolders at h
  split at h
  · rename_i e m₁ ha
    cases h
    obtain ⟨-, -, hf⟩ := attempt_files ha
    exact .failed e (hf e rfl).1 (hf e rfl).2
  · rename_i m₁ ha
    obtain ⟨hfiles, -, -⟩ := attempt_files ha
    rw [hfiles] at h
    split at h <;> cases h
    · rename_i hold
      exact .exist _ rfl hold.1 hold.2 hfiles
    · rename_i hnew
      refine .opened (fun hk => ?_) rfl rfl
      simpa [hk] using hnew

inductive Appended (o : Outside ω) (bytes : Bytes) (m m' : Machine ω) : Option Error → Prop
  | appended (current : m'.opened = m.opened)
      (files : m'.files =
        Function.update m.files m.opened ((m.files m.opened).map (fun old => old ++ bytes))) :
      Appended o bytes m m' none
  | failed (e : Error) (code : e.code = IOErrorTemplates.unknownIOError.code) (why : o.Failing) :
      Appended o bytes m m' (some e)

theorem write_appended {bytes : Bytes} (h : m.write o bytes = (err, m')) : Appended o bytes m m' err := by
  unfold Machine.write at h
  split at h <;> rename_i ha <;> cases h <;> obtain ⟨hfiles, hopened, hf⟩ := attempt_files ha
  · exact .failed _ (hf _ rfl).1 (hf _ rfl).2
  · exact .appended hopened (by rw [hfiles, hopened])

theorem lift_inv {α : Type} {f : Machine ω → α × Machine ω} {x : α} (h : s.call (World.lift f) = (x, t)) :
    f s.world.rest = (x, t.world.rest) := by
  cases h
  rfl

theorem openFile_opened {root fname : Text} {overwrite : Bool}
    (h : s.call ((receiver json g o auth).openFile root fname overwrite) = (err, t)) :
    Opened o (fullName root fname) overwrite s.world.rest t.world.rest err :=
  openWithCreateFolders_opened (lift_inv (f := Machine.openWithCreateFolders o root fname overwrite) h)

theorem writeFile_appended {bytes : Bytes}
    (h : s.call ((receiver json g o auth).writeFile bytes) = (err, t)) :
    Appended o bytes s.world.rest t.world.rest err :=
  write_appended (lift_inv (f := Machine.write o bytes) h)

inductive Transfer (o : Outside ω) (n : ℕ) (s t : Served (World J (Machine ω))) :
    Bytes → Option Error → Prop
  | complete (enough : n ≤ s.input.length) (input : t.input = s.input.drop n) :
      Transfer o n s t (s.input.take n) none
  | ended (e : Error) (code : e.code = GeneralErrorTemplates.endOfFile.code)
      (short : s.input.length < n) (input : t.input = []) : Transfer o n s t s.input (some e)
  | failed (e : Error) (code : e.code = IOErrorTemplates.unknownIOError.code) (why : o.Failing) :
      Transfer o n s t [] (some e)

theorem receive_transfer {n : ℕ} {bytes : Bytes}
    (h : s.receive (receiver json g o auth) n = ((bytes, err), t)) :
    t.world.rest.files = s.world.rest.files ∧ t.world.rest.opened = s.world.rest.opened ∧
      Transfer o n s t bytes err := by
  unfold Served.receive Backend.receive at h
  generalize ha : s.world.rest.attempt o IOErrorTemplates.unknownIOError = a at h
  obtain ⟨fault, m₁⟩ := a
  obtain ⟨hfiles, hopened, hf⟩ := attempt_files ha
  have hfault : (receiver json g o auth).receiveFault n s.world =
      (fault.map (fun e => (0, e)), { s.world with rest := m₁ }) := by
    simp [receiver, Storing.backend, Machine.backend, World.lift, ha]
  rw [hfault] at h
  cases fault with
  | some e =>
    cases h
    refine ⟨hfiles, hopened, ?_⟩
    simpa using Transfer.failed e (hf e rfl).1 (hf e rfl).2
  | none =>
    simp only [Option.map_none] at h
    split at h <;> rename_i hl <;> cases h
    · exact ⟨hfiles, hopened, .complete hl rfl⟩
    · exact ⟨hfiles, hopened, .ended _ rfl (by omega) rfl⟩

end Operations

section Files

variable {json : Json J} {g : Storing.Settings} {o : Outside ω} {auth : AuthorizationData} {rounds : ℕ}
  {s t : Served (World J (Machine ω))} {err : Option Error}

theorem closeFile_files {u : Served (World J (Machine ω))} :
    (u.call (receiver json g o auth).closeFile).2.world.rest.files = u.world.rest.files := rfl

/-- A loop that ends without an error appends all bytes that it was asked for to the open
file. Each round takes one buffer at most. -/
theorem receiveLoop_files {bufSize length written : ℕ} {old : Bytes}
    (hold : s.world.rest.files s.world.rest.opened = some old)
    (h : ReceiveFileProcessor.receiveLoop (receiver json g o auth) bufSize length rounds written s =
      some (err, t)) :
    (err = none → length - written ≤ s.input.length ∧ length - written ≤ rounds * bufSize ∧
      t.world.rest.files = Function.update s.world.rest.files s.world.rest.opened
        (some (old ++ s.input.take (length - written)))) ∧
    ∀ e, err = some e → e.code = IOErrorTemplates.unknownIOError.code ∧ o.Failing := by
  have hlooped := looped_of_receiveLoop h
  clear h
  induction hlooped generalizing old with
  | @done _ written s enough =>
    have hz : length - written = 0 := by omega
    refine ⟨fun _ => ⟨by omega, by omega, ?_⟩, by rintro _ ⟨⟩⟩
    rw [closeFile_files, hz, List.take_zero, List.append_nil, ← hold, Function.update_eq_self]
  | unread more receive failed =>
    refine ⟨fun he => by simp [he, ErrorTemplate.differs] at failed, ?_⟩
    rintro e rfl
    cases (receive_transfer receive).2.2 with
    | ended _ code => simp [ErrorTemplate.differs, code] at failed
    | failed _ code why => exact ⟨code, why⟩
  | unwritten more receive ignored write =>
    refine ⟨by rintro ⟨⟩, ?_⟩
    rintro e ⟨⟩
    cases writeFile_appended write with
    | failed _ code why => exact ⟨code, why⟩
  | @round rounds written s s₁ s₂ t bytes e err more receive ignored write rest ih =>
    obtain ⟨hfiles₁, hopened₁, htransfer⟩ := receive_transfer receive
    obtain ⟨-, hinput₂⟩ := quiet_call (K := fun w => w.db) (keeps_db json g o auth |>.writeFile bytes) write
    cases writeFile_appended write with
    | appended current files =>
      have hnew : s₂.world.rest.files s₂.world.rest.opened = some (old ++ bytes) := by
        rw [current, files, Function.update_self, hfiles₁, hopened₁, hold]
        rfl
      obtain ⟨hok, herr⟩ := ih hnew
      refine ⟨fun he => ?_, herr⟩
      obtain ⟨hin, hrounds, hfiles⟩ := hok he
      rw [hinput₂] at hin hfiles
      rw [files, current, Function.update_idem, hfiles₁, hopened₁] at hfiles
      have hstep : (rounds + 1) * bufSize = rounds * bufSize + bufSize := Nat.succ_mul _ _
      cases htransfer with
      | complete enough input =>
        rw [input, List.length_drop] at hin
        rw [List.length_take, Nat.min_eq_left enough] at hin hrounds hfiles
        have hsum : length - written = min bufSize (length - written) +
            (length - (written + min bufSize (length - written))) := by omega
        refine ⟨by omega, by omega, ?_⟩
        rw [hfiles, input, List.append_assoc, ← List.take_add, ← hsum]
      | ended e code short input =>
        -- nothing is left to be read, but the loop still wants some
        rw [input, List.length_nil] at hin
        omega
      | failed e code why =>
        rw [ErrorTemplate.differs, code] at ignored
        exact absurd rfl ignored

theorem receiveLoop_isSome {bufSize length written : ℕ} (ho : ¬ o.Failing)
    (hin : length - written ≤ s.input.length) (hrounds : length - written ≤ rounds * bufSize) :
    ∃ err t, ReceiveFileProcessor.receiveLoop (receiver json g o auth) bufSize length rounds written s =
      some (err, t) := by
  induction rounds generalizing written s with
  | zero =>
    unfold ReceiveFileProcessor.receiveLoop
    rw [if_neg (by omega)]
    exact ⟨_, _, rfl⟩
  | succ rounds ih =>
    unfold ReceiveFileProcessor.receiveLoop
    split
    · generalize hr : s.receive (receiver json g o auth) (min bufSize (length - written)) = r
      obtain ⟨⟨bytes, e⟩, s₁⟩ := r
      obtain ⟨-, -, htransfer⟩ := receive_transfer hr
      simp only
      split
      · exact ⟨_, _, rfl⟩
      · split
        · exact ⟨_, _, rfl⟩
        · rename_i s₂ hw
          obtain ⟨-, hinput₂⟩ := quiet_call (keeps_db json g o auth |>.writeFile bytes) hw
          have hstep : (rounds + 1) * bufSize = rounds * bufSize + bufSize := Nat.succ_mul _ _
          cases htransfer with
          | complete enough input =>
            have hlen : (s.input.take (min bufSize (length - written))).length =
                min bufSize (length - written) := by rw [List.length_take]; omega
            refine ih ?_ ?_
            · rw [hlen, hinput₂, input, List.length_drop]
              omega
            · rw [hlen]
              omega
          | ended e code short input => omega
          | failed e code why => exact absurd why ho
    · exact ⟨_, _, rfl⟩

def payload (p : Processor) (s : Served (World J (Machine ω))) : Bytes :=
  match p with
  | .write => s.request.data
  | .receive => s.input.take s.request.header.dataSize

def Enough (p : Processor) (rounds : ℕ) (s : Served (World J (Machine ω))) : Prop :=
  match p with
  | .write => s.request.header.dataSize ≠ 0
  | .receive => s.request.header.dataSize ≤ s.input.length ∧
      s.request.header.dataSize ≤ rounds * min s.request.header.dataSize kReadWriteBufSize

inductive Stored (o : Outside ω) (rounds : ℕ) (p : Processor) (overwrite : Bool)
    (s t : Served (World J (Machine ω))) : Option Error → Prop
  | stored (root : Text) (hroot : FileProcessor.getRootFolder s.request = .ok root)
      (new : overwrite = false → s.world.rest.files (fullName root s.request.getFileName) = none)
      (enough : Enough p rounds s)
      (files : t.world.rest.files = Function.update s.world.rest.files
        (fullName root s.request.getFileName) (some (payload p s))) : Stored o rounds p overwrite s t none
  | exist (e : Error) (root : Text) (hroot : FileProcessor.getRootFolder s.request = .ok root)
      (code : e.code = IOErrorTemplates.fileAlreadyExists.code) (keep : overwrite = false)
      (old : (s.world.rest.files (fullName root s.request.getFileName)).isSome = true)
      (size : p = .write → s.request.header.dataSize ≠ 0)
      (files : t.world.rest.files = s.world.rest.files) (input : t.input = s.input) :
      Stored o rounds p overwrite s t (some e)
  | failed (e : Error) (code : e.code ≠ IOErrorTemplates.fileAlreadyExists.code)
      (why : o.Failing ∨ (∀ root, FileProcessor.getRootFolder s.request ≠ .ok root) ∨
        p = .write ∧ s.request.header.dataSize = 0) : Stored o rounds p overwrite s t (some e)

theorem getRootFolder_error {r : Request} {e : Error} (h : FileProcessor.getRootFolder r = .error e) :
    e.code = ReceiverErrorTemplates.badRequest.code := by
  unfold FileProcessor.getRootFolder at h
  split at h
  · rename_i hc
    cases h
    unfold FileProcessor.checkFileNameIsAbsolute at hc
    split at hc <;> cases hc
    rfl
  · split at h
    · rename_i hc
      cases h
      unfold FileProcessor.checkFileFolderCorrespondsToRequestSourceType at hc
      split at hc
      · extract_lets folder at hc
        split at hc <;> cases hc
        rfl
      · cases hc
        rfl
    · unfold FileProcessor.getRootFolderFromRequest at h
      extract_lets offline at h
      split at h
      · cases h
      · split at h <;> cases h
        rfl

theorem writeDataToFile_stored {root : Text} {overwrite : Bool} (hz : s.request.header.dataSize ≠ 0)
    (hroot : FileProcessor.getRootFolder s.request = .ok root)
    (h : WriteFileProcessor.writeDataToFile (receiver json g o auth) root s.request.getFileName
      s.request.data overwrite s = (err, t)) : Stored o rounds .write overwrite s t err := by
  unfold WriteFileProcessor.writeDataToFile at h
  split at h
  · rename_i e s₁ ho
    cases h
    have hq := quiet_call (keeps_db json g o auth |>.openFile root _ overwrite) ho
    cases openFile_opened ho with
    | exist e code keep old files => exact .exist e root hroot code keep old (fun _ => hz) files hq.input
    | failed e code why => exact .failed e (by rw [code]; decide) (.inl why)
  · rename_i s₁ ho
    cases openFile_opened ho with
    | opened new files current =>
      split at h
      · rename_i e s₂ hw
        cases h
        cases writeFile_appended hw with
        | failed e code why => exact .failed e (by rw [code]; decide) (.inl why)
      · rename_i s₂ hw
        cases writeFile_appended hw with
        | appended current₂ files₂ =>
          obtain ⟨hfiles, -, hf⟩ := attempt_files
            (lift_inv (f := Machine.attempt o IOErrorTemplates.unknownIOError) h)
          cases err with
          | some e => exact .failed e (by rw [(hf e rfl).1]; decide) (.inl (hf e rfl).2)
          | none =>
            refine .stored root hroot new hz ?_
            rw [hfiles, files₂, files, current, Function.update_self, Function.update_idem]
            rfl

theorem receiveDataToFile_stored {root : Text} {overwrite : Bool}
    (hroot : FileProcessor.getRootFolder s.request = .ok root)
    (h : ReceiveFileProcessor.receiveDataToFile (receiver json g o auth) rounds root
      s.request.getFileName s.request.header.dataSize overwrite s = some (err, t)) :
    Stored o rounds .receive overwrite s t err := by
  unfold ReceiveFileProcessor.receiveDataToFile at h
  split at h
  · rename_i e s₁ ho
    cases h
    have hq := quiet_call (keeps_db json g o auth |>.openFile root _ overwrite) ho
    cases openFile_opened ho with
    | exist e code keep old files => exact .exist e root hroot code keep old nofun files hq.input
    | failed e code why => exact .failed e (by rw [code]; decide) (.inl why)
  · rename_i s₁ ho
    have hq₁ := quiet_call (keeps_db json g o auth |>.openFile root _ overwrite) ho
    cases openFile_opened ho with
    | opened new files current =>
      extract_lets bufSize at h
      split at h
      · rename_i e s₂ ha
        cases h
        obtain ⟨-, -, hf⟩ := attempt_files
          (lift_inv (f := Machine.attempt o GeneralErrorTemplates.memoryAllocationError) ha)
        exact .failed e (by rw [(hf e rfl).1]; decide) (.inl (hf e rfl).2)
      · rename_i s₂ ha
        have hq₂ := quiet_call (keeps_db json g o auth |>.allocateArray bufSize) ha
        obtain ⟨hfiles₂, hopened₂, -⟩ := attempt_files
          (lift_inv (f := Machine.attempt o GeneralErrorTemplates.memoryAllocationError) ha)
        have hempty : s₂.world.rest.files s₂.world.rest.opened = some [] := by
          rw [hfiles₂, hopened₂, current, files, Function.update_self]
        obtain ⟨hok, herr⟩ := receiveLoop_files hempty h
        have hinput : s₂.input = s.input := hq₂.input.trans hq₁.input
        cases err with
        | some e => exact .failed e (by rw [(herr e rfl).1]; decide) (.inl (herr e rfl).2)
        | none =>
          obtain ⟨hin, hrounds, hfiles⟩ := hok rfl
          rw [hinput, Nat.sub_zero] at hin hfiles
          rw [Nat.sub_zero] at hrounds
          refine .stored root hroot new ⟨hin, hrounds⟩ ?_
          rw [hfiles, hfiles₂, hopened₂, current, files, Function.update_idem]
          rfl

theorem processFile_stored {p : Processor} {overwrite : Bool}
    (h : processFile (receiver json g o auth) rounds p overwrite s = some (err, t)) :
    Stored o rounds p overwrite s t err := by
  cases p with
  | write =>
    replace h := Option.some.inj h
    unfold WriteFileProcessor.processFile at h
    split at h
    · rename_i hz
      cases h
      exact .failed _ (by decide) (.inr (.inr ⟨rfl, hz⟩))
    · rename_i hz
      split at h
      · rename_i e he
        cases h
        refine .failed e ?_ (.inr (.inl (by simp [he])))
        rw [getRootFolder_error he]
        decide
      · rename_i root hroot
        exact writeDataToFile_stored hz hroot h
  | receive =>
    simp only [processFile] at h
    unfold ReceiveFileProcessor.processFile at h
    split at h
    · rename_i e he
      cases h
      refine .failed e ?_ (.inr (.inl (by simp [he])))
      rw [getRootFolder_error he]
      decide
    · rename_i root hroot
      exact receiveDataToFile_stored hroot h

theorem processFile_isSome {p : Processor} {overwrite : Bool} {root : Text} (ho : ¬ o.Failing)
    (hroot : FileProcessor.getRootFolder s.request = .ok root)
    (h : Enough p rounds s ∨ overwrite = false ∧
      (s.world.rest.files (fullName root s.request.getFileName)).isSome = true) :
    ∃ err t, processFile (receiver json g o auth) rounds p overwrite s = some (err, t) := by
  cases p with
  | write => exact ⟨_, _, rfl⟩
  | receive =>
    simp only [processFile, ReceiveFileProcessor.processFile, hroot, ReceiveFileProcessor.receiveDataToFile]
    split
    · exact ⟨_, _, rfl⟩
    · rename_i s₁ hopen
      have hq₁ := quiet_call (keeps_db json g o auth |>.openFile root _ overwrite) hopen
      split
      · exact ⟨_, _, rfl⟩
      · rename_i s₂ ha
        have hq₂ := quiet_call (keeps_db json g o auth |>.allocateArray _) ha
        cases openFile_opened hopen with
        | opened new files current =>
          obtain ⟨hin, hrounds⟩ | ⟨hkeep, hold⟩ := h
          · have hinput : s₂.input = s.input := hq₂.input.trans hq₁.input
            exact receiveLoop_isSome ho (by rwa [hinput]) hrounds
          · simp [new hkeep] at hold

end Files

end Asapo.Receiver.Disk
