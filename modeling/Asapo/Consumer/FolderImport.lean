import Asapo.Consumer.FolderToDbImporter
import Asapo.WorkLeft

namespace Asapo.Consumer.FolderImport

open Interleaving Transition Tiling

structure DatabaseFactory (σ : Type) where
  create : σ → Option Error × σ
  connect : Text → Text → σ → Option Error × σ
  insert : Text → MessageMeta → Bool → σ → Option Error × σ

structure Import (σ : Type) where
  db : σ
  inserted : List MessageMeta

inductive Pc where
  | start
  | created
  | importing
  | returned (err : Option Error)
  deriving DecidableEq, Repr

/-- A call of `PerformParallelTask` with its range, and the index of the loop in
`ImportFilelistChunk`. -/
structure Task where
  begin_ : ℕ
  end_ : ℕ
  i : ℕ
  pc : Pc
  deriving DecidableEq, Repr

namespace Task

def new (range : ℕ × ℕ) : Task := ⟨range.1, range.2, range.1, .start⟩

def result (task : Task) : Option (Option Error) :=
  match task.pc with
  | .returned err => some err
  | _ => none

def proceed (task next : Task) : Option Error → Task
  | some err => { task with pc := .returned (some err) }
  | none => next

end Task

def dataCollection : Text := text "data" ++ text "_default"

section Steps

variable {σ : Type} (importer : FolderToDbImporter) (files : MessageMetas) (factory : DatabaseFactory σ)

def importSingleFile (file : MessageMeta) (s : Import σ) : Option Error × Import σ :=
  let res := factory.insert dataCollection file importer.ignoreDuplicates s.db
  (res.1, { db := res.2, inserted := if res.1 = none then s.inserted ++ [file] else s.inserted })

/-- One step of `PerformParallelTask`: a call of the client, or the end of the loop in
`ImportFilelistChunk`. -/
def performParallelTask (s : Import σ) (task : Task) (_ : Unit) : Option (Import σ × Task) :=
  match task.pc with
  | .start =>
    let res := factory.create s.db
    some ({ s with db := res.2 }, task.proceed { task with pc := .created } res.1)
  | .created =>
    let res := factory.connect importer.dbUri importer.dbName s.db
    some ({ s with db := res.2 }, task.proceed { task with pc := .importing } res.1)
  | .importing =>
    if task.i < task.end_ then
      (files.val[task.i]?).map (fun file =>
        let res := importSingleFile importer factory file s
        (res.2, task.proceed { task with i := task.i + 1 } res.1))
    else some (s, { task with pc := .returned none })
  | .returned _ => none

def world {E : Type} (env : σ → E → Option σ) (s : Import σ) (e : E) : Option (Import σ) :=
  (env s.db e).map (fun db => { s with db := db })

end Steps

/-- `fut.get` waits for the result of a task. -/
def waitLoop (err : Option Error) : List (Option (Option Error)) → Option (Option Error)
  | [] => some err
  | none :: _ => none
  | some taskResult :: res => waitLoop (if taskResult ≠ none then taskResult else err) res

def waitParallelTasks (res : List (Option (Option Error))) : Option (Option Error) := waitLoop none res

abbrev ImportSystem (σ : Type) (importer : FolderToDbImporter) (files : MessageMetas) :=
  System (Import σ) Task (importer.taskRanges files).length

variable {importer : FolderToDbImporter} {files : MessageMetas}

/-- All tasks are there. A deferred one makes its first step when its result is asked for. -/
def started {σ : Type} (importer : FolderToDbImporter) (files : MessageMetas) (db : σ) :
    ImportSystem σ importer files :=
  ⟨⟨db, []⟩, fun i => .new ((importer.taskRanges files).get i)⟩

def importFilelist {σ : Type} (s : ImportSystem σ importer files) : Option (Option Error) :=
  waitParallelTasks (List.ofFn (fun i => (s.threads i).result))

/-- A run of the tasks in any order, with a database that behaves in any way. -/
structure Run (importer : FolderToDbImporter) (files : MessageMetas) where
  σ : Type
  E : Type
  factory : DatabaseFactory σ
  env : σ → E → Option σ
  db : σ
  events : List (Event Unit E (importer.taskRanges files).length)
  last : ImportSystem σ importer files
  executes : exec (step (performParallelTask importer files factory) (world env)) (started importer files db) events =
    some last

/-- The import of a list covers every file once, and shows every failure. -/
structure Covers (importer : FolderToDbImporter) (files : MessageMetas) : Prop where
  ranges : EvenPartition (importer.taskRanges files) files.val.length
  bounded : ∀ run : Run importer files,
    run.events.countP Event.isThread ≤ files.val.length + 3 * (importer.taskRanges files).length
  returns : ∀ run : Run importer files, ∃ t err,
    Reaches (step (performParallelTask importer files run.factory) (world run.env)) run.last t ∧
      importFilelist t = some err
  once : ∀ run : Run importer files, (∀ i, (run.last.threads i).result = some none) →
    run.last.shared.inserted.Perm files.val
  failure : ∀ run : Run importer files, ∀ err, importFilelist run.last = some err →
    (err ≠ none ↔ ∃ i e, (run.last.threads i).result = some (some e))

/-! One step of a task. -/

namespace Task

def imported (files : MessageMetas) (task : Task) : List MessageMeta :=
  (List.Ico task.begin_ task.i).filterMap (fun k => files.val[k]?)

/-- The index is in the range, and the range in the list. Without an error the whole range was
imported. -/
structure Valid (files : MessageMetas) (task : Task) : Prop where
  begin_le : task.begin_ ≤ task.i
  le_end : task.i ≤ task.end_
  end_le : task.end_ ≤ files.val.length
  complete : task.pc = .returned none → task.i = task.end_

def rank (task : Task) : ℕ :=
  match task.pc with
  | .start => task.end_ - task.i + 3
  | .created => task.end_ - task.i + 2
  | .importing => task.end_ - task.i + 1
  | .returned _ => 0

theorem result_eq_some {task : Task} {err : Option Error} : task.result = some err ↔ task.pc = .returned err := by
  unfold result
  cases task.pc <;> simp

theorem result_ne_none {task : Task} (h : task.rank = 0) : task.result ≠ none := by
  unfold rank at h
  unfold result
  cases hpc : task.pc <;> simp [hpc] at h ⊢

theorem imported_succ {task : Task} {file : MessageMeta} (h : task.begin_ ≤ task.i)
    (hfile : files.val[task.i]? = some file) :
    imported files { task with i := task.i + 1 } = imported files task ++ [file] := by
  unfold imported
  rw [List.Ico.succ_top h, List.filterMap_append]
  simp [hfile]

end Task

inductive Performed {σ : Type} (importer : FolderToDbImporter) (files : MessageMetas) (factory : DatabaseFactory σ)
    (s : Import σ) (task : Task) : Import σ → Task → Prop
  | created (hpc : task.pc = .start) :
      Performed importer files factory s task { s with db := (factory.create s.db).2 }
        (task.proceed { task with pc := .created } (factory.create s.db).1)
  | connected (hpc : task.pc = .created) :
      Performed importer files factory s task
        { s with db := (factory.connect importer.dbUri importer.dbName s.db).2 }
        (task.proceed { task with pc := .importing } (factory.connect importer.dbUri importer.dbName s.db).1)
  | inserted {file : MessageMeta} (hpc : task.pc = .importing) (hlt : task.i < task.end_)
      (hfile : files.val[task.i]? = some file) :
      Performed importer files factory s task (importSingleFile importer factory file s).2
        (task.proceed { task with i := task.i + 1 } (importSingleFile importer factory file s).1)
  | finished (hpc : task.pc = .importing) (hend : ¬ task.i < task.end_) :
      Performed importer files factory s task s { task with pc := .returned none }

structure Moves {σ : Type} (files : MessageMetas) (s : Import σ) (task : Task) (t : Import σ) (m : Task) : Prop where
  begin_ : m.begin_ = task.begin_
  end_ : m.end_ = task.end_
  rank : m.rank < task.rank
  valid : task.Valid files → m.Valid files
  inserted : task.Valid files → ∃ new, t.inserted = s.inserted ++ new ∧ m.imported files = task.imported files ++ new

section Moves

variable {σ : Type} {factory : DatabaseFactory σ} {s t : Import σ} {task m : Task}

theorem performed_of_step (h : performParallelTask importer files factory s task () = some (t, m)) :
    Performed importer files factory s task t m := by
  obtain ⟨begin_, end_, i, pc⟩ := task
  cases pc with
  | start =>
    cases h
    exact .created rfl
  | created =>
    cases h
    exact .connected rfl
  | importing =>
    dsimp only [performParallelTask] at h
    by_cases hlt : i < end_
    · rw [if_pos hlt] at h
      obtain ⟨file, hfile, hres⟩ := Option.map_eq_some_iff.mp h
      cases hres
      exact .inserted rfl hlt hfile
    · rw [if_neg hlt] at h
      cases h
      exact .finished rfl hlt
  | returned err => cases h

theorem nothing_new (s : Import σ) (task : Task) :
    ∃ new, s.inserted = s.inserted ++ new ∧ task.imported files = task.imported files ++ new :=
  ⟨[], (List.append_nil _).symm, (List.append_nil _).symm⟩

theorem moves_failed (err : Error) (db : σ) (hrank : 0 < task.rank) :
    Moves files s task { s with db := db } { task with pc := .returned (some err) } := by
  refine ⟨rfl, rfl, hrank, fun h => ⟨h.begin_le, h.le_end, h.end_le, ?_⟩, fun _ => nothing_new s task⟩
  rintro ⟨⟩

theorem moves_call {pc : Pc} (err : Option Error) (db : σ) (hpc : pc ≠ .returned none)
    (hrank : ({ task with pc := pc } : Task).rank < task.rank) :
    Moves files s task { s with db := db } (task.proceed { task with pc := pc } err) := by
  cases err with
  | none =>
    refine ⟨rfl, rfl, hrank, fun h => ⟨h.begin_le, h.le_end, h.end_le, ?_⟩, fun _ => nothing_new s task⟩
    exact fun hr => absurd hr hpc
  | some err => exact moves_failed err db (lt_of_le_of_lt (Nat.zero_le _) hrank)

theorem importSingleFile_cases (importer : FolderToDbImporter) (factory : DatabaseFactory σ) (file : MessageMeta)
    (s : Import σ) :
    (∃ db, importSingleFile importer factory file s = (none, ⟨db, s.inserted ++ [file]⟩)) ∨
      ∃ err db, importSingleFile importer factory file s = (some err, { s with db := db }) := by
  unfold importSingleFile
  obtain ⟨err, db⟩ := factory.insert dataCollection file importer.ignoreDuplicates s.db
  cases err with
  | none => exact .inl ⟨db, rfl⟩
  | some err => exact .inr ⟨err, db, rfl⟩

theorem moves_importSingleFile {file : MessageMeta} (hpc : task.pc = .importing) (hlt : task.i < task.end_)
    (hfile : files.val[task.i]? = some file) :
    Moves files s task (importSingleFile importer factory file s).2
      (task.proceed { task with i := task.i + 1 } (importSingleFile importer factory file s).1) := by
  have hrank : task.rank = task.end_ - task.i + 1 := by simp [Task.rank, hpc]
  obtain ⟨db, hres⟩ | ⟨err, db, hres⟩ := importSingleFile_cases importer factory file s
  · rw [hres]
    refine ⟨rfl, rfl, ?_, fun h => ⟨?_, hlt, h.end_le, ?_⟩, fun h => ⟨[file], rfl, Task.imported_succ h.begin_le hfile⟩⟩
    · simp only [Task.proceed, Task.rank, hpc]
      omega
    · exact Nat.le_succ_of_le h.begin_le
    · intro hr
      cases hpc.symm.trans hr
  · rw [hres]
    exact moves_failed err db (by omega)

theorem moves_performParallelTask (h : performParallelTask importer files factory s task () = some (t, m)) :
    Moves files s task t m := by
  cases performed_of_step h with
  | created hpc => exact moves_call _ _ (by rintro ⟨⟩) (by simp [Task.rank, hpc])
  | connected hpc => exact moves_call _ _ (by rintro ⟨⟩) (by simp [Task.rank, hpc])
  | inserted hpc hlt hfile => exact moves_importSingleFile hpc hlt hfile
  | finished hpc hend =>
    refine ⟨rfl, rfl, by simp [Task.rank, hpc], fun h => ⟨h.begin_le, h.le_end, h.end_le, ?_⟩,
      fun _ => nothing_new s task⟩
    exact fun _ => le_antisymm h.le_end (not_lt.mp hend)

theorem exists_step (s : Import σ) (hv : task.Valid files) (hrank : task.rank ≠ 0) :
    ∃ x, performParallelTask importer files factory s task () = some x := by
  unfold performParallelTask
  cases hpc : task.pc with
  | start => exact ⟨_, rfl⟩
  | created => exact ⟨_, rfl⟩
  | importing =>
    dsimp only
    by_cases hlt : task.i < task.end_
    · rw [if_pos hlt, List.getElem?_eq_getElem (hlt.trans_le hv.end_le)]
      exact ⟨_, rfl⟩
    · rw [if_neg hlt]
      exact ⟨_, rfl⟩
  | returned err => exact absurd (by simp [Task.rank, hpc]) hrank

end Moves

/-! Runs. -/

section Runs

variable {σ E : Type} {factory : DatabaseFactory σ} {env : σ → E → Option σ} {s t : ImportSystem σ importer files}

structure Sound (s : ImportSystem σ importer files) : Prop where
  range : ∀ i, ((s.threads i).begin_, (s.threads i).end_) = (importer.taskRanges files).get i
  tasks : ∀ i, (s.threads i).Valid files
  counts : ∀ file, Interleaving.Balanced (fun s => s.inserted.count file) (fun _ => 0)
    (fun task => (task.imported files).count file) s

theorem sound_started (h : Tiles 0 (importer.taskRanges files) files.val.length) (db : σ) :
    Sound (started importer files db) := by
  refine ⟨fun i => rfl, fun i => ?_, fun file => ?_⟩
  · obtain ⟨-, hlt, hle⟩ := h.bounds _ (List.get_mem (importer.taskRanges files) i)
    exact ⟨le_rfl, hlt.le, hle, by rintro ⟨⟩⟩
  · have hnone : ∀ i, (((started importer files db).threads i).imported files).count file = 0 := by
      intro i
      simp [started, Task.new, Task.imported]
    rw [Interleaving.Balanced, Finset.sum_eq_zero (fun i _ => hnone i)]
    rfl

theorem sound_step (e : Event Unit E _) (hs : Sound s)
    (ht : step (performParallelTask importer files factory) (world env) s e = some t) : Sound t := by
  cases e with
  | thread i a =>
    obtain ⟨⟨t', m⟩, hx, rfl⟩ := Option.map_eq_some_iff.mp ht
    have hmoves := moves_performParallelTask hx
    refine ⟨fun j => ?_, forall_update hs.tasks i (hmoves.valid (hs.tasks i)), fun file => ?_⟩
    · by_cases hj : j = i
      · subst hj
        dsimp only
        rw [Function.update_self, hmoves.begin_, hmoves.end_]
        exact hs.range j
      · dsimp only
        rw [Function.update_of_ne hj]
        exact hs.range j
    · obtain ⟨new, hinserted, himported⟩ := hmoves.inserted (hs.tasks i)
      refine (balanced_update (hs.counts file) i t' m).mpr ?_
      rw [hinserted, himported, List.count_append, List.count_append]
      omega
  | world e =>
    obtain ⟨t', hx, rfl⟩ := Option.map_eq_some_iff.mp ht
    obtain ⟨db, -, rfl⟩ := Option.map_eq_some_iff.mp hx
    exact ⟨hs.range, hs.tasks, fun file => (balanced_shared (hs.counts file) _).mpr rfl⟩

theorem works : Works (performParallelTask importer files factory) Task.rank :=
  fun _ _ _ _ _ h => (moves_performParallelTask h).rank

theorem sound_run (h : Tiles 0 (importer.taskRanges files) files.val.length) (run : Run importer files) :
    Sound run.last :=
  always_exec _ _ run.events (always_of_step (fun _ hs => hs) (fun _ e _ => sound_step e) _ _ (sound_started h run.db))
    run.executes

theorem workLeft_started (h : Tiles 0 (importer.taskRanges files) files.val.length) (db : σ) :
    workLeft Task.rank (started importer files db) = files.val.length + 3 * (importer.taskRanges files).length := by
  have hrank : ∀ i, ((started importer files db).threads i).rank =
      ((importer.taskRanges files)[i.val].2 - (importer.taskRanges files)[i.val].1) + 3 := fun i => rfl
  rw [workLeft, Finset.sum_congr rfl (fun i _ => hrank i),
    Fin.sum_univ_fun_getElem (importer.taskRanges files) (fun r => r.2 - r.1 + 3), h.sum_sizes, Nat.sub_zero]

theorem inserted_perm (h : Tiles 0 (importer.taskRanges files) files.val.length) (hs : Sound s)
    (hend : ∀ i, (s.threads i).i = (s.threads i).end_) : s.shared.inserted.Perm files.val := by
  refine List.perm_iff_count.mpr (fun file => ?_)
  have hcount : s.shared.inserted.count file = 0 + ∑ i, ((s.threads i).imported files).count file := hs.counts file
  have hrange : ∀ i, (s.threads i).imported files =
      (List.Ico (importer.taskRanges files)[i.val].1 (importer.taskRanges files)[i.val].2).filterMap
        (fun k => files.val[k]?) := by
    intro i
    have hi := hs.range i
    rw [List.get_eq_getElem] at hi
    rw [← hi, Task.imported, hend i]
  have hsum := Fin.sum_univ_fun_getElem (importer.taskRanges files)
    (List.count file ∘ fun r => (List.Ico r.1 r.2).filterMap (fun k => files.val[k]?))
  rw [← List.count_flatMap, h.flatMap_getElem] at hsum
  rw [hcount, Nat.zero_add, ← hsum]
  exact Finset.sum_congr rfl (fun i _ => by rw [hrange i]; rfl)

end Runs

theorem waitLoop_isSome_iff {res : List (Option (Option Error))} (err : Option Error) :
    (∃ final, waitLoop err res = some final) ↔ ∀ x ∈ res, x ≠ none := by
  induction res generalizing err with
  | nil => exact iff_of_true ⟨err, rfl⟩ (by rintro _ ⟨⟩)
  | cons x res ih =>
    rw [List.forall_mem_cons]
    cases x with
    | none => exact iff_of_false (by rintro ⟨_, ⟨⟩⟩) (fun h => h.1 rfl)
    | some taskResult => exact (ih _).trans (and_iff_right (by rintro ⟨⟩)).symm

/-- An error stays, unless it is replaced by another one. -/
theorem waitLoop_ne_none {res : List (Option (Option Error))} {err final : Option Error}
    (h : waitLoop err res = some final) : final ≠ none ↔ err ≠ none ∨ ∃ e, some (some e) ∈ res := by
  induction res generalizing err with
  | nil =>
    cases h
    simp
  | cons x res ih =>
    cases x with
    | none => cases h
    | some taskResult =>
      rw [ih h]
      cases taskResult with
      | none => simp
      | some e => simp

theorem importFilelist_ne_none {σ : Type} {s : ImportSystem σ importer files} {err : Option Error}
    (h : importFilelist s = some err) : err ≠ none ↔ ∃ i e, (s.threads i).result = some (some e) := by
  rw [waitLoop_ne_none h]
  simp only [ne_eq, not_true_eq_false, false_or, List.mem_ofFn]
  exact exists_comm

theorem results_of_importFilelist {σ : Type} {s : ImportSystem σ importer files}
    (h : importFilelist s = some none) (i : Fin (importer.taskRanges files).length) :
    (s.threads i).result = some none := by
  have hsome := (waitLoop_isSome_iff none).mp ⟨none, h⟩ _ (List.mem_ofFn.mpr ⟨i, rfl⟩)
  obtain ⟨err, herr⟩ := Option.ne_none_iff_exists'.mp hsome
  cases err with
  | none => exact herr
  | some e => exact absurd rfl ((importFilelist_ne_none h).mpr ⟨i, e, herr⟩)

theorem Covers.of_tiles (h : Tiles 0 (importer.taskRanges files) files.val.length)
    (ranges : EvenPartition (importer.taskRanges files) files.val.length) : Covers importer files where
  ranges := ranges
  bounded := by
    intro run
    rw [← workLeft_started h run.db]
    exact le_of_add_le_right (workLeft_exec works run.events run.executes)
  returns := by
    intro run
    obtain ⟨t, ht, hdone⟩ := exists_done works (fun _ e _ => sound_step e)
      (fun s i hs hi => ⟨(), exists_step s.shared (hs.tasks i) hi⟩) run.last (sound_run h run)
    have hresult : ∀ x ∈ List.ofFn (fun i => (t.threads i).result), x ≠ none := by
      intro x hx
      obtain ⟨i, rfl⟩ := List.mem_ofFn.mp hx
      exact Task.result_ne_none (hdone i)
    obtain ⟨err, herr⟩ := (waitLoop_isSome_iff none).mpr hresult
    exact ⟨t, err, ht, herr⟩
  once := by
    intro run hresults
    have hs := sound_run h run
    exact inserted_perm h hs (fun i => (hs.tasks i).complete (Task.result_eq_some.mp (hresults i)))
  failure := fun run err herr => importFilelist_ne_none herr

theorem covers_of_int_or_enough
    (h : importer.nTasks.val < 2 ^ 31 ∨ files.val.length ≤ importer.nTasks.val) : Covers importer files :=
  .of_tiles (FolderToDbImporter.tiles_taskRanges h) ((importer.evenPartition_taskRanges_iff files).mpr h)

/-- Each file is covered once if and only if the number of tasks is an `int` or there is a task for
every file. -/
theorem covers_iff (importer : FolderToDbImporter) (files : MessageMetas) :
    Covers importer files ↔ importer.nTasks.val < 2 ^ 31 ∨ files.val.length ≤ importer.nTasks.val := by
  constructor
  · exact fun h => (importer.evenPartition_taskRanges_iff files).mp h.ranges
  · exact covers_of_int_or_enough

def manyTasks : FolderToDbImporter := ⟨false, ⟨2 ^ 31, by decide⟩, true, [], [], by decide⟩

def manyFiles : MessageMetas := ⟨List.replicate (2 ^ 31 + 1) .empty, by rw [List.length_replicate]; decide⟩

theorem not_covers_many : ¬ Covers manyTasks manyFiles := by
  intro h
  have hint := (FolderToDbImporter.evenPartition_taskRanges_iff manyTasks manyFiles).mp h.ranges
  rw [manyFiles, List.length_replicate] at hint
  exact absurd hint (by decide)

/-- The tool reads the number of tasks as an `int`. -/
theorem covers_setNParallelTasks (importer : FolderToDbImporter) {ntasks : Unsigned} (h : ntasks.val < 2 ^ 31)
    (async : Bool) (nthreads : Unsigned) (files : MessageMetas) :
    Covers (importer.setNParallelTasks ntasks async nthreads) files :=
  covers_of_int_or_enough (.inl (importer.nTasks_setNParallelTasks_lt h async nthreads))

end Asapo.Consumer.FolderImport
