import Asapo.Consumer.FolderImport
import Asapo.Receiver.Storing

namespace Asapo.Consumer.FolderImport

open Interleaving Transition Database MongoDBClient Receiver.Storing

variable {J ω E : Type}

/-- The factory of the program. `create` and `connect` decide whether a client can be made and
connected. A duplicate is no error if the importer ignores it. -/
def mongoFactory (c : MongoDBClient J ω) (create : ω → Option Error × ω)
    (connect : Text → Text → ω → Option Error × ω) : DatabaseFactory (World J ω) where
  create := World.lift create
  connect := fun uri name => World.lift (connect uri name)
  insert := fun collection file ignoreDuplicates w =>
    let res := c.insert collection file w
    (if ignoreDuplicates && DBErrorTemplates.duplicateID.equals res.1 then none else res.1, res.2)

section Stored

variable {c : MongoDBClient J ω} {create : ω → Option Error × ω} {connect : Text → Text → ω → Option Error × ω}
  {importer : FolderToDbImporter} {files : MessageMetas} {old : Collection J} {s t : Import (World J ω)}

def Stored (c : MongoDBClient J ω) (old : Collection J) (s : Import (World J ω)) : Prop :=
  ∃ added, docs dataCollection s.db = old ++ added ∧
    added.map some = s.inserted.map (fun file => c.json.fromJson file.json)

theorem Stored.same_docs (h : Stored c old s) {db : World J ω}
    (hdb : docs dataCollection db = docs dataCollection s.db) :
    Stored c old { s with db := db } := by
  obtain ⟨added, hdocs, hadded⟩ := h
  exact ⟨added, hdb.trans hdocs, hadded⟩

theorem stored_importSingleFile (hdup : importer.ignoreDuplicates = false) {file : MessageMeta} (hid : file.id ≠ 0)
    (h : Stored c old s) : Stored c old (importSingleFile importer (mongoFactory c create connect) file s).2 := by
  obtain ⟨added, hdocs, hadded⟩ := h
  generalize hres : c.insert dataCollection file s.db = res
  obtain ⟨err, w⟩ := res
  have himport : importSingleFile importer (mongoFactory c create connect) file s =
      (err, ⟨w, if err = none then s.inserted ++ [file] else s.inserted⟩) := by
    simp [importSingleFile, mongoFactory, hdup, hres]
  rw [himport]
  have hcases := insert_cases hres
  simp only [hid, if_false] at hcases
  cases hcases with
  | done hnew =>
    obtain ⟨d, hd, hnew, -⟩ := hnew
    refine ⟨added ++ [d], ?_, ?_⟩
    · rw [hnew, hdocs, List.append_assoc]
    · rw [if_pos rfl, List.map_append, List.map_append, hadded, List.map_singleton, List.map_singleton]
      exact congrArg (fun x => _ ++ [x]) hd.symm
  | duplicate e code hsame full => exact ⟨added, hsame.trans hdocs, hadded⟩
  | failed e code hsame => exact ⟨added, hsame.trans hdocs, hadded⟩

theorem stored_performParallelTask (hdup : importer.ignoreDuplicates = false) (hids : ∀ file ∈ files.val, file.id ≠ 0)
    {task m : Task} (h : Stored c old s)
    (hstep : performParallelTask importer files (mongoFactory c create connect) s task () = some (t, m)) :
    Stored c old t := by
  cases performed_of_step hstep with
  | created => exact h.same_docs rfl
  | connected => exact h.same_docs rfl
  | inserted _ _ hfile => exact stored_importSingleFile hdup (hids _ (List.mem_of_getElem? hfile)) h
  | finished => exact h

/-- An import that returns no error, and does not ignore duplicates, has added one document for
every file, if nobody else writes to the collection. -/
theorem import_stores (hint : importer.nTasks.val < 2 ^ 31 ∨ files.val.length ≤ importer.nTasks.val)
    (hdup : importer.ignoreDuplicates = false) (hids : ∀ file ∈ files.val, file.id ≠ 0)
    (env : World J ω → E → Option (World J ω))
    (henv : ∀ w e w', env w e = some w' → docs dataCollection w' = docs dataCollection w) (w : World J ω)
    (events : List (Event Unit E _)) (s : ImportSystem (World J ω) importer files)
    (hrun : exec (step (performParallelTask importer files (mongoFactory c create connect)) (world env))
      (started importer files w) events = some s) (hresult : importFilelist s = some none) :
    ∃ added, docs dataCollection s.shared.db = docs dataCollection w ++ added ∧
      (added.map some).Perm (files.val.map (fun file => c.json.fromJson file.json)) := by
  have hstored : Stored c (docs dataCollection w) s.shared := by
    refine always_exec (P := fun s => Stored c (docs dataCollection w) s.shared) _ _ events
      (always_of_step (fun _ h => h) ?_ _ events ⟨[], (List.append_nil _).symm, rfl⟩) hrun
    intro s e t hs ht
    cases e with
    | thread i a =>
      obtain ⟨⟨t', m⟩, hx, rfl⟩ := Option.map_eq_some_iff.mp ht
      exact stored_performParallelTask hdup hids hs hx
    | world e =>
      obtain ⟨t', hx, rfl⟩ := Option.map_eq_some_iff.mp ht
      obtain ⟨db, hdb, rfl⟩ := Option.map_eq_some_iff.mp hx
      exact hs.same_docs (henv _ e db hdb)
  have hperm := (covers_of_int_or_enough hint).once ⟨_, _, _, env, w, events, s, hrun⟩
    (results_of_importFilelist hresult)
  obtain ⟨added, hdocs, hadded⟩ := hstored
  exact ⟨added, hdocs, hadded ▸ hperm.map _⟩

end Stored

end Asapo.Consumer.FolderImport
