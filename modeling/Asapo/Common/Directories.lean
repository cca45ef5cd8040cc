import Asapo.Common.DataStructs
import Asapo.Common.Error
import Asapo.FolderTree
import Asapo.Path

namespace Asapo.Directories

open Asapo.Path (Name)
open FolderTree

inductive Content where
  | regular (size : ℕ) (modified : ℤ)
  | other
  deriving DecidableEq, Repr

abbrev Tree := FolderTree Name Content

inductive DType where
  | dir
  | reg
  | unknown
  deriving DecidableEq, Repr

def dType : Tree → DType
  | .folder _ _ _ => .dir
  | .leaf (.regular _ _) => .reg
  | .leaf .other => .unknown

def strstr (s part : Text) : Bool := part <:+: s

def isDirectory (name : Text) (type : DType) : Bool :=
  type = .dir && !strstr name (text "..") && !strstr name (text ".")

structure FileMeta where
  name : Text
  size : ℕ
  timestamp : ℤ
  id : ℕ
  deriving DecidableEq, Repr

/-- The errors of the calls that see a path. That of `readdir` is asked for behind the last entry. -/
structure Access where
  opendir : Text → Option Error
  readdir : Text → Option Error
  stat : Text → Option Error

def Access.free : Access := ⟨fun _ => none, fun _ => none, fun _ => none⟩

variable {γ : Type}

def collected : List (Except Error (List γ)) → Except Error (List γ)
  | [] => .ok []
  | .error err :: _ => .error err
  | .ok found :: rest => (collected rest).map (found ++ ·)

/-- The recursion of `GetSubDirectoriesRecursively` and `CollectMessageMetarmationRecursively`. The entries
for the folder itself and the one above are directories with a dot in their names, which are neither
entered nor files. -/
def traverse (a : Access) (subdir : Text → List γ) (entity : Tree → Text → Except Error (List γ)) :
    Tree → Text → Except Error (List γ)
  -- `ENOTDIR` has the error of a file that is not there.
  | .leaf _, path => .error ((a.opendir path).getD (IOErrorTemplates.fileNotFound.generate ""))
  | .folder names _ child, path =>
    match a.opendir path with
    | some err => .error err
    | none =>
      match collected (names.attach.map (fun n =>
        if isDirectory n.1.chars (dType (child n)) then
          (traverse a subdir entity (child n) (path ++ text "/" ++ n.1.chars)).map
            (subdir (path ++ text "/" ++ n.1.chars) ++ ·)
        else entity (child n) (path ++ text "/" ++ n.1.chars))) with
      | .error err => .error err
      | .ok found =>
        match a.readdir path with
        | some err => .error err
        | none => .ok found

def getSubDirectoriesRecursively (a : Access) (tree : Tree) (path : Text) : Except Error (List Text) :=
  traverse a (fun subdir => [subdir]) (fun _ _ => .ok []) tree path

def processFileEntity (a : Access) (entity : Tree) (path : Text) : Except Error (List FileMeta) :=
  match entity with
  | .leaf (.regular size modified) =>
    match a.stat path with
    | some err => .error err
    | none => .ok [⟨path, size, modified, 0⟩]
  | _ => .ok []

def collectMessageMetarmationRecursively (a : Access) (tree : Tree) (path : Text) : Except Error (List FileMeta) :=
  traverse a (fun _ => []) (processFileEntity a) tree path

/-- `std::sort` by the time. The order of files with the same time is not determined. -/
structure SortFileList where
  sort : List FileMeta → List FileMeta
  perm : ∀ files, (sort files).Perm files
  sorted : ∀ files, (sort files).Pairwise (fun a b => a.timestamp ≤ b.timestamp)

def SortFileList.stable : SortFileList where
  sort files := files.mergeSort (fun a b => a.timestamp ≤ b.timestamp)
  perm files := List.mergeSort_perm files _
  sorted files := by
    have hsorted : (files.mergeSort (fun a b => a.timestamp ≤ b.timestamp)).Pairwise
        (fun a b => decide (a.timestamp ≤ b.timestamp) = true) := List.pairwise_mergeSort
      (fun a b c hab hbc => by simp only [decide_eq_true_eq] at *; omega)
      (fun a b => by simp only [Bool.or_eq_true, decide_eq_true_eq]; omega) files
    exact hsorted.imp (fun h => of_decide_eq_true h)

def stripBasePath (folder : Text) (files : List FileMeta) : List FileMeta :=
  files.map (fun file => { file with name := file.name.drop (folder.length + 1) })

def assignIDs : ℕ → List FileMeta → List FileMeta
  | _, [] => []
  | id, file :: files => { file with id := id + 1 } :: assignIDs (id + 1) files

def filesInFolder (a : Access) (s : SortFileList) (folder : Text) (tree : Tree) : Except Error (List FileMeta) :=
  (collectMessageMetarmationRecursively a tree folder).map
    (fun files => assignIDs 0 (s.sort (stripBasePath folder files)))

def getSubDirectories (a : Access) (path : Text) (tree : Tree) : Except Error (List Text) :=
  getSubDirectoriesRecursively a tree path

def relative (e : Entry Name Content) : Text := ['/'].intercalate (e.path.map Name.chars)

def full (path : Text) (e : Entry Name Content) : Text := path ++ text "/" ++ relative e

/-- The files of a list are those below the folder, each one once, with numbers from one on
in the order of their times. -/
structure FilesComplete (tree : Tree) (files : List FileMeta) : Prop where
  once : (files.map FileMeta.name).Nodup
  all : ∀ name size modified, (∃ id, ⟨name, size, modified, id⟩ ∈ files) ↔
    ∃ e, tree.At e ∧ e.tree = .leaf (.regular size modified) ∧ name = relative e
  ids : files.map FileMeta.id = List.range' 1 files.length
  sorted : files.Pairwise (fun a b => a.timestamp ≤ b.timestamp)

structure SubDirsComplete (path : Text) (tree : Tree) (dirs : List Text) : Prop where
  once : dirs.Nodup
  all : ∀ dir, dir ∈ dirs ↔ ∃ e, tree.At e ∧ dType e.tree = .dir ∧ dir = full path e

def enters (n : Name) : Bool := !strstr n.chars (text "..") && !strstr n.chars (text ".")

def found (subdir : Text → List γ) (emit : Tree → Text → List γ) (path : Text) (e : Entry Name Content) : List γ :=
  if isDirectory e.name.chars (dType e.tree) then subdir (full path e) else emit e.tree (full path e)

theorem full_within (path : Text) (n : Name) (e : Entry Name Content) :
    full (path ++ text "/" ++ n.chars) e = full path (e.within n) := by
  obtain ⟨m, rest, hpath⟩ := List.exists_cons_of_ne_nil (path_ne_nil e)
  rw [full, full, relative, relative, path_within, hpath, List.map_cons, List.map_cons, List.map_cons,
    List.intercalate_cons_cons]
  simp only [List.append_assoc]
  rfl

theorem full_child (path : Text) (n : Name) (t : Tree) : full path ⟨[], n, t⟩ = path ++ text "/" ++ n.chars := by
  rw [full, relative]
  simp [Entry.path]

theorem isDirectory_folder (n : Name) {names : List Name} (distinct : names.Nodup)
    (child : { n // n ∈ names } → Tree) : isDirectory n.chars (dType (.folder names distinct child)) = enters n :=
  rfl

theorem isDirectory_leaf (n : Name) (content : Content) : isDirectory n.chars (dType (.leaf content)) = false := by
  cases content <;> rfl

theorem found_within (subdir : Text → List γ) (emit : Tree → Text → List γ) (path : Text) (n : Name)
    (e : Entry Name Content) :
    found subdir emit path (e.within n) = found subdir emit (path ++ text "/" ++ n.chars) e := by
  rw [found, found, full_within]
  rfl

theorem collected_ok {α : Type} (f : α → List γ) (l : List α) :
    collected (l.map (fun n => .ok (f n))) = .ok (l.flatMap f) := by
  induction l with
  | nil => rfl
  | cons n l ih =>
    rw [List.map_cons, collected, ih]
    rfl

theorem traverse_free (subdir : Text → List γ) (emit : Tree → Text → List γ) {names : List Name}
    (distinct : names.Nodup) (child : { n // n ∈ names } → Tree) (path : Text) :
    traverse .free subdir (fun x p => .ok (emit x p)) (.folder names distinct child) path =
      .ok ((visited enters (.folder names distinct child)).flatMap (found subdir emit path)) := by
  generalize htree : FolderTree.folder names distinct child = tree
  induction tree generalizing path names with
  | leaf content => cases htree
  | folder names distinct child ih =>
    cases htree
    have hentry : ∀ n : { n // n ∈ names },
        (if isDirectory n.1.chars (dType (child n)) then
          (traverse .free subdir (fun x p => .ok (emit x p)) (child n) (path ++ text "/" ++ n.1.chars)).map
            (subdir (path ++ text "/" ++ n.1.chars) ++ ·)
        else .ok (emit (child n) (path ++ text "/" ++ n.1.chars))) =
        .ok (((⟨[], n.1, child n⟩ : Entry Name Content) ::
          if enters n.1 then (visited enters (child n)).map (Entry.within n.1) else []).flatMap
            (found subdir emit path)) := by
      intro n
      rw [List.flatMap_cons, found, full_child]
      dsimp only
      cases hchild : child n with
      | leaf content =>
        rw [isDirectory_leaf]
        simp [visited]
      | folder ns distinct' child' =>
        rw [isDirectory_folder]
        by_cases hn : enters n.1 = true
        · rw [if_pos hn, if_pos hn, if_pos hn, ← hchild, ih n distinct' child' _ hchild.symm, List.flatMap_map]
          simp only [found_within]
          rfl
        · rw [if_neg hn, if_neg hn, if_neg hn]
          simp
    rw [traverse]
    simp only [hentry, collected_ok]
    rw [visited, List.flatMap_assoc]
    rfl

theorem enters_iff (n : Name) : enters n = true ↔ '.' ∉ n.chars := by
  have hone : strstr n.chars (text ".") = true ↔ '.' ∈ n.chars := by
    rw [strstr, decide_eq_true_eq]
    exact List.singleton_infix_iff _ _
  have htwo : strstr n.chars (text "..") = true → strstr n.chars (text ".") = true := by
    rw [strstr, strstr, decide_eq_true_eq, decide_eq_true_eq]
    exact fun h => (List.prefix_append ['.'] ['.']).isInfix.trans h
  rw [enters, Bool.and_eq_true, Bool.not_eq_true', Bool.not_eq_true', ← hone]
  constructor
  · rintro ⟨-, h⟩ hdot
    rw [h] at hdot
    cases hdot
  · intro h
    exact ⟨Bool.eq_false_iff.mpr (fun h2 => h (htwo h2)), Bool.eq_false_iff.mpr h⟩

theorem relative_injective {e e' : Entry Name Content} (h : relative e = relative e') : e.path = e'.path := by
  have helements := congrArg Path.elements h
  rw [relative, relative, Path.elements_intercalate, Path.elements_intercalate] at helements
  exact List.map_injective_iff.mpr (fun _ _ hn => Path.Element.enter.inj hn) helements

theorem full_injective {path : Text} {e e' : Entry Name Content} (h : full path e = full path e') :
    e.path = e'.path :=
  relative_injective (List.append_cancel_left h)

theorem nodup_relative (tree : Tree) : ((visited enters tree).map relative).Nodup := by
  refine (List.nodup_map_iff_inj_on ?_).mpr ?_
  · exact (nodup_visited enters tree).of_map
  · intro e he e' he' h
    exact List.inj_on_of_nodup_map (nodup_visited enters tree) he he' (relative_injective h)

theorem flatMap_sublist_map {δ ε ζ : Type} {f : δ → List ε} {g : ε → ζ} {h : δ → ζ} (l : List δ)
    (hf : ∀ e, ((f e).map g).Sublist [h e]) : ((l.flatMap f).map g).Sublist (l.map h) := by
  induction l with
  | nil => exact .slnil
  | cons e l ih =>
    rw [List.flatMap_cons, List.map_append, List.map_cons]
    exact (hf e).append ih

section Files

def regularFile (x : Tree) (name : Text) : List FileMeta :=
  match x with
  | .leaf (.regular size modified) => [⟨name, size, modified, 0⟩]
  | _ => []

theorem mem_regularFile {x : Tree} {name : Text} {file : FileMeta} :
    file ∈ regularFile x name ↔ x = .leaf (.regular file.size file.timestamp) ∧ file.name = name ∧ file.id = 0 := by
  unfold regularFile
  split
  · rename_i size modified
    rw [List.mem_singleton]
    constructor
    · rintro rfl
      exact ⟨rfl, rfl, rfl⟩
    · obtain ⟨name', size', modified', id'⟩ := file
      rintro ⟨h, rfl, rfl⟩
      cases h
      rfl
  · rename_i hx
    constructor
    · rintro ⟨⟩
    · rintro ⟨rfl, -⟩
      exact absurd rfl (hx _ _)

theorem regularFile_sublist (x : Tree) (name : Text) : ((regularFile x name).map FileMeta.name).Sublist [name] := by
  unfold regularFile
  split
  · exact List.Sublist.refl _
  · exact List.nil_sublist _

theorem processFileEntity_free : processFileEntity .free = fun x path => .ok (regularFile x path) := by
  funext x path
  unfold processFileEntity regularFile
  split <;> rfl

theorem found_regularFile (path : Text) (e : Entry Name Content) :
    found (fun _ => []) regularFile path e = regularFile e.tree (full path e) := by
  rw [found]
  split
  · rename_i hdir
    cases htree : e.tree with
    | leaf content =>
      rw [htree, isDirectory_leaf] at hdir
      cases hdir
    | folder => rfl
  · rfl

theorem stripBasePath_regularFile (path : Text) (e : Entry Name Content) :
    stripBasePath path (regularFile e.tree (full path e)) = regularFile e.tree (relative e) := by
  have hdrop : (full path e).drop (path.length + 1) = relative e := by
    rw [full, List.append_assoc, ← List.drop_drop, List.drop_left]
    rfl
  unfold regularFile stripBasePath
  split
  · simp [hdrop]
  · rfl

def unsorted (tree : Tree) : List FileMeta := (visited enters tree).flatMap (fun e => regularFile e.tree (relative e))

theorem filesInFolder_free (s : SortFileList) (path : Text) {names : List Name} (distinct : names.Nodup)
    (child : { n // n ∈ names } → Tree) :
    filesInFolder .free s path (.folder names distinct child) =
      .ok (assignIDs 0 (s.sort (unsorted (.folder names distinct child)))) := by
  have hfound : found (fun _ => []) regularFile path = fun e => regularFile e.tree (full path e) :=
    funext (found_regularFile path)
  have hstrip : stripBasePath path ((visited enters (.folder names distinct child)).flatMap
      (fun e => regularFile e.tree (full path e))) = unsorted (.folder names distinct child) := by
    rw [stripBasePath, List.map_flatMap, unsorted]
    congr 1
    funext e
    exact stripBasePath_regularFile path e
  rw [filesInFolder, collectMessageMetarmationRecursively, processFileEntity_free, traverse_free, hfound, Except.map,
    hstrip]

def FileMeta.content (file : FileMeta) : Text × ℕ × ℤ := (file.name, file.size, file.timestamp)

theorem content_assignIDs (id : ℕ) (files : List FileMeta) :
    (assignIDs id files).map FileMeta.content = files.map FileMeta.content := by
  induction files generalizing id with
  | nil => rfl
  | cons file files ih =>
    rw [assignIDs, List.map_cons, List.map_cons, ih]
    rfl

theorem ids_assignIDs (id : ℕ) (files : List FileMeta) :
    (assignIDs id files).map FileMeta.id = List.range' (id + 1) files.length := by
  induction files generalizing id with
  | nil => rfl
  | cons file files ih =>
    rw [assignIDs, List.map_cons, ih, List.length_cons, List.range'_succ]

theorem map_assignIDs {δ : Type} (f : Text × ℕ × ℤ → δ) (id : ℕ) (files : List FileMeta) :
    (assignIDs id files).map (fun file => f file.content) = files.map (fun file => f file.content) := by
  have hcontent := congrArg (List.map f) (content_assignIDs id files)
  rwa [List.map_map, List.map_map] at hcontent

theorem mem_unsorted {tree : Tree} {c : Text × ℕ × ℤ} :
    c ∈ (unsorted tree).map FileMeta.content ↔
      ∃ e, tree.At e ∧ (∀ n ∈ e.parents, '.' ∉ n.chars) ∧ e.tree = .leaf (.regular c.2.1 c.2.2) ∧
        c.1 = relative e := by
  rw [List.mem_map, unsorted]
  constructor
  · rintro ⟨file, hfile, rfl⟩
    obtain ⟨e, he, hmem⟩ := List.mem_flatMap.mp hfile
    obtain ⟨hat, hparents⟩ := mem_visited.mp he
    obtain ⟨htree, hname, -⟩ := mem_regularFile.mp hmem
    exact ⟨e, hat, fun n hn => (enters_iff n).mp (hparents n hn), htree, hname⟩
  · rintro ⟨e, hat, hparents, htree, hname⟩
    refine ⟨⟨c.1, c.2.1, c.2.2, 0⟩, List.mem_flatMap.mpr ⟨e, ?_, ?_⟩, rfl⟩
    · exact mem_visited.mpr ⟨hat, fun n hn => (enters_iff n).mpr (hparents n hn)⟩
    · exact mem_regularFile.mpr ⟨htree, hname, rfl⟩

theorem filesComplete_of_plain {tree : Tree} (s : SortFileList)
    (h : ∀ e, tree.At e → ∀ n ∈ e.parents, '.' ∉ n.chars) :
    FilesComplete tree (assignIDs 0 (s.sort (unsorted tree))) where
  once := by
    have hnames := map_assignIDs Prod.fst 0 (s.sort (unsorted tree))
    change (assignIDs 0 (s.sort (unsorted tree))).map FileMeta.name = (s.sort (unsorted tree)).map FileMeta.name
      at hnames
    rw [hnames, ((s.perm _).map FileMeta.name).nodup_iff]
    exact (flatMap_sublist_map _ (fun e => regularFile_sublist _ _)).nodup (nodup_relative tree)
  all name size modified := by
    have hmem : (∃ id, ⟨name, size, modified, id⟩ ∈ assignIDs 0 (s.sort (unsorted tree))) ↔
        (name, size, modified) ∈ (assignIDs 0 (s.sort (unsorted tree))).map FileMeta.content := by
      rw [List.mem_map]
      constructor
      · rintro ⟨id, hid⟩
        exact ⟨_, hid, rfl⟩
      · rintro ⟨⟨name', size', modified', id⟩, hid, hcontent⟩
        cases hcontent
        exact ⟨id, hid⟩
    rw [hmem, content_assignIDs, ((s.perm _).map FileMeta.content).mem_iff, mem_unsorted]
    constructor
    · rintro ⟨e, hat, -, htree, hname⟩
      exact ⟨e, hat, htree, hname⟩
    · rintro ⟨e, hat, htree, hname⟩
      exact ⟨e, hat, h e hat, htree, hname⟩
  ids := by
    have hlength := congrArg List.length (content_assignIDs 0 (s.sort (unsorted tree)))
    rw [List.length_map, List.length_map] at hlength
    rw [ids_assignIDs, hlength]
  sorted := by
    have htimes := map_assignIDs (fun c => c.2.2) 0 (s.sort (unsorted tree))
    have hpairs : ((assignIDs 0 (s.sort (unsorted tree))).map (fun file => file.content.2.2)).Pairwise (· ≤ ·) := by
      rw [htimes]
      exact List.pairwise_map.mpr (s.sorted _)
    exact List.pairwise_map.mp hpairs

end Files

section Folders

theorem getSubDirectories_free (path : Text) {names : List Name} (distinct : names.Nodup)
    (child : { n // n ∈ names } → Tree) :
    getSubDirectories .free path (.folder names distinct child) =
      .ok ((visited enters (.folder names distinct child)).flatMap
        (found (fun subdir => [subdir]) (fun _ _ => []) path)) :=
  traverse_free _ (fun _ _ => []) distinct child path

theorem mem_folders {path dir : Text} {tree : Tree} :
    dir ∈ (visited enters tree).flatMap (found (fun subdir => [subdir]) (fun _ _ => []) path) ↔
      ∃ e, tree.At e ∧ (∀ n ∈ e.path, '.' ∉ n.chars) ∧ dType e.tree = .dir ∧ dir = full path e := by
  have hdirectory : ∀ e : Entry Name Content,
      isDirectory e.name.chars (dType e.tree) = true ↔ dType e.tree = .dir ∧ '.' ∉ e.name.chars := by
    intro e
    rw [← enters_iff, isDirectory, enters, Bool.and_assoc, Bool.and_eq_true, decide_eq_true_eq]
  rw [List.mem_flatMap]
  constructor
  · rintro ⟨e, he, hmem⟩
    obtain ⟨hat, hparents⟩ := mem_visited.mp he
    rw [found] at hmem
    split at hmem
    · rename_i hdir
      obtain ⟨hfolder, hname⟩ := (hdirectory e).mp hdir
      refine ⟨e, hat, fun n hn => ?_, hfolder, List.mem_singleton.mp hmem⟩
      obtain hn | hn := List.mem_append.mp hn
      · exact (enters_iff n).mp (hparents n hn)
      · rw [List.mem_singleton.mp hn]
        exact hname
    · cases hmem
  · rintro ⟨e, hat, hplain, hfolder, rfl⟩
    refine ⟨e, mem_visited.mpr ⟨hat, fun n hn => ?_⟩, ?_⟩
    · exact (enters_iff n).mpr (hplain n (List.mem_append_left _ hn))
    · rw [found, if_pos ((hdirectory e).mpr ⟨hfolder, hplain _ (List.mem_append_right _ List.mem_cons_self)⟩)]
      exact List.mem_cons_self

theorem nodup_folders (path : Text) (tree : Tree) :
    ((visited enters tree).flatMap (found (fun subdir => [subdir]) (fun _ _ => []) path)).Nodup := by
  have hsub := flatMap_sublist_map (f := found (fun subdir => [subdir]) (fun _ _ => []) path) (g := id)
    (h := full path) (visited enters tree) (fun e => by
      rw [List.map_id, found]
      split
      · exact List.Sublist.refl _
      · exact List.nil_sublist _)
  rw [List.map_id] at hsub
  refine hsub.nodup ((List.nodup_map_iff_inj_on (nodup_visited enters tree).of_map).mpr ?_)
  intro e he e' he' h
  exact List.inj_on_of_nodup_map (nodup_visited enters tree) he he' (full_injective h)

end Folders

theorem dType_of_at {tree : Tree} {e : Entry Name Content} (h : tree.At e) : dType tree = .dir := by
  cases h <;> rfl

theorem at_parent {tree : Tree} {e : Entry Name Content} (h : tree.At e) {n : Name} (hn : n ∈ e.parents) :
    ∃ e', tree.At e' ∧ dType e'.tree = .dir ∧ e'.name = n := by
  induction h with
  | child m => cases hn
  | inside m h ih =>
    obtain rfl | hn := List.mem_cons.mp hn
    · exact ⟨_, .child m, dType_of_at h, rfl⟩
    · obtain ⟨e', hat, hdir, hname⟩ := ih hn
      exact ⟨_, .inside m hat, hdir, hname⟩

/-- Both traversals see everything below a folder, precisely when no folder below it has a
dot in its name. -/
theorem traversal_complete_iff (s : SortFileList) (path : Text) (f : Folder Name Content) :
    ((∃ files, filesInFolder .free s path f.tree = .ok files ∧ FilesComplete f.tree files) ∧
      ∃ dirs, getSubDirectories .free path f.tree = .ok dirs ∧ SubDirsComplete path f.tree dirs) ↔
    ∀ e, f.tree.At e → dType e.tree = .dir → '.' ∉ e.name.chars := by
  rw [Folder.tree, filesInFolder_free, getSubDirectories_free, ← Folder.tree]
  constructor
  · rintro ⟨-, dirs, hdirs, hcomplete⟩ e hat hfolder
    cases hdirs
    obtain ⟨e', -, hplain, -, hfull⟩ := mem_folders.mp ((hcomplete.all (full path e)).mpr ⟨e, hat, hfolder, rfl⟩)
    rw [← full_injective hfull] at hplain
    exact hplain e.name (List.mem_append_right _ List.mem_cons_self)
  · intro h
    have hparents : ∀ e, f.tree.At e → ∀ n ∈ e.parents, '.' ∉ n.chars := by
      intro e hat n hn
      obtain ⟨e', hat', hdir, rfl⟩ := at_parent hat hn
      exact h e' hat' hdir
    refine ⟨⟨_, rfl, filesComplete_of_plain s hparents⟩, _, rfl, nodup_folders _ _, fun dir => ?_⟩
    rw [mem_folders]
    constructor
    · rintro ⟨e, hat, -, hdir, hfull⟩
      exact ⟨e, hat, hdir, hfull⟩
    · rintro ⟨e, hat, hdir, hfull⟩
      refine ⟨e, hat, fun n hn => ?_, hdir, hfull⟩
      obtain hn | hn := List.mem_append.mp hn
      · exact hparents e hat n hn
      · rw [List.mem_singleton.mp hn]
        exact h e hat hdir

def dottedFolder : Folder Name Content where
  names := [⟨text "run.1", by decide⟩]
  distinct := List.nodup_singleton _
  child _ := .folder [⟨text "a", by decide⟩] (List.nodup_singleton _) (fun _ => .leaf (.regular 5 0))

theorem dotted_folder_not_listed :
    (∃ e, dottedFolder.tree.At e ∧ e.tree = .leaf (.regular 5 0) ∧ relative e = text "run.1/a") ∧
      filesInFolder .free .stable (text "/data") dottedFolder.tree = .ok [] ∧
      getSubDirectories .free (text "/data") dottedFolder.tree = .ok [] := by
  refine ⟨⟨_, .inside ⟨_, List.mem_cons_self⟩ (.child ⟨_, List.mem_cons_self⟩), rfl, by decide⟩, ?_, ?_⟩
  · have hnil : unsorted dottedFolder.tree = [] := by decide +kernel
    have hsort : SortFileList.stable.sort [] = [] := (SortFileList.stable.perm []).eq_nil
    rw [Folder.tree, filesInFolder_free, ← Folder.tree, hnil, hsort]
    rfl
  · decide +kernel

end Asapo.Directories
