import Mathlib

namespace Asapo

/-- A file, or a folder with its entries under different names. -/
inductive FolderTree (α β : Type) where
  | leaf (content : β)
  | folder (names : List α) (distinct : names.Nodup) (child : { n // n ∈ names } → FolderTree α β)

namespace FolderTree

variable {α β : Type}

structure Folder (α β : Type) where
  names : List α
  distinct : names.Nodup
  child : { n // n ∈ names } → FolderTree α β

def Folder.tree (f : Folder α β) : FolderTree α β := .folder f.names f.distinct f.child

structure Entry (α β : Type) where
  parents : List α
  name : α
  tree : FolderTree α β

def Entry.path (e : Entry α β) : List α := e.parents ++ [e.name]

def Entry.within (n : α) (e : Entry α β) : Entry α β := { e with parents := n :: e.parents }

inductive At : FolderTree α β → Entry α β → Prop
  | child {names : List α} {distinct : names.Nodup} {child : { n // n ∈ names } → FolderTree α β}
      (n : { n // n ∈ names }) : At (.folder names distinct child) ⟨[], n.1, child n⟩
  | inside {names : List α} {distinct : names.Nodup} {child : { n // n ∈ names } → FolderTree α β}
      (n : { n // n ∈ names }) {e : Entry α β} (h : At (child n) e) :
      At (.folder names distinct child) (e.within n.1)

/-- The entries that are seen if only some of the folders are entered. -/
def visited (enter : α → Bool) : FolderTree α β → List (Entry α β)
  | .leaf _ => []
  | .folder names _ child =>
    names.attach.flatMap (fun n =>
      ⟨[], n.1, child n⟩ :: if enter n.1 then (visited enter (child n)).map (Entry.within n.1) else [])

variable {enter : α → Bool} {t : FolderTree α β} {e : Entry α β}

theorem path_within (n : α) (e : Entry α β) : (e.within n).path = n :: e.path := rfl

theorem path_ne_nil (e : Entry α β) : e.path ≠ [] := by simp [Entry.path]

theorem mem_visited : e ∈ visited enter t ↔ t.At e ∧ ∀ n ∈ e.parents, enter n = true := by
  induction t generalizing e with
  | leaf content =>
    constructor
    · rintro ⟨⟩
    · rintro ⟨⟨⟩, -⟩
  | folder names distinct child ih =>
    rw [visited, List.mem_flatMap]
    constructor
    · rintro ⟨n, -, he⟩
      obtain rfl | he := List.mem_cons.mp he
      · exact ⟨.child n, by simp⟩
      · by_cases hn : enter n.1 = true
        · rw [if_pos hn] at he
          obtain ⟨e', he', rfl⟩ := List.mem_map.mp he
          obtain ⟨hat, hparents⟩ := (ih n).mp he'
          refine ⟨.inside n hat, ?_⟩
          rintro m hm
          obtain rfl | hm := List.mem_cons.mp hm
          · exact hn
          · exact hparents m hm
        · rw [if_neg hn] at he
          cases he
    · rintro ⟨hat, hparents⟩
      cases hat with
      | child n => exact ⟨n, List.mem_attach _ _, List.mem_cons_self⟩
      | inside n h =>
        refine ⟨n, List.mem_attach _ _, List.mem_cons_of_mem _ ?_⟩
        rw [if_pos (hparents n.1 List.mem_cons_self)]
        exact List.mem_map_of_mem ((ih n).mpr ⟨h, fun m hm => hparents m (List.mem_cons_of_mem _ hm)⟩)

theorem nodup_visited (enter : α → Bool) (t : FolderTree α β) : ((visited enter t).map Entry.path).Nodup := by
  induction t with
  | leaf content => exact List.nodup_nil
  | folder names distinct child ih =>
    have hblock : ∀ n : { n // n ∈ names }, ∀ e ∈ (⟨[], n.1, child n⟩ : Entry α β) ::
        (if enter n.1 then (visited enter (child n)).map (Entry.within n.1) else []), e.path.head? = some n.1 := by
      intro n e he
      obtain rfl | he := List.mem_cons.mp he
      · rfl
      · split at he
        · obtain ⟨e', -, rfl⟩ := List.mem_map.mp he
          rfl
        · cases he
    rw [visited, List.map_flatMap, List.nodup_flatMap]
    refine ⟨fun n _ => ?_, ?_⟩
    · rw [List.map_cons, List.nodup_cons]
      split
      · rw [List.map_map]
        refine ⟨fun hmem => ?_, ?_⟩
        · obtain ⟨e, -, he⟩ := List.mem_map.mp hmem
          exact path_ne_nil e (List.cons.inj he).2
        · have hcons : Entry.path ∘ Entry.within (β := β) n.1 = List.cons n.1 ∘ Entry.path := rfl
          rw [hcons, ← List.map_map]
          exact (ih n).map (List.cons_injective)
      · exact ⟨by simp, List.nodup_nil⟩
    · -- the entries of two names differ in where they start
      refine (List.nodup_attach.mpr distinct).imp ?_
      intro n m hne
      rw [Function.onFun, List.disjoint_left]
      rintro path hn hm
      obtain ⟨e, he, rfl⟩ := List.mem_map.mp hn
      obtain ⟨e', he', hpath⟩ := List.mem_map.mp hm
      have hhead := hblock m e' he'
      rw [hpath, hblock n e he] at hhead
      exact hne (Subtype.ext (Option.some.inj hhead))

end FolderTree

end Asapo
