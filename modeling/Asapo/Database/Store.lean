import Asapo.Database.Encoding

namespace Asapo.Database

inductive Key where
  | number (n : ℤ)
  | string (t : Text)
  deriving DecidableEq, Repr

structure Store (D : Type) where
  collections : List (Text × List (Key × D))

inductive Operation where
  | exist (name : Text)
  | list (pattern : Text)
  | drop (name : Text)
  | deleteMany (collection : Text)
  deriving DecidableEq, Repr

/-- How the server compares the bytes of names with the option `i`: in ASCII by the small
letters, and outside of it in some way. -/
structure CaseFold where
  fold : Char → Char
  ascii : ∀ c, c.toNat < 128 → fold c = c.toLower

def CaseFold.simple : CaseFold := ⟨Char.toLower, fun _ _ => rfl⟩

/-- The filter `$regex` with the option `i`. -/
def CaseFold.matchesPattern (f : CaseFold) (pattern name : Text) : Bool :=
  match Regex.parse pattern with
  | none => false
  | some ts => Regex.search f.fold ts name

namespace Store

variable {D : Type}

def find (db : Store D) (name : Text) : Option (List (Key × D)) :=
  (db.collections.find? (fun c => c.1 = name)).map Prod.snd

def documents (db : Store D) (collection : Text) (key : Key) : List (Key × D) :=
  ((db.find collection).getD []).filter (fun d => d.1 = key)

def names (f : CaseFold) (pattern : Text) (db : Store D) : List Text :=
  (db.collections.map Prod.fst).filter (f.matchesPattern pattern)

def drop (name : Text) (db : Store D) : Store D := ⟨db.collections.filter (fun c => c.1 ≠ name)⟩

def keyMatches (f : CaseFold) (pattern : Text) : Key → Bool
  | .number _ => false
  | .string t => f.matchesPattern pattern t

def deleteMany (f : CaseFold) (collection pattern : Text) (db : Store D) : Store D :=
  ⟨db.collections.map (fun c =>
    if c.1 = collection then (c.1, c.2.filter (fun d => !keyMatches f pattern d.1)) else c)⟩

def contents (db : Store D) (collection : Text) : List (Key × D) := (db.find collection).getD []

/-- The documents of a collection are replaced. It is there from its first document on. -/
def write (collection : Text) (documents : List (Key × D)) (db : Store D) : Store D :=
  if documents.isEmpty && (db.find collection).isNone then db
  else ⟨(collection, documents) :: (db.drop collection).collections⟩

def put (collection : Text) (key : Key) (d : D) (db : Store D) : Store D :=
  db.write collection ((key, d) :: (db.contents collection).filter (fun x => x.1 ≠ key))

variable {db : Store D} {f : CaseFold} {name collection pattern : Text} {key : Key}

theorem find_drop (h : name ≠ collection) : (db.drop collection).find name = db.find name := by
  have hlook : ∀ cs : List (Text × List (Key × D)),
      (cs.filter (fun c => c.1 ≠ collection)).find? (fun c => c.1 = name) =
        cs.find? (fun c => c.1 = name) := by
    intro cs
    rw [List.find?_filter]
    congr 1
    funext c
    by_cases hc : c.1 = name
    · simp [hc, h]
    · simp [hc]
  rw [find, find, drop, hlook]

theorem find_drop_self : (db.drop name).find name = none := by
  simp [find, drop, List.find?_eq_none]

theorem drop_of_none (h : db.find name = none) : db.drop name = db := by
  have hnone : db.collections.find? (fun c => c.1 = name) = none := Option.map_eq_none_iff.mp h
  rw [List.find?_eq_none] at hnone
  unfold drop
  rw [List.filter_eq_self.mpr (fun c hc => by simpa using hnone c hc)]

theorem find_deleteMany : (db.deleteMany f collection pattern).find name =
    (db.find name).map (fun ds =>
      if name = collection then ds.filter (fun d => !keyMatches f pattern d.1) else ds) := by
  have hlook : ∀ cs : List (Text × List (Key × D)),
      (cs.map (fun c => if c.1 = collection then (c.1, c.2.filter (fun d => !keyMatches f pattern d.1))
        else c)).find? (fun c => c.1 = name) =
      (cs.find? (fun c => c.1 = name)).map (fun c =>
        if c.1 = collection then (c.1, c.2.filter (fun d => !keyMatches f pattern d.1)) else c) := by
    intro cs
    rw [List.find?_map]
    congr 2
    funext c
    by_cases hc : c.1 = collection <;> simp [Function.comp, hc]
  rw [find, find, deleteMany, hlook, Option.map_map, Option.map_map]
  cases hf : db.collections.find? (fun c => decide (c.1 = name)) with
  | none => rfl
  | some c =>
    have hname : c.1 = name := by simpa using List.find?_some hf
    simp only [Option.map_some, Function.comp, hname]
    split <;> rfl

theorem find_deleteMany_other (h : name ≠ collection) :
    (db.deleteMany f collection pattern).find name = db.find name := by
  rw [find_deleteMany]
  simp [h]

theorem documents_drop (h : collection ≠ name) :
    (db.drop name).documents collection key = db.documents collection key := by
  rw [documents, documents, find_drop h]

theorem documents_deleteMany_other (h : name ≠ collection) :
    (db.deleteMany f collection pattern).documents name key = db.documents name key := by
  rw [documents, documents, find_deleteMany_other h]

theorem documents_deleteMany_self (h : keyMatches f pattern key = true) :
    (db.deleteMany f collection pattern).documents collection key = [] := by
  rw [documents, find_deleteMany, List.filter_eq_nil_iff]
  cases db.find collection with
  | none => simp
  | some ds =>
    rintro d hd
    simp only [Option.map_some, if_true, Option.getD_some, List.mem_filter] at hd
    obtain ⟨-, hk⟩ := hd
    simp only [decide_eq_true_eq]
    rintro rfl
    simp [h] at hk

theorem documents_deleteMany (h : keyMatches f pattern key = false) :
    (db.deleteMany f collection pattern).documents name key = db.documents name key := by
  rw [documents, documents, find_deleteMany]
  cases db.find name with
  | none => rfl
  | some ds =>
    simp only [Option.map_some, Option.getD_some]
    split
    · rw [List.filter_filter]
      congr 1
      funext d
      by_cases hd : d.1 = key
      · simp [hd, h]
      · simp [hd]
    · rfl

theorem find_write_other {documents : List (Key × D)} (h : name ≠ collection) :
    (db.write collection documents).find name = db.find name := by
  unfold write
  split
  · rfl
  · have hne : ¬ collection = name := fun he => h he.symm
    have hdrop : (db.drop collection).find name = db.find name := find_drop h
    rw [← hdrop]
    simp [find, hne]

theorem find_write_self {documents : List (Key × D)} (h : documents ≠ []) :
    (db.write name documents).find name = some documents := by
  unfold write
  rw [if_neg (by simp [h])]
  simp [find]

@[simp] theorem contents_write {documents : List (Key × D)} :
    (db.write collection documents).contents name =
      if name = collection then documents else db.contents name := by
  by_cases h : name = collection
  · subst h
    rw [if_pos rfl]
    by_cases hd : documents = []
    · subst hd
      unfold write contents
      cases hf : db.find name <;> simp [hf]
      simp [find]
    · rw [contents, find_write_self hd]
      rfl
  · rw [if_neg h, contents, find_write_other h]
    rfl

theorem documents_write_other {documents : List (Key × D)} (h : name ≠ collection) :
    (db.write collection documents).documents name key = db.documents name key := by
  rw [Store.documents, find_write_other h]
  rfl

theorem find_put_other {d : D} (h : name ≠ collection) : (db.put collection key d).find name = db.find name :=
  find_write_other h

theorem documents_put {d : D} {k : Key} : (db.put collection key d).documents name k =
    if name = collection ∧ k = key then [(key, d)] else db.documents name k := by
  have hcontents : ∀ (db : Store D) c k, db.documents c k = (db.contents c).filter (fun x => x.1 = k) :=
    fun _ _ _ => rfl
  rw [hcontents, put, contents_write, hcontents]
  by_cases hn : name = collection
  · subst hn
    rw [if_pos rfl]
    by_cases hk : k = key
    · subst hk
      simp [List.filter_filter]
    · have hne : ¬ key = k := fun he => hk he.symm
      rw [if_neg (fun h => hk h.2), List.filter_cons_of_neg (by simpa using hne), List.filter_filter]
      congr 1
      funext x
      by_cases hx : x.1 = k
      · simp [hx, hk]
      · simp [hx]
  · rw [if_neg hn, if_neg (fun h => hn h.1)]

end Store

end Asapo.Database
