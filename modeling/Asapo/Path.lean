import Mathlib

namespace Asapo.Path

inductive Element (α : Type) where
  | parent
  | enter (name : α)
  deriving DecidableEq, Repr

/-- A path without detours, first upwards and then downwards. -/
@[ext]
structure Walk (α : Type) where
  up : ℕ
  down : List α
  deriving DecidableEq, Repr

namespace Walk

variable {α : Type}

def go (w : Walk α) : Element α → Walk α
  | .parent => if w.down = [] then { w with up := w.up + 1 } else { w with down := w.down.dropLast }
  | .enter name => { w with down := w.down ++ [name] }

def along (es : List (Element α)) : Walk α := es.foldl go ⟨0, []⟩

/-- One walk after another: the second one first goes up where the first one went down. -/
def comp (v w : Walk α) : Walk α :=
  ⟨v.up + (w.up - v.down.length), v.down.take (v.down.length - w.up) ++ w.down⟩

theorem comp_start (v : Walk α) : v.comp ⟨0, []⟩ = v := by
  ext1 <;> simp [comp]

theorem comp_go (v w : Walk α) (e : Element α) : v.comp (w.go e) = (v.comp w).go e := by
  cases e with
  | enter name => ext1 <;> simp [comp, go]
  | parent =>
    by_cases hdown : w.down = []
    · -- the second walk goes up once more
      by_cases hup : v.down.length ≤ w.up
      · have htake : v.down.take (v.down.length - w.up) = [] := by
          rw [Nat.sub_eq_zero_of_le hup, List.take_zero]
        have htake' : v.down.take (v.down.length - (w.up + 1)) = [] := by
          rw [Nat.sub_eq_zero_of_le (by omega), List.take_zero]
        ext1
        · simp only [comp, go, hdown, if_true, htake, List.append_nil]
          omega
        · simp [comp, go, hdown, htake, htake']
      · have htake : v.down.take (v.down.length - w.up) ≠ [] := by
          intro h
          have hlength := congrArg List.length h
          simp only [List.length_take, List.length_nil] at hlength
          omega
        ext1
        · simp only [comp, go, hdown, if_true, List.append_nil, htake, if_false]
          omega
        · simp only [comp, go, hdown, if_true, List.append_nil, htake, if_false, List.dropLast_eq_take,
            List.take_take, List.length_take]
          congr 1
          omega
    · have happend : v.down.take (v.down.length - w.up) ++ w.down ≠ [] := by simp [hdown]
      ext1
      · simp [comp, go, hdown, happend]
      · simp [comp, go, hdown, happend, List.dropLast_append_of_ne_nil hdown]

theorem along_concat (es : List (Element α)) (e : Element α) : along (es ++ [e]) = (along es).go e := by
  rw [along, List.foldl_append]
  rfl

theorem foldl_go (v : Walk α) (es : List (Element α)) : es.foldl go v = v.comp (along es) := by
  induction es using List.reverseRecOn with
  | nil => exact (comp_start v).symm
  | append_singleton es e ih =>
    rw [List.foldl_append, ih, along_concat, comp_go]
    rfl

theorem along_append (es es' : List (Element α)) : along (es ++ es') = (along es).comp (along es') := by
  rw [along, List.foldl_append]
  exact foldl_go _ es'

theorem along_enter (names : List α) : along (names.map Element.enter) = ⟨0, names⟩ := by
  induction names using List.reverseRecOn with
  | nil => rfl
  | append_singleton names name ih =>
    rw [List.map_append, List.map_singleton, along_concat, ih]
    rfl

theorem down_isPrefix_comp_iff (v w : Walk α) :
    v.down <+: (v.comp w).down ↔ v.down.drop (v.down.length - w.up) <+: w.down := by
  have hsplit := List.take_append_drop (v.down.length - w.up) v.down
  rw [comp]
  nth_rewrite 1 [← hsplit]
  exact List.prefix_append_right_inj _

end Walk

@[ext]
structure Name where
  chars : List Char
  proper : chars ≠ [] ∧ chars ≠ ['.'] ∧ chars ≠ ['.', '.'] ∧ '/' ∉ chars
  deriving DecidableEq, Repr

/-- What stands between two separators. The empty element and the dot are left out. -/
def element (s : List Char) : Option (Element Name) :=
  if s = ['.', '.'] then some .parent
  else if h : s ≠ [] ∧ s ≠ ['.'] ∧ s ≠ ['.', '.'] ∧ '/' ∉ s then some (.enter ⟨s, h⟩)
  else none

def elements (s : List Char) : List (Element Name) := (s.splitOn '/').filterMap element

def walk (s : List Char) : Walk Name := Walk.along (elements s)

def Rooted (s : List Char) : Prop := s.head? = some '/'

instance (s : List Char) : Decidable (Rooted s) := inferInstanceAs (Decidable (_ = _))

/-- The shortest name of the path: there is nothing above the root. -/
def clean (s : List Char) : List Char :=
  if Rooted s then '/' :: ['/'].intercalate ((walk s).down.map Name.chars)
  else if (walk s).up = 0 ∧ (walk s).down = [] then ['.']
  else ['/'].intercalate (List.replicate (walk s).up ['.', '.'] ++ (walk s).down.map Name.chars)

/-- The cleaned name of a path is that of another one, or begins with it and a separator. -/
def LiesBelow (root path : List Char) : Prop :=
  clean path = clean root ∨ clean root ++ ['/'] <+: clean path

/-- A path is another one or below it, both from the root. -/
def Below (root path : List Char) : Prop :=
  Rooted root ∧ Rooted path ∧ (walk root).down <+: (walk path).down

instance (root path : List Char) : Decidable (Below root path) := inferInstanceAs (Decidable (_ ∧ _ ∧ _))

theorem elements_nil : elements [] = [] := by decide

theorem elements_append (s s' : List Char) : elements (s ++ '/' :: s') = elements s ++ elements s' := by
  rw [elements, List.splitOn_append_cons_self, List.filterMap_append]
  rfl

theorem elements_cons (s : List Char) : elements ('/' :: s) = elements s := by
  rw [← List.nil_append ('/' :: s), elements_append, elements_nil, List.nil_append]

theorem walk_append (s s' : List Char) : walk (s ++ '/' :: s') = (walk s).comp (walk s') := by
  rw [walk, elements_append, Walk.along_append]
  rfl

theorem Rooted.append {s : List Char} (h : Rooted s) (s' : List Char) : Rooted (s ++ s') := by
  cases s with
  | nil => cases h
  | cons c s => exact h

theorem element_chars (name : Name) : element name.chars = some (.enter name) := by
  rw [element, if_neg name.proper.2.2.1, dif_pos name.proper]

theorem elements_intercalate (names : List Name) :
    elements (['/'].intercalate (names.map Name.chars)) = names.map Element.enter := by
  by_cases hnil : names = []
  · subst hnil
    exact elements_nil
  · rw [elements, List.splitOn_intercalate]
    · rw [List.filterMap_map, ← List.filterMap_eq_map]
      congr 1
      funext name
      exact element_chars name
    · intro s hs
      obtain ⟨name, -, rfl⟩ := List.mem_map.mp hs
      exact name.proper.2.2.2
    · simpa using hnil

theorem clean_rooted {s : List Char} (h : Rooted s) :
    clean s = '/' :: ['/'].intercalate ((walk s).down.map Name.chars) := if_pos h

theorem walk_clean {s : List Char} (h : Rooted s) : walk (clean s) = ⟨0, (walk s).down⟩ := by
  rw [clean_rooted h, walk, elements_cons, elements_intercalate, Walk.along_enter]

theorem Rooted.clean {s : List Char} (h : Rooted s) : Rooted (clean s) := by
  rw [clean_rooted h]
  rfl

theorem below_clean_iff {root s : List Char} (h : Rooted s) : Below root (clean s) ↔ Below root s := by
  rw [Below, Below, walk_clean h]
  simp only [h, h.clean]

theorem mem_parts {w : Walk Name} {part : List Char}
    (h : part ∈ List.replicate w.up ['.', '.'] ++ w.down.map Name.chars) : part ≠ [] ∧ '/' ∉ part := by
  obtain h | h := List.mem_append.mp h
  · rw [List.eq_of_mem_replicate h]
    decide
  · obtain ⟨name, -, rfl⟩ := List.mem_map.mp h
    exact ⟨name.proper.1, name.proper.2.2.2⟩

theorem not_rooted_intercalate {parts : List (List Char)} (h : ∀ part ∈ parts, part ≠ [] ∧ '/' ∉ part) :
    ¬ Rooted (['/'].intercalate parts) := by
  intro hroot
  cases parts with
  | nil => cases hroot
  | cons part parts =>
    obtain ⟨hne, hsep⟩ := h part List.mem_cons_self
    obtain ⟨rest, hrest⟩ : ∃ rest, ['/'].intercalate (part :: parts) = part ++ rest := by
      cases parts with
      | nil => exact ⟨[], by simp [List.intercalate]⟩
      | cons part' parts => exact ⟨_, rfl⟩
    obtain ⟨c, cs, rfl⟩ := List.exists_cons_of_ne_nil hne
    rw [Rooted, hrest] at hroot
    cases hroot
    exact hsep List.mem_cons_self

theorem rooted_clean_iff {s : List Char} : Rooted (clean s) ↔ Rooted s := by
  refine ⟨fun h => ?_, Rooted.clean⟩
  by_contra hs
  rw [clean, if_neg hs] at h
  split at h
  · exact absurd h (by decide)
  · exact not_rooted_intercalate (fun _ => mem_parts) h

theorem below_iff_of_clean_eq {root root' s : List Char} (hroot : Rooted root) (h : clean root = clean root') :
    Below root s ↔ Below root' s := by
  have hroot' : Rooted root' := by
    rw [← rooted_clean_iff, ← h]
    exact hroot.clean
  have hdown : (walk root).down = (walk root').down := by
    have hwalk := walk_clean hroot
    rw [h, walk_clean hroot'] at hwalk
    exact (congrArg Walk.down hwalk).symm
  rw [Below, Below, hdown]
  simp only [hroot, hroot']

/-- A name that is appended to a path stays below it, precisely when it comes down again
the elements of the path that it goes up. -/
theorem below_append_iff {root s : List Char} (h : Rooted root) :
    Below root (root ++ '/' :: s) ↔
      (walk root).down.drop ((walk root).down.length - (walk s).up) <+: (walk s).down := by
  rw [Below, walk_append, Walk.down_isPrefix_comp_iff]
  simp only [h, h.append, true_and]

theorem isInfix_intercalate {sep part : List Char} {parts : List (List Char)} (h : part ∈ parts) :
    part <:+: sep.intercalate parts := by
  induction parts with
  | nil => cases h
  | cons first parts ih =>
    cases parts with
    | nil =>
      rw [List.mem_singleton.mp h, List.intercalate_singleton]
    | cons second parts =>
      rw [List.intercalate_cons_cons]
      obtain rfl | h := List.mem_cons.mp h
      · exact ((List.prefix_append part sep).trans (List.prefix_append _ _)).isInfix
      · exact (ih h).trans (List.suffix_append _ _).isInfix

theorem intercalate_append {sep : List Char} {parts parts' : List (List Char)} (h : parts ≠ [])
    (h' : parts' ≠ []) :
    sep.intercalate (parts ++ parts') = sep.intercalate parts ++ sep ++ sep.intercalate parts' := by
  induction parts with
  | nil => exact absurd rfl h
  | cons first parts ih =>
    cases parts with
    | nil =>
      obtain ⟨second, rest, rfl⟩ := List.exists_cons_of_ne_nil h'
      rw [List.singleton_append, List.intercalate_cons_cons, List.intercalate_singleton]
    | cons second parts =>
      rw [List.cons_append, List.cons_append, List.intercalate_cons_cons, ← List.cons_append,
        ih (List.cons_ne_nil _ _), List.intercalate_cons_cons]
      simp only [List.append_assoc]

theorem filterMap_element {parts : List (List Char)} (h : ['.', '.'] ∉ parts) :
    ∃ names : List Name, parts.filterMap element = names.map Element.enter := by
  induction parts with
  | nil => exact ⟨[], rfl⟩
  | cons part parts ih =>
    obtain ⟨names, hnames⟩ := ih (fun hmem => h (List.mem_cons_of_mem _ hmem))
    have hpart : ¬ part = ['.', '.'] := by
      rintro rfl
      exact h List.mem_cons_self
    by_cases hproper : part ≠ [] ∧ part ≠ ['.'] ∧ part ≠ ['.', '.'] ∧ '/' ∉ part
    · refine ⟨⟨part, hproper⟩ :: names, ?_⟩
      rw [List.filterMap_cons_some (by rw [element, if_neg hpart, dif_pos hproper]), hnames, List.map_cons]
    · refine ⟨names, ?_⟩
      rw [List.filterMap_cons_none (by rw [element, if_neg hpart, dif_neg hproper]), hnames]

theorem elements_enter {s : List Char} (h : ¬ ['.', '.'] <:+: s) :
    ∃ names : List Name, elements s = names.map Element.enter := by
  refine filterMap_element (fun hmem => h ?_)
  have hdots : ['.', '.'] <:+: ['/'].intercalate (s.splitOn '/') := isInfix_intercalate hmem
  rwa [List.intercalate_splitOn] at hdots

theorem walk_append_names {s s' : List Char} {names : List Name} (h : elements s' = names.map Element.enter) :
    walk (s ++ '/' :: s') = ⟨(walk s).up, (walk s).down ++ names⟩ := by
  have hwalk : walk s' = ⟨0, names⟩ := by rw [walk, h, Walk.along_enter]
  rw [walk_append, hwalk]
  simp [Walk.comp]

theorem liesBelow_append_names {s s' : List Char} {names : List Name} (hdown : (walk s).down ≠ [])
    (h : elements s' = names.map Element.enter) : LiesBelow s (s ++ '/' :: s') := by
  have hwalk := walk_append_names (s := s) h
  have hroot : Rooted (s ++ '/' :: s') ↔ Rooted s := by
    cases s with
    | nil => exact absurd (by decide) hdown
    | cons c s => exact Iff.rfl
  by_cases hnames : names = []
  · left
    simp only [clean, hroot, hwalk, hnames, List.append_nil]
  · right
    have hmap : names.map Name.chars ≠ [] := by simpa using hnames
    simp only [clean, hroot, hwalk, hdown, List.append_eq_nil_iff, false_and, and_false, if_false,
      List.map_append]
    by_cases hs : Rooted s
    · rw [if_pos hs, if_pos hs, intercalate_append (by simpa using hdown) hmap, ← List.cons_append,
        ← List.cons_append]
      exact List.prefix_append _ _
    · rw [if_neg hs, if_neg hs, ← List.append_assoc, intercalate_append (by simp [hdown]) hmap]
      exact List.prefix_append _ _

end Asapo.Path
