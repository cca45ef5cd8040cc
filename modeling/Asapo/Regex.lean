import Mathlib

namespace Asapo.Regex

inductive Atom where
  | char (c : Char)
  | any
  deriving DecidableEq, Repr

inductive Token where
  | start
  | finish
  | one (a : Atom)
  | many (a : Atom)
  deriving DecidableEq, Repr

def metachars : List Char := ['\\', '^', '$', '.', '[', '|', '(', ')', '?', '*', '+', '{']

/-- The part of the patterns that is read here: anchors, the dot with or without a star,
and characters, behind a backslash if they are not letters or digits. -/
def parse : List Char → Option (List Token)
  | [] => some []
  | '^' :: cs => (parse cs).map (.start :: ·)
  | '$' :: cs => (parse cs).map (.finish :: ·)
  | '.' :: '*' :: cs => (parse cs).map (.many .any :: ·)
  | '.' :: cs => (parse cs).map (.one .any :: ·)
  | '\\' :: c :: cs => if c.isAlphanum then none else (parse cs).map (.one (.char c) :: ·)
  | c :: cs => if c ∈ metachars then none else (parse cs).map (.one (.char c) :: ·)

def literals (p : List Char) : List Token := p.map (fun c => .one (.char c))

theorem parse_plain {c : Char} (hc : c ∉ metachars) (cs : List Char) :
    parse (c :: cs) = (parse cs).map (.one (.char c) :: ·) := by
  rw [parse]
  · rw [if_neg hc]
  all_goals
    intros
    simp_all [metachars]

theorem parse_escaped {c : Char} (hc : c.isAlphanum = false) (cs : List Char) :
    parse ('\\' :: c :: cs) = (parse cs).map (.one (.char c) :: ·) := by
  rw [parse, hc]
  rfl

variable (fold : Char → Char)

/-- Characters are compared up to case; the dot does not stand for the end of a line. -/
def Atom.accepts : Atom → Char → Bool
  | .char c, d => fold c = fold d
  | .any, d => d ≠ '\n'

def matchMany (a : Atom) (k : Bool → List Char → Bool) : Bool → List Char → Bool
  | b, [] => k b []
  | b, c :: s => k b (c :: s) || (a.accepts fold c && matchMany a k false s)

/-- The pattern matches here, where the flag says that nothing is in front. The end is also
in front of a last line break. -/
def matchHere : List Token → Bool → List Char → Bool
  | [], _, _ => true
  | .start :: ts, b, s => b && matchHere ts b s
  | .finish :: ts, b, s => (s = [] || s = ['\n']) && matchHere ts b s
  | .one _ :: _, _, [] => false
  | .one a :: ts, _, c :: s => a.accepts fold c && matchHere ts false s
  | .many a :: ts, b, s => matchMany fold a (matchHere ts) b s

def searchFrom (ts : List Token) : Bool → List Char → Bool
  | b, [] => matchHere fold ts b []
  | b, c :: s => matchHere fold ts b (c :: s) || searchFrom ts false s

def search (ts : List Token) (s : List Char) : Bool := searchFrom fold ts true s

/-- The text that a dollar sign takes as the whole. -/
def Line (s u : List Char) : Prop := s = u ∨ s = u ++ ['\n']

variable {fold} {ts : List Token} {s p : List Char} {b : Bool}

theorem line_append {w v u : List Char} (h : Line v u) : Line (w ++ v) (w ++ u) := by
  obtain rfl | rfl := h
  · exact .inl rfl
  · exact .inr (List.append_assoc ..).symm

theorem matchHere_literals : matchHere fold (literals p) b s = true ↔ p.map fold <+: s.map fold := by
  induction p generalizing s b with
  | nil => simp [literals, matchHere]
  | cons c p ih =>
    cases s with
    | nil => simp [literals, matchHere]
    | cons d s =>
      have hstep : matchHere fold (literals (c :: p)) b (d :: s) =
          (decide (fold c = fold d) && matchHere fold (literals p) false s) := rfl
      rw [hstep, Bool.and_eq_true, decide_eq_true_eq, ih, List.map_cons, List.map_cons, List.cons_prefix_cons]

theorem matchHere_literals_finish :
    matchHere fold (literals p ++ [.finish]) b s = true ↔ ∃ u, Line s u ∧ p.map fold = u.map fold := by
  induction p generalizing s b with
  | nil =>
    simp only [literals, List.map_nil, List.nil_append, matchHere, Bool.and_true, Bool.or_eq_true,
      decide_eq_true_eq]
    constructor
    · rintro (rfl | rfl)
      · exact ⟨[], .inl rfl, rfl⟩
      · exact ⟨[], .inr rfl, rfl⟩
    · rintro ⟨u, hl, hu⟩
      have hnil : u = [] := List.map_eq_nil_iff.mp hu.symm
      subst hnil
      exact hl
  | cons c p ih =>
    cases s with
    | nil =>
      refine ⟨nofun, ?_⟩
      rintro ⟨u, hl, hu⟩
      obtain rfl | hn := hl
      · cases hu
      · simp at hn
    | cons d s =>
      have hstep : matchHere fold (literals (c :: p) ++ [.finish]) b (d :: s) =
          (decide (fold c = fold d) && matchHere fold (literals p ++ [.finish]) false s) := rfl
      rw [hstep, Bool.and_eq_true, decide_eq_true_eq, ih]
      constructor
      · rintro ⟨hc, u, hl, hu⟩
        exact ⟨d :: u, line_append (w := [d]) hl, by simp [hc, hu]⟩
      · rintro ⟨u, hl, hu⟩
        cases u with
        | nil => cases hu
        | cons e u =>
          simp only [List.map_cons, List.cons.injEq] at hu
          simp only [Line, List.cons_append, List.cons.injEq] at hl
          obtain ⟨rfl, hl⟩ | ⟨rfl, hl⟩ := hl
          · exact ⟨hu.1, u, .inl hl, hu.2⟩
          · exact ⟨hu.1, u, .inr hl, hu.2⟩

theorem searchFrom_iff : searchFrom fold ts b s = true ↔
    ∃ w v, s = w ++ v ∧ matchHere fold ts (b && w.isEmpty) v = true := by
  induction s generalizing b with
  | nil =>
    constructor
    · exact fun h => ⟨[], [], rfl, by simpa [searchFrom] using h⟩
    · rintro ⟨w, v, hs, h⟩
      obtain ⟨rfl, rfl⟩ := List.append_eq_nil_iff.mp hs.symm
      simpa [searchFrom] using h
  | cons c s ih =>
    rw [searchFrom, Bool.or_eq_true, ih]
    constructor
    · rintro (h | ⟨w, v, rfl, h⟩)
      · exact ⟨[], c :: s, rfl, by simpa using h⟩
      · exact ⟨c :: w, v, rfl, by simpa using h⟩
    · rintro ⟨w, v, hs, h⟩
      cases w with
      | nil =>
        left
        simp only [List.nil_append] at hs
        subst hs
        simpa using h
      | cons d w =>
        right
        simp only [List.cons_append, List.cons.injEq] at hs
        exact ⟨w, v, hs.2, by simpa using h⟩

theorem matchMany_split {a : Atom} {k : Bool → List Char → Bool} (h : matchMany fold a k b s = true) :
    ∃ w v b', s = w ++ v ∧ k b' v = true := by
  induction s generalizing b with
  | nil => exact ⟨[], [], b, rfl, h⟩
  | cons c s ih =>
    rw [matchMany, Bool.or_eq_true, Bool.and_eq_true] at h
    obtain h | ⟨-, h⟩ := h
    · exact ⟨[], c :: s, b, rfl, h⟩
    · obtain ⟨w, v, b', rfl, hv⟩ := ih h
      exact ⟨c :: w, v, b', rfl, hv⟩

theorem matchMany_here {a : Atom} {k : Bool → List Char → Bool} (h : k b s = true) :
    matchMany fold a k b s = true := by
  cases s with
  | nil => exact h
  | cons c s => rw [matchMany, h, Bool.true_or]

theorem search_prefix : search fold (.start :: literals p) s = true ↔ p.map fold <+: s.map fold := by
  rw [search, searchFrom_iff]
  constructor
  · rintro ⟨w, v, rfl, h⟩
    rw [matchHere, Bool.and_eq_true, matchHere_literals, Bool.true_and, List.isEmpty_iff] at h
    obtain ⟨rfl, h⟩ := h
    exact h
  · exact fun h => ⟨[], s, rfl, by simpa [matchHere, matchHere_literals] using h⟩

theorem search_whole : search fold (.start :: (literals p ++ [.finish])) s = true ↔
    ∃ u, Line s u ∧ p.map fold = u.map fold := by
  rw [search, searchFrom_iff]
  constructor
  · rintro ⟨w, v, rfl, h⟩
    rw [matchHere, Bool.and_eq_true, matchHere_literals_finish, Bool.true_and, List.isEmpty_iff] at h
    obtain ⟨rfl, h⟩ := h
    exact h
  · exact fun h => ⟨[], s, rfl, by simpa [matchHere, matchHere_literals_finish] using h⟩

theorem search_suffix : search fold (.many .any :: (literals p ++ [.finish])) s = true ↔
    ∃ u, Line s u ∧ p.map fold <:+ u.map fold := by
  rw [search, searchFrom_iff]
  constructor
  · rintro ⟨w, v, rfl, h⟩
    rw [matchHere] at h
    obtain ⟨w', v', b', rfl, hk⟩ := matchMany_split h
    obtain ⟨u, hl, hu⟩ := matchHere_literals_finish.mp hk
    refine ⟨w ++ (w' ++ u), line_append (line_append hl), ?_⟩
    rw [hu]
    exact ⟨(w ++ w').map fold, by simp⟩
  · rintro ⟨u, hl, ⟨x, hx⟩⟩
    -- the end of the line that is as long as the text
    obtain ⟨w, v, rfl, -, hv⟩ := List.map_eq_append_iff.mp hx.symm
    refine ⟨w, s.drop w.length, ?_, matchMany_here (matchHere_literals_finish.mpr ⟨v, ?_, hv.symm⟩)⟩
    · obtain rfl | rfl := hl <;> simp
    · obtain rfl | rfl := hl <;> simp [Line]

end Asapo.Regex
