import Asapo.Common.DataStructs
import Asapo.Regex

namespace Asapo.Database

def shouldEscape (c : Char) (db : Bool) : Bool :=
  c = '$' || c = ' ' || c = '%' || (db && (c = '/' || c = '\\' || c = '.' || c = '"'))

def upperhex (n : ℕ) : Char := (text "0123456789ABCDEF").getD n '0'

def escapeChar (db : Bool) (c : Char) : Text :=
  if shouldEscape c db then ['%', upperhex (c.toNat >>> 4), upperhex (c.toNat &&& 15)] else [c]

/-- The source returns a string without such characters before its loop, which would
give the same. -/
def escape (s : Text) (db : Bool) : Text := s.flatMap (escapeChar db)

def encodeDbName (name : Text) : Text := escape name true

def encodeColName (name : Text) : Text := escape name false

def shouldEscapeQuery (c : Char) : Bool := c ∈ text "-[]\x7b\x7d()*+?\\.,^$|#"

/-- A text without such a character is returned before the loop, which would not change it. -/
def escapeQuery (s : Text) : Text := s.flatMap (fun c => if shouldEscapeQuery c then ['\\', c] else [c])

theorem escape_append (s t : Text) (db : Bool) : escape (s ++ t) db = escape s db ++ escape t db :=
  List.flatMap_append

theorem mem_of_shouldEscape {c : Char} {db : Bool} (h : shouldEscape c db = true) :
    c ∈ ['$', ' ', '%', '/', '\\', '.', '"'] := by
  simp only [shouldEscape, Bool.or_eq_true, Bool.and_eq_true, decide_eq_true_eq] at h
  simp only [List.mem_cons, List.not_mem_nil, or_false]
  tauto

theorem escapeChar_inj {db : Bool} {c d : Char} {x y : Text}
    (h : escapeChar db c ++ x = escapeChar db d ++ y) : c = d ∧ x = y := by
  have hpercent : shouldEscape '%' db = true := by cases db <;> decide
  unfold escapeChar at h
  split at h <;> split at h <;> rename_i hc hd
  · -- the two digits of an escaped character are its own
    have hpair : ['$', ' ', '%', '/', '\\', '.', '"'].all (fun c => ['$', ' ', '%', '/', '\\', '.', '"'].all
        (fun d => decide (upperhex (c.toNat >>> 4) = upperhex (d.toNat >>> 4) →
          upperhex (c.toNat &&& 15) = upperhex (d.toNat &&& 15) → c = d))) = true := by decide
    simp only [List.cons_append, List.nil_append, List.cons.injEq, true_and] at h
    have hc' := List.all_eq_true.mp hpair c (mem_of_shouldEscape hc)
    have hd' := List.all_eq_true.mp hc' d (mem_of_shouldEscape hd)
    exact ⟨of_decide_eq_true hd' h.1 h.2.1, h.2.2⟩
  · simp only [List.cons_append, List.nil_append, List.cons.injEq] at h
    exact absurd (h.1 ▸ hpercent) hd
  · simp only [List.cons_append, List.nil_append, List.cons.injEq] at h
    exact absurd (h.1 ▸ hpercent) hc
  · simpa using h

theorem escapeChar_ne_nil (db : Bool) (c : Char) : escapeChar db c ≠ [] := by
  unfold escapeChar
  split <;> simp

theorem escape_injective (db : Bool) : Function.Injective (fun s => escape s db) := by
  intro s t h
  induction s generalizing t with
  | nil =>
    cases t with
    | nil => rfl
    | cons d t =>
      exact absurd (List.append_eq_nil_iff.mp h.symm).1 (escapeChar_ne_nil db d)
  | cons c s ih =>
    cases t with
    | nil => exact absurd (List.append_eq_nil_iff.mp h).1 (escapeChar_ne_nil db c)
    | cons d t =>
      obtain ⟨rfl, hrest⟩ := escapeChar_inj h
      rw [ih hrest]

open Regex in
theorem parse_escapeQuery (s rest : Text) :
    parse (escapeQuery s ++ rest) = (parse rest).map (literals s ++ ·) := by
  induction s with
  | nil => simp [escapeQuery, literals]
  | cons c s ih =>
    have hstep : escapeQuery (c :: s) ++ rest =
        (if shouldEscapeQuery c then ['\\', c] else [c]) ++ (escapeQuery s ++ rest) := by
      simp [escapeQuery]
    rw [hstep]
    by_cases hc : shouldEscapeQuery c = true
    · have hall : (text "-[]\x7b\x7d()*+?\\.,^$|#").all (fun c => !c.isAlphanum) = true := by decide
      have hsym : c.isAlphanum = false := by
        simpa using List.all_eq_true.mp hall c (of_decide_eq_true hc)
      rw [if_pos hc, List.cons_append, List.cons_append, List.nil_append, parse_escaped hsym, ih,
        Option.map_map]
      rfl
    · have hplain : c ∉ metachars := fun hm => hc (decide_eq_true (by
        have hall : metachars.all (fun c => decide (c ∈ text "-[]\x7b\x7d()*+?\\.,^$|#")) = true := by decide
        exact of_decide_eq_true (List.all_eq_true.mp hall c hm)))
      rw [if_neg hc, List.cons_append, List.nil_append, parse_plain hplain, ih, Option.map_map]
      rfl

end Asapo.Database
