import Asapo.Database.Encoding

namespace Asapo.Broker.QueryEscape

open Database (shouldEscapeQuery)

def replaceAll (old : Char) (new s : Text) : Text := s.flatMap (fun c => if c = old then new else [c])

def chars : Text := text "\\-[]\x7b\x7d()*+?.,^$|#"

def escapeQuery (query : Text) : Text :=
  chars.foldl (fun query char => replaceAll char ['\\', char] query) query

def escapeAll (special s : Text) : Text := s.flatMap (fun c => if c ∈ special then ['\\', c] else [c])

/-- A pattern and a text that it matches: a backslash in front of a special character stands
for that character, and every other character for itself. -/
inductive Matches : Text → Text → Prop
  | nil : Matches [] []
  | escaped {c : Char} {pattern s : Text} (hc : shouldEscapeQuery c = true) (h : Matches pattern s) :
      Matches ('\\' :: c :: pattern) (c :: s)
  | plain {c : Char} {pattern s : Text}
      (hc : c = '\\' → ∀ d, pattern.head? = some d → shouldEscapeQuery d = false) (h : Matches pattern s) :
      Matches (c :: pattern) (c :: s)

/-- A round behind that for the backslash does not see what the earlier rounds have put in. -/
theorem replaceAll_escapeAll {done : Text} {d : Char} (hd : d ∉ done) (hslash : '\\' ∈ done) (s : Text) :
    replaceAll d ['\\', d] (escapeAll done s) = escapeAll (done ++ [d]) s := by
  have hne : '\\' ≠ d := fun h => hd (h ▸ hslash)
  rw [replaceAll, escapeAll, escapeAll, List.flatMap_assoc]
  congr 1
  funext c
  by_cases hc : c ∈ done
  · have hcd : c ≠ d := fun h => hd (h ▸ hc)
    simp [hc, hne, hcd]
  · by_cases hcd : c = d
    · subst hcd
      simp [hc]
    · simp [hc, hcd]

theorem foldl_replaceAll {todo done : Text} (hnodup : (done ++ todo).Nodup) (hslash : '\\' ∈ done) (s : Text) :
    todo.foldl (fun query char => replaceAll char ['\\', char] query) (escapeAll done s) =
      escapeAll (done ++ todo) s := by
  induction todo generalizing done with
  | nil => rw [List.foldl_nil, List.append_nil]
  | cons d todo ih =>
    have hassoc : done ++ d :: todo = (done ++ [d]) ++ todo := by simp
    have hd : d ∉ done := fun h => (List.disjoint_of_nodup_append hnodup) h List.mem_cons_self
    rw [List.foldl_cons, replaceAll_escapeAll hd hslash, hassoc]
    exact ih (hassoc ▸ hnodup) (List.mem_append_left _ hslash)

theorem escapeQuery_eq_escapeAll (s : Text) : escapeQuery s = escapeAll chars s := by
  have hfirst : replaceAll '\\' ['\\', '\\'] s = escapeAll ['\\'] s := by
    rw [replaceAll, escapeAll]
    congr 1
    funext c
    by_cases hc : c = '\\' <;> simp [hc]
  have hchars : chars = ['\\'] ++ chars.tail := by decide
  rw [escapeQuery, hchars, List.foldl_append, List.foldl_cons, List.foldl_nil, hfirst]
  exact foldl_replaceAll (by decide) List.mem_cons_self s

theorem mem_chars (c : Char) : c ∈ chars ↔ shouldEscapeQuery c = true := by
  have hperm : chars.Perm (text "-[]\x7b\x7d()*+?\\.,^$|#") := by decide
  rw [hperm.mem_iff, shouldEscapeQuery, decide_eq_true_eq]

theorem escapeQuery_eq (s : Text) : escapeQuery s = Database.escapeQuery s := by
  rw [escapeQuery_eq_escapeAll, escapeAll, Database.escapeQuery]
  congr 1
  funext c
  simp only [mem_chars]

theorem matches_escapeQuery (s t : Text) : Matches (Database.escapeQuery s) t ↔ t = s := by
  induction s generalizing t with
  | nil =>
    constructor
    · rintro ⟨⟩
      rfl
    · rintro rfl
      exact .nil
  | cons c s ih =>
    have hcons : Database.escapeQuery (c :: s) =
        (if shouldEscapeQuery c then ['\\', c] else [c]) ++ Database.escapeQuery s := List.flatMap_cons
    rw [hcons]
    generalize Database.escapeQuery s = pattern at ih ⊢
    by_cases hc : shouldEscapeQuery c = true
    · rw [if_pos hc]
      constructor
      · intro h
        cases h with
        | escaped _ h => rw [(ih _).mp h]
        | plain hplain _ => exact absurd (hplain rfl c rfl) (by simp [hc])
      · rintro rfl
        exact .escaped hc ((ih s).mpr rfl)
    · have hslash : c ≠ '\\' := by
        rintro rfl
        exact hc (by decide)
      rw [if_neg hc]
      constructor
      · intro h
        cases h with
        | escaped => exact absurd rfl hslash
        | plain _ h => rw [(ih _).mp h]
      · rintro rfl
        exact .plain (fun h => absurd h hslash) ((ih s).mpr rfl)

/-- The rounds of the broker and the pass of the receiver give the same pattern, and it
matches the text itself and nothing else. -/
theorem escapers_agree (s : Text) :
    escapeQuery s = Database.escapeQuery s ∧ ∀ t, Matches (escapeQuery s) t ↔ t = s := by
  refine ⟨escapeQuery_eq s, fun t => ?_⟩
  rw [escapeQuery_eq]
  exact matches_escapeQuery s t

end Asapo.Broker.QueryEscape
