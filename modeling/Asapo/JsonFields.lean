import Asapo.JsonInsertion

namespace Asapo.JsonText

variable {enc : Encoding}

section Extension

variable {t u rest ds : List Char} {c : Char} {v : Value}

theorem skip_append (h : skip t = c :: rest) (u : List Char) : skip (t ++ u) = c :: (rest ++ u) := by
  change t.dropWhile isSpace = c :: rest at h
  rw [skip, List.dropWhile_append, h]
  rfl

theorem head?_append (h : t ≠ []) (u : List Char) : (t ++ u).head? = t.head? := by
  cases t with
  | nil => exact absurd rfl h
  | cons c t => rfl

theorem parts_append {ps : List Part} (h : parts t = some (ps, rest)) (u : List Char) :
    parts (t ++ u) = some (ps, rest ++ u) := by
  induction t using parts.induct generalizing ps with
  | case1 => cases h
  | case2 t =>
    rw [parts_quote] at h
    cases h
    exact parts_quote (rest ++ u)
  | case3 => cases h
  | case4 a b x y t _ ih =>
    rw [parts_unit] at h
    simp only [Option.bind_eq_some_iff, Option.map_eq_some_iff] at h
    obtain ⟨va, ha, vb, hb, vx, hx, vy, hy, p, hp, hpair⟩ := h
    cases hpair
    have hunit := parts_unit a b x y (t ++ u)
    rw [ha, hb, hx, hy, ih hp] at hunit
    exact hunit
  | case5 t hshort =>
    rw [parts.eq_def] at h
    have hquote : ¬ '\\' = '"' := by decide
    simp only [hquote, if_true, if_false] at h
    cases h
  | case6 e t he _ ih =>
    rw [parts_escape he] at h
    simp only [Option.bind_eq_some_iff, Option.map_eq_some_iff] at h
    obtain ⟨c, hc, p, hp, hpair⟩ := h
    cases hpair
    have hescape := parts_escape he (t ++ u)
    rw [hc, ih hp] at hescape
    exact hescape
  | case7 c t h1 h2 h3 =>
    rw [parts.eq_def] at h
    simp only [h1, h2, h3, if_false, if_true] at h
    cases h
  | case8 c t h1 h2 h3 ih =>
    have hplain : plainChar c = true := by simp [plainChar, h1, h2]; omega
    rw [parts_plain hplain, Option.map_eq_some_iff] at h
    obtain ⟨p, hp, hpair⟩ := h
    cases hpair
    rw [List.cons_append, parts_plain hplain, ih hp]
    rfl

theorem string_append {s : List Char} (h : string enc t = some (s, rest)) (u : List Char) :
    string enc (t ++ u) = some (s, rest ++ u) := by
  obtain ⟨ps, hps, hs⟩ := parts_of_string h
  rw [string, parts_append hps u, Option.bind_some, hs]
  rfl

theorem digits_eq_some (h : digits t = some (ds, rest)) :
    t.takeWhile Char.isDigit = ds ∧ t.dropWhile Char.isDigit = rest ∧ ds ≠ [] := by
  rw [digits, List.span_eq_takeWhile_dropWhile] at h
  split at h
  · cases h
  · rename_i hne hpair
    cases h
    cases hpair
    exact ⟨rfl, rfl, hne⟩

theorem digits_of_span (htake : t.takeWhile Char.isDigit = ds) (hdrop : t.dropWhile Char.isDigit = rest)
    (hne : ds ≠ []) : digits t = some (ds, rest) := by
  rw [digits, List.span_eq_takeWhile_dropWhile, htake, hdrop]
  cases ds with
  | nil => exact absurd rfl hne
  | cons c ds => rfl

theorem digits_append (h : digits t = some (ds, rest)) (hrest : rest ≠ []) (u : List Char) :
    digits (t ++ u) = some (ds, rest ++ u) := by
  obtain ⟨htake, hdrop, hne⟩ := digits_eq_some h
  have hlen : (t.takeWhile Char.isDigit).length ≠ t.length := by
    intro hall
    have hsplit := congrArg List.length (List.takeWhile_append_dropWhile (p := Char.isDigit) (l := t))
    rw [List.length_append, hall, hdrop] at hsplit
    exact hrest (List.eq_nil_of_length_eq_zero (by omega))
  refine digits_of_span ?_ ?_ hne
  · rw [List.takeWhile_append, if_neg hlen, htake]
  · rw [List.dropWhile_append, hdrop, if_neg (by simpa using hrest)]

theorem fraction_append (h : fraction t = some (ds, rest)) (hrest : rest ≠ []) (u : List Char) :
    fraction (t ++ u) = some (ds, rest ++ u) := by
  have ht : t ≠ [] := by
    rintro rfl
    cases h
    exact hrest rfl
  unfold fraction at h ⊢
  rw [head?_append ht, List.tail_append_of_ne_nil ht]
  split
  · rename_i hpoint
    rw [if_pos hpoint] at h
    exact digits_append h hrest u
  · rename_i hpoint
    rw [if_neg hpoint] at h
    cases h
    rfl

theorem sign_append (ht : t ≠ []) (u : List Char) : sign (t ++ u) = ((sign t).1, (sign t).2 ++ u) := by
  cases t with
  | nil => exact absurd rfl ht
  | cons c t =>
    simp only [List.cons_append, sign]
    split
    · rfl
    · split <;> rfl

theorem exponent_append {e : ℤ} (h : exponent t = some (e, rest)) (hrest : rest ≠ []) (u : List Char) :
    exponent (t ++ u) = some (e, rest ++ u) := by
  have ht : t ≠ [] := by
    rintro rfl
    cases h
    exact hrest rfl
  unfold exponent at h ⊢
  rw [head?_append ht, List.tail_append_of_ne_nil ht]
  split
  · rename_i hexp
    rw [if_pos hexp, Option.map_eq_some_iff] at h
    obtain ⟨⟨ds, rest'⟩, hds, hpair⟩ := h
    cases hpair
    have htail : t.tail ≠ [] := by
      intro hnil
      rw [hnil] at hds
      cases hds
    rw [sign_append htail, digits_append hds hrest]
    rfl
  · rename_i hexp
    rw [if_neg hexp] at h
    cases h
    rfl

theorem isFractional_append (ht : t ≠ []) (u : List Char) : isFractional (t ++ u) = isFractional t := by
  rw [isFractional, head?_append ht, isFractional]

theorem number_append (h : number t = some (v, rest)) (hrest : rest ≠ []) (u : List Char) :
    number (t ++ u) = some (v, rest ++ u) := by
  have ht : t ≠ [] := by
    rintro rfl
    cases h
  simp only [number, Option.bind_eq_some_iff] at h
  obtain ⟨int, hint, h⟩ := h
  split at h
  · cases h
  rename_i hzero
  have hminus : (if (t ++ u).head? = some '-' then (t ++ u).tail else t ++ u) =
      (if t.head? = some '-' then t.tail else t) ++ u := by
    rw [head?_append ht, List.tail_append_of_ne_nil ht]
    split <;> rfl
  simp only [number]
  rw [hminus]
  split at h
  · rename_i hfractional
    simp only [Option.bind_eq_some_iff, Option.map_eq_some_iff] at h
    obtain ⟨frac, hfrac, exp, hexp, hpair⟩ := h
    cases hpair
    have hfrac2 : frac.2 ≠ [] := by
      intro hnil
      rw [hnil] at hexp
      cases hexp
      exact hrest rfl
    have hint2 : int.2 ≠ [] := by
      intro hnil
      rw [hnil] at hfractional
      cases hfractional
    rw [digits_append hint hint2, Option.bind_some, if_neg hzero, isFractional_append hint2, if_pos hfractional,
      fraction_append hfrac hfrac2, Option.bind_some, exponent_append hexp hrest, Option.map_some, head?_append ht]
  · rename_i hfractional
    cases h
    rw [digits_append hint hrest, Option.bind_some, if_neg hzero, isFractional_append hrest, if_neg hfractional,
      head?_append ht]

theorem word_append {w : List Char} {v' : Value} (h : word w v t = some (v', rest)) (u : List Char) :
    word w v (t ++ u) = some (v', rest ++ u) := by
  unfold word at h
  split at h
  · rename_i hpre
    cases h
    obtain ⟨t', rfl⟩ := List.isPrefixOf_iff_prefix.mp hpre
    rw [word, List.append_assoc, if_pos (List.isPrefixOf_iff_prefix.mpr (List.prefix_append _ _)), List.drop_left,
      List.drop_left]
  · cases h

/-- A result of the parser stays the same in a longer text and with more calls. A number at
the end of the text would go on. -/
structure Extends (enc : Encoding) (fuel : ℕ) : Prop where
  value : ∀ fuel' t v rest u, fuel ≤ fuel' → value enc fuel t = some (v, rest) → (rest ≠ [] ∨ v.isNumeric = false) →
    value enc fuel' (t ++ u) = some (v, rest ++ u)
  elements : ∀ fuel' t es rest u, fuel ≤ fuel' → elements enc fuel t = some (es, rest) →
    elements enc fuel' (t ++ u) = some (es, rest ++ u)
  members : ∀ fuel' t ms rest u, fuel ≤ fuel' → members enc fuel t = some (ms, rest) →
    members enc fuel' (t ++ u) = some (ms, rest ++ u)

variable {fuel fuel' : ℕ}

theorem ne_nil_of_skip (h : skip t = c :: rest) : t ≠ [] := by
  rintro rfl
  cases h

theorem skip_of_value {r : Value × List Char} (h : value enc fuel t = some r) : ∃ c w, skip t = c :: w := by
  cases fuel with
  | zero => cases h
  | succ fuel =>
    rw [value] at h
    split at h
    · cases h
    · rename_i c w hw
      exact ⟨c, w, hw⟩

theorem skip_of_elements {es : List Value} (h : elements enc fuel t = some (es, rest)) : ∃ c w, skip t = c :: w := by
  cases fuel with
  | zero => cases h
  | succ fuel =>
    obtain ⟨v, t', u, c, hv, -⟩ := elements_cases h
    exact skip_of_value hv

theorem skip_of_members {ms : List (List Char × Value)} (h : members enc fuel t = some (ms, rest)) :
    ∃ c w, skip t = c :: w := by
  cases fuel with
  | zero => cases h
  | succ fuel =>
    obtain ⟨literal, name, t₁, t₂, v, t₃, c, w, hskip, -⟩ := members_cases h
    exact ⟨'"', literal, hskip⟩

theorem head?_skip_append (h : ∃ c w, skip t = c :: w) (u : List Char) : (skip (t ++ u)).head? = (skip t).head? := by
  obtain ⟨c, w, hw⟩ := h
  rw [skip_append hw u, hw]
  rfl

theorem value_extends (ih : Extends enc fuel) (hle : fuel ≤ fuel') (h : value enc (fuel + 1) t = some (v, rest))
    (hv : rest ≠ [] ∨ v.isNumeric = false) (u : List Char) : value enc (fuel' + 1) (t ++ u) = some (v, rest ++ u) := by
  rw [value] at h ⊢
  split at h
  · cases h
  rename_i c w hw
  rw [skip_append hw u]
  -- an empty array or object is recognized at the character behind its bracket
  have hclose : ∀ d, (skip w).head? = some d → (skip (w ++ u)).head? = some d ∧
      (skip (w ++ u)).tail = (skip w).tail ++ u := by
    intro d hd
    rw [skip_append (skip_cons hd rfl) u]
    exact ⟨rfl, rfl⟩
  dsimp only
  split_ifs at h with h1 h2 h3 h4 h5 h6 h7 h8
  · rw [if_pos h1]
    rw [Option.map_eq_some_iff] at h
    obtain ⟨s, hs, hpair⟩ := h
    cases hpair
    rw [string_append hs u]
    rfl
  · cases h
    rw [if_neg h1, if_pos h2, if_pos (hclose _ h3).1, (hclose _ h3).2]
  · rw [Option.map_eq_some_iff] at h
    obtain ⟨e, he, hpair⟩ := h
    cases hpair
    have hopen : (skip (w ++ u)).head? ≠ some ']' := head?_skip_append (skip_of_elements he) u ▸ h3
    rw [if_neg h1, if_pos h2, if_neg hopen, ih.elements fuel' w _ _ u hle he]
    rfl
  · cases h
    rw [if_neg h1, if_neg h2, if_pos h4, if_pos (hclose _ h5).1, (hclose _ h5).2]
  · rw [Option.map_eq_some_iff] at h
    obtain ⟨m, hm, hpair⟩ := h
    cases hpair
    have hopen : (skip (w ++ u)).head? ≠ some '\x7d' := head?_skip_append (skip_of_members hm) u ▸ h5
    rw [if_neg h1, if_neg h2, if_pos h4, if_neg hopen, ih.members fuel' w _ _ u hle hm]
    rfl
  · rw [if_neg h1, if_neg h2, if_neg h4, if_pos h6, ← List.cons_append]
    exact word_append h u
  · rw [if_neg h1, if_neg h2, if_neg h4, if_neg h6, if_pos h7, ← List.cons_append]
    exact word_append h u
  · rw [if_neg h1, if_neg h2, if_neg h4, if_neg h6, if_neg h7, if_pos h8, ← List.cons_append]
    exact word_append h u
  · rw [if_neg h1, if_neg h2, if_neg h4, if_neg h6, if_neg h7, if_neg h8, ← List.cons_append]
    obtain ⟨-, hnumeric⟩ := skips_number h
    exact number_append h (hv.resolve_right (by rw [hnumeric]; decide)) u

theorem elements_extends (ih : Extends enc fuel) (hle : fuel ≤ fuel') {es : List Value}
    (h : elements enc (fuel + 1) t = some (es, rest)) (u : List Char) :
    elements enc (fuel' + 1) (t ++ u) = some (es, rest ++ u) := by
  rw [elements, Option.bind_eq_some_iff] at h
  obtain ⟨⟨v, t'⟩, hv, h⟩ := h
  split at h
  · cases h
  rename_i c w hw
  have hvalue := ih.value fuel' t v t' u hle hv (.inl (ne_nil_of_skip hw))
  rw [elements, hvalue, Option.bind_some]
  dsimp only
  rw [skip_append hw u]
  dsimp only
  split_ifs at h with h1 h2
  · rw [Option.map_eq_some_iff] at h
    obtain ⟨e, he, hpair⟩ := h
    cases hpair
    rw [if_pos h1, ih.elements fuel' w _ _ u hle he]
    rfl
  · cases h
    rw [if_neg h1, if_pos h2]

theorem members_extends (ih : Extends enc fuel) (hle : fuel ≤ fuel') {ms : List (List Char × Value)}
    (h : members enc (fuel + 1) t = some (ms, rest)) (u : List Char) :
    members enc (fuel' + 1) (t ++ u) = some (ms, rest ++ u) := by
  obtain ⟨literal, name, t₁, t₂, v, t₃, c, w, hskip, hname, hcolon, hv, hw, hc⟩ := members_cases h
  have hvalue := ih.value fuel' t₂ v t₃ u hle hv (.inl (ne_nil_of_skip hw))
  rw [members, skip_append hskip u]
  dsimp only
  rw [if_neg (by simp), string_append hname u, Option.bind_some]
  dsimp only
  rw [skip_append hcolon u]
  dsimp only
  rw [if_neg (by simp), hvalue, Option.bind_some]
  dsimp only
  rw [skip_append hw u]
  dsimp only
  rcases hc with ⟨rfl, ms', hms, rfl⟩ | ⟨rfl, rfl, rfl⟩
  · rw [if_pos rfl, ih.members fuel' w _ _ u hle hms]
    rfl
  · rw [if_neg (by decide), if_pos rfl]

theorem extends_all (fuel : ℕ) : Extends enc fuel := by
  induction fuel with
  | zero => exact ⟨by rintro _ _ _ _ _ _ ⟨⟩, by rintro _ _ _ _ _ _ ⟨⟩, by rintro _ _ _ _ _ _ ⟨⟩⟩
  | succ fuel ih =>
    refine ⟨?_, ?_, ?_⟩
    · intro fuel' t v rest u hle h hv
      obtain ⟨fuel'', rfl⟩ := Nat.exists_eq_add_of_le' (Nat.le_trans (Nat.succ_pos fuel) hle)
      exact value_extends ih (Nat.le_of_succ_le_succ hle) h hv u
    · intro fuel' t es rest u hle h
      obtain ⟨fuel'', rfl⟩ := Nat.exists_eq_add_of_le' (Nat.le_trans (Nat.succ_pos fuel) hle)
      exact elements_extends ih (Nat.le_of_succ_le_succ hle) h u
    · intro fuel' t ms rest u hle h
      obtain ⟨fuel'', rfl⟩ := Nat.exists_eq_add_of_le' (Nat.le_trans (Nat.succ_pos fuel) hle)
      exact members_extends ih (Nat.le_of_succ_le_succ hle) h u

theorem value_of_parse {ms : List (List Char × Value)} (h : parse enc t = some (.object ms))
    (hfuel : t.length < fuel) (hc : isSpace c = false) (u : List Char) :
    ∃ w, value enc fuel (t ++ c :: u) = some (.object ms, w) ∧ skip w = c :: u := by
  rw [parse, Option.bind_eq_some_iff] at h
  obtain ⟨⟨v, rest⟩, hv, h⟩ := h
  split at h
  · rename_i hspace
    cases h
    refine ⟨rest ++ c :: u, (extends_all _).value fuel t _ rest _ hfuel hv (.inr rfl), ?_⟩
    change rest.dropWhile isSpace = [] at hspace
    rw [skip, List.dropWhile_append, hspace]
    exact List.dropWhile_cons_of_neg (by rw [hc]; decide)
  · cases h

end Extension

section Numbers

variable {c : Char}

def endsNumber (c : Char) : Bool := !c.isDigit && c ≠ '.' && c ≠ 'e' && c ≠ 'E'

theorem digits_toDigits (n : ℕ) (hc : c.isDigit = false) (u : List Char) :
    digits (Nat.toDigits 10 n ++ c :: u) = some (Nat.toDigits 10 n, c :: u) := by
  have hall : ∀ d ∈ Nat.toDigits 10 n, d.isDigit = true :=
    fun d hd => Nat.isDigit_of_mem_toDigits (by decide) (by decide) hd
  have hstop : ¬ c.isDigit = true := by rw [hc]; decide
  refine digits_of_span ?_ ?_ Nat.toDigits_ne_nil
  · rw [List.takeWhile_append_of_pos hall, List.takeWhile_cons_of_neg hstop, List.append_nil]
  · rw [List.dropWhile_append_of_pos hall, List.dropWhile_cons_of_neg hstop]

theorem natOf_toDigits (n : ℕ) : natOf (Nat.toDigits 10 n) = n :=
  Nat.ofDigitChars_toDigits (by decide) (by decide)

theorem toDigits_zero (n : ℕ) (h : (Nat.toDigits 10 n).head? = some '0') : Nat.toDigits 10 n = ['0'] := by
  induction n using Nat.strong_induction_on with
  | _ n ih =>
    rw [Nat.toDigits_eq_if (by decide)] at h ⊢
    split at h
    · rename_i hlt
      rw [if_pos hlt]
      rw [List.head?_cons, Option.some.injEq] at h
      rw [h]
    · rename_i hge
      rw [head?_append Nat.toDigits_ne_nil] at h
      have hdigits := ih (n / 10) (by omega) h
      have hzero := congrArg natOf hdigits
      rw [natOf_toDigits] at hzero
      have : n / 10 = 0 := hzero
      omega

theorem not_isDigit_of_endsNumber (hc : endsNumber c = true) : c.isDigit = false := by
  simp only [endsNumber, Bool.and_eq_true, Bool.not_eq_true'] at hc
  exact hc.1.1.1

theorem isFractional_of_endsNumber (hc : endsNumber c = true) (u : List Char) : isFractional (c :: u) = false := by
  simp only [endsNumber, Bool.and_eq_true, decide_eq_true_eq] at hc
  simp [isFractional, hc]

theorem head?_toDigits (n : ℕ) : ∃ d ds, Nat.toDigits 10 n = d :: ds ∧ d.isDigit = true := by
  cases h : Nat.toDigits 10 n with
  | nil => exact absurd h Nat.toDigits_ne_nil
  | cons d ds =>
    have hmem : d ∈ Nat.toDigits 10 n := by simp [h]
    exact ⟨d, ds, rfl, Nat.isDigit_of_mem_toDigits (by decide) (by decide) hmem⟩

theorem number_digits {n : ℕ} {t u : List Char} (hc : endsNumber c = true)
    (ht : (if t.head? = some '-' then t.tail else t) = Nat.toDigits 10 n ++ c :: u) :
    number t = some (.integer (if t.head? = some '-' then -n else n), c :: u) := by
  have hzero : ¬ ((Nat.toDigits 10 n).head? = some '0' ∧ Nat.toDigits 10 n ≠ ['0']) :=
    fun h => h.2 (toDigits_zero n h.1)
  have hfractional : ¬ isFractional (c :: u) = true := by simp [isFractional_of_endsNumber hc]
  simp only [number]
  rw [ht, digits_toDigits n (not_isDigit_of_endsNumber hc), Option.bind_some, if_neg hzero, if_neg hfractional,
    natOf_toDigits]

theorem number_toDigits (n : ℕ) (hc : endsNumber c = true) (u : List Char) :
    number (Nat.toDigits 10 n ++ c :: u) = some (.integer n, c :: u) := by
  have hminus : (Nat.toDigits 10 n ++ c :: u).head? ≠ some '-' := by
    obtain ⟨d, ds, hdigits, hd⟩ := head?_toDigits n
    rw [hdigits]
    rintro ⟨⟩
    cases hd
  rw [number_digits hc (if_neg hminus), if_neg hminus]

theorem number_minus (n : ℕ) (hc : endsNumber c = true) (u : List Char) :
    number ('-' :: (Nat.toDigits 10 n ++ c :: u)) = some (.integer (-n), c :: u) :=
  number_digits hc rfl

theorem value_number (fuel : ℕ) {d : Char} (hd : d.isDigit = true ∨ d = '-') (t : List Char) :
    value enc (fuel + 1) (d :: t) = number (d :: t) := by
  have hne : ∀ a, a.isDigit = false → a ≠ '-' → d ≠ a := by
    rintro a ha hminus rfl
    rcases hd with hd | hd
    · rw [ha] at hd
      cases hd
    · exact hminus hd
  have hskip : skip (d :: t) = d :: t := by
    refine List.dropWhile_cons_of_neg fun hspace => ?_
    simp only [isSpace, Bool.or_eq_true, decide_eq_true_eq] at hspace
    rcases hspace with ((rfl | rfl) | rfl) | rfl <;> simp at hd
  rw [value, hskip]
  dsimp only
  rw [if_neg (hne _ rfl (by decide)), if_neg (hne _ rfl (by decide)), if_neg (hne _ rfl (by decide)),
    if_neg (hne _ rfl (by decide)), if_neg (hne _ rfl (by decide)), if_neg (hne _ rfl (by decide))]

end Numbers

structure Field where
  name : List Char
  raw : List Char
  value : Value

namespace Field

/-- The text of the member is read as its value in front of another member. -/
structure Reads (f : Field) : Prop where
  name : Plain f.name
  raw : ∀ enc fuel u, f.raw.length < fuel →
    JsonText.value enc fuel (f.raw ++ ',' :: u) = some (f.value, ',' :: u)

def member (f : Field) : List Char × Value := (f.name, f.value)

variable {name : List Char}

theorem reads_nat (hname : Plain name) (n : ℕ) : Reads ⟨name, Nat.toDigits 10 n, .integer n⟩ := by
  refine ⟨hname, fun enc fuel u hfuel => ?_⟩
  obtain ⟨fuel, rfl⟩ := Nat.exists_eq_add_of_le' (Nat.zero_lt_of_lt hfuel)
  have hnumber := number_toDigits n (c := ',') rfl u
  obtain ⟨d, ds, hdigits, hd⟩ := head?_toDigits n
  rw [hdigits] at hnumber ⊢
  exact (value_number fuel (.inl hd) _).trans hnumber

theorem reads_minus (hname : Plain name) (n : ℕ) : Reads ⟨name, '-' :: Nat.toDigits 10 n, .integer (-n)⟩ := by
  refine ⟨hname, fun enc fuel u hfuel => ?_⟩
  obtain ⟨fuel, rfl⟩ := Nat.exists_eq_add_of_le' (Nat.zero_lt_of_lt hfuel)
  exact (value_number fuel (.inr rfl) _).trans (number_minus n rfl u)

theorem reads_string {s : List Char} (hname : Plain name) (hs : Plain s) :
    Reads ⟨name, '"' :: (s ++ ['"']), .string s⟩ := by
  refine ⟨hname, fun enc fuel u hfuel => ?_⟩
  obtain ⟨fuel, rfl⟩ := Nat.exists_eq_add_of_le' (Nat.zero_lt_of_lt hfuel)
  have htext : '"' :: (s ++ ['"']) ++ ',' :: u = '"' :: (s ++ '"' :: ',' :: u) := by simp
  rw [htext, value_literal, string_of_plain hs]
  rfl

theorem reads_bool (hname : Plain name) (b : Bool) :
    Reads ⟨name, if b then "true".toList else "false".toList, .bool b⟩ := by
  refine ⟨hname, fun enc fuel u hfuel => ?_⟩
  obtain ⟨fuel, rfl⟩ := Nat.exists_eq_add_of_le' (Nat.zero_lt_of_lt hfuel)
  cases b <;> rfl

end Field

section Before

def before (fs : List Field) (t : List Char) : List Char :=
  fs.foldr (fun f t => '"' :: (f.name ++ '"' :: ':' :: (f.raw ++ ',' :: t))) t

variable {fs : List Field} {fuel : ℕ} {t rest key inserted after : List Char} {ms : List (List Char × Value)}
  {v : Value}

theorem before_cons (f : Field) (fs : List Field) (t : List Char) :
    before (f :: fs) t = '"' :: (f.name ++ '"' :: ':' :: (f.raw ++ ',' :: before fs t)) := rfl

theorem length_before (fs : List Field) (t : List Char) : fs.length + t.length ≤ (before fs t).length := by
  induction fs with
  | nil => simp [before]
  | cons f fs ih =>
    rw [before_cons]
    simp only [List.length_cons, List.length_append]
    omega

theorem length_raw {f : Field} (hf : f ∈ fs) (t : List Char) : f.raw.length + fs.length ≤ (before fs t).length := by
  induction fs with
  | nil => cases hf
  | cons g fs ih =>
    rw [before_cons]
    simp only [List.length_cons, List.length_append]
    have hrest := length_before fs t
    rcases List.mem_cons.mp hf with rfl | hf
    · omega
    · have := ih hf
      omega

theorem members_before (enc : Encoding) (hfs : ∀ f ∈ fs, f.Reads) (hfuel : ∀ f ∈ fs, f.raw.length < fuel) (t : List Char) :
    members enc (fuel + fs.length) (before fs t) =
      (members enc fuel t).map (fun m => (fs.map Field.member ++ m.1, m.2)) := by
  induction fs with
  | nil =>
    change members enc fuel t = _
    simp
  | cons f fs ih =>
    obtain ⟨hf, hfs⟩ := List.forall_mem_cons.mp hfs
    obtain ⟨hraw, hraws⟩ := List.forall_mem_cons.mp hfuel
    have hvalue := hf.raw enc (fuel + fs.length) (before fs t) (by omega)
    rw [before_cons, List.length_cons, ← Nat.add_assoc, members_more hf.name hvalue, ih hfs hraws, Option.map_map]
    rfl

theorem parse_before (hfs : ∀ f ∈ fs, f.Reads) (t : List Char) :
    ∃ fuel, t.length < fuel ∧ parse enc ('\x7b' :: before fs ('"' :: t)) =
      (members enc fuel ('"' :: t)).bind (fun m =>
      if skip m.2 = [] then some (.object (fs.map Field.member ++ m.1)) else none) := by
  have hlen := length_before fs ('"' :: t)
  rw [List.length_cons] at hlen
  obtain ⟨fuel, hfuel⟩ := Nat.exists_eq_add_of_le' (Nat.le_of_add_right_le (Nat.le_succ_of_le hlen))
  refine ⟨fuel, by omega, ?_⟩
  have hraws : ∀ f ∈ fs, f.raw.length < fuel := by
    intro f hf
    have := length_raw hf ('"' :: t)
    omega
  have hquote : ∃ u, before fs ('"' :: t) = '"' :: u := by
    cases fs with
    | nil => exact ⟨t, rfl⟩
    | cons f fs => exact ⟨_, before_cons f fs _⟩
  have hmembers := members_before enc hfs hraws ('"' :: t)
  rw [← hfuel] at hmembers
  obtain ⟨u, hu⟩ := hquote
  rw [parse, List.length_cons]
  rw [hu] at hmembers ⊢
  rw [value_object, hmembers, Option.map_map, Option.bind_map]
  rfl

/-- The first member is a string, and lighter than the text that was inserted for it unless
that is plain. -/
theorem members_inserted (hkey : Plain key) (hafter : ∀ ps rest, parts after = some (ps, rest) → Dead rest)
    (h : members enc fuel ('"' :: (key ++ '"' :: ':' :: '"' :: (inserted ++ '"' :: after))) = some (ms, rest)) :
    ∃ s ms', ms = (key, .string s) :: ms' ∧ (weight s < weight inserted ∨ Plain inserted) := by
  obtain ⟨fuel', s, t, c, t', hs, ht, hc⟩ := members_of_literal hkey h
  have hms : ∃ ms', ms = (key, .string s) :: ms' := by
    rcases hc with ⟨-, ms', -, rfl⟩ | ⟨-, rfl⟩
    · exact ⟨ms', rfl⟩
    · exact ⟨[], rfl⟩
  obtain ⟨ms', rfl⟩ := hms
  refine ⟨s, ms', rfl, ?_⟩
  rcases ends_of_string hs with ⟨inserted', -, hw⟩ | ⟨-, hlight⟩ | ⟨ps, hps⟩
  · exact .inl (by omega)
  · exact hlight.imp_right And.left
  · -- the literal took the quotation mark behind the text
    have halpha : c.isAlpha = false := by rcases hc with ⟨rfl, -⟩ | ⟨rfl, -⟩ <;> rfl
    exact absurd (hafter _ _ hps) (not_dead_of_skip ht halpha)

theorem get_behind (hnames : ∀ f ∈ fs, f.name ≠ key) (ms : List (List Char × Value)) :
    Value.get key (.object (fs.map Field.member ++ ms)) = Value.get key (.object ms) := by
  have hnone : (fs.map Field.member).find? (fun m => m.1 = key) = none := by
    simp only [List.find?_eq_none, List.mem_map, decide_eq_true_eq]
    rintro m ⟨f, hf, rfl⟩
    exact hnames f hf
  rw [Value.get, List.find?_append, hnone, Option.none_or, Value.get]

theorem get_inserted (hfs : ∀ f ∈ fs, f.Reads) (hnames : ∀ f ∈ fs, f.name ≠ key) (hkey : Plain key)
    (hafter : ∀ ps rest, parts after = some (ps, rest) → Dead rest)
    (h : parse enc ('\x7b' :: before fs ('"' :: (key ++ '"' :: ':' :: '"' :: (inserted ++ '"' :: after)))) = some v) :
    ∃ s, v.get key = some (.string s) ∧ (weight s < weight inserted ∨ Plain inserted) := by
  obtain ⟨fuel, -, hparse⟩ := parse_before hfs (key ++ '"' :: ':' :: '"' :: (inserted ++ '"' :: after))
  rw [hparse, Option.bind_eq_some_iff] at h
  obtain ⟨⟨ms, rest⟩, hms, h⟩ := h
  split at h
  · cases h
    obtain ⟨s, ms', rfl, hs⟩ := members_inserted hkey hafter hms
    refine ⟨s, ?_, hs⟩
    rw [get_behind hnames, Value.get, List.find?_cons_of_pos (by simp)]
    rfl
  · cases h

end Before

section Writer

def hexDigit (n : ℕ) : Char := if n < 10 then Char.ofNat (48 + n) else Char.ofNat (55 + n)

/-- A character in a string literal. Control characters without a letter of their own are
written with digits. -/
def writeChar (c : Char) : List Char :=
  if c = '"' ∨ c = '\\' then ['\\', c]
  else if c = '\x08' then ['\\', 'b']
  else if c = '\x0c' then ['\\', 'f']
  else if c = '\n' then ['\\', 'n']
  else if c = '\r' then ['\\', 'r']
  else if c = '\t' then ['\\', 't']
  else if c.toNat < 32 then ['\\', 'u', '0', '0', hexDigit (c.toNat / 16), hexDigit (c.toNat % 16)]
  else [c]

def writeString (s : List Char) : List Char := '"' :: (s.flatMap writeChar ++ ['"'])

variable (numberText : ℚ → List Char)

def integerText (z : ℤ) : List Char := (if z < 0 then ['-'] else []) ++ Nat.toDigits 10 z.natAbs

mutual

/-- The text of a value without spaces. How a number is written is left open. -/
def Value.write : Value → List Char
  | .null => "null".toList
  | .bool b => if b then "true".toList else "false".toList
  | .integer z => integerText z
  | .number q => numberText q
  | .string s => writeString s
  | .array elements => '[' :: ((Value.writeElements elements).intersperse [',']).flatten ++ [']']
  | .object members => '\x7b' :: ((Value.writeMembers members).intersperse [',']).flatten ++ ['\x7d']

def Value.writeElements : List Value → List (List Char)
  | [] => []
  | v :: vs => Value.write v :: Value.writeElements vs

def Value.writeMembers : List (List Char × Value) → List (List Char)
  | [] => []
  | (name, v) :: ms => (writeString name ++ ':' :: Value.write v) :: Value.writeMembers ms

end

end Writer

end Asapo.JsonText
