import Asapo.Json

namespace Asapo.JsonText

/-- A character that stands for itself in a string literal. -/
def plainChar (c : Char) : Bool := c ≠ '"' && c ≠ '\\' && 32 ≤ c.toNat

def Plain (t : List Char) : Prop := t.all plainChar = true

instance (t : List Char) : Decidable (Plain t) := inferInstanceAs (Decidable (_ = true))

variable {enc : Encoding}

section Literals

/-- An escape sequence has more of these characters than the character that it stands for.
Sequences with digits for one of them begin with the digit zero. -/
def heavy (c : Char) : Bool := c = '"' || c = '\\' || c = '0'

def weight (t : List Char) : ℕ := t.countP heavy

@[simp] theorem weight_nil : weight [] = 0 := rfl

@[simp] theorem weight_append (s t : List Char) : weight (s ++ t) = weight s + weight t := List.countP_append

theorem weight_cons (c : Char) (t : List Char) : weight (c :: t) = weight [c] + weight t :=
  weight_append [c] t

def partWeight : Part → ℕ
  | .char c => weight [c]
  | .codeUnit u => if u < 4096 then 1 else 0

def load (ps : List Part) : ℕ := (ps.map partWeight).sum

@[simp] theorem load_nil : load [] = 0 := rfl

@[simp] theorem load_cons (p : Part) (ps : List Part) : load (p :: ps) = partWeight p + load ps := rfl

theorem weight_le_one (c : Char) : weight [c] ≤ 1 := List.countP_le_length

theorem weight_eq_zero {c : Char} (h : heavy c = false) : weight [c] = 0 := by
  simp [weight, h]

theorem toNat_lt_of_heavy {c : Char} (h : heavy c = true) : c.toNat ∈ Set.Icc 34 92 := by
  simp only [heavy, Bool.or_eq_true, decide_eq_true_eq] at h
  rcases h with (rfl | rfl) | rfl <;> decide

theorem weight_ofNat_le (n : ℕ) : weight [Char.ofNat n] ≤ if n < 4096 then 1 else 0 := by
  split
  · exact weight_le_one _
  · rename_i hn
    refine (weight_eq_zero ?_).le
    by_contra hheavy
    have hbound := toNat_lt_of_heavy (Bool.of_not_eq_false hheavy)
    rw [Char.toNat_ofNat] at hbound
    obtain ⟨h1, h2⟩ := hbound
    split at h1 <;> split at h2 <;> omega

theorem weight_of_le {n : ℕ} (h : 0x80 ≤ n) : weight [Char.ofNat n] = 0 := by
  refine weight_eq_zero (Bool.eq_false_iff.mpr fun hheavy => ?_)
  have hbound := toNat_lt_of_heavy hheavy
  rw [Char.toNat_ofNat] at hbound
  obtain ⟨h34, h92⟩ := hbound
  split at h34 <;> split at h92 <;> omega

theorem weight_utf8Bytes (n : ℕ) : weight (utf8Bytes n) ≤ if n < 4096 then 1 else 0 := by
  have hlast := weight_of_le (Nat.le_add_right 0x80 (n % 64))
  have hmiddle := weight_of_le (Nat.le_add_right 0x80 (n / 64 % 64))
  have hthird := weight_of_le (Nat.le_add_right 0x80 (n / 4096 % 64))
  unfold utf8Bytes
  split
  · rw [if_pos (by omega)]
    exact weight_le_one _
  split
  · rw [weight_cons, weight_of_le (by omega), hlast]
    exact Nat.zero_le _
  split
  · rw [weight_cons, weight_of_le (by omega), weight_cons, hmiddle, hlast]
    exact Nat.zero_le _
  · rw [weight_cons, weight_of_le (by omega), weight_cons, hthird, weight_cons, hmiddle, hlast]
    exact Nat.zero_le _

theorem weight_codePoint (n : ℕ) : weight (codePoint enc n) ≤ if n < 4096 then 1 else 0 := by
  cases enc with
  | characters => exact weight_ofNat_le n
  | bytes => exact weight_utf8Bytes n

theorem weight_unit {u : ℕ} {s : List Char} (h : unit enc u = some s) : weight s ≤ partWeight (.codeUnit u) := by
  unfold unit at h
  cases enc with
  | characters =>
    cases h
    split
    · exact Nat.zero_le _
    · exact weight_ofNat_le u
  | bytes =>
    dsimp only at h
    split at h <;> cases h
    exact weight_utf8Bytes u

theorem weight_assemble {ps : List Part} {s : List Char} (h : assemble enc ps = some s) : weight s ≤ load ps := by
  induction ps using assemble.induct generalizing s with
  | case1 =>
    cases h
    exact le_rfl
  | case2 c ps ih =>
    rw [assemble, Option.map_eq_some_iff] at h
    obtain ⟨s, hs, rfl⟩ := h
    rw [weight_cons, load_cons]
    exact Nat.add_le_add_left (ih hs) _
  | case3 u l ps hpair ih =>
    rw [assemble, if_pos hpair, Option.map_eq_some_iff] at h
    obtain ⟨s, hs, rfl⟩ := h
    rw [weight_append, load_cons, load_cons]
    have hc : weight (codePoint enc (0x10000 + (u - 0xD800) * 0x400 + (l - 0xDC00))) ≤ _ := weight_codePoint _
    rw [if_neg (by omega)] at hc
    have := ih hs
    omega
  | case4 u l ps hpair ih =>
    rw [assemble, if_neg hpair, Option.bind_eq_some_iff] at h
    obtain ⟨c, hc, h⟩ := h
    obtain ⟨s, hs, rfl⟩ := Option.map_eq_some_iff.mp h
    rw [weight_append, load_cons]
    exact Nat.add_le_add (weight_unit hc) (ih hs)
  | case5 u ps hpair ih =>
    rw [assemble.eq_4 enc u ps hpair, Option.bind_eq_some_iff] at h
    obtain ⟨c, hc, h⟩ := h
    obtain ⟨s, hs, rfl⟩ := Option.map_eq_some_iff.mp h
    rw [weight_append, load_cons]
    exact Nat.add_le_add (weight_unit hc) (ih hs)

theorem hexValue_zero {a : Char} (h : hexValue a = some 0) : a = '0' := by
  unfold hexValue at h
  refine Char.toNat_inj.mp ?_
  split_ifs at h with h1 h2 h3
  · have hle : '0'.toNat ≤ a.toNat := h1.1
    have hz : a.toNat - 48 = 0 := Option.some.inj h
    have h48 : '0'.toNat = 48 := rfl
    omega
  · have hle : 'a'.toNat ≤ a.toNat := h2.1
    have hz : a.toNat - 87 = 0 := Option.some.inj h
    have h97 : 'a'.toNat = 97 := rfl
    omega
  · have hle : 'A'.toNat ≤ a.toNat := h3.1
    have hz : a.toNat - 55 = 0 := Option.some.inj h
    have h65 : 'A'.toNat = 65 := rfl
    omega

theorem escaped_lighter {e c : Char} (h : escaped e = some c) : partWeight (.char c) < weight ['\\', e] := by
  unfold escaped at h
  have hslash : weight ['\\', e] = 1 + weight [e] := weight_cons '\\' [e]
  rw [hslash]
  split_ifs at h with h1 <;> cases h
  · have := weight_le_one e
    simp [partWeight]
  all_goals exact Nat.lt_of_lt_of_le (by decide) (Nat.le_add_right 1 _)

theorem load_map_char (t : List Char) : load (t.map .char) = weight t := by
  induction t with
  | nil => rfl
  | cons c t ih => rw [List.map_cons, load_cons, weight_cons, ih, partWeight]

/-- Where a literal ends that begins with an inserted text: inside of the text, at the
quotation mark behind it, or later, if the text ends with a backslash. -/
def Ends (after inserted : List Char) (ps : List Part) (rest : List Char) : Prop :=
  (∃ inserted', rest = inserted' ++ '"' :: after ∧ load ps + weight inserted' < weight inserted) ∨
  (rest = after ∧ (load ps < weight inserted ∨ Plain inserted ∧ ps = inserted.map .char)) ∨
  ∃ ps', parts after = some (ps', rest)

variable {after inserted rest : List Char} {ps : List Part} {p : Part} {c : Char}

theorem Ends.escape (h : Ends after inserted ps rest) (raw : List Char) (hp : partWeight p < weight raw) :
    Ends after (raw ++ inserted) (p :: ps) rest := by
  rcases h with ⟨inserted', hrest, hload⟩ | ⟨hrest, hload⟩ | hend
  · refine .inl ⟨inserted', hrest, ?_⟩
    rw [load_cons, weight_append]
    omega
  · refine .inr (.inl ⟨hrest, .inl ?_⟩)
    rw [load_cons, weight_append]
    rcases hload with hload | ⟨-, rfl⟩
    · omega
    · rw [load_map_char]
      omega
  · exact .inr (.inr hend)

theorem Ends.char (h : Ends after inserted ps rest) (hc : plainChar c = true) :
    Ends after (c :: inserted) (.char c :: ps) rest := by
  rcases h with ⟨inserted', hrest, hload⟩ | ⟨hrest, hload⟩ | hend
  · refine .inl ⟨inserted', hrest, ?_⟩
    rw [load_cons, weight_cons]
    exact Nat.add_assoc .. ▸ Nat.add_lt_add_left hload _
  · refine .inr (.inl ⟨hrest, hload.imp ?_ ?_⟩)
    · intro hless
      rw [load_cons, weight_cons]
      exact Nat.add_lt_add_left hless _
    · rintro ⟨hplain, rfl⟩
      exact ⟨by simp [Plain, hc] ; exact List.all_eq_true.mp hplain, rfl⟩
  · exact .inr (.inr hend)

theorem parts_quote (t : List Char) : parts ('"' :: t) = some ([], t) := by
  rw [parts.eq_def]
  rfl

theorem parts_unit (a b x y : Char) (t : List Char) : parts ('\\' :: 'u' :: a :: b :: x :: y :: t) =
    (hexValue a).bind (fun a => (hexValue b).bind (fun b => (hexValue x).bind (fun x =>
      (hexValue y).bind (fun y => (parts t).map (fun p =>
        (.codeUnit (((a * 16 + b) * 16 + x) * 16 + y) :: p.1, p.2)))))) := by
  rw [parts.eq_def]
  rfl

theorem parts_escape {e : Char} (he : e ≠ 'u') (t : List Char) : parts ('\\' :: e :: t) =
    (escaped e).bind (fun c => (parts t).map (fun p => (.char c :: p.1, p.2))) := by
  rw [parts.eq_def]
  simp only [he, if_false, if_true]
  rfl

theorem parts_plain (hc : plainChar c = true) (t : List Char) :
    parts (c :: t) = (parts t).map (fun p => (.char c :: p.1, p.2)) := by
  simp only [plainChar, Bool.and_eq_true, decide_eq_true_eq] at hc
  rw [parts.eq_def]
  simp only [hc, if_false, Nat.not_lt.mpr hc.2]

theorem hexValue_quote : hexValue '"' = none := by decide

theorem codeUnit_lighter {a b x y : Char} {va vb vx vy : ℕ} (ha : hexValue a = some va) :
    partWeight (.codeUnit (((va * 16 + vb) * 16 + vx) * 16 + vy)) < weight ['\\', 'u', a, b, x, y] := by
  rw [partWeight]
  split
  · have hzero : a = '0' := hexValue_zero (ha.trans (congrArg some (by omega)))
    subst hzero
    have hraw : weight ['\\', 'u', '0', b, x, y] = 2 + weight [b, x, y] := weight_append ['\\', 'u', '0'] _
    omega
  · have hraw : weight ['\\', 'u', a, b, x, y] = 1 + weight [a, b, x, y] := weight_append ['\\', 'u'] _
    omega

theorem ends_of_parts (h : parts (inserted ++ '"' :: after) = some (ps, rest)) : Ends after inserted ps rest := by
  generalize ht : inserted ++ '"' :: after = t at h
  induction t using parts.induct generalizing inserted ps rest with
  | case1 => cases h
  | case2 t =>
    rw [parts_quote] at h
    cases h
    cases inserted with
    | nil =>
      cases ht
      exact .inr (.inl ⟨rfl, .inr ⟨rfl, rfl⟩⟩)
    | cons c inserted =>
      cases ht
      refine .inl ⟨inserted, rfl, ?_⟩
      have hquote : 0 < weight ['"'] := by decide
      rw [load_nil, weight_cons]
      omega
  | case3 => cases h
  | case4 a b x y t _ ih =>
    rw [parts_unit] at h
    simp only [Option.bind_eq_some_iff, Option.map_eq_some_iff] at h
    obtain ⟨va, ha, vb, hb, vx, hx, vy, hy, p, hp, hpair⟩ := h
    cases hpair
    -- the quotation mark behind the text is no digit
    rcases inserted with _ | ⟨_, _ | ⟨_, _ | ⟨_, _ | ⟨_, _ | ⟨_, _ | ⟨_, inserted⟩⟩⟩⟩⟩⟩ <;> cases ht
    · cases hexValue_quote.symm.trans ha
    · cases hexValue_quote.symm.trans hb
    · cases hexValue_quote.symm.trans hx
    · cases hexValue_quote.symm.trans hy
    · exact (ih rfl hp).escape ['\\', 'u', a, b, x, y] (codeUnit_lighter ha)
  | case5 t hshort =>
    rw [parts.eq_def] at h
    have hquote : ¬ '\\' = '"' := by decide
    simp only [hquote, if_true, if_false] at h
    cases h
  | case6 e t he _ ih =>
    rw [parts_escape he] at h
    simp only [Option.bind_eq_some_iff, Option.map_eq_some_iff] at h
    obtain ⟨c, hc, p, hp, hpair⟩ := h
    cases hpair
    rcases inserted with _ | ⟨_, _ | ⟨_, inserted⟩⟩ <;> cases ht
    · exact .inr (.inr ⟨p.1, hp⟩)
    · exact (ih rfl hp).escape ['\\', e] (escaped_lighter hc)
  | case7 c t h1 h2 h3 =>
    rw [parts.eq_def] at h
    simp only [h1, h2, h3, if_false, if_true] at h
    cases h
  | case8 c t h1 h2 h3 ih =>
    have hplain : plainChar c = true := by simp [plainChar, h1, h2]; omega
    rw [parts_plain hplain, Option.map_eq_some_iff] at h
    obtain ⟨p, hp, hpair⟩ := h
    cases hpair
    rcases inserted with _ | ⟨_, inserted⟩ <;> cases ht
    · exact absurd rfl h1
    · exact (ih rfl hp).char hplain

theorem parts_of_plain (h : Plain inserted) :
    parts (inserted ++ '"' :: after) = some (inserted.map .char, after) := by
  induction inserted with
  | nil => exact parts_quote after
  | cons c inserted ih =>
    rw [Plain, List.all_cons, Bool.and_eq_true] at h
    rw [List.cons_append, parts_plain h.1, ih h.2]
    rfl

theorem assemble_map_char (t : List Char) : assemble enc (t.map .char) = some t := by
  induction t with
  | nil => rfl
  | cons c t ih => rw [List.map_cons, assemble, ih, Option.map_some]

theorem string_of_plain (h : Plain inserted) : string enc (inserted ++ '"' :: after) = some (inserted, after) := by
  rw [string, parts_of_plain h, Option.bind_some, assemble_map_char, Option.map_some]

theorem parts_of_string {t s : List Char} (h : string enc t = some (s, rest)) :
    ∃ ps, parts t = some (ps, rest) ∧ assemble enc ps = some s := by
  rw [string, Option.bind_eq_some_iff] at h
  obtain ⟨⟨ps, rest'⟩, hps, h⟩ := h
  obtain ⟨s, hs, hpair⟩ := Option.map_eq_some_iff.mp h
  cases hpair
  exact ⟨ps, hps, hs⟩

theorem ends_of_string {s : List Char} (h : string enc (inserted ++ '"' :: after) = some (s, rest)) :
    (∃ inserted', rest = inserted' ++ '"' :: after ∧ weight s + weight inserted' < weight inserted) ∨
    (rest = after ∧ (weight s < weight inserted ∨ Plain inserted ∧ s = inserted)) ∨
    ∃ ps', parts after = some (ps', rest) := by
  obtain ⟨ps, hps, hs⟩ := parts_of_string h
  have hload := weight_assemble hs
  rcases ends_of_parts hps with ⟨inserted', hrest, hless⟩ | ⟨hrest, hless | ⟨hplain, rfl⟩⟩ | hend
  · exact .inl ⟨inserted', hrest, (Nat.add_le_add_right hload _).trans_lt hless⟩
  · exact .inr (.inl ⟨hrest, .inl (hload.trans_lt hless)⟩)
  · rw [assemble_map_char] at hs
    cases hs
    exact .inr (.inl ⟨hrest, .inr ⟨hplain, rfl⟩⟩)
  · exact .inr (.inr hend)

end Literals

section Tokens

def Skips (t rest : List Char) : Prop := ∃ taken, t = taken ++ rest ∧ '"' ∉ taken

variable {t u rest w ds : List Char} {v : Value} {c : Char}

theorem Skips.refl (t : List Char) : Skips t t := ⟨[], rfl, List.not_mem_nil⟩

theorem Skips.trans (h : Skips t u) (h' : Skips u rest) : Skips t rest := by
  obtain ⟨taken, rfl, htaken⟩ := h
  obtain ⟨taken', rfl, htaken'⟩ := h'
  exact ⟨taken ++ taken', by rw [List.append_assoc], by simp [htaken, htaken']⟩

theorem skips_cons (hc : c ≠ '"') (t : List Char) : Skips (c :: t) t := ⟨[c], rfl, by simpa using hc.symm⟩

theorem skips_dropWhile (p : Char → Bool) (hp : p '"' = false) (t : List Char) : Skips t (t.dropWhile p) := by
  refine ⟨t.takeWhile p, List.takeWhile_append_dropWhile.symm, fun hmem => ?_⟩
  rw [List.mem_takeWhile_imp hmem] at hp
  cases hp

theorem skips_skip (t : List Char) : Skips t (skip t) := skips_dropWhile isSpace rfl t

theorem skips_digits (h : digits t = some (ds, rest)) : Skips t rest := by
  have hspan := skips_dropWhile Char.isDigit rfl t
  rw [digits, List.span_eq_takeWhile_dropWhile] at h
  split at h
  · cases h
  · rename_i hpair
    cases h
    cases hpair
    exact hspan

theorem skips_sign (t : List Char) : Skips t (sign t).2 := by
  unfold sign
  split
  · exact Skips.refl _
  · split
    · rename_i hc
      exact skips_cons (by rw [hc]; decide) _
    · split
      · rename_i hc
        exact skips_cons (by rw [hc]; decide) _
      · exact Skips.refl _

theorem skips_tail (h : t.head? = some c) (hc : c ≠ '"') : Skips t t.tail := by
  cases t with
  | nil => cases h
  | cons d t =>
    cases h
    exact skips_cons hc t

theorem skips_fraction (h : fraction t = some (ds, rest)) : Skips t rest := by
  unfold fraction at h
  split at h
  · rename_i hpoint
    exact (skips_tail hpoint (by decide)).trans (skips_digits h)
  · cases h
    exact Skips.refl _

theorem skips_exponent {e : ℤ} (h : exponent t = some (e, rest)) : Skips t rest := by
  unfold exponent at h
  split at h
  · rename_i hexp
    rw [Option.map_eq_some_iff] at h
    obtain ⟨⟨ds, rest'⟩, hds, hpair⟩ := h
    cases hpair
    have htail : Skips t t.tail := by
      rcases hexp with hexp | hexp
      · exact skips_tail hexp (by decide)
      · exact skips_tail hexp (by decide)
    exact htail.trans ((skips_sign t.tail).trans (skips_digits hds))
  · cases h
    exact Skips.refl _

def Value.isNumeric : Value → Bool
  | .integer _ => true
  | .number _ => true
  | _ => false

theorem skips_number (h : number t = some (v, rest)) : Skips t rest ∧ v.isNumeric = true := by
  simp only [number, Option.bind_eq_some_iff] at h
  obtain ⟨int, hint, h⟩ := h
  have hminus : Skips t (if t.head? = some '-' then t.tail else t) := by
    split
    · rename_i hhead
      exact skips_tail hhead (by decide)
    · exact Skips.refl _
  split at h
  · cases h
  · split at h
    · simp only [Option.bind_eq_some_iff, Option.map_eq_some_iff] at h
      obtain ⟨frac, hfrac, exp, hexp, hpair⟩ := h
      cases hpair
      exact ⟨hminus.trans ((skips_digits hint).trans ((skips_fraction hfrac).trans (skips_exponent hexp))), rfl⟩
    · cases h
      exact ⟨hminus.trans (skips_digits hint), rfl⟩

theorem skips_word {v' : Value} (hw : '"' ∉ w) (h : word w v t = some (v', rest)) : Skips t rest ∧ v' = v := by
  unfold word at h
  split at h
  · rename_i hpre
    cases h
    obtain ⟨t', rfl⟩ := List.isPrefixOf_iff_prefix.mp hpre
    exact ⟨⟨w, by rw [List.drop_left], hw⟩, rfl⟩
  · cases h

end Tokens

section Inversion

variable {fuel : ℕ} {t rest : List Char} {v : Value} {es : List Value} {ms : List (List Char × Value)}

theorem skip_cons {c : Char} {u : List Char} (h : (skip t).head? = some c) (hu : (skip t).tail = u) :
    skip t = c :: u := by
  cases hs : skip t with
  | nil =>
    rw [hs] at h
    cases h
  | cons d t' =>
    rw [hs] at h hu
    cases h
    cases hu
    rfl

theorem value_cases (h : value enc (fuel + 1) t = some (v, rest)) :
    (∃ literal s, skip t = '"' :: literal ∧ string enc literal = some (s, rest) ∧ v = .string s) ∨
    (∃ u es, skip t = '[' :: u ∧ (skip u = ']' :: rest ∨ elements enc fuel u = some (es, rest)) ∧ v = .array es) ∨
    (∃ u ms, skip t = '\x7b' :: u ∧ (skip u = '\x7d' :: rest ∧ ms = [] ∨ members enc fuel u = some (ms, rest)) ∧
      v = .object ms) ∨
    Skips t rest ∧ ∀ s, v ≠ .string s := by
  rw [value] at h
  have hskip := skips_skip t
  split at h
  · cases h
  · rename_i c u hc
    rw [hc] at hskip ⊢
    split_ifs at h with h1 h2 h3 h4 h5 h6 h7 h8
    · subst h1
      rw [Option.map_eq_some_iff] at h
      obtain ⟨s, hs, hpair⟩ := h
      cases hpair
      exact .inl ⟨u, s.1, rfl, hs, rfl⟩
    · cases h
      subst h2
      exact .inr (.inl ⟨u, [], rfl, .inl (skip_cons h3 rfl), rfl⟩)
    · subst h2
      rw [Option.map_eq_some_iff] at h
      obtain ⟨e, he, hpair⟩ := h
      cases hpair
      exact .inr (.inl ⟨u, e.1, rfl, .inr he, rfl⟩)
    · cases h
      subst h4
      exact .inr (.inr (.inl ⟨u, [], rfl, .inl ⟨skip_cons h5 rfl, rfl⟩, rfl⟩))
    · subst h4
      rw [Option.map_eq_some_iff] at h
      obtain ⟨m, hm, hpair⟩ := h
      cases hpair
      exact .inr (.inr (.inl ⟨u, m.1, rfl, .inr hm, rfl⟩))
    · obtain ⟨hword, rfl⟩ := skips_word (by decide) h
      exact .inr (.inr (.inr ⟨hskip.trans hword, by rintro s ⟨⟩⟩))
    · obtain ⟨hword, rfl⟩ := skips_word (by decide) h
      exact .inr (.inr (.inr ⟨hskip.trans hword, by rintro s ⟨⟩⟩))
    · obtain ⟨hword, rfl⟩ := skips_word (by decide) h
      exact .inr (.inr (.inr ⟨hskip.trans hword, by rintro s ⟨⟩⟩))
    · obtain ⟨hnumber, hnumeric⟩ := skips_number h
      refine .inr (.inr (.inr ⟨hskip.trans hnumber, ?_⟩))
      rintro s rfl
      cases hnumeric

theorem elements_cases (h : elements enc (fuel + 1) t = some (es, rest)) :
    ∃ v t' u c, value enc fuel t = some (v, t') ∧ skip t' = c :: u ∧
      (c = ',' ∧ (∃ es', elements enc fuel u = some (es', rest)) ∨ c = ']' ∧ rest = u) := by
  rw [elements, Option.bind_eq_some_iff] at h
  obtain ⟨⟨v, t'⟩, hv, h⟩ := h
  split at h
  · cases h
  · rename_i c u hc
    refine ⟨v, t', u, c, hv, hc, ?_⟩
    split_ifs at h with h1 h2
    · rw [Option.map_eq_some_iff] at h
      obtain ⟨e, he, hpair⟩ := h
      cases hpair
      exact .inl ⟨h1, e.1, he⟩
    · cases h
      exact .inr ⟨h2, rfl⟩

theorem members_cases (h : members enc (fuel + 1) t = some (ms, rest)) :
    ∃ literal name t₁ t₂ v t₃ c u, skip t = '"' :: literal ∧ string enc literal = some (name, t₁) ∧
      skip t₁ = ':' :: t₂ ∧ value enc fuel t₂ = some (v, t₃) ∧ skip t₃ = c :: u ∧
      (c = ',' ∧ (∃ ms', members enc fuel u = some (ms', rest) ∧ ms = (name, v) :: ms') ∨
        c = '\x7d' ∧ rest = u ∧ ms = [(name, v)]) := by
  rw [members] at h
  split at h
  · cases h
  · rename_i q literal hq
    split_ifs at h with hquote
    rw [Option.bind_eq_some_iff] at h
    obtain ⟨⟨name, t₁⟩, hname, h⟩ := h
    split at h
    · cases h
    · rename_i colon t₂ hcolon
      split_ifs at h with hc
      rw [Option.bind_eq_some_iff] at h
      obtain ⟨⟨v, t₃⟩, hv, h⟩ := h
      split at h
      · cases h
      · rename_i c u hu
        rw [not_not] at hquote hc
        subst hquote hc
        refine ⟨literal, name, t₁, t₂, v, t₃, c, u, hq, hname, hcolon, hv, hu, ?_⟩
        split_ifs at h with h1 h2
        · rw [Option.map_eq_some_iff] at h
          obtain ⟨m, hm, hpair⟩ := h
          cases hpair
          exact .inl ⟨h1, m.1, hm, rfl⟩
        · cases h
          exact .inr ⟨h2, rfl, rfl⟩

theorem value_literal (fuel : ℕ) (t : List Char) :
    value enc (fuel + 1) ('"' :: t) = (string enc t).map (fun s => (.string s.1, s.2)) := by
  rw [value]
  rfl

theorem members_more {name u : List Char} (hname : Plain name) (hv : value enc fuel t = some (v, ',' :: u)) :
    members enc (fuel + 1) ('"' :: (name ++ '"' :: ':' :: t)) =
      (members enc fuel u).map (fun m => ((name, v) :: m.1, m.2)) := by
  rw [members]
  have hskip : skip ('"' :: (name ++ '"' :: ':' :: t)) = '"' :: (name ++ '"' :: ':' :: t) := rfl
  have hcolon : skip (':' :: t) = ':' :: t := rfl
  have hcomma : skip (',' :: u) = ',' :: u := rfl
  simp [hskip, string_of_plain hname, hcolon, hv, hcomma]

theorem members_last {name w u : List Char} (hname : Plain name) (hv : value enc fuel t = some (v, w))
    (hbrace : skip w = '\x7d' :: u) :
    members enc (fuel + 1) ('"' :: (name ++ '"' :: ':' :: t)) = some ([(name, v)], u) := by
  rw [members]
  have hskip : skip ('"' :: (name ++ '"' :: ':' :: t)) = '"' :: (name ++ '"' :: ':' :: t) := rfl
  have hcolon : skip (':' :: t) = ':' :: t := rfl
  simp [hskip, string_of_plain hname, hcolon, hv, hbrace]

end Inversion

section Frame

def pair (name content : List Char) : List Char :=
  '"' :: (name ++ '"' :: ':' :: '"' :: (content ++ ['"', '\x7d']))

/-- An object with two members, with a text as it is between the quotation marks of the
first one. -/
def frame (key name content inserted : List Char) : List Char :=
  '\x7b' :: '"' :: (key ++ '"' :: ':' :: '"' :: (inserted ++ '"' :: ',' :: pair name content))

/-- No token of the language goes on with such a text. -/
def Dead (t : List Char) : Prop := ∃ c u, t = c :: u ∧ c.isAlpha = true

inductive Rest (after inserted : List Char) : List Char → Prop
  | within {inserted' : List Char} (h : weight inserted' ≤ weight inserted) :
      Rest after inserted (inserted' ++ '"' :: after)
  | behind : Rest after inserted after
  | stuck {rest : List Char} (h : Dead rest) : Rest after inserted rest
  | ended : Rest after inserted []

variable {key name content after inserted inserted' literal rest s u : List Char} {c : Char} {fuel : ℕ} {v : Value}
  {ms : List (List Char × Value)} {es : List Value}

theorem Rest.mono (h : Rest after inserted' rest) (hw : weight inserted' ≤ weight inserted) :
    Rest after inserted rest := by
  cases h with
  | within h => exact .within (h.trans hw)
  | behind => exact .behind
  | stuck h => exact .stuck h
  | ended => exact .ended

theorem within_of_skips (h : Skips (inserted ++ '"' :: after) rest) :
    ∃ inserted', rest = inserted' ++ '"' :: after ∧ weight inserted' ≤ weight inserted := by
  obtain ⟨taken, heq, htaken⟩ := h
  rcases List.append_eq_append_iff.mp heq with ⟨t, rfl, ht⟩ | ⟨inserted', rfl, rfl⟩
  · cases t with
    | nil => exact ⟨[], ht.symm, Nat.zero_le _⟩
    | cons d t =>
      cases ht
      simp at htaken
  · exact ⟨inserted', rfl, by rw [weight_append]; omega⟩

theorem within_of_skip (h : skip (inserted ++ '"' :: after) = c :: u) (hc : c ≠ '"') :
    ∃ inserted', u = inserted' ++ '"' :: after ∧ weight inserted' ≤ weight inserted :=
  within_of_skips ((skips_skip _).trans (h ▸ skips_cons hc u))

theorem skip_of_dead (h : Dead rest) : skip rest = rest := by
  obtain ⟨c, u, rfl, hc⟩ := h
  refine List.dropWhile_cons_of_neg fun hs => ?_
  simp only [isSpace, Bool.or_eq_true, decide_eq_true_eq] at hs
  rcases hs with ((rfl | rfl) | rfl) | rfl <;> cases hc

theorem not_dead_of_skip (hskip : skip rest = c :: u) (halpha : c.isAlpha = false) : ¬ Dead rest := by
  intro h
  rw [skip_of_dead h] at hskip
  obtain ⟨d, u', hd, hdalpha⟩ := h
  rw [hskip] at hd
  cases hd
  rw [hdalpha] at halpha
  cases halpha

theorem Rest.next (h : Rest (',' :: pair name content) inserted rest) (hskip : skip rest = c :: u) (hc : c ≠ '"')
    (halpha : c.isAlpha = false) :
    (∃ inserted', u = inserted' ++ '"' :: ',' :: pair name content ∧ weight inserted' ≤ weight inserted) ∨
      c = ',' ∧ u = pair name content := by
  cases h with
  | @within inserted' h =>
    obtain ⟨inserted'', hu, hw⟩ := within_of_skip hskip hc
    exact .inl ⟨inserted'', hu, hw.trans h⟩
  | behind =>
    cases hskip
    exact .inr ⟨rfl, rfl⟩
  | stuck h => exact absurd h (not_dead_of_skip hskip halpha)
  | ended => cases hskip

theorem dead_of_next (hdead : Dead name) {t rest : List Char} {ps : List Part}
    (h : parts (',' :: '"' :: (name ++ t)) = some (ps, rest)) : Dead rest := by
  have hcomma : Plain [','] := rfl
  have hparts : parts (',' :: '"' :: (name ++ t)) = some ([.char ','], name ++ t) := parts_of_plain hcomma
  rw [hparts] at h
  cases h
  obtain ⟨c, u, rfl, hc⟩ := hdead
  exact ⟨c, _, rfl, hc⟩

theorem ends_of_literal (hdead : Dead name)
    (hskip : skip (inserted ++ '"' :: ',' :: pair name content) = '"' :: literal)
    (h : string enc literal = some (s, rest)) :
    (∃ inserted', rest = inserted' ++ '"' :: ',' :: pair name content ∧
      weight s + weight inserted' < weight inserted) ∨
    (rest = ',' :: pair name content ∧ weight s < weight inserted) ∨ Dead rest := by
  obtain ⟨inserted', heq, hw⟩ := within_of_skips (hskip ▸ skips_skip (inserted ++ '"' :: ',' :: pair name content))
  cases inserted' with
  | nil =>
    cases heq
    obtain ⟨ps, hps, -⟩ := parts_of_string h
    exact .inr (.inr (dead_of_next hdead hps))
  | cons c inserted' =>
    cases heq
    have hquote : 0 < weight ['"'] := by decide
    rw [weight_cons] at hw
    rcases ends_of_string h with ⟨inserted'', hrest, hless⟩ | ⟨hrest, hs⟩ | ⟨ps, hps⟩
    · exact .inl ⟨inserted'', hrest, by omega⟩
    · refine .inr (.inl ⟨hrest, ?_⟩)
      rcases hs with hs | ⟨-, rfl⟩
      · omega
      · omega
    · exact .inr (.inr (dead_of_next hdead hps))

/-- The strings of an object, the member behind the inserted text apart, are lighter than the
text. -/
def Lighter (name inserted : List Char) (ms : List (List Char × Value)) : Prop :=
  ∀ m ∈ ms, ∀ s, m.2 = .string s → weight s < weight inserted ∨ m.1 = name

theorem lighter_nil : Lighter name inserted [] := by
  rintro m ⟨⟩

theorem lighter_last (v : Value) : Lighter name inserted [(name, v)] := by
  intro m hm s _
  rw [List.mem_singleton] at hm
  exact .inr (hm ▸ rfl)

theorem Lighter.cons (h : Lighter name inserted ms) (hv : ∀ s, v = .string s → weight s < weight inserted) :
    Lighter name inserted ((key, v) :: ms) := by
  intro m hm s hs
  rcases List.mem_cons.mp hm with rfl | hm
  · exact .inl (hv s hs)
  · exact h m hm s hs

theorem Lighter.mono (h : Lighter name inserted' ms) (hw : weight inserted' ≤ weight inserted) :
    Lighter name inserted ms :=
  fun m hm s hs => (h m hm s hs).imp_left (fun hless => hless.trans_le hw)

/-- What the parser finds in the inserted text is lighter than the text. -/
structure Confined (enc : Encoding) (name content : List Char) (fuel : ℕ) : Prop where
  value : ∀ inserted v rest, value enc fuel (inserted ++ '"' :: ',' :: pair name content) = some (v, rest) →
    Rest (',' :: pair name content) inserted rest ∧ ∀ s, v = .string s → weight s < weight inserted ∨ Dead rest
  elements : ∀ inserted es rest, elements enc fuel (inserted ++ '"' :: ',' :: pair name content) = some (es, rest) →
    Rest (',' :: pair name content) inserted rest
  members : ∀ inserted ms rest, members enc fuel (inserted ++ '"' :: ',' :: pair name content) = some (ms, rest) →
    Rest (',' :: pair name content) inserted rest ∧ Lighter name inserted ms

theorem value_confined (hdead : Dead name) (ih : Confined enc name content fuel)
    (h : value enc (fuel + 1) (inserted ++ '"' :: ',' :: pair name content) = some (v, rest)) :
    Rest (',' :: pair name content) inserted rest ∧ ∀ s, v = .string s → weight s < weight inserted ∨ Dead rest := by
  rcases value_cases h with ⟨literal, s, hskip, hs, rfl⟩ | ⟨u, es, hskip, hu, rfl⟩ | ⟨u, ms, hskip, hu, rfl⟩ |
    ⟨hskips, hv⟩
  · rcases ends_of_literal hdead hskip hs with ⟨inserted', rfl, hw⟩ | ⟨rfl, hw⟩ | hrest
    · exact ⟨.within (by omega), by rintro s ⟨⟩; exact .inl (by omega)⟩
    · exact ⟨.behind, by rintro s ⟨⟩; exact .inl hw⟩
    · exact ⟨.stuck hrest, fun _ _ => .inr hrest⟩
  · obtain ⟨inserted', rfl, hw⟩ := within_of_skip hskip (by decide)
    refine ⟨?_, by rintro s ⟨⟩⟩
    rcases hu with hu | hu
    · obtain ⟨inserted'', rfl, hw'⟩ := within_of_skip hu (by decide)
      exact .within (hw'.trans hw)
    · exact (ih.elements _ _ _ hu).mono hw
  · obtain ⟨inserted', rfl, hw⟩ := within_of_skip hskip (by decide)
    refine ⟨?_, by rintro s ⟨⟩⟩
    rcases hu with ⟨hu, -⟩ | hu
    · obtain ⟨inserted'', rfl, hw'⟩ := within_of_skip hu (by decide)
      exact .within (hw'.trans hw)
    · exact (ih.members _ _ _ hu).1.mono hw
  · obtain ⟨inserted', rfl, hw⟩ := within_of_skips hskips
    exact ⟨.within hw, fun s hs => absurd hs (hv s)⟩

theorem elements_pair (hname : Plain name) : elements enc fuel (pair name content) ≠ some (es, rest) := by
  intro h
  cases fuel with
  | zero => cases h
  | succ fuel =>
    obtain ⟨v, t, u, c, hv, hskip, hc⟩ := elements_cases h
    cases fuel with
    | zero => cases hv
    | succ fuel =>
      rw [pair, value_literal, string_of_plain hname] at hv
      cases hv
      cases hskip
      rcases hc with ⟨hc, -⟩ | ⟨hc, -⟩ <;> cases hc

theorem elements_confined (hname : Plain name) (ih : Confined enc name content fuel)
    (h : elements enc (fuel + 1) (inserted ++ '"' :: ',' :: pair name content) = some (es, rest)) :
    Rest (',' :: pair name content) inserted rest := by
  obtain ⟨v, t, u, c, hv, hskip, hc⟩ := elements_cases h
  have hrest := (ih.value _ _ _ hv).1
  rcases hc with ⟨rfl, es', hes⟩ | ⟨rfl, rfl⟩
  · rcases hrest.next hskip (by decide) rfl with ⟨inserted', rfl, hw⟩ | ⟨-, rfl⟩
    · exact (ih.elements _ _ _ hes).mono hw
    · exact absurd hes (elements_pair hname)
  · rcases hrest.next hskip (by decide) rfl with ⟨inserted', rfl, hw⟩ | ⟨hc, -⟩
    · exact .within hw
    · cases hc

theorem members_pair (fuel : ℕ) (hname : Plain name) (hcontent : Plain content) :
    members enc (fuel + 2) (pair name content) = some ([(name, .string content)], []) := by
  have hvalue : value enc (fuel + 1) ('"' :: (content ++ ['"', '\x7d'])) = some (.string content, ['\x7d']) := by
    rw [value_literal, string_of_plain hcontent]
    rfl
  exact members_last hname hvalue rfl

theorem members_of_pair (hname : Plain name) (hcontent : Plain content)
    (h : members enc fuel (pair name content) = some (ms, rest)) : ms = [(name, .string content)] ∧ rest = [] := by
  rcases fuel with _ | _ | fuel
  · cases h
  · obtain ⟨_, _, _, _, _, _, _, _, _, _, _, hv, _⟩ := members_cases h
    cases hv
  · rw [members_pair fuel hname hcontent] at h
    cases h
    exact ⟨rfl, rfl⟩

theorem members_confined (hname : Plain name) (hcontent : Plain content) (hdead : Dead name)
    (ih : Confined enc name content fuel)
    (h : members enc (fuel + 1) (inserted ++ '"' :: ',' :: pair name content) = some (ms, rest)) :
    Rest (',' :: pair name content) inserted rest ∧ Lighter name inserted ms := by
  obtain ⟨literal, k, t₁, t₂, v, t₃, c, u, hskip, hk, hcolon, hv, hu, hc⟩ := members_cases h
  have hk' : Rest (',' :: pair name content) inserted t₁ := by
    rcases ends_of_literal hdead hskip hk with ⟨inserted', rfl, hw⟩ | ⟨rfl, -⟩ | hrest
    · exact .within (by omega)
    · exact .behind
    · exact .stuck hrest
  rcases hk'.next hcolon (by decide) rfl with ⟨inserted₁, rfl, hw₁⟩ | ⟨hcomma, -⟩
  swap
  · cases hcomma
  obtain ⟨hrest, hlight⟩ := ih.value _ _ _ hv
  have hfirst : ∀ s, v = .string s → c.isAlpha = false → weight s < weight inserted := by
    intro s hs halpha
    rcases hlight s hs with hless | hstuck
    · omega
    · exact absurd hstuck (not_dead_of_skip hu halpha)
  rcases hc with ⟨rfl, ms', hms, rfl⟩ | ⟨rfl, rfl, rfl⟩
  · rcases hrest.next hu (by decide) rfl with ⟨inserted₂, rfl, hw₂⟩ | ⟨-, rfl⟩
    · obtain ⟨hrest', hlight'⟩ := ih.members _ _ _ hms
      exact ⟨hrest'.mono (hw₂.trans hw₁), (hlight'.mono (hw₂.trans hw₁)).cons fun s hs => hfirst s hs rfl⟩
    · obtain ⟨rfl, rfl⟩ := members_of_pair hname hcontent hms
      exact ⟨.ended, (lighter_last _).cons fun s hs => hfirst s hs rfl⟩
  · rcases hrest.next hu (by decide) rfl with ⟨inserted₂, rfl, hw₂⟩ | ⟨hcomma, -⟩
    · exact ⟨.within (hw₂.trans hw₁), lighter_nil.cons fun s hs => hfirst s hs rfl⟩
    · cases hcomma

theorem confined (hname : Plain name) (hcontent : Plain content) (hdead : Dead name) (fuel : ℕ) :
    Confined enc name content fuel := by
  induction fuel with
  | zero => exact ⟨by rintro _ _ _ ⟨⟩, by rintro _ _ _ ⟨⟩, by rintro _ _ _ ⟨⟩⟩
  | succ fuel ih =>
    exact ⟨fun _ _ _ h => value_confined hdead ih h, fun _ _ _ h => elements_confined hname ih h,
      fun _ _ _ h => members_confined hname hcontent hdead ih h⟩

theorem value_object (fuel : ℕ) (t : List Char) :
    value enc (fuel + 1) ('\x7b' :: '"' :: t) = (members enc fuel ('"' :: t)).map (fun m => (.object m.1, m.2)) := by
  rw [value]
  rfl

theorem value_frame (fuel : ℕ) (hkey : Plain key) (hname : Plain name) (hcontent : Plain content)
    (hinserted : Plain inserted) : value enc (fuel + 4) (frame key name content inserted) =
      some (.object [(key, .string inserted), (name, .string content)], []) := by
  have hvalue : value enc (fuel + 2) ('"' :: (inserted ++ '"' :: ',' :: pair name content)) =
      some (.string inserted, ',' :: pair name content) := by
    rw [value_literal, string_of_plain hinserted]
    rfl
  rw [frame, value_object, members_more hkey hvalue, members_pair fuel hname hcontent]
  rfl

theorem members_of_literal (hkey : Plain key)
    (h : members enc fuel ('"' :: (key ++ '"' :: ':' :: '"' :: u)) = some (ms, rest)) :
    ∃ fuel' s t c t', string enc u = some (s, t) ∧ skip t = c :: t' ∧
      (c = ',' ∧ (∃ ms', members enc fuel' t' = some (ms', rest) ∧ ms = (key, .string s) :: ms') ∨
        c = '\x7d' ∧ ms = [(key, .string s)]) := by
  rcases fuel with _ | _ | fuel
  · cases h
  · obtain ⟨_, _, _, _, _, _, _, _, _, _, _, hv, _⟩ := members_cases h
    cases hv
  · obtain ⟨literal, k, t₁, t₂, v, t, c, t', hskip, hk, hcolon, hv, ht, hc⟩ := members_cases h
    cases hskip
    rw [string_of_plain hkey] at hk
    cases hk
    cases hcolon
    rw [value_literal, Option.map_eq_some_iff] at hv
    obtain ⟨⟨s, t⟩, hs, hpair⟩ := hv
    cases hpair
    exact ⟨_, s, t, c, t', hs, ht, hc.imp_right (fun hlast => ⟨hlast.1, hlast.2.2⟩)⟩

/-- A text that is inserted as it is comes back as it is, or everything that the parser finds
in the place of the text is lighter. -/
theorem value_of_frame (hkey : Plain key) (hname : Plain name) (hcontent : Plain content) (hdead : Dead name)
    (h : value enc fuel (frame key name content inserted) = some (v, rest)) :
    ∃ ms, v = .object ms ∧ (Plain inserted ∧ ms = [(key, .string inserted), (name, .string content)] ∨
      0 < weight inserted ∧ Lighter name inserted ms) := by
  cases fuel with
  | zero => cases h
  | succ fuel =>
    rw [frame, value_object, Option.map_eq_some_iff] at h
    obtain ⟨⟨ms, rest'⟩, hms, hpair⟩ := h
    cases hpair
    refine ⟨ms, rfl, ?_⟩
    obtain ⟨fuel', s, t, c, t', hs, ht, hc⟩ := members_of_literal hkey hms
    rcases ends_of_string hs with ⟨inserted', rfl, hw⟩ | ⟨rfl, hlight⟩ | ⟨ps, hps⟩
    · -- the text has a quotation mark that ends the literal
      have hless : ∀ s₁, Value.string s = .string s₁ → weight s₁ < weight inserted := by
        rintro s₁ ⟨⟩
        omega
      refine .inr ⟨by omega, ?_⟩
      rcases hc with ⟨rfl, ms', hms', rfl⟩ | ⟨rfl, rfl⟩
      · obtain ⟨inserted₁, rfl, hw₁⟩ := within_of_skip ht (by decide)
        have hlight := ((confined hname hcontent hdead _).members _ _ _ hms').2
        exact (hlight.mono (by omega)).cons hless
      · exact lighter_nil.cons hless
    · cases ht
      rcases hc with ⟨-, ms', hms', rfl⟩ | ⟨hc, -⟩
      · obtain ⟨rfl, rfl⟩ := members_of_pair hname hcontent hms'
        rcases hlight with hlight | ⟨hplain, rfl⟩
        · refine .inr ⟨by omega, (lighter_last _).cons ?_⟩
          rintro s₁ ⟨⟩
          exact hlight
        · exact .inl ⟨hplain, rfl⟩
      · cases hc
    · have hstuck := dead_of_next hdead hps
      rcases hc with ⟨rfl, -⟩ | ⟨rfl, -⟩
      · exact absurd hstuck (not_dead_of_skip ht rfl)
      · exact absurd hstuck (not_dead_of_skip ht rfl)

end Frame

end Asapo.JsonText
