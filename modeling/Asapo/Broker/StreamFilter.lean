import Asapo.Broker.Group

namespace Asapo.Broker.StreamFilter

/-- A string. Its length is a signed number of 64 bits. -/
abbrev GoString := { s : Text // s.length < 2 ^ 63 }

def encodeTwoStrings (first second : GoString) : Text :=
  decimal first.val.length ++ text "/" ++ first.val ++ second.val

/-- `strings.SplitN` into at most two parts. -/
def splitN (sep : Char) (s : Text) : List Text :=
  if sep ∈ s then [s.takeWhile (· ≠ sep), (s.dropWhile (· ≠ sep)).tail] else [s]

/-- There is no result where the program panics, since a slice ends behind the string or
in front of it. -/
def decodeTwoStrings (encoded : Text) : Option (Except Text (Text × Text)) :=
  match splitN '/' encoded with
  | [first, rest] =>
    match atoi first with
    | none => some (.error (text "wrong input: " ++ encoded))
    | some length =>
      if 0 ≤ length ∧ length ≤ rest.length then
        some (.ok (rest.take length.toNat, rest.drop length.toNat))
      else none
  | _ => some (.error (text "wrong input: " ++ encoded))

def streamFilterAll : Text := text "all"
def streamFilterFinished : Text := text "finished"
def streamFilterUnfinished : Text := text "unfinished"

def getFiltersFromString (filterString : Text) : Option (Except Text (Text × Text)) :=
  (decodeTwoStrings filterString).map (fun res =>
    match res with
    | .error _ => .error (text "wrong format: " ++ filterString)
    | .ok (firstStream, streamStatus) =>
      .ok (firstStream, if streamStatus = [] then streamFilterAll else streamStatus))

def checkStreamstreamStatus (streamStatus : Text) : Option Text :=
  if [streamFilterAll, streamFilterFinished, streamFilterUnfinished].contains streamStatus then none
  else some (text "getStreamsParamsFromRequest: wrong streamStatus " ++ streamStatus)

def getStreamsParamsFromRequest (extraParam : Text) : Option (Except Text (Text × Text)) :=
  if extraParam = [] then some (.ok ([], streamFilterAll))
  else
    (getFiltersFromString extraParam).map (fun res =>
      match res with
      | .error err => .error err
      | .ok (firstStream, streamStatus) =>
        match checkStreamstreamStatus streamStatus with
        | some err => .error err
        | none => .ok (firstStream, streamStatus))

abbrev Query := List (Text × GoString)

def Query.get (keys : Query) (key : Text) : GoString :=
  ((keys.find? (fun p => p.1 = key)).map Prod.snd).getD ⟨[], by decide⟩

def routeGetStreams (keys : Query) : Text := encodeTwoStrings (keys.get (text "from")) (keys.get (text "filter"))

def requestedStatus (keys : Query) : Text :=
  if (keys.get (text "filter")).val = [] then streamFilterAll else (keys.get (text "filter")).val

theorem splitN_append {sep : Char} {first : Text} (h : sep ∉ first) (rest : Text) :
    splitN sep (first ++ sep :: rest) = [first, rest] := by
  have hall : ∀ c ∈ first, decide (c ≠ sep) = true := by
    intro c hc
    exact decide_eq_true (fun heq => h (heq ▸ hc))
  rw [splitN, if_pos (by simp), List.takeWhile_append_of_pos hall, List.dropWhile_append_of_pos hall]
  simp

theorem isDigit_of_mem_decimal {n : ℕ} {c : Char} (hc : c ∈ decimal n) : c.isDigit = true := by
  rw [decimal, Nat.toList_repr] at hc
  exact Nat.isDigit_of_mem_toDigits (by decide) (by decide) hc

theorem foldl_digits {digits : Text} (h : ∀ c ∈ digits, c.isDigit = true) (n : ℕ) :
    digits.foldl (fun n c => 10 * n + ((c.toNat : ℤ) - '0'.toNat)) (n : ℤ) = Nat.ofDigitChars 10 digits n := by
  induction digits generalizing n with
  | nil => rfl
  | cons c digits ih =>
    have hc : '0'.toNat ≤ c.toNat := by
      have hdigit := h c List.mem_cons_self
      rw [Char.isDigit, Bool.and_eq_true, decide_eq_true_eq] at hdigit
      exact hdigit.1
    rw [List.foldl_cons, Nat.ofDigitChars_cons, ← ih (fun d hd => h d (List.mem_cons_of_mem _ hd))]
    congr 1
    omega

theorem atoi_decimal {n : ℕ} (hn : n < 2 ^ 63) : atoi (decimal n) = some (n : ℤ) := by
  have hall : ∀ c ∈ decimal n, c.isDigit = true := fun c hc => isDigit_of_mem_decimal hc
  have hvalue : (decimal n).foldl (fun n c => 10 * n + ((c.toNat : ℤ) - '0'.toNat)) 0 = n := by
    rw [show (0 : ℤ) = ((0 : ℕ) : ℤ) from rfl, foldl_digits hall 0, decimal, Nat.toList_repr,
      Nat.ofDigitChars_toDigits (by decide) (by decide)]
  have hsign : ∀ c, c.isDigit = false → (decimal n).head? ≠ some c := by
    intro c hc hhead
    have hdigit := hall c (List.mem_of_mem_head? hhead)
    rw [hc] at hdigit
    cases hdigit
  have hne : decimal n ≠ [] := by
    rw [decimal, Nat.toList_repr]
    exact Nat.toDigits_ne_nil
  have hminus := hsign '-' (by decide)
  have hplus := hsign '+' (by decide)
  rw [atoi]
  simp only [hminus, hplus, or_self, if_false, hvalue]
  rw [if_pos ⟨hne, List.all_eq_true.mpr hall, by omega, by omega⟩]

theorem decodeTwoStrings_encodeTwoStrings (first second : GoString) :
    decodeTwoStrings (encodeTwoStrings first second) = some (.ok (first.val, second.val)) := by
  have hslash : '/' ∉ decimal first.val.length := by
    intro h
    have hdigit := isDigit_of_mem_decimal h
    revert hdigit
    decide
  have hencoded : encodeTwoStrings first second =
      decimal first.val.length ++ '/' :: (first.val ++ second.val) := by
    simp [encodeTwoStrings, text]
  rw [decodeTwoStrings, hencoded, splitN_append hslash]
  dsimp only
  rw [atoi_decimal first.property]
  dsimp only
  rw [if_pos (by simp), Int.toNat_natCast, List.take_left, List.drop_left]

theorem encodeTwoStrings_ne_nil (first second : GoString) : encodeTwoStrings first second ≠ [] := by
  simp [encodeTwoStrings, text]

/-- What is encoded is decoded, so that no two pairs have the same encoding, and the request
for the streams sees the parameters of the URL and refuses only a filter that there is not. -/
theorem filter_survives_transport :
    (∀ a b : GoString, decodeTwoStrings (encodeTwoStrings a b) = some (.ok (a.val, b.val))) ∧
    Function.Injective (fun p : GoString × GoString => encodeTwoStrings p.1 p.2) ∧
    ∀ keys : Query, getStreamsParamsFromRequest (routeGetStreams keys) = some (
      if requestedStatus keys = streamFilterAll ∨ requestedStatus keys = streamFilterFinished ∨
          requestedStatus keys = streamFilterUnfinished then
        .ok ((keys.get (text "from")).val, requestedStatus keys)
      else .error (text "getStreamsParamsFromRequest: wrong streamStatus " ++ requestedStatus keys)) := by
  refine ⟨decodeTwoStrings_encodeTwoStrings, ?_, ?_⟩
  · rintro ⟨a, b⟩ ⟨a', b'⟩ h
    have hdecoded := congrArg decodeTwoStrings h
    simp only [decodeTwoStrings_encodeTwoStrings, Option.some.injEq, Except.ok.injEq, Prod.mk.injEq] at hdecoded
    exact Prod.ext (Subtype.ext hdecoded.1) (Subtype.ext hdecoded.2)
  · intro keys
    rw [getStreamsParamsFromRequest, routeGetStreams, if_neg (encodeTwoStrings_ne_nil _ _), getFiltersFromString,
      decodeTwoStrings_encodeTwoStrings, Option.map_some, Option.map_some]
    dsimp only
    rw [← requestedStatus, checkStreamstreamStatus]
    by_cases hallowed : requestedStatus keys = streamFilterAll ∨ requestedStatus keys = streamFilterFinished ∨
        requestedStatus keys = streamFilterUnfinished
    · rw [if_pos hallowed, if_pos (by simpa using hallowed)]
    · rw [if_neg hallowed, if_neg (by simpa using hallowed)]

end Asapo.Broker.StreamFilter
