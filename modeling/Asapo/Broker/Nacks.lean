import Asapo.Broker.Group

namespace Asapo.Broker.Nacks

/-- The ids in the collection of acknowledgements, which can be any integers. The database
has one document for each. -/
structure Acks where
  ids : List ℤ
  nodup : ids.Nodup

/-- `$setDifference`: the elements of the first array that are not in the second one, each
of them once, in any order. -/
structure SetDifference where
  apply : List ℤ → List ℤ → List ℤ
  nodup : ∀ a b, (apply a b).Nodup
  mem : ∀ a b i, i ∈ apply a b ↔ i ∈ a ∧ i ∉ b

/-- The database and the machine of the broker. `make` panics for a slice of more than
`maxLen` elements. -/
structure Host extends SetDifference where
  maxLen : ℤ

def makeRange (maxLen min max : ℤ) : Option (List ℤ) :=
  let length := int64 (max - min + 1)
  if 0 ≤ length ∧ length ≤ maxLen then
    some ((List.range length.toNat).map (fun i : ℕ => min + (i : ℤ)))
  else none

def range (start stop : ℤ) : List ℤ := (List.range (stop - start).toNat).map (fun i : ℕ => start + (i : ℤ))

def getMaxLimitWithoutEndOfStream (g : Group) (r : NextRequest) : ℤ :=
  let maxInd := g.getMaxIndex
  match g.getRecordByIDRaw r maxInd maxInd with
  | .error _ => if maxInd > 0 then maxInd - 1 else maxInd
  | .ok _ => maxInd

def getNacksLimits (g : Group) (r : NextRequest) : Option (ℤ × ℤ) :=
  (extractsTwoIntsFromString r.extraParam).map (fun (first, last) =>
    (if first = 0 then 1 else first, if last = 0 then getMaxLimitWithoutEndOfStream g r else last))

def canAvoidDbRequest (maxLen minIndex maxIndex : ℤ) (acks : Acks) : Option (Except DBError (List ℤ)) :=
  if minIndex > maxIndex then some (.error .other)
  else if acks.ids.length = 0 then
    some (match makeRange maxLen minIndex maxIndex with
      | some ids => .ok ids
      | none => .error .panic)
  else if minIndex = 1 ∧ (acks.ids.length : ℤ) = maxIndex then some (.ok [])
  else none

/-- The documents of the pipeline of `getNacksQuery`. There is no group without documents. -/
def aggregate (sd : SetDifference) (minIndex maxIndex : ℤ) (acks : Acks) : List (List ℤ) :=
  let numbers := acks.ids.filter (fun i => i < int64 (maxIndex + 1) ∧ i > int64 (minIndex - 1))
  if numbers = [] then [] else [sd.apply (range minIndex (int64 (maxIndex + 1))) numbers]

def extractNacsFromCursor : List (List ℤ) → List ℤ
  | [numbers] => numbers
  | _ => []

def getNacks (host : Host) (minIndex maxIndex : ℤ) (acks : Acks) : Except DBError (List ℤ) :=
  match canAvoidDbRequest host.maxLen minIndex maxIndex acks with
  | some answer => answer
  | none => .ok (extractNacsFromCursor (aggregate host.toSetDifference minIndex maxIndex acks))

def nacks (host : Host) (g : Group) (acks : Acks) (r : NextRequest) : Except DBError (List ℤ) :=
  match getNacksLimits g r with
  | none => .error .other
  | some (first, last) => if last = 0 then .ok [] else getNacks host first last acks

def Record.IsMarker (record : Record) : Prop := record.readable = true ∧ record.name = Group.finishStreamKeyword

instance (record : Record) : Decidable (Record.IsMarker record) := inferInstanceAs (Decidable (_ ∧ _))

def lastRecord (g : Group) : Option Record :=
  (g.data.find? (fun x => x.1 = g.getMaxIndex)).map (fun x => x.2)

/-- The largest id of a stream, not counting a finish marker at its end. -/
def lastMessage (g : Group) : ℕ :=
  match lastRecord g with
  | none => 0
  | some record =>
    if Record.IsMarker record then
      { g with data := g.data.filter (fun x => x.1 ≠ g.getMaxIndex) }.getMaxIndex
    else g.getMaxIndex

/-- The id in front of a last record that is the finish marker, an incomplete dataset or not
to be encoded. -/
def streamEnd (g : Group) (r : NextRequest) : ℕ :=
  match lastRecord g with
  | none => 0
  | some record =>
    if Record.IsMarker record ∨ record.encodable = false ∨ Group.recordContainsPartialData r record = true then
      g.getMaxIndex - 1
    else g.getMaxIndex

/-- What an answer has to be for the ids from `f` to `t`. -/
def Exact (f t : ℤ) (acks : Acks) (answer : Except DBError (List ℤ)) : Prop :=
  if t = 0 then answer = .ok []
  else if t < f then ∃ err, answer = .error err ∧ err ≠ .panic
  else ∃ ids, answer = .ok ids ∧ ids.Nodup ∧ ∀ i, i ∈ ids ↔ f ≤ i ∧ i ≤ t ∧ i ∉ acks.ids

def AllAcknowledged (f t : ℤ) (acks : Acks) : Prop := ∀ i, f ≤ i → i ≤ t → i ∈ acks.ids

/-- The database is asked for the ids and finds an acknowledged one: their number is not
taken for a complete range, and the end of the range does not overflow. -/
def Asked (f t : ℤ) (acks : Acks) : Prop :=
  ¬ (f = 1 ∧ (acks.ids.length : ℤ) = t) ∧ t ≠ 2 ^ 63 - 1 ∧ ∃ i ∈ acks.ids, f ≤ i ∧ i ≤ t

/-- The answer for the ids up to `t'` is also the one for the ids up to `t`. Without
acknowledgements all ids up to `t'` are put into a slice. -/
def Agree (maxLen f t t' : ℤ) (acks : Acks) : Prop :=
  if t' = 0 then t = 0 ∨ f ≤ t ∧ AllAcknowledged f t acks
  else if t' < f then t ≠ 0 ∧ t < f
  else (acks.ids = [] → t' - f + 1 ≤ maxLen) ∧ (t = 0 ∨ f ≤ t) ∧
    ((acks.ids = [] ∨ Asked f t' acks) ∧
        (∀ i, f ≤ i → t < i ∧ i ≤ t' ∨ t' < i ∧ i ≤ t → i ∈ acks.ids) ∨
      ¬ (acks.ids = [] ∨ Asked f t' acks) ∧ AllAcknowledged f t acks)

theorem mem_range {start stop i : ℤ} : i ∈ range start stop ↔ start ≤ i ∧ i < stop := by
  rw [range, List.mem_map]
  constructor
  · rintro ⟨k, hk, rfl⟩
    rw [List.mem_range] at hk
    omega
  · rintro ⟨hstart, hstop⟩
    exact ⟨(i - start).toNat, List.mem_range.mpr (by omega), by omega⟩

theorem nodup_range (start stop : ℤ) : (range start stop).Nodup := by
  refine List.Nodup.map (fun a b h => ?_) List.nodup_range
  have hsum : start + (a : ℤ) = start + b := h
  omega

variable {host : Host} {f t t' : ℤ} {acks : Acks} {g : Group} {r : NextRequest}

theorem int64_of_lt {x : ℤ} (h₀ : 0 ≤ x) (h : x < 2 ^ 63) : int64 x = x := by
  unfold int64
  omega

theorem makeRange_eq {maxLen : ℤ} (hf : 1 ≤ f) (hle : f ≤ t) (ht : t < 2 ^ 63) :
    makeRange maxLen f t = if t - f + 1 ≤ maxLen then some (range f (t + 1)) else none := by
  have hlength : int64 (t - f + 1) = t + 1 - f := by
    rw [int64_of_lt (by omega) (by omega)]
    omega
  unfold makeRange range
  simp only [hlength]
  by_cases hroom : t - f + 1 ≤ maxLen
  · rw [if_pos ⟨by omega, by omega⟩, if_pos hroom]
  · rw [if_neg (by omega), if_neg hroom]

theorem mem_numbers {i : ℤ} (hf : 1 ≤ f) (hle : f ≤ t) (ht : t < 2 ^ 63) :
    i ∈ acks.ids.filter (fun i => i < int64 (t + 1) ∧ i > int64 (f - 1)) ↔
      t ≠ 2 ^ 63 - 1 ∧ i ∈ acks.ids ∧ f ≤ i ∧ i ≤ t := by
  have hfirst : int64 (f - 1) = f - 1 := int64_of_lt (by omega) (by omega)
  rw [List.mem_filter, decide_eq_true_eq, hfirst]
  by_cases hmax : t = 2 ^ 63 - 1
  · -- the end of the range becomes the smallest integer
    have hwrap : int64 (t + 1) = -(2 ^ 63) := by
      subst hmax
      decide
    rw [hwrap]
    exact ⟨fun ⟨_, h₁, h₂⟩ => by omega, fun h => absurd hmax h.1⟩
  · rw [int64_of_lt (by omega) (by omega)]
    constructor
    · rintro ⟨hi, h₁, h₂⟩
      exact ⟨hmax, hi, by omega, by omega⟩
    · rintro ⟨-, hi, h₁, h₂⟩
      exact ⟨hi, by omega, by omega⟩

theorem getNacks_ok (host : Host) (acks : Acks) (hf : 1 ≤ f) (hle : f ≤ t) (ht : t < 2 ^ 63)
    (hroom : acks.ids = [] → t - f + 1 ≤ host.maxLen) :
    ∃ ids, getNacks host f t acks = .ok ids ∧ ids.Nodup ∧
      ∀ i, i ∈ ids ↔ (acks.ids = [] ∨ Asked f t acks) ∧ f ≤ i ∧ i ≤ t ∧ i ∉ acks.ids := by
  unfold getNacks canAvoidDbRequest
  rw [if_neg (by omega)]
  by_cases hempty : acks.ids = []
  · rw [if_pos (List.length_eq_zero_iff.mpr hempty), makeRange_eq hf hle ht, if_pos (hroom hempty)]
    refine ⟨_, rfl, nodup_range _ _, fun i => ?_⟩
    simp [hempty, mem_range]
  · rw [if_neg (fun hz => hempty (List.length_eq_zero_iff.mp hz))]
    by_cases hshort : f = 1 ∧ (acks.ids.length : ℤ) = t
    · rw [if_pos hshort]
      refine ⟨[], rfl, List.nodup_nil, fun i => ?_⟩
      simp [Asked, hshort, hempty]
    · rw [if_neg hshort]
      unfold aggregate
      extract_lets numbers
      by_cases hnumbers : numbers = []
      · rw [if_pos hnumbers]
        refine ⟨[], rfl, List.nodup_nil, fun i => ?_⟩
        have hnot : ¬ Asked f t acks := by
          rintro ⟨-, hmax, j, hj, hjf, hjt⟩
          have hin : j ∈ numbers := (mem_numbers hf hle ht).mpr ⟨hmax, hj, hjf, hjt⟩
          rw [hnumbers] at hin
          cases hin
        simp [hempty, hnot]
      · rw [if_neg hnumbers]
        obtain ⟨j, hj⟩ := List.exists_mem_of_ne_nil _ hnumbers
        obtain ⟨hmax, hj, hjf, hjt⟩ := (mem_numbers hf hle ht).mp hj
        have hasked : Asked f t acks := ⟨hshort, hmax, j, hj, hjf, hjt⟩
        refine ⟨_, rfl, host.nodup _ _, fun i => ?_⟩
        rw [extractNacsFromCursor, host.mem, mem_range, int64_of_lt (by omega) (by omega),
          mem_numbers hf hle ht]
        constructor
        · rintro ⟨⟨h₁, h₂⟩, hnot⟩
          exact ⟨.inr hasked, h₁, by omega, fun hi => hnot ⟨hmax, hi, h₁, by omega⟩⟩
        · rintro ⟨-, h₁, h₂, hnot⟩
          exact ⟨⟨h₁, by omega⟩, fun hi => hnot hi.2.1⟩

theorem getNacks_error (h : t < f) : getNacks host f t acks = .error .other := by
  unfold getNacks canAvoidDbRequest
  rw [if_pos h]

theorem getNacks_panic (hf : 1 ≤ f) (hle : f ≤ t) (ht : t < 2 ^ 63) (hempty : acks.ids = [])
    (hroom : ¬ t - f + 1 ≤ host.maxLen) : getNacks host f t acks = .error .panic := by
  unfold getNacks canAvoidDbRequest
  rw [if_neg (by omega), if_pos (List.length_eq_zero_iff.mpr hempty), makeRange_eq hf hle ht, if_neg hroom]

theorem exact_error_iff {err : DBError} : Exact f t acks (.error err) ↔ (t ≠ 0 ∧ t < f) ∧ err ≠ .panic := by
  unfold Exact
  split
  · rename_i hz
    simp [hz]
  · rename_i hz
    split <;> simp_all

theorem exact_ok_iff {ids : List ℤ} (hf : 1 ≤ f) (hnodup : ids.Nodup) :
    Exact f t acks (.ok ids) ↔ (t = 0 ∨ f ≤ t) ∧ ∀ i, i ∈ ids ↔ f ≤ i ∧ i ≤ t ∧ i ∉ acks.ids := by
  unfold Exact
  split
  · rename_i hz
    -- nothing is in a range that ends at 0
    have hnone : ∀ i, ¬ (f ≤ i ∧ i ≤ 0 ∧ i ∉ acks.ids) := fun i hi => by omega
    simp only [Except.ok.injEq, hz, true_or, true_and, hnone, iff_false]
    exact List.eq_nil_iff_forall_not_mem
  · rename_i hz
    split
    · rename_i hlt
      simp only [reduceCtorEq, false_and, exists_false, false_iff]
      omega
    · rename_i hle
      simp [hnodup, Int.not_lt.mp hle]

theorem same_ids_iff {P : Prop} {ids : List ℤ}
    (hmem : ∀ i, i ∈ ids ↔ P ∧ f ≤ i ∧ i ≤ t' ∧ i ∉ acks.ids) :
    (∀ i, i ∈ ids ↔ f ≤ i ∧ i ≤ t ∧ i ∉ acks.ids) ↔
      P ∧ (∀ i, f ≤ i → t < i ∧ i ≤ t' ∨ t' < i ∧ i ≤ t → i ∈ acks.ids) ∨
        ¬ P ∧ AllAcknowledged f t acks := by
  simp only [hmem]
  by_cases hP : P
  · simp only [hP, true_and, not_true_eq_false, false_and, or_false]
    constructor
    · intro h i hfi hbetween
      by_contra hi
      have hiff := h i
      simp only [hfi, hi, not_false_eq_true, and_true, true_and] at hiff
      omega
    · intro h i
      by_cases hi : i ∈ acks.ids
      · simp [hi]
      · by_cases hfi : f ≤ i
        · have hout : ¬ (t < i ∧ i ≤ t' ∨ t' < i ∧ i ≤ t) := fun hb => hi (h i hfi hb)
          simp only [hfi, hi, not_false_eq_true, and_true, true_and]
          omega
        · simp [hfi]
  · simp [hP, AllAcknowledged]

theorem exact_iff_agree (hf : 1 ≤ f) (hlt : t' < 2 ^ 63) :
    Exact f t acks (if t' = 0 then .ok [] else getNacks host f t' acks) ↔
      Agree host.maxLen f t t' acks := by
  unfold Agree
  by_cases hz' : t' = 0
  · rw [if_pos hz', if_pos hz', exact_ok_iff hf List.nodup_nil]
    simp only [List.not_mem_nil, false_iff, not_and, not_not, AllAcknowledged]
    constructor
    · rintro ⟨hz | hle, hall⟩
      · exact .inl hz
      · exact .inr ⟨hle, hall⟩
    · rintro (hz | ⟨hle, hall⟩)
      · exact ⟨.inl hz, fun i hfi hi => by omega⟩
      · exact ⟨.inr hle, hall⟩
  · rw [if_neg hz', if_neg hz']
    by_cases hlt' : t' < f
    · rw [if_pos hlt', getNacks_error hlt', exact_error_iff]
      exact and_iff_left (by decide)
    · rw [if_neg hlt']
      by_cases hroom : acks.ids = [] → t' - f + 1 ≤ host.maxLen
      · obtain ⟨ids, hids, hnodup, hmem⟩ := getNacks_ok host acks hf (Int.not_lt.mp hlt') hlt hroom
        rw [hids, exact_ok_iff hf hnodup, ← same_ids_iff hmem, and_iff_right hroom]
      · have hpanic := Classical.not_imp.mp hroom
        rw [getNacks_panic hf (Int.not_lt.mp hlt') hlt hpanic.1 hpanic.2, exact_error_iff]
        exact iff_of_false (fun h => h.2 rfl) (fun h => hroom h.1)

theorem exists_mem_getMaxIndex (h : g.data ≠ []) : ∃ x ∈ g.data, x.1 = g.getMaxIndex := by
  obtain ⟨data, pointer, inprocess, acks, lastRead⟩ := g
  simp only [Group.getMaxIndex] at h ⊢
  induction data with
  | nil => exact absurd rfl h
  | cons x data ih =>
    by_cases hdata : data = []
    · exact ⟨x, by simp, by simp [hdata]⟩
    · obtain ⟨y, hy, hmax⟩ := ih hdata
      rw [List.foldr_cons]
      obtain hle | hle := Nat.le_total x.1 (data.foldr (fun record m => max record.1 m) 0)
      · exact ⟨y, List.mem_cons_of_mem _ hy, by rw [hmax, Nat.max_eq_right hle]⟩
      · exact ⟨x, List.mem_cons_self, by rw [Nat.max_eq_left hle]⟩

theorem getMaxLimitWithoutEndOfStream_eq (g : Group) (r : NextRequest) :
    getMaxLimitWithoutEndOfStream g r = streamEnd g r := by
  unfold getMaxLimitWithoutEndOfStream streamEnd lastRecord Group.getRecordByIDRaw Group.getRecordFromDb
  extract_lets maxInd
  cases hf : g.data.find? (fun x => decide (x.1 = g.getMaxIndex)) with
  | none =>
    have hempty : g.data = [] := by
      by_contra hne
      obtain ⟨x, hx, hmax⟩ := exists_mem_getMaxIndex hne
      simpa [hmax] using List.find?_eq_none.mp hf x hx
    have hz : maxInd = 0 := by simp [maxInd, Group.getMaxIndex, hempty]
    simp [maxInd, hz]
  | some x =>
    obtain ⟨id, record⟩ := x
    simp only [maxInd, Group.checkStreamFinished, ne_eq, not_true_eq_false, if_false, Option.map_some,
      Record.IsMarker]
    by_cases hmarker : record.readable = true ∧ record.name = Group.finishStreamKeyword
    · simp only [hmarker, and_self, if_true, true_or]
      split <;> omega
    · simp only [hmarker, if_false, false_or]
      cases hencodable : record.encodable with
      | false =>
        simp only [Bool.not_false, if_true, true_or]
        split <;> omega
      | true =>
        by_cases hincomplete : Group.recordContainsPartialData r record = true
        · simp only [hincomplete, Bool.not_true, Bool.false_eq_true, if_false, if_true, or_true]
          split <;> omega
        · simp [hincomplete]

theorem atoi_lt {s : Text} {x : ℤ} (h : atoi s = some x) : x < 2 ^ 63 := by
  unfold atoi at h
  extract_lets digits value signed at h
  by_cases hbounds : digits ≠ [] ∧ digits.all Char.isDigit ∧ -(2 ^ 63) ≤ signed ∧ signed < 2 ^ 63
  · rw [if_pos hbounds] at h
    rw [← Option.some.inj h]
    exact hbounds.2.2.2
  · rw [if_neg hbounds] at h
    cases h

theorem second_lt {s : Text} {first last : ℤ} (h : extractsTwoIntsFromString s = some (first, last)) :
    last < 2 ^ 63 := by
  unfold extractsTwoIntsFromString at h
  split at h
  · obtain ⟨x, -, h⟩ := Option.bind_eq_some_iff.mp h
    obtain ⟨y, hy, h⟩ := Option.map_eq_some_iff.mp h
    cases h
    exact atoi_lt hy
  · cases h

theorem getMaxIndex_lt {n : ℕ} (hn : 0 < n) (h : ∀ x ∈ g.data, x.1 < n) : g.getMaxIndex < n := by
  by_cases hdata : g.data = []
  · simpa [Group.getMaxIndex, hdata] using hn
  · obtain ⟨x, hx, hmax⟩ := exists_mem_getMaxIndex hdata
    rw [← hmax]
    exact h x hx

theorem streamEnd_le (g : Group) (r : NextRequest) : streamEnd g r ≤ g.getMaxIndex := by
  unfold streamEnd
  split
  · exact Nat.zero_le _
  · split
    · exact Nat.sub_le _ _
    · exact Nat.le_refl _

/-- With the same end on both sides the answer is right unless the acknowledgements are
counted for a complete range, none of them is found, or there is no room for the range. -/
theorem agree_self {maxLen : ℤ} (h₀ : t ≠ 0) (hle : f ≤ t) :
    Agree maxLen f t t acks ↔ (acks.ids = [] → t - f + 1 ≤ maxLen) ∧
      (acks.ids = [] ∨ Asked f t acks ∨ AllAcknowledged f t acks) := by
  unfold Agree
  rw [if_neg h₀, if_neg (Int.not_lt.mpr hle)]
  have hbetween : ∀ i, f ≤ i → t < i ∧ i ≤ t ∨ t < i ∧ i ≤ t → i ∈ acks.ids :=
    fun i _ hi => by omega
  have hend : t = 0 ∨ f ≤ t := .inr hle
  simp only [hend, true_and]
  tauto

/-- The list of the ids that are not acknowledged is exact, precisely when the answer for
the end that the code takes is also the one for the end of the stream. -/
theorem nacks_exact_iff (host : Host) (g : Group) (acks : Acks) (r : NextRequest) (first last : ℤ)
    (hparam : extractsTwoIntsFromString r.extraParam = some (first, last)) (hfirst : 0 ≤ first)
    (hids : ∀ x ∈ g.data, x.1 < 2 ^ 63) :
    Exact (if first = 0 then 1 else first) (if last = 0 then lastMessage g else last) acks
        (nacks host g acks r) ↔
      Agree host.maxLen (if first = 0 then 1 else first) (if last = 0 then lastMessage g else last)
        (if last = 0 then streamEnd g r else last) acks := by
  have hf : (1 : ℤ) ≤ if first = 0 then 1 else first := by
    split <;> omega
  have hlt : (if last = 0 then (streamEnd g r : ℤ) else last) < 2 ^ 63 := by
    split
    · have hmax := getMaxIndex_lt (by decide) hids
      have hend := streamEnd_le g r
      omega
    · exact second_lt hparam
  have hnacks : nacks host g acks r =
      if (if last = 0 then (streamEnd g r : ℤ) else last) = 0 then .ok []
      else getNacks host (if first = 0 then 1 else first)
        (if last = 0 then (streamEnd g r : ℤ) else last) acks := by
    unfold nacks getNacksLimits
    rw [hparam, getMaxLimitWithoutEndOfStream_eq]
    rfl
  rw [hnacks]
  exact exact_iff_agree hf hlt

def largeHost : Host where
  maxLen := 2 ^ 45
  apply a b := (a.filter (fun i => i ∉ b)).dedup
  nodup _ _ := List.nodup_dedup _
  mem a b i := by simp

def message : Record :=
  { reading := .message, name := text "message", nextStream := none, messages := none, size := none }

def stream (ids : List ℕ) : Group :=
  { data := ids.map (fun id => (id, message)), pointer := none, inprocess := [], acks := [], lastRead := 0 }

def request (extraParam : String) : NextRequest :=
  { datasetOp := false, minDatasetSize := 0, extraParam := text extraParam }

theorem nacks_exact_in_range :
    Exact 1 3 ⟨[2, 7], by decide⟩
      (nacks largeHost (stream [1, 2, 3]) ⟨[2, 7], by decide⟩ (request "0_0")) := by
  have hiff := nacks_exact_iff largeHost (stream [1, 2, 3]) ⟨[2, 7], by decide⟩ (request "0_0") 0 0
    (by decide) (by decide) (by decide)
  have hasked : Asked 1 3 ⟨[2, 7], by decide⟩ := ⟨by decide, by decide, 2, by decide, by decide, by decide⟩
  exact hiff.mpr ((agree_self (by decide) (by decide)).mpr ⟨by decide, .inr (.inl hasked)⟩)

/-- One acknowledgement of a message that is not in the stream makes the only message of it
count as acknowledged. -/
theorem nacks_not_exact :
    ¬ ∀ (host : Host) (g : Group) (acks : Acks) (r : NextRequest) (first last : ℤ),
      extractsTwoIntsFromString r.extraParam = some (first, last) → 0 ≤ first → 0 ≤ last →
      (∀ x ∈ g.data, 0 < x.1 ∧ x.1 < 2 ^ 63) →
      Exact (if first = 0 then 1 else first) (if last = 0 then lastMessage g else last) acks
        (nacks host g acks r) := by
  intro h
  obtain ⟨ids, hids, -, hmem⟩ := h largeHost (stream [1]) ⟨[5], by decide⟩ (request "1_1") 1 1
    (by decide) (by decide) (by decide) (by decide)
  have hempty : nacks largeHost (stream [1]) ⟨[5], by decide⟩ (request "1_1") = .ok [] := by decide
  cases hempty.symm.trans hids
  cases (hmem 1).mpr (by decide)

end Asapo.Broker.Nacks
