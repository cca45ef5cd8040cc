import Asapo.Broker.StreamCache

namespace Asapo.Broker.StreamSearch

open StreamList

variable {currentStreams : List StreamInfo} {record : StreamInfo}

/-- The search reports a position, and the stream with that name stands there. -/
def FoundAt (currentStreams : List StreamInfo) (record : StreamInfo) : Prop :=
  ∃ ind : ℕ, findStreamAmongCurrent currentStreams record = ((ind : ℤ), true) ∧
    (currentStreams[ind]?).map (fun info => info.name) = some record.name

structure Cached extends Streams where
  distinct : ((records.getD []).map (fun info => info.name)).Nodup

def Cached.names (ss : Cached) : List Text := (ss.records.getD []).map (fun info => info.name)

/-! The search. -/

/-- A position at which a predicate changes from false to true, or an end of the range. -/
structure Crossing (f : ℕ → Bool) (n r : ℕ) : Prop where
  le : r ≤ n
  before : ∀ k, r = k + 1 → f k = false
  here : r < n → f r = true

theorem crossing_searchLoop {f : ℕ → Bool} {n : ℕ} (rounds i j : ℕ) (hij : i ≤ j) (hrounds : j - i ≤ rounds)
    (hjn : j ≤ n) (hi : ∀ k, i = k + 1 → f k = false) (hj : j < n → f j = true) :
    Crossing f n (searchLoop f rounds i j) ∧ i ≤ searchLoop f rounds i j := by
  induction rounds generalizing i j with
  | zero =>
    obtain rfl : i = j := by omega
    exact ⟨⟨hjn, hi, hj⟩, le_rfl⟩
  | succ rounds ih =>
    rw [searchLoop]
    by_cases hlt : i < j
    · rw [if_pos hlt]
      dsimp only
      cases hf : f ((i + j) / 2) with
      | false =>
        have hupper := ih ((i + j) / 2 + 1) j (by omega) (by omega) hjn
          (fun k hk => by rwa [← Nat.succ_injective hk]) hj
        exact ⟨hupper.1, by have := hupper.2; simp only [Bool.not_false, if_true]; omega⟩
      | true => exact ih i ((i + j) / 2) (by omega) (by omega) (by omega) hi (fun _ => hf)
    · rw [if_neg hlt]
      obtain rfl : i = j := by omega
      exact ⟨⟨hjn, hi, hj⟩, le_rfl⟩

theorem crossing_search (n : ℕ) (f : ℕ → Bool) : Crossing f n (search n f) :=
  (crossing_searchLoop n 0 n (Nat.zero_le n) (by omega) le_rfl (fun k hk => by omega) (fun h => by omega)).1

theorem half_lt_search {n : ℕ} {f : ℕ → Bool} (hn : 0 < n) (hf : f (n / 2) = false) : n / 2 < search n f := by
  obtain ⟨m, rfl⟩ := Nat.exists_eq_succ_of_ne_zero hn.ne'
  rw [search, searchLoop, if_pos hn, Nat.zero_add]
  simp only [hf, Bool.not_false, if_true]
  refine (crossing_searchLoop (n := m + 1) m _ _ (by omega) (by omega) le_rfl ?_ (fun h => by omega)).2
  intro k hk
  rwa [← Nat.succ_injective hk]

/-! The order of the names. -/

theorem atMost_iff (s t : Text) : atMost s t = true ↔ s ≤ t := by
  rw [← not_lt]
  induction s generalizing t with
  | nil => simp [atMost]
  | cons a s ih =>
    cases t with
    | nil => simp [atMost]
    | cons b t =>
      rw [atMost, List.cons_lt_cons_iff]
      by_cases h : a = b
      · simp [h, ih]
      · have hba : ¬ b = a := fun hba => h hba.symm
        have hlt : a.toNat < b.toNat ↔ a < b := Iff.rfl
        simp only [h, hba, if_false, false_and, or_false, decide_eq_true_eq, hlt, not_lt]
        exact ⟨le_of_lt, fun hle => lt_of_le_of_ne hle h⟩

theorem atMost_total (s t : Text) : atMost s t = true ∨ atMost t s = true := by
  simp only [atMost_iff]
  exact le_total s t

theorem descending_sortByName (infos : List StreamInfo) :
    (sortByName infos).Pairwise (fun a b => b.name ≤ a.name) := by
  have htotal : Std.Total (fun a b : StreamInfo => atMost b.name a.name = true) :=
    ⟨fun a b => atMost_total b.name a.name⟩
  have htrans : IsTrans StreamInfo (fun a b => atMost b.name a.name = true) := by
    refine ⟨fun a b c hab hbc => ?_⟩
    rw [atMost_iff] at hab hbc ⊢
    exact hbc.trans hab
  refine (List.pairwise_insertionSort _ infos).imp ?_
  intro a b hab
  exact (atMost_iff _ _).mp hab

theorem perm_sortByName (infos : List StreamInfo) : (sortByName infos).Perm infos :=
  List.perm_insertionSort _ infos

/-! What is found. -/

theorem reached_iff {i : ℕ} (hi : i < currentStreams.length) :
    reached currentStreams record i = true ↔ record.name ≤ currentStreams[i].name := by
  rw [reached, List.getElem?_eq_getElem hi, Option.any_some, atMost_iff]

theorem foundAt_iff {ind : ℕ} (hind : search currentStreams.length (reached currentStreams record) = ind) :
    FoundAt currentStreams record ↔ ∃ info, currentStreams[ind]? = some info ∧ info.name = record.name := by
  obtain ⟨info, hget, hname, hfind⟩ | ⟨hother, hfind⟩ := findStreamAmongCurrent_cases _ _ hind
  · exact iff_of_true ⟨ind, hfind, by simp [hget, hname]⟩ ⟨info, hget, hname⟩
  · refine iff_of_false ?_ ?_
    · rintro ⟨k, hk, -⟩
      rw [hfind] at hk
      cases hk
    · rintro ⟨info, hget, hname⟩
      exact hother info hget hname

theorem foundAt_ascending (h : currentStreams.Pairwise (fun a b => a.name < b.name)) :
    FoundAt currentStreams record ↔ ∃ info ∈ currentStreams, info.name = record.name := by
  have hc := crossing_search currentStreams.length (reached currentStreams record)
  generalize hr : search currentStreams.length (reached currentStreams record) = r at hc
  rw [foundAt_iff hr]
  constructor
  · rintro ⟨info, hget, hname⟩
    exact ⟨info, List.mem_of_getElem? hget, hname⟩
  · rintro ⟨info, hmem, hname⟩
    obtain ⟨k, hk, rfl⟩ := List.getElem_of_mem hmem
    have hreached : ∀ i (hi : i < currentStreams.length),
        reached currentStreams record i = true ↔ k ≤ i := by
      intro i hi
      rw [reached_iff hi, ← hname]
      rcases lt_trichotomy i k with hlt | rfl | hgt
      · exact iff_of_false (not_le.mpr (List.pairwise_iff_getElem.mp h i k hi hk hlt)) (by omega)
      · exact iff_of_true le_rfl le_rfl
      · exact iff_of_true (List.pairwise_iff_getElem.mp h k i hk hi hgt).le hgt.le
    -- the only crossing is the position of the stream
    have hlow : r ≤ k := by
      by_contra hlt
      obtain ⟨m, rfl⟩ := Nat.exists_eq_succ_of_ne_zero (show r ≠ 0 by omega)
      have hle := hc.le
      have hm := (hreached m (by omega)).mpr (by omega)
      rw [hc.before m rfl] at hm
      cases hm
    obtain rfl : r = k := le_antisymm hlow ((hreached r (by omega)).mp (hc.here (by omega)))
    exact ⟨_, List.getElem?_eq_getElem hk, hname⟩

theorem foundAt_descending (h : currentStreams.Pairwise (fun a b => b.name < a.name)) :
    FoundAt currentStreams record ↔ ∃ info, currentStreams = [info] ∧ info.name = record.name := by
  have hc := crossing_search currentStreams.length (reached currentStreams record)
  generalize hr : search currentStreams.length (reached currentStreams record) = r at hc
  rw [foundAt_iff hr]
  constructor
  · rintro ⟨info, hget, hname⟩
    obtain ⟨hlt, rfl⟩ := List.getElem?_eq_some_iff.mp hget
    -- every name in front of the stream is larger, so there is no crossing behind the first position
    obtain rfl : r = 0 := by
      by_contra hne
      obtain ⟨m, rfl⟩ := Nat.exists_eq_succ_of_ne_zero hne
      have htrue : reached currentStreams record m = true := by
        rw [reached_iff (by omega), ← hname]
        exact (List.pairwise_iff_getElem.mp h m _ (by omega) hlt (by omega)).le
      rw [hc.before m rfl] at htrue
      cases htrue
    by_cases hone : currentStreams.length = 1
    · obtain ⟨only, rfl⟩ := List.length_eq_one_iff.mp hone
      exact ⟨only, rfl, hname⟩
    · have hfalse : reached currentStreams record (currentStreams.length / 2) = false := by
        rw [← Bool.not_eq_true, reached_iff (by omega), ← hname, not_le]
        exact List.pairwise_iff_getElem.mp h 0 _ hlt (by omega) (by omega)
      have hprobe := half_lt_search hlt hfalse
      omega
  · rintro ⟨info, rfl, hname⟩
    have htrue : reached [info] record 0 = true := by
      rw [reached_iff (by simp), ← hname]
      rfl
    obtain rfl : r = 0 := by
      by_contra hne
      obtain ⟨m, rfl⟩ := Nat.exists_eq_succ_of_ne_zero hne
      obtain rfl : m = 0 := by simpa using hc.le
      rw [hc.before 0 rfl] at htrue
      cases htrue
    exact ⟨info, rfl, hname⟩

namespace Cached

variable (ss : Cached)

theorem perm_names : ((getCurrentStreams ss.toStreams).map (fun info => info.name)).Perm ss.names :=
  (perm_sortByName _).map _

theorem length_getCurrentStreams : (getCurrentStreams ss.toStreams).length = ss.names.length := by
  rw [← ss.perm_names.length_eq, List.length_map]

theorem mem_names (name : Text) :
    name ∈ ss.names ↔ ∃ info ∈ getCurrentStreams ss.toStreams, info.name = name := by
  rw [← ss.perm_names.mem_iff, List.mem_map]

theorem descending_getCurrentStreams :
    (getCurrentStreams ss.toStreams).Pairwise (fun a b => b.name < a.name) := by
  have hne : (getCurrentStreams ss.toStreams).Pairwise (fun a b => a.name ≠ b.name) :=
    List.pairwise_map.mp (ss.perm_names.nodup_iff.mpr ss.distinct)
  refine (descending_sortByName (ss.records.getD [])).imp₂ ?_ hne
  intro a b hle hne
  exact lt_of_le_of_ne hle (Ne.symm hne)

theorem eq_getCurrentStreams {sorted : List StreamInfo} (hperm : sorted.Perm (ss.records.getD []))
    (hsorted : sorted.Pairwise (fun a b => b.name ≤ a.name)) : sorted = getCurrentStreams ss.toStreams := by
  refine List.Perm.eq_of_pairwise ?_ hsorted (descending_sortByName _) (hperm.trans (perm_sortByName _).symm)
  intro a b ha hb hba hab
  exact List.inj_on_of_nodup_map ss.distinct (hperm.mem_iff.mp ha) ((perm_sortByName _).mem_iff.mp hb)
    (le_antisymm hab hba)

end Cached

/-- A stream is found if and only if it is in the cache: this holds of a name if and only if
the name is not in the cache or the cache has no other one. -/
theorem cached_stream_found_iff (ss : Cached) (record : StreamInfo) :
    (FoundAt (getCurrentStreams ss.toStreams) record ↔ record.name ∈ ss.names) ↔
      (record.name ∈ ss.names → ss.names.length = 1) := by
  rw [foundAt_descending ss.descending_getCurrentStreams, ss.mem_names, ← ss.length_getCurrentStreams]
  constructor
  · intro hfound hmem
    obtain ⟨info, honly, -⟩ := hfound.mpr hmem
    rw [honly]
    rfl
  · intro hone
    constructor
    · rintro ⟨info, honly, hname⟩
      exact ⟨info, by rw [honly]; exact List.mem_singleton_self info, hname⟩
    · intro hmem
      obtain ⟨only, honly⟩ := List.length_eq_one_iff.mp (hone hmem)
      rw [honly] at hmem
      obtain ⟨info, hinfo, hname⟩ := hmem
      obtain rfl := List.mem_singleton.mp hinfo
      exact ⟨info, honly, hname⟩

def twoStreams : Cached where
  records := some [⟨3, text "a", 2, 4, true, []⟩, ⟨1, text "b", 3, 3, false, []⟩]
  lastUpdated := some 0
  lastSynced := some 0
  distinct := by decide

theorem cached_stream_missed :
    ¬ ∀ (ss : Cached) (record : StreamInfo),
      FoundAt (getCurrentStreams ss.toStreams) record ↔ record.name ∈ ss.names := by
  intro h
  obtain ⟨ind, hfound, -⟩ := (h twoStreams ⟨0, text "a", 0, 0, false, []⟩).mpr (by decide)
  have hmissed : findStreamAmongCurrent (getCurrentStreams twoStreams.toStreams) ⟨0, text "a", 0, 0, false, []⟩ =
      (-1, false) := by decide
  rw [hmissed] at hfound
  cases hfound

/-! What a stream that is not found means for the update. -/

/-- A cache of two streams or more is never used. -/
theorem updateStreamInfos_unused (ss : Cached) (h : 2 ≤ ss.names.length) (c : NameCoding) (db : Collections)
    (force : Bool) (records : List StreamInfo) :
    updateStreamInfos c db (getCurrentStreams ss.toStreams) force records =
      updateStreamInfos c db [] force records := by
  have hround : ∀ record, updateStreamInfo c db (getCurrentStreams ss.toStreams) force record =
      updateStreamInfo c db [] force record := by
    intro record
    have hempty : updateStreamInfofromCurrent [] record record = ((false, false), record) := rfl
    obtain ⟨info, hget, hname, hfind⟩ | ⟨-, hfind⟩ :=
      findStreamAmongCurrent_cases (getCurrentStreams ss.toStreams) record rfl
    · have hfound : FoundAt (getCurrentStreams ss.toStreams) record := ⟨_, hfind, by simp [hget, hname]⟩
      obtain ⟨only, honly, -⟩ := (foundAt_descending ss.descending_getCurrentStreams).mp hfound
      have hone := ss.length_getCurrentStreams
      rw [honly, List.length_singleton] at hone
      omega
    · have hmissed : updateStreamInfofromCurrent (getCurrentStreams ss.toStreams) record record =
          ((false, false), record) := by
        simp [updateStreamInfofromCurrent, hfind]
      rw [updateStreamInfo, updateStreamInfo, hmissed, hempty]
  induction records with
  | nil => rfl
  | cons record records ih => rw [updateStreamInfos, updateStreamInfos, hround, ih]

end Asapo.Broker.StreamSearch
