import Asapo.Common.DataStructs
import Asapo.Common.Error
import Asapo.Common.Networking
import Asapo.Tiling

namespace Asapo.Consumer

open Tiling

abbrev MessageMetas := { files : List MessageMeta // files.length < 2 ^ 64 }

abbrev Unsigned := { n : ℕ // n < 2 ^ 32 }

structure TaskSplitParameters where
  chunk : ℕ
  remainder : ℕ
  begin_ : ℕ
  nextChunkSize : ℕ
  deriving DecidableEq, Repr

structure FolderToDbImporter where
  ignoreDuplicates : Bool
  nTasks : Unsigned
  async : Bool
  dbUri : Text
  dbName : Text
  positive : 1 ≤ nTasks.val

namespace FolderToDbImporter

def toInt (n : Unsigned) : ℤ := if n.val < 2 ^ 31 then n.val else n.val - 2 ^ 32

def toUnsignedLong (i : ℤ) : ℕ := (i % 2 ^ 64).toNat

/-- The size of the next chunk has no value yet. -/
def computeSplitParameters (files : MessageMetas) (ntasks : ℤ) : TaskSplitParameters where
  chunk := files.val.length / toUnsignedLong ntasks
  remainder := files.val.length % toUnsignedLong ntasks
  begin_ := 0
  nextChunkSize := 0

structure Split where
  res : List (ℕ × ℕ)
  p : TaskSplitParameters
  deriving DecidableEq, Repr

/-- No task is started for an empty chunk. -/
def processNextChunk (s : Split) : Split :=
  let nextChunkSize := Word.add s.p.chunk (if s.p.remainder ≠ 0 then 1 else 0)
  if nextChunkSize = 0 then { s with p := { s.p with nextChunkSize := nextChunkSize } }
  else
    { res := s.res ++ [(s.p.begin_, Word.add s.p.begin_ nextChunkSize)]
      p := {
        chunk := s.p.chunk
        remainder := if s.p.remainder ≠ 0 then Word.sub s.p.remainder 1 else s.p.remainder
        begin_ := Word.add s.p.begin_ nextChunkSize
        nextChunkSize := nextChunkSize } }

def processChunks : ℕ → Split → Split
  | 0, s => s
  | rounds + 1, s => processChunks rounds (processNextChunk s)

def taskRanges (importer : FolderToDbImporter) (files : MessageMetas) : List (ℕ × ℕ) :=
  (processChunks importer.nTasks.val ⟨[], computeSplitParameters files (toInt importer.nTasks)⟩).res

/-- There are not more tasks than threads of the machine. -/
def setNParallelTasks (importer : FolderToDbImporter) (ntasks : Unsigned) (async : Bool) (nthreads : Unsigned) :
    FolderToDbImporter :=
  { importer with
    nTasks := ⟨max 1 (min ntasks.val nthreads.val), by have := ntasks.property; omega⟩
    async := async
    positive := le_max_left _ _ }

/-! The rounds of the loop. -/

structure Rounds (c r i : ℕ) (s : Split) : Prop where
  chunk : s.p.chunk = c
  remainder : s.p.remainder = r - i
  begin_ : s.p.begin_ = i * c + min i r
  tiles : Tiles 0 s.res s.p.begin_
  sizes : ∀ x ∈ s.res, c ≤ x.2 - x.1 ∧ x.2 - x.1 ≤ c + 1

variable {c r i : ℕ} {s : Split}

theorem Rounds.next (h : Rounds c r i s) (hr : r < 2 ^ 64) (hi : (i + 1) * c + min (i + 1) r < 2 ^ 64) :
    Rounds c r (i + 1) (processNextChunk s) := by
  obtain ⟨hchunk, hremainder, hbegin, htiles, hsizes⟩ := h
  obtain ⟨size, hsize⟩ : ∃ size, size = c + if s.p.remainder ≠ 0 then 1 else 0 := ⟨_, rfl⟩
  have hnext : (i + 1) * c + min (i + 1) r = s.p.begin_ + size := by
    rw [hsize, hbegin, hremainder, Nat.succ_mul]
    split <;> omega
  have hadd : Word.add s.p.chunk (if s.p.remainder ≠ 0 then 1 else 0) = size := by
    rw [hchunk, hsize]
    exact Word.add_eq (by omega)
  have hend : Word.add s.p.begin_ size = s.p.begin_ + size := Word.add_eq (by omega)
  have hless : (if s.p.remainder ≠ 0 then Word.sub s.p.remainder 1 else s.p.remainder) = r - (i + 1) := by
    rw [hremainder]
    by_cases hzero : r - i = 0
    · rw [if_neg (not_not.mpr hzero)]
      omega
    · rw [if_pos hzero, Word.sub_eq (by omega) (by omega)]
      omega
  rw [processNextChunk]
  simp only [hadd, hend]
  by_cases hzero : size = 0
  · rw [if_pos hzero]
    have hlast : s.p.remainder = r - (i + 1) := by
      rw [hzero] at hsize
      split at hsize <;> omega
    exact ⟨hchunk, hlast, by rw [hnext, hzero]; rfl, htiles, hsizes⟩
  · rw [if_neg hzero]
    refine ⟨hchunk, hless, hnext.symm, htiles.concat (by omega), ?_⟩
    intro x hx
    obtain hx | hx := List.mem_append.mp hx
    · exact hsizes x hx
    · obtain rfl := List.mem_singleton.mp hx
      dsimp only
      split at hsize <;> omega

theorem Rounds.processChunks (h : Rounds c r i s) (hr : r < 2 ^ 64) (rounds : ℕ)
    (hi : (i + rounds) * c + min (i + rounds) r < 2 ^ 64) :
    Rounds c r (i + rounds) (processChunks rounds s) := by
  induction rounds generalizing i s with
  | zero => exact h
  | succ rounds ih =>
    have hsum : i + (rounds + 1) = i + 1 + rounds := by omega
    rw [hsum] at hi ⊢
    have hle : (i + 1) * c ≤ (i + 1 + rounds) * c := Nat.mul_le_mul_right c (by omega)
    exact ih (h.next hr (by omega)) hi

theorem toUnsignedLong_toInt (n : Unsigned) :
    toUnsignedLong (toInt n) = if n.val < 2 ^ 31 then n.val else 2 ^ 64 - 2 ^ 32 + n.val := by
  have hn := n.property
  rw [toUnsignedLong, toInt]
  by_cases hlt : n.val < 2 ^ 31
  · rw [if_pos hlt, if_pos hlt]
    omega
  · rw [if_neg hlt, if_neg hlt]
    omega

theorem reached_iff {k u : ℕ} (n : ℕ) (hk : 1 ≤ k) (hku : k ≤ u) :
    k * (n / u) + min k (n % u) = n ↔ k = u ∨ n ≤ k := by
  have hdiv := Nat.div_add_mod n u
  have hmod := Nat.mod_lt n (show 0 < u by omega)
  rcases hku.eq_or_lt with rfl | hlt
  · exact iff_of_true (by rw [min_eq_right hmod.le, hdiv]) (.inl rfl)
  · rcases Nat.eq_zero_or_pos (n / u) with hzero | hpos
    · rw [hzero, Nat.mul_zero, Nat.zero_add] at hdiv ⊢
      omega
    · have hless : k * (n / u) < u * (n / u) := Nat.mul_lt_mul_of_pos_right hlt hpos
      have hle : n / u ≤ u * (n / u) := Nat.le_mul_of_pos_left _ (by omega)
      have hu : u ≤ u * (n / u) := Nat.le_mul_of_pos_right u hpos
      omega

theorem le_divisor (importer : FolderToDbImporter) :
    importer.nTasks.val ≤ toUnsignedLong (toInt importer.nTasks) := by
  rw [toUnsignedLong_toInt]
  split <;> omega

theorem rounds_taskRanges (importer : FolderToDbImporter) (files : MessageMetas) :
    Rounds (files.val.length / toUnsignedLong (toInt importer.nTasks))
      (files.val.length % toUnsignedLong (toInt importer.nTasks)) importer.nTasks.val
      (processChunks importer.nTasks.val ⟨[], computeSplitParameters files (toInt importer.nTasks)⟩) := by
  generalize hu : toUnsignedLong (toInt importer.nTasks) = u
  have hku : importer.nTasks.val ≤ u := hu ▸ le_divisor importer
  have hfiles := files.property
  have hdiv := Nat.div_add_mod files.val.length u
  have hle : importer.nTasks.val * (files.val.length / u) ≤ u * (files.val.length / u) :=
    Nat.mul_le_mul_right _ hku
  have hstart : Rounds (files.val.length / u) (files.val.length % u) 0
      ⟨[], computeSplitParameters files (toInt importer.nTasks)⟩ := by
    refine ⟨?_, ?_, ?_, rfl, by rintro _ ⟨⟩⟩
    · rw [← hu]
      rfl
    · rw [← hu]
      rfl
    · rw [Nat.zero_mul, Nat.zero_min]
      rfl
  have hend := hstart.processChunks (by omega) importer.nTasks.val (by rw [Nat.zero_add]; omega)
  rwa [Nat.zero_add] at hend

theorem begin_eq_iff (importer : FolderToDbImporter) (files : MessageMetas) :
    (processChunks importer.nTasks.val ⟨[], computeSplitParameters files (toInt importer.nTasks)⟩).p.begin_ =
        files.val.length ↔
      importer.nTasks.val < 2 ^ 31 ∨ files.val.length ≤ importer.nTasks.val := by
  have hn := importer.nTasks.property
  rw [(rounds_taskRanges importer files).begin_, reached_iff _ importer.positive (le_divisor importer),
    toUnsignedLong_toInt]
  split <;> omega

/-- The ranges cover the files if and only if the number of tasks is an `int` or there is a task
for every file. -/
theorem evenPartition_taskRanges_iff (importer : FolderToDbImporter) (files : MessageMetas) :
    EvenPartition (importer.taskRanges files) files.val.length ↔
      importer.nTasks.val < 2 ^ 31 ∨ files.val.length ≤ importer.nTasks.val := by
  have hrounds := rounds_taskRanges importer files
  rw [← begin_eq_iff, taskRanges, hrounds.tiles.evenPartition_iff hrounds.sizes]

theorem tiles_taskRanges {importer : FolderToDbImporter} {files : MessageMetas}
    (h : importer.nTasks.val < 2 ^ 31 ∨ files.val.length ≤ importer.nTasks.val) :
    Tiles 0 (importer.taskRanges files) files.val.length := by
  have htiles := (rounds_taskRanges importer files).tiles
  rwa [(begin_eq_iff importer files).mpr h] at htiles

theorem nTasks_setNParallelTasks_lt (importer : FolderToDbImporter) {ntasks : Unsigned} (h : ntasks.val < 2 ^ 31)
    (async : Bool) (nthreads : Unsigned) : (importer.setNParallelTasks ntasks async nthreads).nTasks.val < 2 ^ 31 :=
  max_lt (by decide) (lt_of_le_of_lt (min_le_left _ _) h)

end FolderToDbImporter

end Asapo.Consumer
