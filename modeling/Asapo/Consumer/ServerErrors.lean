import Asapo.Broker.Nacks

namespace Asapo.Consumer

open Broker

structure ConsumerErrorData where
  id : ℕ
  idMax : ℕ
  nextStream : Text
  deriving DecidableEq, Repr

/-- The errors of the consumer for an answer of the broker, with their data. Of the data of
an incomplete dataset only the id is looked at. -/
inductive ConsumerError where
  | streamFinished (data : ConsumerErrorData)
  | endOfStream (data : ConsumerErrorData)
  | noData (data : ConsumerErrorData)
  | partialData (id : ℕ)
  | interruptedTransaction
  | unavailableService
  | wrongInput
  deriving DecidableEq, Repr

/-- `GetUInt64` reads a signed number and casts it. -/
def uint64 (z : ℤ) : ℕ := (if z < 0 then z + 2 ^ 64 else z).toNat

def noDataError (data : ConsumerErrorData) : ConsumerError :=
  if data.id ≥ data.idMax then
    if data.nextStream = [] then .endOfStream data else .streamFinished data
  else .noData data

/-- `ConsumerErrorFromHttpCode`, for the code that the broker answers with. An error that is
passed on as it is has the code 503, and a request that panics has no answer. -/
def consumerErrorFromDb : DBError → ConsumerError
  | .noData id idMax nextStream => noDataError ⟨uint64 id, uint64 idMax, cString nextStream⟩
  | .partialData id => .partialData id
  | .wrongInput _ => .wrongInput
  | .other => .unavailableService
  | .panic => .interruptedTransaction

def nextName (record : Record) : Text := cString (record.nextStream.getD (text "asapo_no_next"))

@[simp] theorem uint64_natCast (n : ℕ) : uint64 (n : ℤ) = n := by
  unfold uint64
  rw [if_neg (by omega)]
  exact Int.toNat_natCast n

variable {id : ℕ}

theorem consumerError_marker (hid : 0 < id) (next : Text) :
    consumerErrorFromDb (.noData (id - 1) (id - 1) next) =
      if cString next = [] then .endOfStream ⟨id - 1, id - 1, []⟩
      else .streamFinished ⟨id - 1, id - 1, cString next⟩ := by
  have hcast : ((id : ℤ) - 1) = ((id - 1 : ℕ) : ℤ) := by omega
  rw [consumerErrorFromDb, noDataError, hcast]
  by_cases hn : cString next = [] <;> simp [hn]

theorem consumerError_noData (id idMax : ℕ) :
    consumerErrorFromDb (.noData id idMax []) =
      if idMax ≤ id then .endOfStream ⟨id, idMax, []⟩ else .noData ⟨id, idMax, []⟩ := by
  rw [consumerErrorFromDb, noDataError]
  simp [cString]

end Asapo.Consumer
