import Asapo.Broker.Names
import Asapo.PercentEncoding

namespace Asapo.Broker.ByteString

open PercentEncoding

def shouldEscape (c : UInt8) (db : Bool) : Bool :=
  if c = '$'.toUInt8 || c = ' '.toUInt8 || c = '%'.toUInt8 then true
  else if !db then false
  else c = '\\'.toUInt8 || c = '/'.toUInt8 || c = '.'.toUInt8 || c = '"'.toUInt8

def upperhex : Bytes := "0123456789ABCDEF".toList.map Char.toUInt8

/-- An assignment to an element of a slice, which panics behind its end. -/
def put (t : Bytes) (j : ℕ) (c : UInt8) : Option Bytes := if j < t.length then some (t.set j c) else none

def escapeLoop (db : Bool) : Bytes → Bytes → ℕ → Option Bytes
  | [], t, _ => some t
  | c :: s, t, j =>
    if shouldEscape c db then
      (put t j '%'.toUInt8).bind (fun t =>
        (upperhex[(c >>> 4).toNat]?).bind (fun high => (put t (j + 1) high).bind (fun t =>
          (upperhex[(c &&& 15).toNat]?).bind (fun low => (put t (j + 2) low).bind (fun t =>
            escapeLoop db s t (j + 3))))))
    else (put t j c).bind (fun t => escapeLoop db s t (j + 1))

/-- The slice has its length from the first loop, whether it is on the stack or not. -/
def escape (s : Bytes) (db : Bool) : Option Bytes :=
  let hexCount := s.countP (fun c => shouldEscape c db)
  if hexCount = 0 then some s
  else escapeLoop db s (List.replicate (s.length + 2 * hexCount) 0) 0

def encodeStringForDbName (original : Bytes) : Option Bytes := escape original true

def encodeStringForColName (original : Bytes) : Option Bytes := escape original false

/-- `url.PathUnescape` gives an empty string with its error. -/
def decodeString (original : Bytes) : Bytes := (PercentEncoding.decode original).getD []

abbrev Request := RequestOf Bytes

namespace Request

def dbName (r : Request) : Bytes := r.beamtime ++ '_'.toUInt8 :: r.dataSource

def dataCollection (r : Request) : Bytes := bytesOfText (text "data_") ++ r.stream

/-- The error with which a request is answered. A panic is no answer. -/
def encodeRequest (r : Request) : Option (Except DBError Request) :=
  (encodeStringForDbName r.dataSource).bind (fun dataSource =>
    (encodeStringForDbName r.beamtime).bind (fun beamtime =>
      let r : Request := { r with dataSource, beamtime }
      if r.dbName.length > Broker.Request.maxEncodedSourceSize then
        some (.error (.wrongInput "source name is too long"))
      else
        (encodeStringForColName r.stream).bind (fun stream =>
          let r : Request := { r with stream }
          if r.stream.length > Broker.Request.maxEncodedStreamSize then
            some (.error (.wrongInput "stream name is too long"))
          else
            (encodeStringForColName r.groupId).bind (fun groupId =>
              let r : Request := { r with groupId }
              if r.groupId.length > Broker.Request.maxEncodedGroupSize then
                some (.error (.wrongInput "group id is too long"))
              else some (.ok r)))))

end Request

theorem hexDigit_eq {n : ℕ} (h : n < 16) : upperhex[n]? = some (hexDigit n) := by
  interval_cases n <;> rfl

theorem upperhex_high (c : UInt8) : upperhex[(c >>> 4).toNat]? = some (hexDigit (c.toNat / 16)) := by
  have hc := c.toNat_lt
  have hn : (c >>> 4).toNat = c.toNat / 16 := by
    rw [UInt8.toNat_shiftRight, Nat.shiftRight_eq_div_pow]
    rfl
  rw [hn]
  exact hexDigit_eq (by omega)

theorem upperhex_low (c : UInt8) : upperhex[(c &&& 15).toNat]? = some (hexDigit (c.toNat % 16)) := by
  have hn : (c &&& 15).toNat = c.toNat % 16 := by
    rw [UInt8.toNat_and]
    exact Nat.and_two_pow_sub_one_eq_mod c.toNat 4
  rw [hn]
  exact hexDigit_eq (by omega)

theorem put_next (done : Bytes) {free : Bytes} {n : ℕ} (h : free.length = n + 1) (c : UInt8) :
    ∃ rest, rest.length = n ∧ put (done ++ free) done.length c = some ((done ++ [c]) ++ rest) := by
  obtain ⟨b, rest, rfl⟩ := List.exists_cons_of_length_eq_add_one h
  refine ⟨rest, Nat.succ.inj h, ?_⟩
  rw [put, if_pos (by simp), List.set_append_right _ _ (Nat.le_refl _), Nat.sub_self, List.set_cons_zero,
    List.append_assoc, List.singleton_append]

theorem escapeLoop_eq (db : Bool) (s done free : Bytes)
    (hfree : free.length = (encode (shouldEscape · db) s).length) :
    escapeLoop db s (done ++ free) done.length = some (done ++ encode (shouldEscape · db) s) := by
  induction s generalizing done free with
  | nil =>
    rw [List.length_eq_zero_iff.mp hfree]
    rfl
  | cons c s ih =>
    rw [encode_cons, encodeByte] at hfree ⊢
    rw [escapeLoop]
    cases hc : shouldEscape c db with
    | true =>
      rw [hc, if_pos rfl, List.length_append, Nat.add_comm] at hfree
      obtain ⟨rest₁, h₁, hput₁⟩ := put_next done hfree '%'.toUInt8
      obtain ⟨rest₂, h₂, hput₂⟩ := put_next (done ++ ['%'.toUInt8]) h₁ (hexDigit (c.toNat / 16))
      obtain ⟨rest₃, h₃, hput₃⟩ := put_next (done ++ ['%'.toUInt8] ++ [hexDigit (c.toNat / 16)]) h₂
        (hexDigit (c.toNat % 16))
      have hrest := ih (done ++ ['%'.toUInt8] ++ [hexDigit (c.toNat / 16)] ++ [hexDigit (c.toNat % 16)])
        rest₃ h₃
      simp only [List.length_append, List.length_singleton, Nat.add_assoc] at hput₂ hput₃ hrest
      simp only [if_true, hput₁, Option.bind_some, upperhex_high, hput₂, upperhex_low, hput₃, hrest]
      simp only [List.append_assoc]
      rfl
    | false =>
      rw [hc, if_neg Bool.false_ne_true, List.length_append, Nat.add_comm] at hfree
      obtain ⟨rest, hlen, hput⟩ := put_next done hfree c
      have hrest := ih (done ++ [c]) rest hlen
      rw [List.length_append, List.length_singleton] at hrest
      simp only [Bool.false_eq_true, if_false, hput, Option.bind_some, hrest]
      rw [List.append_assoc]

theorem escape_eq (s : Bytes) (db : Bool) : escape s db = some (encode (shouldEscape · db) s) := by
  unfold escape
  simp only
  split
  · rename_i hcount
    rw [encode_of_forall]
    intro b hb
    simpa using List.countP_eq_zero.mp hcount b hb
  · refine escapeLoop_eq db s [] _ ?_
    rw [List.length_replicate, length_encode]

end Asapo.Broker.ByteString
