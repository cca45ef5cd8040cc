import Asapo.Broker.StreamFilter
import Asapo.UrlQuery

namespace Asapo.Http

open PercentEncoding

def bytes (s : String) : Bytes := bytesOfText (text s)

def number (n : ℕ) : Bytes := bytesOfText (decimal n)

inductive Method where
  | get
  | post
  deriving DecidableEq, Repr

/-- A request as it arrives. The target is the URL without the host. -/
structure Message where
  method : Method
  target : Bytes
  body : Bytes
  deriving DecidableEq, Repr

def unreserved (b : UInt8) : Bool :=
  (65 ≤ b && b ≤ 90) || (97 ≤ b && b ≤ 122) || (48 ≤ b && b ≤ 57) ||
    b = '-'.toUInt8 || b = '.'.toUInt8 || b = '_'.toUInt8 || b = '~'.toUInt8

def Safe (s : Bytes) : Prop := s.all unreserved = true

instance (s : Bytes) : Decidable (Safe s) := inferInstanceAs (Decidable (_ = true))

/-- `curl_easy_escape`, of which the documentation says that it keeps letters, digits and
`-._~` and writes every other byte as a percent sign and two hexadecimal digits. -/
structure Escape where
  escape : Bytes → Bytes
  safe : ∀ s, Safe s → escape s = s
  alphabet : ∀ s, ∀ b ∈ escape s, unreserved b = true ∨ b = percent
  decode : ∀ s, decode (escape s) = some s

variable {s : Bytes} {n : ℕ} {b : UInt8}

namespace Escape

variable (curl : Escape)

theorem injective : Function.Injective curl.escape := by
  intro s t h
  have hdecode := congrArg PercentEncoding.decode h
  rw [curl.decode, curl.decode] at hdecode
  exact Option.some.inj hdecode

theorem eq_iff {t : Bytes} (ht : Safe t) : curl.escape s = t ↔ s = t := by
  constructor
  · intro h
    rw [← curl.safe t ht] at h
    exact curl.injective h
  · rintro rfl
    exact curl.safe s ht

end Escape

end Asapo.Http
