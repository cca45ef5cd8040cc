import Asapo.Broker.Routing
import Asapo.Consumer.BrokerRequests

namespace Asapo.RequestRouting

open Http EncodingJson Consumer.BrokerRequests Broker.Routing

variable {curl : Escape} {router : Router} {floats : Floats}

section Paths

abbrev question : UInt8 := '?'.toUInt8

/-- A name that a path keeps when it is cleaned. -/
structure Proper (name : Bytes) : Prop where
  ne_nil : name ≠ []
  ne_dot : name ≠ bytes "."
  ne_dots : name ≠ bytes ".."

instance (name : Bytes) : Decidable (Proper name) :=
  decidable_of_iff (name ≠ [] ∧ name ≠ bytes "." ∧ name ≠ bytes "..")
    ⟨fun h => ⟨h.1, h.2.1, h.2.2⟩, fun h => ⟨h.1, h.2, h.3⟩⟩

end Paths

section Messages

abbrev params (curl : Escape) : List (Bytes × Bytes) → Bytes := UrlQuery.params curl.escape

variable {c : Settings} {stream group suffix token value literal : Bytes} {key : String} {rest : List Bytes}
  {xs : List (Bytes × Bytes)} {ri : RequestInfo} {handler : Handler} {vars : List (Key × Bytes)}

def names (c : Settings) (stream : Bytes) (rest : List Bytes) : List Bytes :=
  [brokerVersion, bytes "beamtime", c.beamtimeId, c.dataSource, stream] ++ rest

def segments (curl : Escape) (c : Settings) (stream : Bytes) (rest : List Bytes) : List Bytes :=
  (names c stream rest).map curl.escape

end Messages

section Routes

variable {b d s g y : Bytes} {handler : Handler}

def streamVars (b d s : Bytes) : List (Key × Bytes) :=
  [(.apiver, brokerVersion), (.beamtime, b), (.datasource, d), (.stream, s)]

end Routes

section Requests

variable {c : Settings} {stream group : Bytes} {extra : List (Key × Bytes)} {xs : List (Bytes × Bytes)} {body : Bytes}
  {op : Text} {param : ExtraParam}

def seen (curl : Escape) (c : Settings) (stream : Bytes) (extra : List (Key × Bytes)) (xs : List (Bytes × Bytes))
    (body : Bytes) : HttpRequest :=
  ⟨streamVars c.beamtimeId (curl.escape c.dataSource) (curl.escape stream) ++ extra,
    (bytes "token", c.userToken) :: xs, body⟩

def requested : Option ℕ → Bool × ℤ
  | none => (false, 0)
  | some minSize => (true, minSize)

/-- The parameters ask for that dataset. -/
structure Asks (xs : List (Bytes × Bytes)) (dataset : Option ℕ) : Prop where
  flag : decide (UrlQuery.get xs (bytes "dataset") = bytes "true") = (requested dataset).1
  minsize : (requested dataset).1 = true →
    (Broker.atoi (textOfBytes (UrlQuery.get xs (bytes "minsize")))).getD 0 = (requested dataset).2

end Requests

end Asapo.RequestRouting
