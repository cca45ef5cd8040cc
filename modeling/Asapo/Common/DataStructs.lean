import Asapo.Common.Networking

namespace Asapo

/-- A string literal of the program. -/
def text (s : String) : Text := s.toList

/-- `std::to_string` of an unsigned number. -/
def decimal (n : ℕ) : Text := (Nat.repr n).toList

/-- `std::to_string` of an unsigned 64-bit number after the cast to a signed one. -/
def signedDecimal (n : ℕ) : Text :=
  if n < 2 ^ 63 then decimal n else '-' :: decimal (2 ^ 64 - n)

structure MessageMeta where
  name : Text
  timestamp : ℕ
  size : ℕ
  id : ℕ
  source : Text
  metadata : Text
  bufId : ℕ
  datasetSubstream : ℕ
  deriving DecidableEq, Repr

namespace MessageMeta

def empty : MessageMeta := ⟨[], 0, 0, 0, [], [], 0, 0⟩

/-- The text that is stored for a message. The strings are put in as they are. -/
def json (m : MessageMeta) : Text :=
  text "\x7b\"_id\":" ++ decimal m.id ++ text ",\"size\":" ++ decimal m.size ++
    text ",\"name\":\"" ++ m.name ++ text "\",\"timestamp\":" ++ decimal m.timestamp ++
    text ",\"source\":\"" ++ m.source ++ text "\",\"buf_id\":" ++ signedDecimal m.bufId ++
    text ",\"dataset_substream\":" ++ decimal m.datasetSubstream ++
    text ",\"meta\":" ++ (if m.metadata = [] then text "\x7b\x7d" else m.metadata) ++ text "\x7d"

end MessageMeta

structure DeleteStreamOptions where
  deleteMeta : Bool
  errorOnNotExist : Bool
  deriving DecidableEq, Repr

def DeleteStreamOptions.decode (flag : ℕ) : DeleteStreamOptions :=
  ⟨hasFlag flag (1 <<< 0), hasFlag flag (1 <<< 1)⟩

end Asapo
