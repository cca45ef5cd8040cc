import Asapo.Consumer.ServerErrors
import Asapo.Json

namespace Asapo.Database.MetaUpdate

open JsonText (Value)

abbrev Members := List (Text × Value)

section

variable (separator : Text)

end

/-- The values that are not objects, with the names on the way to them. -/
def leaves : Members → List (List Text × Value)
  | [] => []
  | (name, .object members) :: rest => (leaves members).map (fun x => (name :: x.1, x.2)) ++ leaves rest
  | (name, value) :: rest => ([name], value) :: leaves rest

/-- In every object that is reached no value that is not an object comes behind an object,
not even inside of one. -/
def Kept : Members → Prop
  | [] => True
  | (_, .object members) :: rest => Kept members ∧ leaves rest = []
  | _ :: rest => Kept rest

def visited : Members → List (List Text × Value)
  | [] => []
  | (name, .object members) :: _ => (visited members).map (fun x => (name :: x.1, x.2))
  | (name, value) :: rest => ([name], value) :: visited rest

variable {separator namePrefix : Text}

end Asapo.Database.MetaUpdate
