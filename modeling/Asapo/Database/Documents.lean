import Asapo.Common.DataStructs

namespace Asapo.Database

variable {J : Type}

/-- What is read of the document of a message: `other` tells whether the fields that
carry no information about the message are there with the right types. A signed integer
is kept as the unsigned one that it is cast to, and `J` are the values of a JSON text. -/
structure MessageFields (J : Type) where
  size : Option ℕ
  name : Option Text
  datasetSubstream : Option ℕ
  metadata : Option J
  other : Bool
  deriving DecidableEq

/-- The field `messages` of a document. A value that is not an array may still have a
field `dataset_substream`. -/
inductive MessagesField (J : Type) where
  | missing
  | array (members : List (MessageFields J))
  | value (datasetSubstream : Option ℕ)
  deriving DecidableEq

structure Document (J : Type) where
  id : ℕ
  fields : MessageFields J
  messages : MessagesField J
  deriving DecidableEq

/-- The JSON libraries. `fromJson` is `bson_new_from_json` on the text of a message,
`parse` and `write` are the two directions for a metadata text. -/
structure Json (J : Type) where
  fromJson : Text → Option (Document J)
  parse : Text → Option J
  write : J → Text
  isObject : J → Bool
  parse_write : ∀ j, parse (write j) = some j

def MessagesField.members : MessagesField J → List (MessageFields J)
  | .array ms => ms
  | _ => []

/-- The query `messages.dataset_substream` is not equal to a number. It is true of an
array if it is true of every member. -/
def MessagesField.lacks (substream : ℕ) : MessagesField J → Bool
  | .missing => true
  | .array ms => ms.all (fun m => m.datasetSubstream ≠ some substream)
  | .value s => s ≠ some substream

abbrev Collection (J : Type) := List (Document J)

namespace Collection

def find (docs : Collection J) (id : ℕ) : Option (Document J) := List.find? (fun d => d.id = id) docs

def insertOne (docs : Collection J) (d : Document J) : Option (Collection J) :=
  if (docs.find d.id).isSome then none else some (docs ++ [d])

inductive Upsert (J : Type) where
  | done (docs : Collection J)
  | duplicateKey
  | failed

def datasetDocument (id datasetSize : ℕ) (member : MessageFields J) : Document J :=
  ⟨id, ⟨some datasetSize, none, none, none, true⟩, .array [member]⟩

def addMember (member : MessageFields J) (d : Document J) : Document J :=
  { d with messages := .array (d.messages.members ++ [member]) }

/-- Add a member to the dataset with that id if it has none for the substream. A member
for another substream differs from the new one, so that `$addToSet` appends it. -/
def upsertMember (docs : Collection J) (id substream datasetSize : ℕ) (member : MessageFields J) :
    Upsert J :=
  match docs.find id with
  | none => .done (docs ++ [datasetDocument id datasetSize member])
  | some d =>
    if d.messages.lacks substream then
      match d.messages with
      | .value _ => .failed
      | _ => .done (docs.map (fun x => if x.id = id then addMember member x else x))
    else .duplicateKey

end Collection

/-- The data collections of a database by their names, and the counters for automatic ids. -/
structure Db (J : Type) where
  collections : Text → Collection J
  counters : Text → ℕ

def Db.setCollection (db : Db J) (name : Text) (docs : Collection J) : Db J :=
  { db with collections := fun n => if n = name then docs else db.collections n }

def Db.setCounter (db : Db J) (name : Text) (value : ℕ) : Db J :=
  { db with counters := fun n => if n = name then value else db.counters n }

end Asapo.Database
