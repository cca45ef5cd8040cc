import Asapo.Common.Error
import Asapo.Consumer.ServerErrors
import Asapo.JsonFields

namespace Asapo

open JsonText (Value)
open Consumer (uint64)

/-- A parser for a text, or for an object inside of one. The text of the latter is not set.
The object is what `LazyInitialize` finds. -/
structure RapidJson where
  json : Text
  object : Except Error Value

namespace RapidJson

inductive ValueType where
  | object
  | string
  | uint64
  | int64
  | bool
  | array
  deriving DecidableEq, Repr

def integer : Value → Option ℤ
  | .integer z => some z
  | _ => none

def ValueType.holds : ValueType → Value → Bool
  | .object, .object _ => true
  | .string, .string _ => true
  | .uint64, val => (integer val).any (fun z => 0 ≤ z && z < 2 ^ 64)
  | .int64, val => (integer val).any (fun z => -(2 ^ 63) ≤ z && z < 2 ^ 63)
  | .bool, .bool _ => true
  | .array, .array _ => true
  | _, _ => false

def simpleError (message : String) : Error := GeneralErrorTemplates.simpleError.generate message

/-- The text is parsed up to its first zero byte. -/
def lazyInitialize (json : Text) : Except Error Value :=
  match JsonText.parse .bytes (cString json) with
  | some (.object members) => .ok (.object members)
  | _ => .error (simpleError "Cannot parse document")

def ofText (json : Text) : RapidJson := ⟨json, lazyInitialize json⟩

def checkValueType (p : RapidJson) (name : String) (type : ValueType) (val : Value) : Option Error :=
  if type.holds val then none
  else some (simpleError ("wrong type for: " ++ name ++ " in: " ++ String.ofList p.json))

def getValuePointer (p : RapidJson) (name : String) (type : ValueType) : Except Error Value :=
  match p.object with
  | .error err => .error err
  | .ok object =>
    match object.get (text name) with
    | none => .error (simpleError ("cannot find: " ++ name))
    | some val =>
      match p.checkValueType name type val with
      | some err => .error err
      | none => .ok val

def getInt64 (p : RapidJson) (name : String) : Except Error ℤ :=
  (p.getValuePointer name .int64).map (fun val => (integer val).getD 0)

/-- A number that is not a signed one is read as an unsigned one. -/
def getUInt64 (p : RapidJson) (name : String) : Except Error ℕ :=
  match p.getInt64 name with
  | .ok z => .ok (uint64 z)
  | .error err =>
    match p.object with
    | .error _ => .error err
    | .ok _ => (p.getValuePointer name .uint64).map (fun val => ((integer val).getD 0).toNat)

def getBool (p : RapidJson) (name : String) : Except Error Bool :=
  (p.getValuePointer name .bool).map (fun val =>
    match val with
    | .bool b => b
    | _ => false)

def getString (p : RapidJson) (name : String) : Except Error Text :=
  (p.getValuePointer name .string).map (fun val =>
    match val with
    | .string s => cString s
    | _ => [])

def embedded (p : RapidJson) (subname : String) : RapidJson :=
  match p.getValuePointer subname .object with
  | .error err => ⟨[], .error (simpleError err.explain)⟩
  | .ok object => ⟨[], .ok object⟩

def getRawString (write : Value → Text) (p : RapidJson) : Except Error Text :=
  p.object.map (fun object => cString (write object))

section Getters

variable {p : RapidJson} {object val : Value} {name : String} {type : ValueType}

theorem getValuePointer_of_get (hobject : p.object = .ok object) (hget : object.get (text name) = some val)
    (hval : type.holds val = true) : p.getValuePointer name type = .ok val := by
  have hcheck : p.checkValueType name type val = none := if_pos hval
  simp only [getValuePointer, hobject, hget, hcheck]

theorem get_of_getValuePointer (h : p.getValuePointer name type = .ok val) :
    ∃ object, p.object = .ok object ∧ object.get (text name) = some val ∧ type.holds val = true := by
  unfold getValuePointer at h
  split at h
  · cases h
  · rename_i object hobject
    split at h
    · cases h
    · rename_i found hget
      split at h
      · cases h
      · rename_i hcheck
        cases h
        refine ⟨object, hobject, hget, ?_⟩
        by_contra hno
        rw [checkValueType, if_neg hno] at hcheck
        cases hcheck

theorem holds_int64 (z : ℤ) : ValueType.int64.holds (.integer z) = true ↔ -(2 ^ 63) ≤ z ∧ z < 2 ^ 63 := by
  simp only [ValueType.holds, integer, Option.any_some, Bool.and_eq_true, decide_eq_true_eq]

theorem holds_uint64 (z : ℤ) : ValueType.uint64.holds (.integer z) = true ↔ 0 ≤ z ∧ z < 2 ^ 64 := by
  simp only [ValueType.holds, integer, Option.any_some, Bool.and_eq_true, decide_eq_true_eq]

theorem getInt64_of_not_holds (hobject : p.object = .ok object) (hget : object.get (text name) = some val)
    (hval : ¬ ValueType.int64.holds val = true) : ∃ err, p.getInt64 name = .error err := by
  cases hint : p.getValuePointer name .int64 with
  | error err => exact ⟨err, by rw [getInt64, hint]; rfl⟩
  | ok found =>
    obtain ⟨object', hobject', hget', hfound⟩ := get_of_getValuePointer hint
    cases hobject.symm.trans hobject'
    cases hget.symm.trans hget'
    exact absurd hfound hval

theorem getUInt64_of_get {z : ℤ} (hobject : p.object = .ok object) (hget : object.get (text name) = some (.integer z))
    (hlow : -(2 ^ 63) ≤ z) (hhigh : z < 2 ^ 64) : p.getUInt64 name = .ok (uint64 z) := by
  by_cases hz : z < 2 ^ 63
  · have hval := getValuePointer_of_get hobject hget ((holds_int64 z).mpr ⟨hlow, hz⟩)
    simp only [getUInt64, getInt64, hval, Except.map, integer, Option.getD_some]
  · have hval := getValuePointer_of_get hobject hget ((holds_uint64 z).mpr ⟨by omega, hhigh⟩)
    obtain ⟨err, herror⟩ := getInt64_of_not_holds hobject hget (fun h => hz ((holds_int64 z).mp h).2)
    have hcast : uint64 z = z.toNat := by rw [uint64, if_neg (by omega)]
    simp only [getUInt64, herror, hobject, hval, Except.map, integer, Option.getD_some, hcast]

theorem getBool_of_get {b : Bool} (hobject : p.object = .ok object) (hget : object.get (text name) = some (.bool b)) :
    p.getBool name = .ok b := by
  rw [getBool, getValuePointer_of_get hobject hget rfl]
  rfl

theorem getString_of_get {s : Text} (hobject : p.object = .ok object)
    (hget : object.get (text name) = some (.string s)) : p.getString name = .ok (cString s) := by
  rw [getString, getValuePointer_of_get hobject hget rfl]
  rfl

theorem get_of_getString {t : Text} (h : p.getString name = .ok t) :
    ∃ object s, p.object = .ok object ∧ object.get (text name) = some (.string s) ∧ t = cString s := by
  unfold getString at h
  cases hval : p.getValuePointer name .string with
  | error err =>
    rw [hval] at h
    cases h
  | ok val =>
    obtain ⟨object, hobject, hget, hholds⟩ := get_of_getValuePointer hval
    rw [hval] at h
    cases val <;> cases hholds
    cases h
    exact ⟨object, _, hobject, hget, rfl⟩

theorem getRawString_of_get {write : Value → Text} {members : List (Text × Value)} (hobject : p.object = .ok object)
    (hget : object.get (text name) = some (.object members)) :
    (p.embedded name).getRawString write = .ok (cString (write (.object members))) := by
  rw [embedded, getValuePointer_of_get hobject hget rfl]
  rfl

end Getters

end RapidJson

end Asapo
