import Asapo.Broker.Query

namespace Asapo.Broker.Query

inductive Value (N : Type) where
  | number (x : N)
  | string (s : Text)
  deriving DecidableEq

inductive Kind where
  | int
  | float
  | string
  deriving DecidableEq, Repr

inductive Relation where
  | eq
  | ne
  | lt
  | le
  | gt
  | ge
  deriving DecidableEq, Repr

section Meaning

variable {N : Type} [LinearOrder N]

/-- There is no order between numbers and strings. -/
def Relation.holds : Relation → Value N → Value N → Bool
  | .eq, x, y => x = y
  | .ne, x, y => x ≠ y
  | .lt, .number x, .number y => x < y
  | .le, .number x, .number y => x ≤ y
  | .gt, .number x, .number y => x > y
  | .ge, .number x, .number y => x ≥ y
  | .lt, .string x, .string y => x < y
  | .le, .string x, .string y => x ≤ y
  | .gt, .string x, .string y => x > y
  | .ge, .string x, .string y => x ≥ y
  | _, _, _ => false

inductive Scalar (d : Dialect N) where
  | int (n : ℤ) (h : minInt ≤ n ∧ n ≤ maxInt)
  | float (x : N) (h : d.IsDouble x)
  | string (s : Text)

variable {d : Dialect N}

def Scalar.kind : Scalar d → Kind
  | .int _ _ => .int
  | .float _ _ => .float
  | .string _ => .string

def Scalar.value : Scalar d → Value N
  | .int n _ => .number (d.ofInt n)
  | .float x _ => .number x
  | .string s => .string s

/-- A document by the names of its fields. Those that are not referred to do not matter. -/
abbrev Document (d : Dialect N) := Text → Scalar d

/-- The type of a literal. No field is a binary string or a placeholder. -/
def SQLVal.kind (val : SQLVal) : Option Kind :=
  match val.type with
  | .intVal => some .int
  | .floatVal => some .float
  | .strVal => some .string
  | .hexNum | .hexVal | .valArg | .bitVal => none

variable (d)

def valueAs (k : Kind) (s : Text) : Value N :=
  match k with
  | .int => .number (d.ofInt (integer s))
  | .float => .number (d.parseFloat s)
  | .string => .string s

def convertAs (k : Kind) (s : Text) : Value N :=
  match k with
  | .int => .number (d.ofInt (atoiNum s))
  | .float => .number (d.parseFloat s)
  | .string => .string s

def SQLVal.value (val : SQLVal) : Option (Value N) := val.kind.map (fun k => valueAs d k val.val)

def ComparisonOp.relation : ComparisonOp → Option Relation
  | .equal => some .eq
  | .lessThan => some .lt
  | .greaterThan => some .gt
  | .lessEqual => some .le
  | .greaterEqual => some .ge
  | .notEqual => some .ne
  | _ => none

def ComparisonOp.compares (operator : ComparisonOp) (x y : Value N) : Bool :=
  match operator with
  | .equal => Relation.eq.holds x y
  | .lessThan => Relation.lt.holds x y
  | .greaterThan => Relation.gt.holds x y
  | .lessEqual => Relation.le.holds x y
  | .greaterEqual => Relation.ge.holds x y
  | .notEqual => Relation.ne.holds x y
  | .nullSafeEqual | .inList => x = y
  | .notIn => x ≠ y
  | .like => match x, y with | .string s, .string p => d.like p s | _, _ => false
  | .notLike => match x, y with | .string s, .string p => !d.like p s | _, _ => false
  | .regexp => match x, y with | .string s, .string p => d.regexp p s | _, _ => false
  | .notRegexp => match x, y with | .string s, .string p => !d.regexp p s | _, _ => false
  | .jsonExtract | .jsonUnquoteExtract => false

def tupleValues (elems : List (Option SQLVal)) : List (Value N) :=
  elems.filterMap (fun elem => elem.bind (SQLVal.value d))

/-- A field is only compared with a tuple as with a list. -/
def ComparisonOp.comparesTuple (operator : ComparisonOp) (x : Value N) (values : List (Value N)) : Bool :=
  match operator with
  | .inList => x ∈ values
  | .notIn => x ∉ values
  | _ => false

/-- A document satisfies an expression. Expressions without a field on the left side and the
literals on the right side are never translated, and are given no meaning. -/
def Expr.holds (doc : Document d) : Expr → Bool
  | .comparison operator (.colName cn) (.sqlVal val) =>
    (val.value d).any (operator.compares d (doc (keyFromColumnName cn)).value)
  | .comparison operator (.colName cn) (.valTuple elems) =>
    operator.comparesTuple (doc (keyFromColumnName cn)).value (tupleValues d elems)
  | .comparison _ _ _ => false
  | .range between (.colName cn) (.sqlVal lower) (.sqlVal upper) =>
    let x := (doc (keyFromColumnName cn)).value
    match lower.value d, upper.value d with
    | some y, some z => (Relation.ge.holds x y && Relation.le.holds x z) == between
    | _, _ => false
  | .range _ _ _ _ => false
  | .and left right => left.holds doc && right.holds doc
  | .or left right => left.holds doc || right.holds doc
  | .paren expr => expr.holds doc
  | .operand _ => false

variable {d}

/-- The fields have the types of the literals that they are compared with, in a list the
type of one of its elements. -/
def Expr.Typed (doc : Document d) : Expr → Prop
  | .comparison _ (.colName cn) (.sqlVal val) => val.kind = some (doc (keyFromColumnName cn)).kind
  | .comparison _ (.colName cn) (.valTuple elems) =>
    ∃ val, some val ∈ elems ∧ val.kind = some (doc (keyFromColumnName cn)).kind
  | .comparison _ _ _ => True
  | .range _ (.colName cn) (.sqlVal lower) (.sqlVal upper) =>
    lower.kind = some (doc (keyFromColumnName cn)).kind ∧ upper.kind = some (doc (keyFromColumnName cn)).kind
  | .range _ _ _ _ => True
  | .and left right => left.Typed doc ∧ right.Typed doc
  | .or left right => left.Typed doc ∧ right.Typed doc
  | .paren expr => expr.Typed doc
  | .operand _ => True

variable (d)

def BsonValue.scalar : BsonValue N → Option (Value N)
  | .int n => some (.number (d.ofInt n))
  | .float x => some (.number x)
  | .string s => some (.string s)
  | _ => none

def BsonValue.array : BsonValue N → Option (List (Value N))
  | .ints ns => some (ns.map (fun n => .number (d.ofInt n)))
  | .floats xs => some (xs.map .number)
  | .strings ss => some (ss.map .string)
  | _ => none

def MongoOp.relation : MongoOp → Option Relation
  | .eq => some .eq
  | .lt => some .lt
  | .gt => some .gt
  | .lte => some .le
  | .gte => some .ge
  | .ne => some .ne
  | _ => none

/-- What an operator selects. A scalar is different from an array, and not ordered with
respect to it. -/
def MongoOp.selects (operator : MongoOp) (operand : BsonValue N) (x : Value N) : Bool :=
  match operator.relation with
  | some r => match operand.scalar d with | some y => r.holds x y | none => r = .ne
  | none =>
    match operator with
    | .inArray => (operand.array d).any (fun ys => x ∈ ys)
    | .nin => (operand.array d).any (fun ys => x ∉ ys)
    | .regex => match x, operand with | .string s, .string p => d.regexp p s | _, _ => false
    | _ => false

/-- The empty condition is the comparison with the empty document. -/
def Condition.selects (x : Value N) : Condition N → Bool
  | .empty => false
  | .op operator operand => operator.selects d operand x
  | .not condition => !condition.selects x

def Condition.Valid : Condition N → Prop
  | .empty => True
  | .op operator operand =>
    match operator with
    | .inArray | .nin => (operand.array d).isSome
    | .regex => ∃ p, operand = .string p
    | .unknown => False
    | _ => True
  | .not .empty => False
  | .not condition => condition.Valid

def Filter.selects (doc : Document d) : Filter N → Bool
  | .field key condition => condition.selects d (doc key).value
  | .and left right => left.selects doc && right.selects doc
  | .or left right => left.selects doc || right.selects doc

/-- A name that starts with a dollar sign is taken for an operator. -/
def Field (key : Text) : Prop := key.head? ≠ some '$'

def Filter.Valid : Filter N → Prop
  | .field key condition => Field key ∧ condition.Valid d
  | .and left right => left.Valid ∧ right.Valid
  | .or left right => left.Valid ∧ right.Valid

/-- The result of a translation is an error, or a filter that selects the documents that it
has to among those of certain types. -/
def Means (typed : Document d → Prop) (holds : Document d → Bool) : Except Failure (Filter N) → Prop
  | .error .panic => False
  | .error (.error _) => True
  | .ok filter => filter.Valid d ∧ ∀ doc, typed doc → filter.selects d doc = holds doc

/-- An expression is not translated, or to a filter with the same meaning. -/
def Faithful (e : Expr) : Prop :=
  Means d (fun doc => e.Typed doc) (fun doc => e.holds d doc) (getBSONFromExpression d e)

inductive Outcome where
  | panic
  | error
  | filter
  deriving DecidableEq, Repr

def Outcome.of : Except Failure (Filter N) → Outcome
  | .error .panic => .panic
  | .error (.error _) => .error
  | .ok _ => .filter

/-- A comparison or a range panics without a column on the left side, and is refused unless
there are only literals on the right side. What stands behind a part that is not translated
is not reached. -/
def Expr.outcome : Expr → Outcome
  | .comparison _ (.colName _) (.sqlVal _) => .filter
  | .comparison _ (.colName _) (.valTuple elems) => if elems.all Option.isSome then .filter else .error
  | .comparison _ (.colName _) _ => .error
  | .comparison _ _ _ => .panic
  | .range _ (.colName _) (.sqlVal _) (.sqlVal _) => .filter
  | .range _ (.colName _) _ _ => .error
  | .range _ _ _ _ => .panic
  | .and left right => if left.outcome = .filter then right.outcome else left.outcome
  | .or left right => if left.outcome = .filter then right.outcome else left.outcome
  | .paren expr => expr.outcome
  | .operand _ => .error

def Expr.Everywhere (P : Expr → Prop) : Expr → Prop
  | .and left right => P (.and left right) ∧ left.Everywhere P ∧ right.Everywhere P
  | .or left right => P (.or left right) ∧ left.Everywhere P ∧ right.Everywhere P
  | .paren expr => P (.paren expr) ∧ expr.Everywhere P
  | e => P e

/-- The conversion of an integer changes a comparison. -/
def Overflows (r : Relation) (n : ℤ) : Prop :=
  maxInt < n ∧ r ≠ .gt ∧ r ≠ .le ∨ n < minInt ∧ r ≠ .lt ∧ r ≠ .ge

/-- Some field that is compared with the literals has the value. -/
def Attained (vals : List SQLVal) (x : Value N) : Prop :=
  ∃ (v : Scalar d) (val : SQLVal), val ∈ vals ∧ val.kind = some v.kind ∧ v.value = x

def converted (vals : List SQLVal) : List (Value N) :=
  match vals.head?.bind SQLVal.kind with
  | none => []
  | some k => vals.map (fun val => convertAs d k val.val)

/-- The conversion neither adds a value of a field to a list nor takes one away. -/
def SameElements (vals : List SQLVal) : Prop :=
  ∀ x ∈ converted d vals ++ vals.filterMap (SQLVal.value d), Attained d vals x →
    (x ∈ converted d vals ↔ x ∈ vals.filterMap (SQLVal.value d))

def ProperLiteral (operator : ComparisonOp) (val : SQLVal) : Prop :=
  match val.kind with
  | none => operator ≠ .notRegexp
  | some .int => ∃ r, operator.relation = some r ∧ ¬ Overflows r (integer val.val)
  | some .float => operator.relation ≠ none
  | some .string => operator.relation ≠ none ∨ operator = .regexp ∨ operator = .notRegexp

def ProperList (operator : ComparisonOp) (vals : List SQLVal) : Prop :=
  match operator with
  | .inList => SameElements d vals
  | .notIn =>
    if vals.head?.bind SQLVal.kind = none then ∀ x, Attained d vals x → x ∈ vals.filterMap (SQLVal.value d)
    else SameElements d vals
  | _ => vals.head?.bind SQLVal.kind = none ∨ operator.relation ≠ none ∧ operator ≠ .notEqual

def ProperRange (lower upper : SQLVal) : Prop :=
  lower.kind = some .int → upper.kind = some .int →
    ¬ (maxInt < integer lower.val ∧ maxInt ≤ integer upper.val) ∧
      ¬ (integer upper.val < minInt ∧ integer lower.val ≤ minInt)

/-- A comparison or a range that is translated has a field on the left side and literals that
keep their meaning in the filter. -/
def Proper : Expr → Prop
  | .comparison operator (.colName cn) (.sqlVal val) =>
    Field (keyFromColumnName cn) ∧ ProperLiteral operator val
  | .comparison operator (.colName cn) (.valTuple elems) =>
    ∀ vals, elems.mapM id = some vals → Field (keyFromColumnName cn) ∧ ProperList d operator vals
  | .comparison _ (.colName _) _ => True
  | .comparison _ _ _ => False
  | .range _ (.colName cn) (.sqlVal lower) (.sqlVal upper) =>
    Field (keyFromColumnName cn) ∧ ProperRange lower upper
  | .range _ (.colName _) _ _ => True
  | .range _ _ _ _ => False
  | _ => True

end Meaning

end Asapo.Broker.Query
