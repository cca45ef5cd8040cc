import Asapo.Common.DataStructs

namespace Asapo.Broker.Query

inductive ComparisonOp where
  | equal
  | lessThan
  | greaterThan
  | lessEqual
  | greaterEqual
  | notEqual
  | nullSafeEqual
  | inList
  | notIn
  | like
  | notLike
  | regexp
  | notRegexp
  | jsonExtract
  | jsonUnquoteExtract
  deriving DecidableEq, Repr

inductive ValType where
  | strVal
  | intVal
  | floatVal
  | hexNum
  | hexVal
  | valArg
  | bitVal
  deriving DecidableEq, Repr

structure SQLVal where
  type : ValType
  val : Text
  deriving DecidableEq, Repr

structure ColName where
  name : Text
  qualifier : Text
  outerQualifier : Text
  deriving DecidableEq, Repr

/-- The expressions that are not conditions. An element of a tuple is only of interest if it
is a literal; of all other expressions only the name of the type is. -/
inductive Operand where
  | colName (name : ColName)
  | sqlVal (val : SQLVal)
  | valTuple (elems : List (Option SQLVal))
  | other (typeName : Text)
  deriving DecidableEq, Repr

inductive Expr where
  | comparison (operator : ComparisonOp) (left right : Operand)
  | range (between : Bool) (left lower upper : Operand)
  | and (left right : Expr)
  | or (left right : Expr)
  | paren (expr : Expr)
  | operand (o : Operand)
  deriving DecidableEq, Repr

inductive MongoOp where
  | eq
  | lt
  | gt
  | lte
  | gte
  | ne
  | inArray
  | nin
  | regex
  | unknown
  deriving DecidableEq, Repr

def sqlOperatorToMongo : ComparisonOp → MongoOp
  | .equal => .eq
  | .lessThan => .lt
  | .greaterThan => .gt
  | .lessEqual => .lte
  | .greaterEqual => .gte
  | .notEqual => .ne
  | .inList => .inArray
  | .notIn => .nin
  | .regexp => .regex
  | .notRegexp => .regex
  | .nullSafeEqual | .like | .notLike | .jsonExtract | .jsonUnquoteExtract => .unknown

/-- What is not fixed here about numbers and patterns: floating-point numbers are among the
numbers of a linear order that has the integers in it, and `strconv.ParseFloat` finds one of
these numbers. The number can be infinite, while the numbers in a document are not. -/
structure Dialect (N : Type) [LinearOrder N] where
  ofInt : ℤ ↪o N
  IsDouble : N → Prop
  zero : IsDouble (ofInt 0)
  parseFloat : Text → N
  /-- The pattern comes first. -/
  regexp : Text → Text → Bool
  like : Text → Text → Bool

def minInt : ℤ := -(2 ^ 63)

def maxInt : ℤ := 2 ^ 63 - 1

/-- The integer that a text stands for, which is 0 if there is none. -/
def integer (s : Text) : ℤ :=
  let digits := if s.head? = some '-' ∨ s.head? = some '+' then s.tail else s
  let value := digits.foldl (fun n c => 10 * n + ((c.toNat : ℤ) - '0'.toNat)) 0
  if digits ≠ [] ∧ digits.all Char.isDigit then (if s.head? = some '-' then -value else value) else 0

def atoiNum (s : Text) : ℤ := max minInt (min maxInt (integer s))

inductive BsonValue (N : Type) where
  | int (n : ℤ)
  | float (x : N)
  | string (s : Text)
  | ints (ns : List ℤ)
  | floats (xs : List N)
  | strings (ss : List Text)

inductive Condition (N : Type) where
  | empty
  | op (operator : MongoOp) (value : BsonValue N)
  | not (condition : Condition N)

inductive Filter (N : Type) where
  | field (key : Text) (condition : Condition N)
  | and (left right : Filter N)
  | or (left right : Filter N)

inductive Failure where
  /-- A type assertion without a check. -/
  | panic
  | error (message : Text)
  deriving DecidableEq, Repr

section Translation

variable {N : Type} [LinearOrder N] (d : Dialect N)

def bsonM (key : MongoOp) (val : SQLVal) : Condition N :=
  match val.type with
  | .intVal => .op key (.int (atoiNum val.val))
  | .floatVal => .op key (.float (d.parseFloat val.val))
  | .strVal => .op key (.string val.val)
  | .hexNum | .hexVal | .valArg | .bitVal => .empty

/-- All elements are converted as the type of the first one says. -/
def bsonMArray (key : MongoOp) (vals : List SQLVal) : Condition N :=
  match vals with
  | [] => .empty
  | first :: _ =>
    match first.type with
    | .intVal => .op key (.ints (vals.map (fun val => atoiNum val.val)))
    | .floatVal => .op key (.floats (vals.map (fun val => d.parseFloat val.val)))
    | .strVal => .op key (.strings (vals.map SQLVal.val))
    | .hexNum | .hexVal | .valArg | .bitVal => .empty

def keyFromColumnName (cn : ColName) : Text :=
  let key := if cn.qualifier.length > 0 then cn.qualifier ++ text "." ++ cn.name else cn.name
  if cn.outerQualifier.length > 0 then cn.outerQualifier ++ text "." ++ key else key

def wrongValue : Failure := .error (text "wrong value")

def processComparisonExpr (operator : ComparisonOp) (left right : Operand) : Except Failure (Filter N) :=
  let mongoOp := sqlOperatorToMongo operator
  match left with
  | .colName cn =>
    let key := keyFromColumnName cn
    match right with
    | .valTuple elems =>
      match elems.mapM id with
      | none => .error wrongValue
      | some vals => .ok (.field key (bsonMArray d mongoOp vals))
    | .sqlVal val =>
      if operator = .notRegexp then .ok (.field key (.not (bsonM d mongoOp val)))
      else .ok (.field key (bsonM d mongoOp val))
    | .colName _ | .other _ => .error wrongValue
  | _ => .error .panic

def processRangeCond (between : Bool) (left lower upper : Operand) : Except Failure (Filter N) :=
  match left with
  | .colName cn =>
    let key := keyFromColumnName cn
    match lower with
    | .sqlVal fromVal =>
      match upper with
      | .sqlVal toVal =>
        if between then
          .ok (.and (.field key (bsonM d .gte fromVal)) (.field key (bsonM d .lte toVal)))
        else .ok (.or (.field key (bsonM d .lt fromVal)) (.field key (bsonM d .gt toVal)))
      | _ => .error wrongValue
    | _ => .error wrongValue
  | _ => .error .panic

def processAndOrExpression (op : Filter N → Filter N → Filter N) (left right : Except Failure (Filter N)) :
    Except Failure (Filter N) :=
  match left with
  | .error err => .error err
  | .ok bsonLeft =>
    match right with
    | .error err => .error err
    | .ok bsonRight => .ok (op bsonLeft bsonRight)

def Operand.typeName : Operand → Text
  | .colName _ => text "*sqlparser.ColName"
  | .sqlVal _ => text "*sqlparser.SQLVal"
  | .valTuple _ => text "sqlparser.ValTuple"
  | .other typeName => typeName

def getBSONFromExpression : Expr → Except Failure (Filter N)
  | .comparison operator left right => processComparisonExpr d operator left right
  | .range between left lower upper => processRangeCond d between left lower upper
  | .and left right =>
    processAndOrExpression .and (getBSONFromExpression left) (getBSONFromExpression right)
  | .or left right =>
    processAndOrExpression .or (getBSONFromExpression left) (getBSONFromExpression right)
  | .paren expr => getBSONFromExpression expr
  | .operand o => .error (.error (text "unkwnown expression " ++ o.typeName))

structure Order where
  expr : Operand
  descending : Bool
  deriving DecidableEq, Repr

def getSortBSONFromOrderArray : List Order → Except Failure (Text × ℤ)
  | [order] =>
    match order.expr with
    | .colName cn => .ok (keyFromColumnName cn, if order.descending then -1 else 1)
    | _ => .error (.error (text "order has to be key name"))
  | _ => .error (.error (text "order by should have single column name"))

/-- A statement that is not a `SELECT` can be parsed as well, if the query goes on with `UNION`. -/
inductive Statement where
  | select (condition : Expr) (orderBy : List Order)
  | other
  deriving DecidableEq, Repr

def bsonFromSQL (parse : Text → Except Text Statement) (query : Text) :
    Except Failure (Filter N × Option (Text × ℤ)) :=
  match parse (text "select * from whatever where " ++ query) with
  | .error err => .error (.error err)
  | .ok .other => .error .panic
  | .ok (.select condition orderBy) =>
    match getBSONFromExpression d condition with
    | .error err => .error err
    | .ok queryMongo =>
      if orderBy.length = 0 then .ok (queryMongo, none)
      else
        match getSortBSONFromOrderArray orderBy with
        | .error err => .error err
        | .ok sortMongo => .ok (queryMongo, some sortMongo)

end Translation

end Asapo.Broker.Query
