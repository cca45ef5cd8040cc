import Asapo.Broker.QueryMeaning

namespace Asapo.Broker.Query

variable {N : Type} [LinearOrder N] {d : Dialect N}

section Conversion

theorem holds_ofInt (r : Relation) (m n : ℤ) :
    r.holds (.number (d.ofInt m)) (.number (d.ofInt n)) = r.holds (Value.number m) (Value.number n) := by
  cases r <;> simp [Relation.holds]

theorem atoiNum_cases (s : Text) :
    atoiNum s = integer s ∧ minInt ≤ integer s ∧ integer s ≤ maxInt ∨
      atoiNum s = maxInt ∧ maxInt < integer s ∨ atoiNum s = minInt ∧ integer s < minInt := by
  have hle : minInt ≤ maxInt := by decide
  unfold atoiNum
  omega

/-- The extreme integers show that a number was too large or too small. -/
theorem holds_atoiNum_iff (r : Relation) (s : Text) :
    (∀ m, minInt ≤ m ∧ m ≤ maxInt → r.holds (Value.number m) (Value.number (atoiNum s)) =
      r.holds (Value.number m) (Value.number (integer s))) ↔ ¬ Overflows r (integer s) := by
  have hlt : minInt < maxInt := by decide
  have hcases := atoiNum_cases s
  constructor
  · intro h hover
    have hmin := h minInt ⟨Int.le_refl _, by omega⟩
    have hmax := h maxInt ⟨by omega, Int.le_refl _⟩
    cases r <;>
      simp only [Relation.holds, Overflows, decide_eq_decide, Value.number.injEq, ne_eq, reduceCtorEq,
        not_true_eq_false, not_false_eq_true, and_true, and_false, or_false, false_or, gt_iff_lt,
        ge_iff_le] at hmin hmax hover <;>
      omega
  · intro hover m hm
    cases r <;>
      simp only [Relation.holds, Overflows, decide_eq_decide, Value.number.injEq, ne_eq, reduceCtorEq,
        not_true_eq_false, not_false_eq_true, and_true, and_false, or_false, false_or, gt_iff_lt,
        ge_iff_le] at hover ⊢ <;>
      omega

theorem convertAs_eq {k : Kind} (hk : k ≠ .int) (s : Text) : convertAs d k s = valueAs d k s := by
  cases k with
  | int => exact absurd rfl hk
  | float => rfl
  | string => rfl

theorem value_of_kind {val : SQLVal} {k : Kind} (h : val.kind = some k) :
    val.value d = some (valueAs d k val.val) := by
  rw [SQLVal.value, h, Option.map_some]

theorem exists_scalar (d : Dialect N) (k : Kind) : ∃ v : Scalar d, v.kind = k := by
  cases k with
  | int => exact ⟨.int 0 (by decide), rfl⟩
  | float => exact ⟨.float (d.ofInt 0) d.zero, rfl⟩
  | string => exact ⟨.string [], rfl⟩

theorem scalar_int {v : Scalar d} (h : v.kind = .int) :
    ∃ m, (minInt ≤ m ∧ m ≤ maxInt) ∧ v.value = .number (d.ofInt m) := by
  cases v with
  | int n hn => exact ⟨n, hn, rfl⟩
  | float x hx => cases h
  | string s => cases h

theorem holds_convertAs_iff (r : Relation) (k : Kind) (s : Text) :
    (∀ v : Scalar d, v.kind = k → r.holds v.value (convertAs d k s) = r.holds v.value (valueAs d k s)) ↔
      (k = .int → ¬ Overflows r (integer s)) := by
  by_cases hk : k = .int
  · subst hk
    rw [← holds_atoiNum_iff]
    constructor
    · intro h _ m hm
      have hv := h (.int m hm) rfl
      simpa only [Scalar.value, convertAs, valueAs, holds_ofInt] using hv
    · intro h v hv
      obtain ⟨m, hm, hvalue⟩ := scalar_int hv
      simpa only [hvalue, convertAs, valueAs, holds_ofInt] using h rfl m hm
  · simp [hk, convertAs_eq hk]

end Conversion

section Literal

def operandAs (d : Dialect N) (k : Kind) (s : Text) : BsonValue N :=
  match k with
  | .int => .int (atoiNum s)
  | .float => .float (d.parseFloat s)
  | .string => .string s

theorem scalar_operandAs (k : Kind) (s : Text) : (operandAs d k s).scalar d = some (convertAs d k s) := by
  cases k <;> rfl

theorem bsonM_none {val : SQLVal} (h : val.kind = none) (op : MongoOp) : bsonM d op val = .empty := by
  obtain ⟨type, s⟩ := val
  cases type <;> cases h <;> rfl

theorem bsonM_some {val : SQLVal} {k : Kind} (h : val.kind = some k) (op : MongoOp) :
    bsonM d op val = .op op (operandAs d k val.val) := by
  obtain ⟨type, s⟩ := val
  cases type <;> cases h <;> rfl

theorem relation_sqlOperatorToMongo {operator : ComparisonOp} {r : Relation}
    (h : operator.relation = some r) : (sqlOperatorToMongo operator).relation = some r := by
  cases operator <;> cases h <;> rfl

theorem compares_relation {operator : ComparisonOp} {r : Relation} (h : operator.relation = some r)
    (x y : Value N) : operator.compares d x y = r.holds x y := by
  cases operator <;> cases h <;> rfl

theorem valid_relation {op : MongoOp} {r : Relation} (h : op.relation = some r) (operand : BsonValue N) :
    (Condition.op op operand).Valid d := by
  cases op <;> cases h <;> trivial

theorem selects_relation {op : MongoOp} {r : Relation} (h : op.relation = some r) {operand : BsonValue N}
    {y : Value N} (hy : operand.scalar d = some y) (x : Value N) :
    (Condition.op op operand).selects d x = r.holds x y := by
  simp [Condition.selects, MongoOp.selects, h, hy]

def literalCondition (d : Dialect N) (operator : ComparisonOp) (val : SQLVal) : Condition N :=
  if operator = .notRegexp then .not (bsonM d (sqlOperatorToMongo operator) val)
  else bsonM d (sqlOperatorToMongo operator) val

theorem faithful_field_iff {e : Expr} {key : Text} {c : Condition N} (typed : Scalar d → Prop)
    (holds : Scalar d → Bool) (he : getBSONFromExpression d e = .ok (.field key c))
    (htyped : ∀ doc : Document d, e.Typed doc ↔ typed (doc key))
    (hholds : ∀ doc : Document d, e.holds d doc = holds (doc key)) :
    Faithful d e ↔ Field key ∧ c.Valid d ∧ ∀ v, typed v → c.selects d v.value = holds v := by
  unfold Faithful
  rw [he]
  simp only [Means, Filter.Valid, Filter.selects, htyped, hholds, and_assoc]
  have hdoc : (∀ doc : Document d, typed (doc key) → c.selects d (doc key).value = holds (doc key)) ↔
      ∀ v, typed v → c.selects d v.value = holds v := ⟨fun h v => h (fun _ => v), fun h doc => h (doc key)⟩
  rw [hdoc]

theorem scalar_string {v : Scalar d} (h : v.kind = .string) : ∃ s, v.value = .string s := by
  cases v with
  | int n hn => cases h
  | float x hx => cases h
  | string s => exact ⟨s, rfl⟩

theorem selects_pattern {operator : ComparisonOp} {val : SQLVal} (hk : val.kind = some .string)
    (hop : operator = .regexp ∨ operator = .notRegexp) :
    (literalCondition d operator val).Valid d ∧
      ∀ v : Scalar d, v.kind = .string → (literalCondition d operator val).selects d v.value =
        operator.compares d v.value (.string val.val) := by
  unfold literalCondition
  rw [bsonM_some hk]
  obtain rfl | rfl := hop
  all_goals
    refine ⟨⟨val.val, rfl⟩, fun v hv => ?_⟩
    obtain ⟨s, hs⟩ := scalar_string hv
    rw [hs]
    rfl

theorem not_valid_literal {operator : ComparisonOp} {val : SQLVal} {k : Kind} (hk : val.kind = some k)
    (hrelation : operator.relation = none)
    (hregexp : ¬ (k = .string ∧ (operator = .regexp ∨ operator = .notRegexp))) :
    ¬ (literalCondition d operator val).Valid d := by
  unfold literalCondition
  rw [bsonM_some hk]
  cases operator <;> cases hrelation <;> cases k <;>
    simp_all [sqlOperatorToMongo, Condition.Valid, operandAs, BsonValue.array]

theorem faithful_literal_iff (operator : ComparisonOp) (cn : ColName) (val : SQLVal) :
    Faithful d (.comparison operator (.colName cn) (.sqlVal val)) ↔
      Field (keyFromColumnName cn) ∧ ProperLiteral operator val := by
  have he : getBSONFromExpression d (.comparison operator (.colName cn) (.sqlVal val)) =
      .ok (.field (keyFromColumnName cn) (literalCondition d operator val)) := by
    simp only [getBSONFromExpression, processComparisonExpr, literalCondition]
    split <;> rfl
  rw [faithful_field_iff (fun v => val.kind = some v.kind)
    (fun v => (val.value d).any (operator.compares d v.value)) he (fun _ => Iff.rfl) (fun _ => rfl)]
  refine and_congr_right (fun _ => ?_)
  unfold ProperLiteral
  cases hk : val.kind with
  | none =>
    simp only [literalCondition, bsonM_none hk, reduceCtorEq, false_implies, implies_true, and_true]
    by_cases hop : operator = .notRegexp <;> simp [hop, Condition.Valid]
  | some k =>
    cases hrelation : operator.relation with
    | some r =>
      have hne : operator ≠ .notRegexp := by
        rintro rfl
        cases hrelation
      have hmongo := relation_sqlOperatorToMongo hrelation
      simp only [literalCondition, if_neg hne, bsonM_some hk, valid_relation hmongo, true_and,
        selects_relation hmongo (scalar_operandAs _ _), value_of_kind hk, Option.any_some,
        compares_relation hrelation, Option.some.injEq]
      have hiff := holds_convertAs_iff r k val.val (d := d)
      simp only [@eq_comm _ k]
      rw [hiff]
      cases k <;> simp
    | none =>
      by_cases hregexp : k = .string ∧ (operator = .regexp ∨ operator = .notRegexp)
      · obtain ⟨rfl, hop⟩ := hregexp
        obtain ⟨hvalid, hselects⟩ := selects_pattern (d := d) hk hop
        simp only [ne_eq, not_true_eq_false, false_or, hop, iff_true, hvalid, true_and, value_of_kind hk,
          Option.any_some, Option.some.injEq]
        exact fun v hv => hselects v hv.symm
      · have hinvalid := not_valid_literal (d := d) hk hrelation hregexp
        simp only [hinvalid, false_and, false_iff]
        cases k <;> simp_all

end Literal

section Tuple

def arrayAs (d : Dialect N) (k : Kind) (texts : List Text) : BsonValue N :=
  match k with
  | .int => .ints (texts.map atoiNum)
  | .float => .floats (texts.map d.parseFloat)
  | .string => .strings texts

theorem array_arrayAs (k : Kind) (texts : List Text) :
    (arrayAs d k texts).array d = some (texts.map (convertAs d k)) := by
  cases k <;> simp [arrayAs, BsonValue.array, convertAs]

theorem scalar_arrayAs (k : Kind) (texts : List Text) : (arrayAs d k texts).scalar d = none := by
  cases k <;> rfl

theorem bsonMArray_none {vals : List SQLVal} (h : vals.head?.bind SQLVal.kind = none) (op : MongoOp) :
    bsonMArray d op vals = .empty := by
  cases vals with
  | nil => rfl
  | cons val vals =>
    obtain ⟨type, s⟩ := val
    cases type <;> cases h <;> rfl

theorem bsonMArray_some {vals : List SQLVal} {k : Kind} (h : vals.head?.bind SQLVal.kind = some k)
    (op : MongoOp) : bsonMArray d op vals = .op op (arrayAs d k (vals.map SQLVal.val)) := by
  cases vals with
  | nil => cases h
  | cons val vals =>
    obtain ⟨type, s⟩ := val
    cases type <;> cases h <;> simp [bsonMArray, arrayAs]

theorem converted_some {vals : List SQLVal} {k : Kind} (h : vals.head?.bind SQLVal.kind = some k) :
    converted d vals = (vals.map SQLVal.val).map (convertAs d k) := by
  rw [converted, h]
  simp

theorem mapM_id_eq {elems : List (Option SQLVal)} {vals : List SQLVal} (h : elems.mapM id = some vals) :
    elems = vals.map some := by
  induction elems generalizing vals with
  | nil =>
    cases h
    rfl
  | cons elem elems ih =>
    rw [List.mapM_cons] at h
    cases elem with
    | none => cases h
    | some val =>
      cases hrest : elems.mapM id with
      | none =>
        rw [hrest] at h
        cases h
      | some rest =>
        rw [hrest] at h
        cases h
        rw [ih hrest, List.map_cons]

def TypedList (vals : List SQLVal) (v : Scalar d) : Prop := ∃ val ∈ vals, val.kind = some v.kind

theorem typedList_head {vals : List SQLVal} {k : Kind} (h : vals.head?.bind SQLVal.kind = some k)
    {v : Scalar d} (hv : v.kind = k) : TypedList vals v := by
  obtain ⟨val, hval, hkind⟩ := Option.bind_eq_some_iff.mp h
  exact ⟨val, List.mem_of_head? hval, hkind.trans (congrArg some hv.symm)⟩

theorem sameElements_iff (vals : List SQLVal) :
    SameElements d vals ↔ ∀ v : Scalar d, TypedList vals v →
      (v.value ∈ converted d vals ↔ v.value ∈ vals.filterMap (SQLVal.value d)) := by
  constructor
  · rintro h v ⟨val, hval, hkind⟩
    by_cases hx : v.value ∈ converted d vals ++ vals.filterMap (SQLVal.value d)
    · exact h _ hx ⟨v, val, hval, hkind, rfl⟩
    · rw [List.mem_append, not_or] at hx
      simp [hx]
  · rintro h x - ⟨v, val, hval, hkind, rfl⟩
    exact h v ⟨val, hval, hkind⟩

theorem sameElements_of_kind {vals : List SQLVal} {k : Kind} (h : ∀ val ∈ vals, val.kind = some k)
    (hint : k = .int → ∀ val ∈ vals, minInt ≤ integer val.val ∧ integer val.val ≤ maxInt) :
    SameElements d vals := by
  have hconverted : converted d vals = vals.filterMap (SQLVal.value d) := by
    cases vals with
    | nil => rfl
    | cons first rest =>
      have hhead : (first :: rest).head?.bind SQLVal.kind = some k := h first List.mem_cons_self
      rw [converted, hhead]
      dsimp only
      rw [← List.filterMap_eq_map]
      refine List.filterMap_congr (fun val hval => ?_)
      rw [value_of_kind (h val hval)]
      by_cases hk : k = .int
      · subst hk
        have hrange := hint rfl val hval
        have hatoi : atoiNum val.val = integer val.val := by
          have hcases := atoiNum_cases val.val
          omega
        simp [convertAs, valueAs, hatoi]
      · simp [convertAs_eq hk]
  intro x _ _
  rw [hconverted]

theorem not_sameElements_of_string {vals : List SQLVal} {k : Kind}
    (hfirst : vals.head?.bind SQLVal.kind = some k) (hk : k ≠ .string) {val : SQLVal} (hval : val ∈ vals)
    (hstring : val.kind = some .string) : ¬ SameElements d vals := by
  rw [sameElements_iff]
  intro h
  have hlisted : Value.string val.val ∈ vals.filterMap (SQLVal.value d) :=
    List.mem_filterMap.mpr ⟨val, hval, value_of_kind hstring⟩
  have hmem := (h (.string val.val) ⟨val, hval, hstring⟩).mpr hlisted
  rw [converted_some hfirst] at hmem
  obtain ⟨s, -, hs⟩ := List.mem_map.mp hmem
  cases k with
  | int => cases hs
  | float => cases hs
  | string => exact hk rfl

def FaithfulList (d : Dialect N) (operator : ComparisonOp) (vals : List SQLVal) : Prop :=
  (bsonMArray d (sqlOperatorToMongo operator) vals).Valid d ∧
    ∀ v : Scalar d, TypedList vals v →
      (bsonMArray d (sqlOperatorToMongo operator) vals).selects d v.value =
        operator.comparesTuple v.value (vals.filterMap (SQLVal.value d))

theorem forall_attained_iff (vals : List SQLVal) (P : Value N → Prop) :
    (∀ x, Attained d vals x → P x) ↔ ∀ v : Scalar d, TypedList vals v → P v.value := by
  constructor
  · rintro h v ⟨val, hval, hkind⟩
    exact h v.value ⟨v, val, hval, hkind, rfl⟩
  · rintro h x ⟨v, val, hval, hkind, rfl⟩
    exact h v ⟨val, hval, hkind⟩

theorem faithfulList_none_iff {vals : List SQLVal} (h : vals.head?.bind SQLVal.kind = none)
    (operator : ComparisonOp) : FaithfulList d operator vals ↔ ProperList d operator vals := by
  have hconverted : converted d vals = [] := by rw [converted, h]
  unfold FaithfulList
  simp only [bsonMArray_none h, Condition.Valid, Condition.selects, true_and]
  by_cases hin : operator = .inList
  · subst hin
    simp [ProperList, sameElements_iff, hconverted, ComparisonOp.comparesTuple]
  · by_cases hnin : operator = .notIn
    · subst hnin
      simp [ProperList, h, forall_attained_iff, ComparisonOp.comparesTuple]
    · cases operator <;> simp_all [ProperList, ComparisonOp.comparesTuple]

theorem faithfulList_in_iff {vals : List SQLVal} {k : Kind} (h : vals.head?.bind SQLVal.kind = some k) :
    FaithfulList d .inList vals ↔ SameElements d vals := by
  have harray := array_arrayAs (d := d) k (vals.map SQLVal.val)
  rw [← converted_some h] at harray
  unfold FaithfulList
  rw [bsonMArray_some h, sameElements_iff]
  simp [Condition.Valid, Condition.selects, MongoOp.selects, MongoOp.relation, sqlOperatorToMongo, harray,
    ComparisonOp.comparesTuple]

theorem faithfulList_notIn_iff {vals : List SQLVal} {k : Kind} (h : vals.head?.bind SQLVal.kind = some k) :
    FaithfulList d .notIn vals ↔ SameElements d vals := by
  have harray := array_arrayAs (d := d) k (vals.map SQLVal.val)
  rw [← converted_some h] at harray
  unfold FaithfulList
  rw [bsonMArray_some h, sameElements_iff]
  simp only [Condition.Valid, Condition.selects, MongoOp.selects, MongoOp.relation, sqlOperatorToMongo,
    harray, Option.isSome_some, Option.any_some, ComparisonOp.comparesTuple, decide_eq_decide, not_iff_not,
    true_and]

theorem faithfulList_relation_iff {vals : List SQLVal} {k : Kind}
    (h : vals.head?.bind SQLVal.kind = some k) {operator : ComparisonOp} {r : Relation}
    (hr : operator.relation = some r) : FaithfulList d operator vals ↔ operator ≠ .notEqual := by
  have hmongo := relation_sqlOperatorToMongo hr
  have htuple : ∀ x : Value N, operator.comparesTuple x (vals.filterMap (SQLVal.value d)) = false := by
    intro x
    cases operator <;> cases hr <;> rfl
  have hne : operator = .notEqual ↔ r = .ne := by
    cases operator <;> cases hr <;> simp
  unfold FaithfulList
  simp only [bsonMArray_some h, valid_relation hmongo, true_and, htuple, Condition.selects, MongoOp.selects,
    hmongo, scalar_arrayAs, decide_eq_false_iff_not, ne_eq, hne]
  obtain ⟨v, hv⟩ := exists_scalar d k
  exact ⟨fun hall => hall v (typedList_head h hv), fun hr _ _ => hr⟩

theorem not_faithfulList {vals : List SQLVal} {k : Kind} (h : vals.head?.bind SQLVal.kind = some k)
    {operator : ComparisonOp} (hr : operator.relation = none) (hin : operator ≠ .inList)
    (hnin : operator ≠ .notIn) : ¬ FaithfulList d operator vals := by
  rintro ⟨hvalid, -⟩
  rw [bsonMArray_some h] at hvalid
  cases operator <;> cases hr <;> cases k <;>
    simp_all [sqlOperatorToMongo, Condition.Valid, arrayAs]

theorem faithfulList_iff (operator : ComparisonOp) (vals : List SQLVal) :
    FaithfulList d operator vals ↔ ProperList d operator vals := by
  cases h : vals.head?.bind SQLVal.kind with
  | none => exact faithfulList_none_iff h operator
  | some k =>
    by_cases hin : operator = .inList
    · subst hin
      exact faithfulList_in_iff h
    · by_cases hnin : operator = .notIn
      · subst hnin
        rw [faithfulList_notIn_iff h, ProperList, if_neg (by simp [h])]
      · have hproper : ProperList d operator vals ↔ operator.relation ≠ none ∧ operator ≠ .notEqual := by
          cases operator <;> simp_all [ProperList]
        rw [hproper]
        cases hr : operator.relation with
        | some r => simp [faithfulList_relation_iff h hr]
        | none => simp [not_faithfulList h hr hin hnin]

theorem faithful_tuple_iff (operator : ComparisonOp) (cn : ColName) (elems : List (Option SQLVal)) :
    Faithful d (.comparison operator (.colName cn) (.valTuple elems)) ↔
      ∀ vals, elems.mapM id = some vals → Field (keyFromColumnName cn) ∧ ProperList d operator vals := by
  cases hvals : elems.mapM id with
  | none => simp [Faithful, Means, getBSONFromExpression, processComparisonExpr, hvals, wrongValue]
  | some vals =>
    have he : getBSONFromExpression d (.comparison operator (.colName cn) (.valTuple elems)) =
        .ok (.field (keyFromColumnName cn) (bsonMArray d (sqlOperatorToMongo operator) vals)) := by
      simp [getBSONFromExpression, processComparisonExpr, hvals]
    have helems := mapM_id_eq hvals
    rw [faithful_field_iff (TypedList vals)
      (fun v => operator.comparesTuple v.value (vals.filterMap (SQLVal.value d))) he]
    · simp [← faithfulList_iff, FaithfulList]
    · intro doc
      simp [Expr.Typed, TypedList, helems]
    · intro doc
      simp [Expr.holds, tupleValues, helems, List.filterMap_map]

end Tuple

section Range

theorem range_atoiNum_iff (s s' : Text) :
    (∀ m, minInt ≤ m ∧ m ≤ maxInt →
      (atoiNum s ≤ m ∧ m ≤ atoiNum s' ↔ integer s ≤ m ∧ m ≤ integer s')) ↔
      ¬ (maxInt < integer s ∧ maxInt ≤ integer s') ∧ ¬ (integer s' < minInt ∧ integer s ≤ minInt) := by
  have hlt : minInt < maxInt := by decide
  have hcases := atoiNum_cases s
  have hcases' := atoiNum_cases s'
  constructor
  · intro h
    have hmin := h minInt ⟨Int.le_refl _, by omega⟩
    have hmax := h maxInt ⟨by omega, Int.le_refl _⟩
    omega
  · intro h m hm
    omega

theorem lt_eq_not_ge (k : Kind) {v : Scalar d} (hv : v.kind = k) (s : Text) :
    Relation.lt.holds v.value (convertAs d k s) = !Relation.ge.holds v.value (convertAs d k s) := by
  subst hv
  cases v <;>
    simp only [Scalar.kind, Scalar.value, convertAs, Relation.holds, ← decide_not, ge_iff_le, not_le]

theorem gt_eq_not_le (k : Kind) {v : Scalar d} (hv : v.kind = k) (s : Text) :
    Relation.gt.holds v.value (convertAs d k s) = !Relation.le.holds v.value (convertAs d k s) := by
  subst hv
  cases v <;>
    simp only [Scalar.kind, Scalar.value, convertAs, Relation.holds, ← decide_not, gt_iff_lt, not_le]

def within (x y z : Value N) : Bool := Relation.ge.holds x y && Relation.le.holds x z

theorem within_convertAs_iff (k : Kind) (s s' : Text) :
    (∀ v : Scalar d, v.kind = k →
      within v.value (convertAs d k s) (convertAs d k s') = within v.value (valueAs d k s) (valueAs d k s')) ↔
      (k = .int → ¬ (maxInt < integer s ∧ maxInt ≤ integer s') ∧
        ¬ (integer s' < minInt ∧ integer s ≤ minInt)) := by
  by_cases hk : k = .int
  · subst hk
    have hwithin : ∀ m n n' : ℤ, within (.number (d.ofInt m)) (.number (d.ofInt n)) (.number (d.ofInt n')) =
        decide (n ≤ m ∧ m ≤ n') := by
      intro m n n'
      simp [within, Relation.holds]
    simp only [true_implies]
    rw [← range_atoiNum_iff]
    constructor
    · intro h m hm
      have hv := h (.int m hm) rfl
      simpa only [Scalar.value, convertAs, valueAs, hwithin, decide_eq_decide] using hv
    · intro h v hv
      obtain ⟨m, hm, hvalue⟩ := scalar_int hv
      simpa only [hvalue, convertAs, valueAs, hwithin, decide_eq_decide] using h m hm
  · simp [hk, convertAs_eq hk]

def rangeFilter (d : Dialect N) (between : Bool) (key : Text) (lower upper : SQLVal) : Filter N :=
  if between then .and (.field key (bsonM d .gte lower)) (.field key (bsonM d .lte upper))
  else .or (.field key (bsonM d .lt lower)) (.field key (bsonM d .gt upper))

theorem valid_bsonM (op : MongoOp) (r : Relation) (h : op.relation = some r) (val : SQLVal) :
    (bsonM d op val).Valid d := by
  cases hk : val.kind with
  | none =>
    rw [bsonM_none hk]
    trivial
  | some k =>
    rw [bsonM_some hk]
    exact valid_relation h _

theorem valid_rangeFilter (between : Bool) (key : Text) (lower upper : SQLVal) :
    (rangeFilter d between key lower upper).Valid d ↔ Field key := by
  cases between
  · simp [rangeFilter, Filter.Valid, valid_bsonM .lt .lt rfl, valid_bsonM .gt .gt rfl]
  · simp [rangeFilter, Filter.Valid, valid_bsonM .gte .ge rfl, valid_bsonM .lte .le rfl]

theorem selects_rangeFilter {between : Bool} {key : Text} {lower upper : SQLVal} {doc : Document d}
    (hlower : lower.kind = some (doc key).kind) (hupper : upper.kind = some (doc key).kind) :
    (rangeFilter d between key lower upper).selects d doc =
      (within (doc key).value (convertAs d (doc key).kind lower.val)
        (convertAs d (doc key).kind upper.val) == between) := by
  cases between
  · simp only [rangeFilter, Filter.selects, bsonM_some hlower, bsonM_some hupper, Bool.false_eq_true, if_false]
    rw [selects_relation rfl (scalar_operandAs _ _), selects_relation rfl (scalar_operandAs _ _),
      lt_eq_not_ge _ rfl, gt_eq_not_le _ rfl, within]
    simp
  · simp only [rangeFilter, Filter.selects, bsonM_some hlower, bsonM_some hupper, if_true]
    rw [selects_relation rfl (scalar_operandAs _ _), selects_relation rfl (scalar_operandAs _ _), within]
    simp

theorem faithful_range_iff (between : Bool) (cn : ColName) (lower upper : SQLVal) :
    Faithful d (.range between (.colName cn) (.sqlVal lower) (.sqlVal upper)) ↔
      Field (keyFromColumnName cn) ∧ ProperRange lower upper := by
  have he : getBSONFromExpression d (.range between (.colName cn) (.sqlVal lower) (.sqlVal upper)) =
      .ok (rangeFilter d between (keyFromColumnName cn) lower upper) := by
    cases between <;> rfl
  unfold Faithful
  rw [he]
  simp only [Means, valid_rangeFilter]
  refine and_congr_right (fun _ => ?_)
  by_cases hkinds : ∃ k, lower.kind = some k ∧ upper.kind = some k
  · obtain ⟨k, hlower, hupper⟩ := hkinds
    have hproper : ProperRange lower upper ↔ (k = .int →
        ¬ (maxInt < integer lower.val ∧ maxInt ≤ integer upper.val) ∧
          ¬ (integer upper.val < minInt ∧ integer lower.val ≤ minInt)) := by
      rw [ProperRange, hlower, hupper]
      simp only [Option.some.injEq]
      exact ⟨fun h hk => h hk hk, fun h hk _ => h hk⟩
    rw [hproper, ← within_convertAs_iff (d := d)]
    have hsame : ∀ a b : Bool, (a == between) = (b == between) ↔ a = b := by
      intro a b
      cases a <;> cases b <;> cases between <;> decide
    constructor
    · intro h v hv
      have hdoc := h (fun _ => v) ⟨hlower.trans (congrArg some hv.symm), hupper.trans (congrArg some hv.symm)⟩
      rw [selects_rangeFilter (hlower.trans (congrArg some hv.symm))
        (hupper.trans (congrArg some hv.symm))] at hdoc
      simp only [Expr.holds, value_of_kind hlower, value_of_kind hupper, hv] at hdoc
      exact (hsame _ _).mp hdoc
    · rintro h doc ⟨hlower', hupper'⟩
      have hv : (doc (keyFromColumnName cn)).kind = k := Option.some.inj (hlower'.symm.trans hlower)
      rw [selects_rangeFilter hlower' hupper']
      simp only [Expr.holds, value_of_kind hlower, value_of_kind hupper, hv]
      exact (hsame _ _).mpr (h _ hv)
  · constructor
    · intro _ hlower hupper
      exact absurd ⟨.int, hlower, hupper⟩ hkinds
    · rintro - doc ⟨hlower, hupper⟩
      exact absurd ⟨_, hlower, hupper⟩ hkinds

end Range

section Tree

theorem Means.combine {op : Filter N → Filter N → Filter N} {typed typed' : Document d → Prop}
    {holds holds' : Document d → Bool} {x y : Except Failure (Filter N)} (combine : Bool → Bool → Bool)
    (hvalid : ∀ f g : Filter N, f.Valid d → g.Valid d → (op f g).Valid d)
    (hselects : ∀ (f g : Filter N) (doc : Document d),
      (op f g).selects d doc = combine (f.selects d doc) (g.selects d doc))
    (hx : Means d typed holds x) (hy : Means d typed' holds' y) :
    Means d (fun doc => typed doc ∧ typed' doc) (fun doc => combine (holds doc) (holds' doc))
      (processAndOrExpression op x y) := by
  cases x with
  | error err => cases err <;> exact hx
  | ok f =>
    cases y with
    | error err => cases err <;> exact hy
    | ok g =>
      refine ⟨hvalid f g hx.1 hy.1, fun doc htyped => ?_⟩
      rw [hselects, hx.2 doc htyped.1, hy.2 doc htyped.2]

theorem Faithful.and {left right : Expr} (hl : Faithful d left) (hr : Faithful d right) :
    Faithful d (.and left right) :=
  Means.combine Bool.and (fun _ _ hf hg => ⟨hf, hg⟩) (fun _ _ _ => rfl) hl hr

theorem Faithful.or {left right : Expr} (hl : Faithful d left) (hr : Faithful d right) :
    Faithful d (.or left right) :=
  Means.combine Bool.or (fun _ _ hf hg => ⟨hf, hg⟩) (fun _ _ _ => rfl) hl hr

theorem Expr.Everywhere.here {P : Expr → Prop} {e : Expr} (h : e.Everywhere P) : P e := by
  cases e with
  | and left right | or left right | paren expr => exact h.1
  | comparison operator left right | range between left lower upper | operand o => exact h

theorem faithful_comparison_iff (operator : ComparisonOp) (left right : Operand) :
    Faithful d (.comparison operator left right) ↔ Proper d (.comparison operator left right) := by
  cases left with
  | colName cn =>
    cases right with
    | sqlVal val => exact faithful_literal_iff operator cn val
    | valTuple elems => exact faithful_tuple_iff operator cn elems
    | colName _ | other _ => exact Iff.rfl
  | sqlVal _ | valTuple _ | other _ => exact Iff.rfl

theorem faithful_rangeCond_iff (between : Bool) (left lower upper : Operand) :
    Faithful d (.range between left lower upper) ↔ Proper d (.range between left lower upper) := by
  cases left with
  | colName cn =>
    cases lower with
    | sqlVal fromVal =>
      cases upper with
      | sqlVal toVal => exact faithful_range_iff between cn fromVal toVal
      | colName _ | valTuple _ | other _ => exact Iff.rfl
    | colName _ | valTuple _ | other _ => exact Iff.rfl
  | sqlVal _ | valTuple _ | other _ => exact Iff.rfl

theorem everywhere_faithful {e : Expr} (h : e.Everywhere (Proper d)) : e.Everywhere (Faithful d) := by
  induction e with
  | comparison operator left right => exact (faithful_comparison_iff operator left right).mpr h
  | range between left lower upper => exact (faithful_rangeCond_iff between left lower upper).mpr h
  | operand o => trivial
  | paren expr ih => exact ⟨(ih h.2).here, ih h.2⟩
  | and left right ihl ihr =>
    exact ⟨(ihl h.2.1).here.and (ihr h.2.2).here, ihl h.2.1, ihr h.2.2⟩
  | or left right ihl ihr => exact ⟨(ihl h.2.1).here.or (ihr h.2.2).here, ihl h.2.1, ihr h.2.2⟩

theorem mapM_isSome (elems : List (Option SQLVal)) : (elems.mapM id).isSome = elems.all Option.isSome := by
  induction elems with
  | nil => rfl
  | cons elem elems ih =>
    rw [List.mapM_cons, List.all_cons, ← ih]
    cases elem <;> cases elems.mapM id <;> rfl

theorem outcome_andOr {M : Type} {left right : Except Failure (Filter M)} (op : Filter M → Filter M → Filter M) :
    Outcome.of (processAndOrExpression op left right) =
      if Outcome.of left = .filter then Outcome.of right else Outcome.of left := by
  rcases left with (_ | _) | _ <;> rcases right with (_ | _) | _ <;> rfl

theorem outcome_eq (d : Dialect N) (e : Expr) : Outcome.of (getBSONFromExpression d e) = e.outcome := by
  induction e with
  | comparison operator left right =>
    cases left with
    | colName cn =>
      cases right with
      | sqlVal val =>
        simp only [getBSONFromExpression, processComparisonExpr]
        split <;> rfl
      | valTuple elems =>
        simp only [getBSONFromExpression, processComparisonExpr, Expr.outcome, ← mapM_isSome]
        cases elems.mapM id <;> rfl
      | colName _ | other _ => rfl
    | sqlVal _ | valTuple _ | other _ => rfl
  | range between left lower upper =>
    cases left with
    | colName cn =>
      cases lower with
      | sqlVal fromVal =>
        cases upper with
        | sqlVal toVal =>
          simp only [getBSONFromExpression, processRangeCond]
          split <;> rfl
        | colName _ | valTuple _ | other _ => rfl
      | colName _ | valTuple _ | other _ => rfl
    | sqlVal _ | valTuple _ | other _ => rfl
  | operand o => rfl
  | paren expr ih => exact ih
  | and left right ihl ihr | or left right ihl ihr =>
    rw [getBSONFromExpression, outcome_andOr, ihl, ihr, Expr.outcome]

/-- The expression is refused before a type assertion fails, or all of its comparisons and
ranges are proper. -/
def Translatable (d : Dialect N) (e : Expr) : Prop := e.outcome = .error ∨ e.Everywhere (Proper d)

theorem Translatable.faithful {e : Expr} (h : Translatable d e) : Faithful d e := by
  obtain h | h := h
  · rw [← outcome_eq d e] at h
    unfold Faithful
    generalize getBSONFromExpression d e = result at h
    rcases result with (_ | _) | _
    · cases h
    · trivial
    · cases h
  · exact (everywhere_faithful h).here

theorem getSort_error {orderBy : List Order} {err : Failure}
    (h : getSortBSONFromOrderArray orderBy = .error err) : ∃ message, err = .error message := by
  unfold getSortBSONFromOrderArray at h
  split at h
  · split at h <;> cases h
    exact ⟨_, rfl⟩
  · cases h
    exact ⟨_, rfl⟩

/-- A query that can be translated is answered with an error or with the documents it asks for. -/
theorem bsonFromSQL_faithful {parse : Text → Except Text Statement} {query : Text} {e : Expr}
    {orderBy : List Order} (hparse : parse (text "select * from whatever where " ++ query) = .ok (.select e orderBy))
    (h : Translatable d e) :
    Means d (fun doc => e.Typed doc) (fun doc => e.holds d doc)
      ((bsonFromSQL d parse query).map (fun result => result.1)) := by
  have hfaithful : Faithful d e := h.faithful
  unfold Faithful at hfaithful
  unfold bsonFromSQL
  rw [hparse]
  dsimp only
  generalize getBSONFromExpression d e = result at hfaithful
  cases result with
  | error err => cases err <;> exact hfaithful
  | ok f =>
    dsimp only
    by_cases horder : orderBy.length = 0
    · rw [if_pos horder]
      exact hfaithful
    · rw [if_neg horder]
      cases hsort : getSortBSONFromOrderArray orderBy with
      | ok sortMongo => exact hfaithful
      | error err =>
        obtain ⟨message, rfl⟩ := getSort_error hsort
        trivial

end Tree

end Asapo.Broker.Query
