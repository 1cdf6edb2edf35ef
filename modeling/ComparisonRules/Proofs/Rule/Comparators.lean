import ComparisonRules.Proofs.Number.Rank
import ComparisonRules.Proofs.Rule.Evaluation
import ComparisonRules.Proofs.Text.Order

/-!
# Comparators between values

Two values of one type stand in an order, unless one of them is not a number, and the six
comparators are read off how they compare there. Numbers and strings have their orders from
integers and texts, so what composes there composes here. Outside the order no comparator holds
but the one that says that the values differ.
-/

namespace ComparisonRules

/-! ## Compared values -/

/-- What a comparison over two steps may be, for a first and a second step as given. -/
structure Composes (first second both : Ordering) : Prop where
  lt : first = .lt → second.isLE = true → both = .lt
  gt : first = .gt → second.isGE = true → both = .gt
  isLE : first.isLE = true → second.isLE = true → both.isLE = true

theorem composes_compare {α : Type} [Ord α] [Std.TransOrd α] (a b c : α) :
    Composes (compare a b) (compare b c) (compare a c) where
  lt := Std.TransCmp.lt_of_lt_of_isLE
  gt := Std.TransCmp.gt_of_gt_of_isGE
  isLE := Std.TransCmp.isLE_trans

/-- The value of a number in multiples of the smallest positive one, where infinity stands for the
number that would follow the last finite one. -/
def Number.units? : Number → Option Int
  | nan => none
  | signed false m => some (Magnitude.unitsOfRank m.rank)
  | signed true m => some (-Magnitude.unitsOfRank m.rank)

theorem Number.exists_position {n : Number} (h : n ≠ .nan) : ∃ p, n.position? = some p := by
  cases n with
  | nan => exact absurd rfl h
  | signed negative m => cases negative <;> exact ⟨_, rfl⟩

theorem Number.ne_nan_of_units {n : Number} {v : Int} (h : n.units? = some v) : n ≠ .nan := by
  rintro rfl
  cases h

theorem Number.units_lt_iff {n m : Number} {p q v w : Int} (hp : n.position? = some p)
    (hq : m.position? = some q) (hv : n.units? = some v) (hw : m.units? = some w) :
    v < w ↔ p < q := by
  have hzero : Magnitude.unitsOfRank 0 = 0 := Magnitude.unitsOfRank_of_lt (by decide)
  have hlt (rank rank' : Nat) :
      Magnitude.unitsOfRank rank < Magnitude.unitsOfRank rank' ↔ rank < rank' :=
    Magnitude.unitsOfRank_lt_iff
  cases n with
  | nan => cases hp
  | signed negative r =>
      cases m with
      | nan => cases hq
      | signed negative' r' =>
          have hfirst := hlt r.rank r'.rank
          have hsecond := hlt r'.rank r.rank
          have hpos := hlt 0 r.rank
          have hpos' := hlt 0 r'.rank
          cases negative <;> cases negative' <;> cases hp <;> cases hq <;> cases hv <;>
            cases hw <;> omega

namespace Value

/-- Both values have a place in one order, where they compare as given. -/
inductive Compares : Value → Value → Ordering → Prop where
  | numbers {n m : Number} {p q : Int} {order : Ordering} (hn : n.position? = some p)
      (hm : m.position? = some q) (h : compare p q = order) :
      Compares (number n) (number m) order
  | strings {s t : String} {order : Ordering} (h : compare s t = order) :
      Compares (string s) (string t) order

section

variable {value other literal : Value} {order order' : Ordering}

theorem compare?_eq_some_some :
    value.compare? literal = some (some order) ↔ Compares value literal order := by
  constructor
  · intro h
    cases value with
    | number n =>
        cases literal with
        | string t => cases h
        | number m =>
            simp only [compare?, Number.compare?, Option.some.injEq] at h
            split at h
            · rename_i p q hn hm
              exact .numbers hn hm (Option.some.inj h)
            · cases h
    | string s =>
        cases literal with
        | number m => cases h
        | string t => exact .strings (Option.some.inj (Option.some.inj h))
  · intro h
    cases h with
    | numbers hn hm h => simp only [compare?, Number.compare?, hn, hm, h]
    | strings h => simp only [compare?, h]

theorem Compares.swap (h : Compares value literal order) :
    Compares literal value order.swap := by
  cases h with
  | numbers hn hm h => exact .numbers hm hn (h ▸ Std.OrientedCmp.eq_swap)
  | strings h => exact .strings (h ▸ Std.OrientedCmp.eq_swap)

theorem Compares.trans (h : Compares value other order) (h' : Compares other literal order') :
    ∃ both, Compares value literal both ∧ Composes order order' both := by
  cases h with
  | @numbers n m p q _ hn hm h =>
      cases h' with
      | @numbers _ k q' r _ hm' hk h' =>
          obtain rfl : q = q' := Option.some.inj (hm.symm.trans hm')
          exact ⟨_, .numbers hn hk rfl, h ▸ h' ▸ composes_compare p q r⟩
  | @strings s t _ h =>
      cases h' with
      | @strings _ u _ h' => exact ⟨_, .strings rfl, h ▸ h' ▸ composes_compare s t u⟩

theorem Compares.unique (h : Compares value literal order) (h' : Compares value literal order') :
    order = order' :=
  Option.some.inj (Option.some.inj
    ((compare?_eq_some_some.mpr h).symm.trans (compare?_eq_some_some.mpr h')))

theorem exists_compares (htype : value.typeName = literal.typeName)
    (hvalue : value ≠ number .nan) (hliteral : literal ≠ number .nan) :
    ∃ order, Compares value literal order := by
  cases value with
  | number n =>
      cases literal with
      | string t => simp [typeName] at htype
      | number m =>
          obtain ⟨p, hp⟩ := Number.exists_position fun hn => hvalue (congrArg number hn)
          obtain ⟨q, hq⟩ := Number.exists_position fun hm => hliteral (congrArg number hm)
          exact ⟨_, .numbers hp hq rfl⟩
  | string s =>
      cases literal with
      | number m => simp [typeName] at htype
      | string t => exact ⟨_, .strings rfl⟩

theorem compare?_eq_none (htype : value.typeName ≠ literal.typeName) :
    value.compare? literal = none := by
  cases value <;> cases literal <;> first | rfl | exact absurd rfl htype

end

/-- The comparator holds between the values, in whatever field of whatever record the first of
them is found. -/
def Meets (value : Value) (comparator : Comparator) (literal : Value) : Prop :=
  ∀ field record, Record.get? record field = some value →
    Comparison.holds ⟨field, comparator, literal⟩ record = .ok true

section

variable {value literal : Value} {comparator : Comparator} {record : Record} {field : String}

theorem Compares.holds_eq_ok {order : Ordering} (hcompares : Compares value literal order)
    (h : record.get? field = some value) (comparator : Comparator) :
    Comparison.holds ⟨field, comparator, literal⟩ record
      = .ok (comparator.accepts (some order)) :=
  Comparison.holds_of_compare?_eq_some h (compare?_eq_some_some.mpr hcompares) comparator

theorem holds_iff_meets (h : record.get? field = some value) :
    Comparison.holds ⟨field, comparator, literal⟩ record = .ok true ↔
      value.Meets comparator literal := by
  refine ⟨fun hholds field' record' h' => ?_, fun hmeets => hmeets field record h⟩
  cases hcompare : value.compare? literal with
  | some found =>
      rw [Comparison.holds_of_compare?_eq_some h hcompare] at hholds
      rw [Comparison.holds_of_compare?_eq_some h' hcompare, hholds]
  | none =>
      rw [Comparison.holds_of_compare?_eq_none h hcompare] at hholds
      rw [Comparison.holds_of_compare?_eq_none h' hcompare]
      split at hholds
      · cases hholds
      · rename_i hordering
        rw [if_neg hordering, hholds]

theorem meets_iff (hcomparator : comparator ≠ .notEqual) :
    value.Meets comparator literal ↔
      ∃ order, Compares value literal order ∧ comparator.accepts (some order) = true := by
  have hget : (Record.ofList [("", value)]).get? "" = some value := rfl
  have hnone : comparator.accepts none = false := by
    cases comparator <;> first | rfl | exact absurd rfl hcomparator
  rw [← holds_iff_meets hget]
  constructor
  · intro h
    cases hcompare : value.compare? literal with
    | none =>
        rw [Comparison.holds_of_compare?_eq_none hget hcompare, hnone] at h
        split at h <;> cases h
    | some found =>
        rw [Comparison.holds_of_compare?_eq_some hget hcompare] at h
        have haccepts := Except.ok.inj h
        cases found with
        | none => cases hnone.symm.trans haccepts
        | some order => exact ⟨order, compare?_eq_some_some.mp hcompare, haccepts⟩
  · rintro ⟨order, hcompares, haccepts⟩
    rw [hcompares.holds_eq_ok hget, haccepts]

theorem meets_iff_compares {order : Ordering} (hcomparator : comparator ≠ .notEqual)
    (haccepts : ∀ found, comparator.accepts (some found) = (found == order)) :
    value.Meets comparator literal ↔ Compares value literal order := by
  rw [meets_iff hcomparator]
  constructor
  · rintro ⟨found, hcompares, h⟩
    rw [haccepts, beq_iff_eq] at h
    rwa [h] at hcompares
  · intro hcompares
    exact ⟨order, hcompares, by rw [haccepts, beq_self_eq_true]⟩

theorem meets_less : value.Meets .less literal ↔ Compares value literal .lt :=
  meets_iff_compares (by decide) fun _ => rfl

theorem meets_greater : value.Meets .greater literal ↔ Compares value literal .gt :=
  meets_iff_compares (by decide) fun _ => rfl

theorem meets_equal : value.Meets .equal literal ↔ Compares value literal .eq :=
  meets_iff_compares (by decide) fun _ => rfl

theorem meets_lessOrEqual :
    value.Meets .lessOrEqual literal ↔
      ∃ order, Compares value literal order ∧ order.isLE = true := by
  rw [meets_iff (by decide)]
  exact exists_congr fun order => and_congr_right fun _ => by cases order <;> decide

theorem meets_greaterOrEqual :
    value.Meets .greaterOrEqual literal ↔
      ∃ order, Compares value literal order ∧ order.isGE = true := by
  rw [meets_iff (by decide)]
  exact exists_congr fun order => and_congr_right fun _ => by cases order <;> decide

theorem compares_number {n m : Number} {p q : Int} {order : Ordering} (hp : n.position? = some p)
    (hq : m.position? = some q) :
    Compares (number n) (number m) order ↔ compare p q = order := by
  refine ⟨fun h => ?_, .numbers hp hq⟩
  exact (Compares.numbers hp hq rfl).unique h

theorem compares_string {s t : String} {order : Ordering} :
    Compares (string s) (string t) order ↔ compare s t = order := by
  refine ⟨fun h => ?_, .strings⟩
  cases h with
  | strings h => exact h

end

/-! ## The order of values -/

section

variable {x a b : Value}

theorem Meets.less_of_less_of_lessOrEqual (h : x.Meets .less a) (h' : a.Meets .lessOrEqual b) :
    x.Meets .less b := by
  obtain ⟨order, hcompares', hle⟩ := meets_lessOrEqual.mp h'
  obtain ⟨both, hcompares, hcomposes⟩ := (meets_less.mp h).trans hcompares'
  rw [hcomposes.lt rfl hle] at hcompares
  exact meets_less.mpr hcompares

theorem Meets.greater_of_greater_of_greaterOrEqual (h : x.Meets .greater a)
    (h' : a.Meets .greaterOrEqual b) : x.Meets .greater b := by
  obtain ⟨order, hcompares', hge⟩ := meets_greaterOrEqual.mp h'
  obtain ⟨both, hcompares, hcomposes⟩ := (meets_greater.mp h).trans hcompares'
  rw [hcomposes.gt rfl hge] at hcompares
  exact meets_greater.mpr hcompares

theorem Meets.lessOrEqual_trans (h : x.Meets .lessOrEqual a) (h' : a.Meets .lessOrEqual b) :
    x.Meets .lessOrEqual b := by
  obtain ⟨order, hcompares, hle⟩ := meets_lessOrEqual.mp h
  obtain ⟨order', hcompares', hle'⟩ := meets_lessOrEqual.mp h'
  obtain ⟨both, hboth, hcomposes⟩ := hcompares.trans hcompares'
  exact meets_lessOrEqual.mpr ⟨both, hboth, hcomposes.isLE hle hle'⟩

theorem lessOrEqual_both_iff_equal :
    x.Meets .lessOrEqual a ∧ a.Meets .lessOrEqual x ↔ x.Meets .equal a := by
  constructor
  · rintro ⟨h, h'⟩
    obtain ⟨order, hcompares, hle⟩ := meets_lessOrEqual.mp h
    obtain ⟨order', hcompares', hle'⟩ := meets_lessOrEqual.mp h'
    obtain rfl := hcompares.swap.unique hcompares'
    cases order with
    | lt => cases hle'
    | eq => exact meets_equal.mpr hcompares
    | gt => cases hle
  · intro h
    have hcompares := meets_equal.mp h
    exact ⟨meets_lessOrEqual.mpr ⟨_, hcompares, rfl⟩,
      meets_lessOrEqual.mpr ⟨_, hcompares.swap, rfl⟩⟩

theorem lessOrEqual_total (htype : x.typeName = a.typeName) (hx : x ≠ number .nan)
    (ha : a ≠ number .nan) : x.Meets .lessOrEqual a ∨ a.Meets .lessOrEqual x := by
  obtain ⟨order, hcompares⟩ := exists_compares htype hx ha
  by_cases hle : order.isLE = true
  · exact .inl (meets_lessOrEqual.mpr ⟨order, hcompares, hle⟩)
  · refine .inr (meets_lessOrEqual.mpr ⟨order.swap, hcompares.swap, ?_⟩)
    cases order <;> first | rfl | exact absurd rfl hle

theorem less_number_iff {n m : Number} {v w : Int} (hv : n.units? = some v)
    (hw : m.units? = some w) : (number n).Meets .less (number m) ↔ v < w := by
  obtain ⟨p, hp⟩ := Number.exists_position (Number.ne_nan_of_units hv)
  obtain ⟨q, hq⟩ := Number.exists_position (Number.ne_nan_of_units hw)
  rw [meets_less, compares_number hp hq, Number.units_lt_iff hp hq hv hw]
  exact compareOfLessAndEq_eq_lt

theorem equal_number_iff {n m : Number} {v w : Int} (hv : n.units? = some v)
    (hw : m.units? = some w) : (number n).Meets .equal (number m) ↔ v = w := by
  obtain ⟨p, hp⟩ := Number.exists_position (Number.ne_nan_of_units hv)
  obtain ⟨q, hq⟩ := Number.exists_position (Number.ne_nan_of_units hw)
  have hlt := Number.units_lt_iff hp hq hv hw
  have hgt := Number.units_lt_iff hq hp hw hv
  rw [meets_equal, compares_number hp hq, Std.LawfulEqCmp.compare_eq_iff_eq]
  omega

theorem less_string_iff {s t : String} :
    (string s).Meets .less (string t) ↔ Text.bytes s < Text.bytes t := by
  rw [meets_less, compares_string, Text.bytes_lt_iff]
  exact compareOfLessAndEq_eq_lt

theorem equal_string_iff {s t : String} : (string s).Meets .equal (string t) ↔ s = t := by
  rw [meets_equal, compares_string]
  exact Std.LawfulEqCmp.compare_eq_iff_eq

end

end Value

/-! ## The six comparators together -/

/-- The results of the comparators on two values of an order. -/
structure Comparator.Coherent (result : Comparator → Bool) : Prop where
  one : [result .less, result .equal, result .greater].count true = 1
  lessOrEqual : result .lessOrEqual = (result .less || result .equal)
  greaterOrEqual : result .greaterOrEqual = (result .greater || result .equal)
  notEqual : result .notEqual = !result .equal

theorem Comparator.coherent_accepts (order : Ordering) :
    Coherent fun comparator => comparator.accepts (some order) := by
  cases order <;> exact ⟨rfl, rfl, rfl, rfl⟩

namespace Comparison

section

variable {record : Record} {field : String} {value literal : Value}

theorem holds_of_types (h : record.get? field = some value)
    (htype : value.typeName ≠ literal.typeName) (comparator : Comparator) :
    holds ⟨field, comparator, literal⟩ record =
      match comparator with
      | .equal => .ok false
      | .notEqual => .ok true
      | _ => .error (.typeMismatch field comparator literal.typeName value.typeName) := by
  rw [holds_of_compare?_eq_none h (Value.compare?_eq_none htype)]
  cases comparator <;> rfl

theorem holds_of_nan {n m : Number} (h : record.get? field = some (.number n))
    (hnan : n = .nan ∨ m = .nan) (comparator : Comparator) :
    holds ⟨field, comparator, .number m⟩ record = .ok (comparator == .notEqual) := by
  have hcompare : Value.compare? (.number n) (.number m) = some none := by
    rcases hnan with rfl | rfl <;> simp [Value.compare?]
  rw [holds_of_compare?_eq_some h hcompare]
  cases comparator <;> rfl

theorem exists_coherent (h : record.get? field = some value)
    (htype : value.typeName = literal.typeName) (hvalue : value ≠ .number .nan)
    (hliteral : literal ≠ .number .nan) :
    ∃ result : Comparator → Bool, Comparator.Coherent result ∧
      ∀ comparator, holds ⟨field, comparator, literal⟩ record = .ok (result comparator) := by
  obtain ⟨order, hcompares⟩ := Value.exists_compares htype hvalue hliteral
  exact ⟨_, Comparator.coherent_accepts order, hcompares.holds_eq_ok h⟩

end

/-- A missing field is unknown to every comparator. Values of different types are unequal and
have no order, and what is not a number differs from every number. Otherwise the comparators
agree on one order of the two values. Whether a comparator holds depends on the two values
alone; values of a type are in a total order but for what is not a number: numbers in that of
their values, and strings in that of their bytes, which is that of their code points. -/
theorem comparators_cohere :
    (∀ (record : Record) (field : String) (literal : Value),
      (record.get? field = none → ∀ comparator,
        holds ⟨field, comparator, literal⟩ record = .error (.unknownField field)) ∧
      ∀ value, record.get? field = some value →
        (value.typeName ≠ literal.typeName → ∀ comparator,
          holds ⟨field, comparator, literal⟩ record =
            match comparator with
            | .equal => .ok false
            | .notEqual => .ok true
            | _ => .error (.typeMismatch field comparator literal.typeName value.typeName)) ∧
        (∀ n m, value = .number n → literal = .number m → n = .nan ∨ m = .nan →
          ∀ comparator, holds ⟨field, comparator, literal⟩ record
            = .ok (comparator == .notEqual)) ∧
        (value.typeName = literal.typeName → value ≠ .number .nan → literal ≠ .number .nan →
          ∃ result : Comparator → Bool, Comparator.Coherent result ∧
            ∀ comparator, holds ⟨field, comparator, literal⟩ record
              = .ok (result comparator)) ∧
        ∀ comparator, holds ⟨field, comparator, literal⟩ record = .ok true ↔
          value.Meets comparator literal) ∧
    (∀ x a b : Value, x.Meets .less a → a.Meets .lessOrEqual b → x.Meets .less b) ∧
    (∀ x a b : Value, x.Meets .greater a → a.Meets .greaterOrEqual b → x.Meets .greater b) ∧
    (∀ x a b : Value,
      x.Meets .lessOrEqual a → a.Meets .lessOrEqual b → x.Meets .lessOrEqual b) ∧
    (∀ x a : Value, x.Meets .lessOrEqual a ∧ a.Meets .lessOrEqual x ↔ x.Meets .equal a) ∧
    (∀ x a : Value, x.typeName = a.typeName → x ≠ .number .nan → a ≠ .number .nan →
      x.Meets .lessOrEqual a ∨ a.Meets .lessOrEqual x) ∧
    (∀ (n m : Number) (v w : Int), n.units? = some v → m.units? = some w →
      (Value.Meets (.number n) .less (.number m) ↔ v < w) ∧
      (Value.Meets (.number n) .equal (.number m) ↔ v = w)) ∧
    ∀ s t : String,
      (Value.Meets (.string s) .less (.string t) ↔ Text.bytes s < Text.bytes t) ∧
      (Text.bytes s < Text.bytes t ↔ Text.codePoints s < Text.codePoints t) ∧
      (Value.Meets (.string s) .equal (.string t) ↔ s = t) := by
  refine ⟨fun record field literal => ⟨holds_of_missing, fun value hvalue =>
    ⟨holds_of_types hvalue, ?_, exists_coherent hvalue, fun _ => Value.holds_iff_meets hvalue⟩⟩,
    fun x a b => Value.Meets.less_of_less_of_lessOrEqual,
    fun x a b => Value.Meets.greater_of_greater_of_greaterOrEqual,
    fun x a b => Value.Meets.lessOrEqual_trans, fun x a => Value.lessOrEqual_both_iff_equal,
    fun x a => Value.lessOrEqual_total,
    fun n m v w hv hw => ⟨Value.less_number_iff hv hw, Value.equal_number_iff hv hw⟩,
    fun s t => ⟨Value.less_string_iff, ?_, Value.equal_string_iff⟩⟩
  · rintro n m rfl rfl hnan comparator
    exact holds_of_nan hvalue hnan comparator
  · rw [Text.bytes_lt_iff, Text.codePoints_lt_iff]

/-- A field that is not there, a string and a number, a field that is not a number, the two zeros,
and letters in their order: the second of them takes two bytes. -/
theorem comparators_cohere_zeros :
    holds ⟨"a", .less, .string "z"⟩ .empty = .error (.unknownField "a") ∧
    holds ⟨"a", .less, .number .nan⟩ (Record.ofList [("a", .string "z")])
      = .error (.typeMismatch "a" .less "number" "string") ∧
    holds ⟨"a", .notEqual, .number (.signed true .zero)⟩ (Record.ofList [("a", .number .nan)])
      = .ok true ∧
    (∃ result : Comparator → Bool, Comparator.Coherent result ∧
      ∀ comparator, holds ⟨"a", comparator, .number (.signed true .zero)⟩
        (Record.ofList [("a", .number (.signed false .zero))]) = .ok (result comparator)) ∧
    Value.Meets (.string "z") .less (.string "é") ∧
    Value.Meets (.string "é") .greater (.string "z") ∧
    Value.Meets (.string "z") .lessOrEqual (.string "é") ∧
    (Value.Meets (.string "z") .lessOrEqual (.string "é") ∨
      Value.Meets (.string "é") .lessOrEqual (.string "z")) ∧
    Value.Meets (.number (.signed false .zero)) .equal (.number (.signed true .zero)) := by
  obtain ⟨hfield, hless, hgreater, hlessOrEqual, hequal, htotal, hnumber, hstring⟩ :=
    comparators_cohere
  have hmissing := (hfield .empty "a" (.string "z")).1 rfl .less
  have hmismatch := ((hfield (Record.ofList [("a", .string "z")]) "a" (.number .nan)).2 _
    rfl).1 (by decide) .less
  have hnan := ((hfield (Record.ofList [("a", .number .nan)]) "a"
    (.number (.signed true .zero))).2 _ rfl).2.1 .nan (.signed true .zero) rfl rfl (.inl rfl)
  have hzeros := ((hfield (Record.ofList [("a", .number (.signed false .zero))]) "a"
    (.number (.signed true .zero))).2 (.number (.signed false .zero)) rfl).2.2.1 rfl (by decide)
    (by decide)
  have hmeets : Value.Meets (.string "z") .less (.string "é") :=
    (hstring "z" "é").1.mpr (by decide +kernel)
  have hmeets' : Value.Meets (.string "é") .greater (.string "z") :=
    Value.meets_greater.mpr (Value.meets_less.mp hmeets).swap
  have hself : ∀ s, Value.Meets (.string s) .equal (.string s) := fun s =>
    (hstring s s).2.2.mpr rfl
  have hle : Value.Meets (.string "z") .lessOrEqual (.string "é") :=
    Value.meets_lessOrEqual.mpr ⟨.lt, Value.meets_less.mp hmeets, rfl⟩
  have hge : Value.Meets (.string "z") .greaterOrEqual (.string "z") :=
    Value.meets_greaterOrEqual.mpr ⟨.eq, Value.meets_equal.mp (hself "z"), rfl⟩
  exact ⟨hmissing, hmismatch, hnan .notEqual, hzeros,
    hless _ _ _ hmeets ((hequal _ _).mpr (hself "é")).2, hgreater _ _ _ hmeets' hge,
    hlessOrEqual _ _ _ hle ((hequal _ _).mpr (hself "é")).2,
    htotal _ _ rfl (by decide) (by decide), (hnumber _ _ 0 0 rfl rfl).2.mpr rfl⟩

end Comparison

end ComparisonRules
