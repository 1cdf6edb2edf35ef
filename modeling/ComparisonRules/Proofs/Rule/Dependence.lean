import ComparisonRules.Proofs.Rule.Evaluation
import ComparisonRules.Proofs.Rule.Fields

/-!
# What evaluation sees of a record

A comparison looks at one field, so a rule looks at most at the fields that it compares. Two
records that give these fields the same values are the same to it. More entries can only make a
difference where a field was missing: they take away that failure, and nothing else.
-/

namespace ComparisonRules

/-! ## Outcomes that are kept -/

section

variable {ε α β : Type} {yields : ε → Prop}

/-- The second outcome is the first one, except that a failure that yields may become
anything. -/
def Keeps (yields : ε → Prop) (x y : Except ε α) : Prop :=
  y = x ∨ ∃ e, yields e ∧ x = .error e

theorem Keeps.refl (x : Except ε α) : Keeps yields x x := .inl rfl

theorem Keeps.bind {x y : Except ε α} {f g : α → Except ε β} (h : Keeps yields x y)
    (hnext : ∀ a, Keeps yields (f a) (g a)) : Keeps yields (x >>= f) (y >>= g) := by
  rcases h with rfl | ⟨e, he, rfl⟩
  · cases y with
    | error e => exact .refl _
    | ok a => exact hnext a
  · exact .inr ⟨e, he, rfl⟩

theorem Keeps.eq {x y : Except ε α} (h : Keeps yields x y)
    (hx : ∀ e, yields e → x ≠ .error e) : y = x := by
  rcases h with h | ⟨e, he, h⟩
  · exact h
  · exact absurd h (hx e he)

end

/-! ## Records as comparisons see them -/

/-- The values are the same to every comparison: one value, or two numbers that are equal, such
as the zeros. -/
def Value.Alike (value other : Value) : Prop :=
  value = other ∨ value.equals other = true

theorem Value.Alike.compare? {value other : Value} (h : Alike value other) (literal : Value) :
    value.compare? literal = other.compare? literal := by
  rcases h with rfl | h
  · rfl
  cases value with
  | number n =>
      cases other with
      | string _ => cases h
      | number m =>
          have hposition : n.position? = m.position? := Number.position?_of_equals h
          cases literal with
          | string _ => rfl
          | number k => simp only [Value.compare?, Number.compare?, hposition]
  | string s =>
      cases other with
      | number _ => cases h
      | string t =>
          have hst : s = t := by simpa [equals] using h
          rw [hst]

theorem Value.Alike.typeName {value other : Value} (h : Alike value other) :
    value.typeName = other.typeName := by
  rcases h with rfl | h
  · rfl
  · exact typeName_of_equals h

namespace Record

/-- The records have the same of the given fields, with values that are alike. -/
def AgreeOn (fields : List String) (record other : Record) : Prop :=
  ∀ field ∈ fields, Option.Rel Value.Alike (record.get? field) (other.get? field)

/-- Every entry of the record is one of the other. -/
def ExtendsTo (record other : Record) : Prop :=
  ∀ field value, record.get? field = some value → other.get? field = some value

end Record

section

variable {record other : Record}

theorem Comparison.holds_of_alike {c : Comparison}
    (h : Option.Rel Value.Alike (record.get? c.field) (other.get? c.field)) :
    c.holds record = c.holds other := by
  unfold holds
  generalize record.get? c.field = value at h
  generalize other.get? c.field = value' at h
  cases h with
  | none => rfl
  | some h => simp only [h.compare?, h.typeName]

theorem Comparison.holds_eq_unknownField {c : Comparison} {field : String} :
    c.holds record = .error (.unknownField field) ↔
      c.field = field ∧ record.get? c.field = none := by
  obtain ⟨name, comparator, literal⟩ := c
  cases hvalue : record.get? name with
  | none => simp [holds_of_missing hvalue]
  | some value =>
      cases hcompare : value.compare? literal with
      | some found => simp [holds_of_compare?_eq_some hvalue hcompare]
      | none =>
          rw [holds_of_compare?_eq_none hvalue hcompare]
          split <;> simp

theorem Comparison.holds_keeps (h : record.ExtendsTo other) (c : Comparison) :
    Keeps (fun e => ∃ field, e = .unknownField field) (c.holds record) (c.holds other) := by
  cases hvalue : record.get? c.field with
  | none => exact .inr ⟨_, ⟨c.field, rfl⟩, holds_eq_unknownField.mpr ⟨rfl, hvalue⟩⟩
  | some value =>
      refine .inl (holds_of_alike ?_).symm
      rw [hvalue, h _ _ hvalue]
      exact .some (.inl rfl)

end

namespace Rule

variable {record other : Record}

theorem evaluate_keeps {yields : EvalError → Prop} (rule : Rule)
    (h : ∀ c ∈ rule.comparisons, Keeps yields (c.holds record) (c.holds other))
    (traced : Bool) :
    Keeps yields (rule.evaluate record traced) (rule.evaluate other traced) := by
  induction rule with
  | leaf c =>
      rw [evaluate_leaf, evaluate_leaf]
      exact (h c (by simp [comparisons])).bind fun result => .refl _
  | join left connective right ihLeft ihRight =>
      have hleft := ihLeft fun c hc => h c (List.mem_append_left _ hc)
      have hright := ihRight fun c hc => h c (List.mem_append_right _ hc)
      rw [evaluate_join, evaluate_join]
      refine hleft.bind fun first => ?_
      cases connective.settledBy first.matched with
      | true => exact .refl _
      | false => exact hright.bind fun second => .refl _

theorem evaluate_of_agreeOn {rule : Rule} (h : Record.AgreeOn rule.fields record other)
    (traced : Bool) : rule.evaluate record traced = rule.evaluate other traced := by
  have hholds : ∀ c ∈ rule.comparisons,
      Keeps (fun _ => False) (c.holds record) (c.holds other) := fun c hc =>
    .inl (Comparison.holds_of_alike (h _ (mem_fields.mpr ⟨c, hc, rfl⟩))).symm
  exact ((evaluate_keeps rule hholds traced).eq fun _ hfalse => hfalse.elim).symm

theorem get?_eq_none_of_unknownField {rule : Rule} {traced : Bool} {field : String}
    (h : rule.evaluate record traced = .error (.unknownField field)) :
    field ∈ rule.fields ∧ record.get? field = none := by
  obtain ⟨c, hc, hholds⟩ := exists_holds_eq_error h
  obtain ⟨rfl, hnone⟩ := Comparison.holds_eq_unknownField.mp hholds
  exact ⟨mem_fields.mpr ⟨c, hc, rfl⟩, hnone⟩

/-- The fields of a rule are those of its comparisons, each once and in order of first use, and
they are all that its evaluation sees of a record. Only a field among them that the record does
not have is unknown. More entries change nothing for a record on which no field is unknown. -/
theorem evaluate_depends_on_fields (rule : Rule) :
    (rule.fields.Nodup ∧
      (∀ field, field ∈ rule.fields ↔ ∃ c ∈ rule.comparisons, c.field = field) ∧
      rule.fields.Pairwise fun field later =>
        (rule.comparisons.map Comparison.field).idxOf field
          < (rule.comparisons.map Comparison.field).idxOf later) ∧
    (∀ record other, Record.AgreeOn rule.fields record other →
      ∀ traced, rule.evaluate record traced = rule.evaluate other traced) ∧
    (∀ record : Record, (∀ field ∈ rule.fields, ∃ value, record.get? field = some value) →
      ∀ traced field, rule.evaluate record traced ≠ .error (.unknownField field)) ∧
    (∀ (record : Record) traced field,
      rule.evaluate record traced = .error (.unknownField field) →
        field ∈ rule.fields ∧ record.get? field = none) ∧
    ∀ record other, Record.ExtendsTo record other → ∀ traced outcome,
      rule.evaluate record traced = outcome →
      ((∃ evaluation, outcome = .ok evaluation) ∨
        ∃ field comparator expected found,
          outcome = .error (.typeMismatch field comparator expected found)) →
      rule.evaluate other traced = outcome := by
  have horder := pairwise_idxOf_eraseDups (rule.comparisons.map Comparison.field)
  rw [← fields_eq_eraseDups] at horder
  refine ⟨⟨horder.imp ?_, fun _ => mem_fields, horder⟩, ?_, ?_, ?_, ?_⟩
  · rintro field _ hlt rfl
    exact Nat.lt_irrefl _ hlt
  · intro record other hagree traced
    exact evaluate_of_agreeOn hagree traced
  · intro record hfields traced field h
    obtain ⟨hfield, hnone⟩ := get?_eq_none_of_unknownField h
    obtain ⟨value, hvalue⟩ := hfields field hfield
    rw [hnone] at hvalue
    cases hvalue
  · intro record traced field h
    exact get?_eq_none_of_unknownField h
  · rintro record other hextends traced outcome rfl hkept
    have hkeeps := evaluate_keeps rule (fun c _ => Comparison.holds_keeps hextends c) traced
    refine hkeeps.eq ?_
    rintro _ ⟨unknown, rfl⟩ h
    rcases hkept with ⟨evaluation, hok⟩ | ⟨field, comparator, expected, found, hmismatch⟩
    · rw [h] at hok
      cases hok
    · rw [h] at hmismatch
      cases hmismatch

/-- The two zeros are alike, a string instead of a number is the wrong type with and without
other entries, and other entries alone leave the field unknown. -/
theorem evaluate_depends_on_fields_age :
    (leaf ⟨"age", .less, .number (.signed false .zero)⟩).evaluate
        (Record.ofList [("age", .number (.signed true .zero))]) true
      = (leaf ⟨"age", .less, .number (.signed false .zero)⟩).evaluate
        (Record.ofList [("team", .string "b"), ("age", .number (.signed false .zero))]) true ∧
    (leaf ⟨"age", .less, .number (.signed false .zero)⟩).evaluate
        (Record.ofList [("age", .number (.signed true .zero))]) true
      ≠ .error (.unknownField "age") ∧
    ("age" ∈ (leaf ⟨"age", .less, .number (.signed false .zero)⟩).fields ∧
      (Record.ofList [("team", .string "b")]).get? "age" = none) ∧
    (leaf ⟨"age", .less, .number (.signed false .zero)⟩).evaluate
        (Record.ofList [("team", .string "b"), ("age", .string "x")]) true
      = .error (.typeMismatch "age" .less "number" "string") := by
  have hdepends :=
    evaluate_depends_on_fields (leaf ⟨"age", .less, .number (.signed false .zero)⟩)
  refine ⟨hdepends.2.1 _ _ ?_ true, hdepends.2.2.1 _ ?_ true "age",
    hdepends.2.2.2.1 _ true "age" rfl,
    hdepends.2.2.2.2 (Record.ofList [("age", .string "x")]) _ ?_ true _ rfl ?_⟩
  · intro field hfield
    obtain rfl := List.mem_singleton.mp hfield
    exact .some (.inr (by decide))
  · intro field hfield
    obtain rfl := List.mem_singleton.mp hfield
    exact ⟨_, rfl⟩
  · intro field value h
    by_cases hfield : field = "age"
    · subst hfield
      exact h
    · change List.lookup field [("age", .string "x")] = some value at h
      rw [List.lookup_cons, beq_eq_false_iff_ne.mpr hfield] at h
      cases h
  · exact .inr ⟨_, _, _, _, rfl⟩

end Rule

end ComparisonRules
