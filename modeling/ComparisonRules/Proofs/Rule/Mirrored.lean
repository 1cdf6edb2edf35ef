import ComparisonRules.Proofs.Rule.Comparators
import ComparisonRules.Proofs.Rule.Steps

/-!
# Comparisons written backwards

A comparison may be written with its literal first. Turned around, with the flipped comparator,
it says the same: the tokens derive the same rule, however many comparisons of a rule are turned
around and wherever they stand. And the flipped comparator is the right one. It mirrors how two
values compare, also where they have no order or are of different types.
-/

namespace ComparisonRules

/-! ## Flipped comparators -/

theorem Value.compare?_swap (a b : Value) :
    b.compare? a = (a.compare? b).map (Option.map Ordering.swap) := by
  cases a with
  | string s =>
      cases b with
      | number m => rfl
      | string t =>
          have hswap : compare t s = (compare s t).swap := Std.OrientedCmp.eq_swap
          simp only [Value.compare?, Option.map_some, hswap]
  | number n =>
      cases b with
      | string t => rfl
      | number m =>
          simp only [Value.compare?, Number.compare?, Option.map_some]
          cases n.position? with
          | none => cases m.position? <;> rfl
          | some p =>
              cases m.position? with
              | none => rfl
              | some q =>
                  have hswap : compare q p = (compare p q).swap := Std.OrientedCmp.eq_swap
                  simp only [Option.map_some, hswap]

namespace Comparator

theorem isOrdering_flip (c : Comparator) : c.flip.isOrdering = c.isOrdering := by
  cases c <;> rfl

/-- A negated comparator would not do: nothing but `!=` accepts values that have no order, before
and after it is flipped. -/
theorem accepts_flip (c : Comparator) (order : Option Ordering) :
    c.flip.accepts (order.map Ordering.swap) = c.accepts order := by
  cases order with
  | none => cases c <;> rfl
  | some o => cases c <;> cases o <;> rfl

end Comparator

namespace Comparison

section

variable {record record' : Record} {field field' : String} {a b : Value}

theorem holds_flip_eq_ok (h : record.get? field = some a) (h' : record'.get? field' = some b)
    (comparator : Comparator) (result : Bool) :
    holds ⟨field', comparator.flip, a⟩ record' = .ok result ↔
      holds ⟨field, comparator, b⟩ record = .ok result := by
  have hswap := Value.compare?_swap a b
  cases hcompare : a.compare? b with
  | some order =>
      rw [hcompare, Option.map_some] at hswap
      rw [holds_of_compare?_eq_some h hcompare, holds_of_compare?_eq_some h' hswap,
        Comparator.accepts_flip]
  | none =>
      rw [hcompare, Option.map_none] at hswap
      have haccepts : comparator.flip.accepts none = comparator.accepts none :=
        comparator.accepts_flip none
      rw [holds_of_compare?_eq_none h hcompare, holds_of_compare?_eq_none h' hswap,
        Comparator.isOrdering_flip, haccepts]
      split <;> simp

theorem holds_eq_ok_or_typeMismatch (h : record.get? field = some a) (comparator : Comparator) :
    (∃ result, holds ⟨field, comparator, b⟩ record = .ok result) ∨
      holds ⟨field, comparator, b⟩ record
        = .error (.typeMismatch field comparator b.typeName a.typeName) := by
  cases hcompare : a.compare? b with
  | some order => exact .inl ⟨_, holds_of_compare?_eq_some h hcompare comparator⟩
  | none =>
      rw [holds_of_compare?_eq_none h hcompare]
      split
      · exact .inr rfl
      · exact .inl ⟨_, rfl⟩

theorem holds_flip_eq_typeMismatch (h : record.get? field = some a)
    (h' : record'.get? field' = some b) (comparator : Comparator) :
    holds ⟨field', comparator.flip, a⟩ record'
        = .error (.typeMismatch field' comparator.flip a.typeName b.typeName) ↔
      holds ⟨field, comparator, b⟩ record
        = .error (.typeMismatch field comparator b.typeName a.typeName) := by
  have hok := holds_flip_eq_ok h h' comparator
  rcases holds_eq_ok_or_typeMismatch h comparator (b := b) with ⟨result, hresult⟩ | hmismatch
  · simp [(hok result).mpr hresult, hresult]
  · rcases holds_eq_ok_or_typeMismatch h' comparator.flip (b := a) with
      ⟨result, hresult⟩ | hmismatch'
    · rw [(hok result).mp hresult] at hmismatch
      cases hmismatch
    · simp only [hmismatch, hmismatch']

end

end Comparison

namespace Rule

/-! ## Tokens turned around -/

/-- A name and a literal, in either order: the two sides of a comparison. -/
def Faces (left right : Token) : Prop :=
  left.kind = .identifier ∧ right.kind.isLiteral = true ∨
    left.kind.isLiteral = true ∧ right.kind = .identifier

/-- Any comparisons among the tokens are written backwards: the sides have changed places, and
between them stands a token of the flipped comparator. -/
inductive Mirrored : List Token → List Token → Prop where
  | nil : Mirrored [] []
  | keep {token : Token} {rest rest' : List Token} :
      Mirrored rest rest' → Mirrored (token :: rest) (token :: rest')
  | turn {left operator operator' right : Token} {comparator : Comparator}
      {rest rest' : List Token} :
      Faces left right → operator.kind = .comparator comparator →
      operator'.kind = .comparator comparator.flip → Mirrored rest rest' →
      Mirrored (left :: operator :: right :: rest) (right :: operator' :: left :: rest')

/-- The token is no part of a comparison. -/
def IsApart (token : Token) : Prop :=
  token.kind ≠ .identifier ∧ token.kind.isLiteral = false ∧ token.kind.isComparator = false

theorem isApart_of_kind_eq {token : Token} {kind : Token.Kind} (h : token.kind = kind)
    (hkind : kind = .leftParen ∨ kind = .rightParen ∨ ∃ c, kind = .connective c) :
    IsApart token := by
  unfold IsApart
  rw [h]
  rcases hkind with rfl | rfl | ⟨c, rfl⟩ <;> exact ⟨by simp, rfl, rfl⟩

namespace Faces

variable {left right : Token}

theorem not_isApart_left (h : Faces left right) : ¬ IsApart left := by
  rintro ⟨hname, hliteral, -⟩
  rcases h with ⟨hleft, -⟩ | ⟨hleft, -⟩
  · exact hname hleft
  · rw [hliteral] at hleft
    cases hleft

theorem symm (h : Faces left right) : Faces right left :=
  h.elim (fun hname => .inr hname.symm) fun hliteral => .inl hliteral.symm

theorem groupStep_left (h : Faces left right) : groupStep left = 0 := by
  rcases h with ⟨hleft, -⟩ | ⟨hleft, -⟩
  · simp [groupStep, hleft]
  · rcases Token.Kind.isLiteral_iff.mp hleft with hleft | hleft <;> simp [groupStep, hleft]

theorem kind_left_ne (h : Faces left right) : left.kind ≠ .leftParen ∧ left.kind ≠ .endOfInput := by
  rcases h with ⟨hleft, -⟩ | ⟨hleft, -⟩
  · simp [hleft]
  · rcases Token.Kind.isLiteral_iff.mp hleft with hleft | hleft <;> simp [hleft]

end Faces

theorem not_isApart_of_comparator {operator : Token} {comparator : Comparator}
    (h : operator.kind = .comparator comparator) : ¬ IsApart operator := by
  rintro ⟨-, -, hcomparator⟩
  rw [h] at hcomparator
  cases hcomparator

namespace Mirrored

variable {back tokens tokens' : List Token} {token : Token}

theorem append_cons (h : Mirrored tokens tokens') (front : List Token)
    (heq : tokens = front ++ token :: back) (htoken : IsApart token) :
    ∃ front' back', tokens' = front' ++ token :: back' ∧ Mirrored front front' ∧
      Mirrored back back' := by
  induction h generalizing front with
  | nil => simp at heq
  | @keep first rest rest' hrest ih =>
      cases front with
      | nil =>
          obtain ⟨rfl, rfl⟩ := List.cons.inj heq
          exact ⟨[], rest', rfl, .nil, hrest⟩
      | cons head front =>
          obtain ⟨rfl, hbehind⟩ := List.cons.inj heq
          obtain ⟨front', back', rfl, hfront, hback⟩ := ih _ hbehind
          exact ⟨first :: front', back', rfl, .keep hfront, hback⟩
  | @turn left operator operator' right comparator rest rest' hfaces hoperator hoperator' hrest
      ih =>
      rcases front with _ | ⟨first, _ | ⟨second, _ | ⟨third, front⟩⟩⟩
      · obtain ⟨rfl, -⟩ := List.cons.inj heq
        exact absurd htoken hfaces.not_isApart_left
      · simp only [List.cons_append, List.nil_append, List.cons.injEq] at heq
        obtain ⟨-, rfl, -⟩ := heq
        exact absurd htoken (not_isApart_of_comparator hoperator)
      · simp only [List.cons_append, List.nil_append, List.cons.injEq] at heq
        obtain ⟨-, -, rfl, -⟩ := heq
        exact absurd htoken hfaces.symm.not_isApart_left
      · simp only [List.cons_append, List.cons.injEq] at heq
        obtain ⟨rfl, rfl, rfl, hbehind⟩ := heq
        obtain ⟨front', back', rfl, hfront, hback⟩ := ih _ hbehind
        exact ⟨_, back', rfl, .turn hfaces hoperator hoperator' hfront, hback⟩

theorem cons_apart (h : Mirrored (token :: back) tokens') (htoken : IsApart token) :
    ∃ back', tokens' = token :: back' ∧ Mirrored back back' := by
  obtain ⟨front', back', rfl, hfront, hback⟩ := h.append_cons [] rfl htoken
  cases hfront
  exact ⟨back', rfl, hback⟩

theorem groupsWithin_iff (h : Mirrored tokens tokens') (limit : Int) :
    GroupsWithin limit tokens ↔ GroupsWithin limit tokens' := by
  induction h generalizing limit with
  | nil => exact Iff.rfl
  | keep _ ih => rw [groupsWithin_cons, groupsWithin_cons, ih]
  | @turn left operator operator' right _ _ _ hfaces hoperator hoperator' _ ih =>
      have hstep : groupStep operator = 0 := by simp [groupStep, hoperator]
      have hstep' : groupStep operator' = 0 := by simp [groupStep, hoperator']
      simp [groupsWithin_cons, hfaces.kind_left_ne, hfaces.symm.kind_left_ne, hoperator,
        hoperator', hstep, hstep', hfaces.groupStep_left, hfaces.symm.groupStep_left, ih]

theorem inputOf (h : Mirrored tokens tokens') : Mirrored (inputOf tokens) (inputOf tokens') := by
  induction h with
  | nil => exact .nil
  | @keep first rest rest' _ ih =>
      by_cases hend : first.kind = .endOfInput
      · rw [inputOf_cons_of_eq hend, inputOf_cons_of_eq hend]
        exact .nil
      · rw [inputOf_cons_of_ne hend, inputOf_cons_of_ne hend]
        exact .keep ih
  | @turn left operator operator' right comparator rest rest' hfaces hoperator hoperator' _ ih =>
      have hleft := hfaces.kind_left_ne.2
      have hright := hfaces.symm.kind_left_ne.2
      rw [inputOf_cons_of_ne hleft, inputOf_cons_of_ne (by simp [hoperator]),
        inputOf_cons_of_ne hright, inputOf_cons_of_ne hright,
        inputOf_cons_of_ne (by simp [hoperator']), inputOf_cons_of_ne hleft]
      exact .turn hfaces hoperator hoperator' ih

end Mirrored

/-! ## The same rule -/

theorem Derives.mirrored_append {connective : Connective} {left rule : Rule}
    {first links tokens' : List Token} (h : Derives (.links connective left) links rule)
    (hmirrored : Mirrored (first ++ links) tokens') :
    ∃ first' links', tokens' = first' ++ links' ∧ Mirrored first first' ∧
      Mirrored links links' := by
  cases h with
  | done => exact ⟨tokens', [], by simp, by simpa using hmirrored, .nil⟩
  | @link _ joint operand rest _ _ _ hjoint _ _ =>
      obtain ⟨first', back', rfl, hfirst, hback⟩ :=
        hmirrored.append_cons first rfl (isApart_of_kind_eq hjoint (.inr (.inr ⟨_, rfl⟩)))
      exact ⟨first', joint :: back', rfl, hfirst, .keep hback⟩

theorem Derives.mirrored {phrase : Phrase} {tokens tokens' : List Token} {rule : Rule}
    (h : Derives phrase tokens rule) (hmirrored : Mirrored tokens tokens') :
    Derives phrase tokens' rule := by
  -- a comparison turned around is one of the other form, and flipping twice changes nothing
  induction h generalizing tokens' with
  | chain _ hlinks ihFirst ihLinks =>
      obtain ⟨first', links', rfl, hfirst', hlinks'⟩ := hlinks.mirrored_append hmirrored
      exact .chain (ihFirst hfirst') (ihLinks hlinks')
  | done =>
      cases hmirrored
      exact .done
  | link hjoint _ hlinks ihOperand ihLinks =>
      obtain ⟨behind, rfl, hbehind⟩ :=
        hmirrored.cons_apart (isApart_of_kind_eq hjoint (.inr (.inr ⟨_, rfl⟩)))
      obtain ⟨operand', links', rfl, hoperand', hlinks'⟩ := hlinks.mirrored_append hbehind
      exact .link hjoint (ihOperand hoperand') (ihLinks hlinks')
  | group hopening hclosing _ ih =>
      obtain ⟨behind, rfl, hbehind⟩ :=
        hmirrored.cons_apart (isApart_of_kind_eq hopening (.inl rfl))
      obtain ⟨inner', rest', rfl, hinner', hrest'⟩ :=
        hbehind.append_cons _ rfl (isApart_of_kind_eq hclosing (.inr (.inl rfl)))
      cases hrest'
      exact .group hopening hclosing (ih hinner')
  | fieldFirst hfield hoperator hliteral hvalue =>
      cases hmirrored with
      | keep hrest =>
          cases hrest with
          | keep hrest =>
              cases hrest with
              | keep hrest =>
                  cases hrest
                  exact .fieldFirst hfield hoperator hliteral hvalue
      | turn _ hoperator' hflipped hrest =>
          cases hrest
          rw [hoperator] at hoperator'
          cases hoperator'
          have hturned := Derives.literalFirst hliteral hvalue hflipped hfield
          rwa [Comparator.flip_flip] at hturned
  | literalFirst hliteral hvalue hoperator hfield =>
      cases hmirrored with
      | keep hrest =>
          cases hrest with
          | keep hrest =>
              cases hrest with
              | keep hrest =>
                  cases hrest
                  exact .literalFirst hliteral hvalue hoperator hfield
      | turn _ hoperator' hflipped hrest =>
          cases hrest
          rw [hoperator] at hoperator'
          cases hoperator'
          exact .fieldFirst hfield hflipped hliteral hvalue

theorem ofTokens_of_mirrored {tokens tokens' : List Token} {rule : Rule}
    (h : ofTokens tokens = .ok rule) (hmirrored : Mirrored tokens tokens') :
    ofTokens tokens' = .ok rule := by
  obtain ⟨hderives, hgroups, hdepth⟩ := derives_of_ofTokens h
  have hinput := hmirrored.inputOf
  exact ofTokens_of_derives (hderives.mirrored hinput)
    ((hinput.groupsWithin_iff _).mp hgroups) hdepth

/-! ## Literals first -/

theorem evaluate_literalFirst {record : Record} {field : String} {value literal : Value}
    (h : record.get? field = some value) (comparator : Comparator) (traced : Bool) :
    (∃ trace, (leaf ⟨field, comparator.flip, literal⟩).evaluate record traced
        = .ok ⟨true, trace⟩) ↔ literal.Meets comparator value := by
  have hget : (Record.ofList [("", literal)]).get? "" = some literal := rfl
  rw [← Value.holds_iff_meets hget, ← Comparison.holds_flip_eq_ok hget h]
  constructor
  · rintro ⟨trace, hevaluate⟩
    obtain ⟨result, hholds, heq⟩ := evaluate_leaf_eq_ok.mp hevaluate
    cases heq
    exact hholds
  · intro hholds
    exact ⟨_, evaluate_leaf_eq_ok.mpr ⟨true, hholds, rfl⟩⟩

/-- Writing comparisons backwards does not change what a rule is read from tokens. On a record with
one value for the field, a comparison with another value as its literal has the outcome that the
flipped comparison has with the two values exchanged: the same result, or the same failure with
the types exchanged. So a literal in front of a field is the left operand of its comparator. -/
theorem same_written_backwards :
    (∀ tokens tokens' rule, ofTokens tokens = .ok rule → Mirrored tokens tokens' →
      ofTokens tokens' = .ok rule) ∧
    (∀ (a b : Value) (comparator : Comparator) (field : String),
      let straight := Comparison.holds ⟨field, comparator, b⟩ (Record.ofList [(field, a)])
      let backwards := Comparison.holds ⟨field, comparator.flip, a⟩ (Record.ofList [(field, b)])
      (∀ result, straight = .ok result ↔ backwards = .ok result) ∧
      (straight = .error (.typeMismatch field comparator b.typeName a.typeName) ↔
        backwards = .error (.typeMismatch field comparator.flip a.typeName b.typeName)) ∧
      ((∃ result, straight = .ok result) ∨
        straight = .error (.typeMismatch field comparator b.typeName a.typeName))) ∧
    ∀ (literal operator field : Token) (comparator : Comparator),
      literal.kind.isLiteral = true → operator.kind = .comparator comparator →
      field.kind = .identifier → ∃ rule, ofTokens [literal, operator, field] = .ok rule ∧
        ∀ record value traced, Record.get? record field.lexeme = some value →
          ((∃ trace, rule.evaluate record traced = .ok ⟨true, trace⟩) ↔
            (literalOf literal).Meets comparator value) := by
  refine ⟨fun tokens tokens' rule => ofTokens_of_mirrored, ?_, ?_⟩
  · intro a b comparator field
    have hget (value : Value) : (Record.ofList [(field, value)]).get? field = some value :=
      List.lookup_cons_self
    exact ⟨fun result => (Comparison.holds_flip_eq_ok (hget a) (hget b) comparator result).symm,
      (Comparison.holds_flip_eq_typeMismatch (hget a) (hget b) comparator).symm,
      Comparison.holds_eq_ok_or_typeMismatch (hget a) comparator⟩
  · intro literal operator field comparator hliteral hoperator hfield
    have hkind := Token.Kind.isLiteral_iff.mp hliteral
    have hterm := Derives.literalFirst hkind (denotes_iff.mpr rfl) hoperator hfield
    have hends : ∀ token ∈ [literal, operator, field],
        token.kind ≠ .leftParen ∧ token.kind ≠ .endOfInput := by
      rcases hkind with hkind | hkind <;> simp [hkind, hoperator, hfield]
    have hinput := inputOf_append (fun token htoken => (hends token htoken).2) []
    rw [List.append_nil] at hinput
    refine ⟨_, ofTokens_of_derives ?_ ?_ (Nat.zero_le _), fun record value traced h =>
      evaluate_literalFirst h comparator traced⟩
    · rw [hinput, inputOf, List.takeWhile_nil, List.append_nil]
      exact (hterm.operand_of_term .or).chain_of_operand
    · rw [hinput, inputOf, List.takeWhile_nil, List.append_nil]
      exact groupsWithin_of_forall_ne fun token htoken => (hends token htoken).1

/-- Two of three comparisons are written backwards, one of them in a group and one without a value
on its literal. A field that equals the literal is not below it. -/
theorem same_written_backwards_in_group :
    ofTokens [⟨.leftParen, "(", none, 0⟩, ⟨.identifier, "a", none, 1⟩,
        ⟨.comparator .greaterOrEqual, ">=", none, 3⟩, ⟨.string, "x", none, 6⟩,
        ⟨.connective .or, "OR", none, 9⟩, ⟨.identifier, "b", none, 12⟩,
        ⟨.comparator .notEqual, "!=", none, 14⟩, ⟨.string, "'y'", some (.string "y"), 17⟩,
        ⟨.rightParen, ")", none, 20⟩, ⟨.connective .and, "AND", none, 22⟩,
        ⟨.identifier, "c", none, 26⟩, ⟨.comparator .less, "<", none, 28⟩,
        ⟨.string, "'z'", some (.string "z"), 30⟩]
      = .ok (.join (.join (.leaf ⟨"a", .greaterOrEqual, .string "x"⟩) .or
          (.leaf ⟨"b", .notEqual, .string "y"⟩)) .and (.leaf ⟨"c", .less, .string "z"⟩)) ∧
    ofTokens [⟨.leftParen, "(", none, 0⟩, ⟨.string, "x", none, 6⟩,
        ⟨.comparator .lessOrEqual, "<=", none, 3⟩, ⟨.identifier, "a", none, 1⟩,
        ⟨.connective .or, "OR", none, 9⟩, ⟨.identifier, "b", none, 12⟩,
        ⟨.comparator .notEqual, "!=", none, 14⟩, ⟨.string, "'y'", some (.string "y"), 17⟩,
        ⟨.rightParen, ")", none, 20⟩, ⟨.connective .and, "AND", none, 22⟩,
        ⟨.string, "'z'", some (.string "z"), 30⟩, ⟨.comparator .greater, ">", none, 28⟩,
        ⟨.identifier, "c", none, 26⟩]
      = .ok (.join (.join (.leaf ⟨"a", .greaterOrEqual, .string "x"⟩) .or
          (.leaf ⟨"b", .notEqual, .string "y"⟩)) .and (.leaf ⟨"c", .less, .string "z"⟩)) ∧
    ∃ rule, ofTokens [⟨.string, "'z'", some (.string "z"), 0⟩, ⟨.comparator .greater, ">", none, 4⟩,
        ⟨.identifier, "c", none, 6⟩] = .ok rule ∧
      ((∃ trace, rule.evaluate (Record.ofList [("c", .string "z")]) true = .ok ⟨true, trace⟩) ↔
        Value.Meets (.string "z") .greater (.string "z")) := by
  have hread : ofTokens [⟨.leftParen, "(", none, 0⟩, ⟨.identifier, "a", none, 1⟩,
        ⟨.comparator .greaterOrEqual, ">=", none, 3⟩, ⟨.string, "x", none, 6⟩,
        ⟨.connective .or, "OR", none, 9⟩, ⟨.identifier, "b", none, 12⟩,
        ⟨.comparator .notEqual, "!=", none, 14⟩, ⟨.string, "'y'", some (.string "y"), 17⟩,
        ⟨.rightParen, ")", none, 20⟩, ⟨.connective .and, "AND", none, 22⟩,
        ⟨.identifier, "c", none, 26⟩, ⟨.comparator .less, "<", none, 28⟩,
        ⟨.string, "'z'", some (.string "z"), 30⟩]
      = .ok (.join (.join (.leaf ⟨"a", .greaterOrEqual, .string "x"⟩) .or
          (.leaf ⟨"b", .notEqual, .string "y"⟩)) .and (.leaf ⟨"c", .less, .string "z"⟩)) := by
    decide +kernel
  refine ⟨hread, same_written_backwards.1 _ _ _ hread ?_, ?_⟩
  · refine .keep (.turn (.inl ⟨rfl, rfl⟩) rfl rfl ?_)
    refine .keep (.keep (.keep (.keep (.keep (.keep ?_)))))
    exact .turn (.inl ⟨rfl, rfl⟩) rfl rfl .nil
  · obtain ⟨rule, hrule, hevaluate⟩ := same_written_backwards.2.2
      ⟨.string, "'z'", some (.string "z"), 0⟩ ⟨.comparator .greater, ">", none, 4⟩
      ⟨.identifier, "c", none, 6⟩ .greater rfl rfl rfl
    exact ⟨rule, hrule, hevaluate _ _ true rfl⟩

end Rule

end ComparisonRules
