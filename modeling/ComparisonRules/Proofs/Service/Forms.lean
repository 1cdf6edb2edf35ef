import Mathlib.Data.List.Forall2
import ComparisonRules.Proofs.Node.Forms
import ComparisonRules.Proofs.Service.Storage

/-!
# Forms of rules in requests

Requests take a rule in any of its forms. Combining gives the same response or the same error
when sources are given in other forms of their rules, and a tree is evaluated as the rule that it
stands for. Only a source that gives a rule may be replaced, so what is wrong with the others comes
up as before.
-/

namespace ComparisonRules.Service

/-- The sources that a rule may be given as: a tree of nodes in any form, or its text. -/
inductive RuleSource.Represents : RuleSource → Rule → Prop where
  | tree {node : Node} {rule : Rule} : node.Represents rule → Represents (.tree node) rule
  | text {rule : Rule} : rule.IsRepresentable → Represents (.text rule.text) rule

/-- The source stays, or it gives a rule and comes in another form of that rule. -/
def RuleSource.ReplacedBy (source other : RuleSource) : Prop :=
  other = source ∨ ∃ index rule, source.toRule index = .ok rule ∧ other.Represents rule

namespace RuleSource

theorem toRule_text_of_compile {source : String} {rule : Rule}
    (h : Rule.compile source = .ok rule) (index : Nat) :
    (text source).toRule index = .ok rule := by
  rw [toRule, Rule.isBlankText_of_compile h, h]
  rfl

theorem toRule_eq_ok {source : RuleSource} {index : Nat} {rule : Rule}
    (h : source.toRule index = .ok rule) (other : Nat) :
    source.toRule other = .ok rule ∧ rule.IsDecodable := by
  cases source with
  | tree node => exact ⟨h, Node.isDecodable_of_toRule (liftError_eq_ok h)⟩
  | text s =>
      have hcompile : Rule.compile s = .ok rule := by
        rw [toRule] at h
        by_cases hblank : Text.isBlankText s = true
        · rw [if_pos hblank] at h
          cases h
        · rw [if_neg hblank] at h
          exact liftError_eq_ok h
      exact ⟨toRule_text_of_compile hcompile other,
        (Rule.isStorable_of_compile hcompile).isDecodable⟩

theorem Represents.toRule_eq {source : RuleSource} {rule : Rule} (h : source.Represents rule)
    (hrule : rule.IsDecodable) (index : Nat) : source.toRule index = .ok rule := by
  cases h with
  | tree hnode =>
      show liftError .decode _ = _
      rw [hnode.toRule_eq hrule]
      rfl
  | text hrepresentable => exact toRule_text_of_compile (Rule.compile_text hrepresentable) index

theorem ReplacedBy.toRule_eq {source other : RuleSource} (h : source.ReplacedBy other)
    (index : Nat) : other.toRule index = source.toRule index := by
  obtain rfl | ⟨place, rule, hrule, hother⟩ := h
  · rfl
  · obtain ⟨hsame, hdecodable⟩ := toRule_eq_ok hrule index
    rw [hsame, hother.toRule_eq hdecodable]

end RuleSource

theorem rulesOf_of_replacedBy {sources others : List RuleSource}
    (h : List.Forall₂ RuleSource.ReplacedBy sources others) (index : Nat) :
    rulesOf index others = rulesOf index sources := by
  induction h generalizing index with
  | nil => rfl
  | cons hfirst _ ih => rw [rulesOf, rulesOf, hfirst.toRule_eq, ih]

theorem mapIdx_eq_of_forall₂ {α β : Type} {R : α → α → Prop} {step : Nat → α → β}
    (hstep : ∀ a b, R a b → ∀ index, step index b = step index a) {items others : List α}
    (h : List.Forall₂ R items others) : others.mapIdx step = items.mapIdx step := by
  induction h generalizing step with
  | nil => rfl
  | cons hfirst _ ih =>
      have hrest := ih fun a b hab index => hstep a b hab (index + 1)
      rw [List.mapIdx_cons, List.mapIdx_cons, hstep _ _ hfirst, hrest]

theorem evaluate_of_represents {node : Node} {rule : Rule} (h : node.Represents rule)
    (hrule : rule.IsDecodable) (data : Record) (traced : Bool) :
    evaluate ⟨node, data, traced⟩ = match rule.evaluate data traced with
      | .ok evaluation => .ok ⟨evaluation.matched, if traced then some evaluation.trace else none⟩
      | .error e => .error (.eval e) := by
  rw [evaluate, h.toRule_eq hrule]
  show (liftError RuleError.eval (rule.evaluate data traced) >>= _) = _
  cases rule.evaluate data traced <;> rfl

/-- Requests do not depend on the form of a rule, of which its own nodes are one. Sources in other
forms of their rules are combined to the same response, or the same one of them is refused with the
same error. The tree that a text is compiled to, and every other tree of the rule, is evaluated as
the rule. -/
theorem same_in_all_forms :
    (∀ rule, (Node.ofRule rule).Represents rule) ∧
    (∀ connective sources others, List.Forall₂ RuleSource.ReplacedBy sources others →
      combine ⟨others, connective⟩ = combine ⟨sources, connective⟩ ∧
      others.mapIdx RuleSource.toRule = sources.mapIdx RuleSource.toRule) ∧
    ∀ text response, create ⟨text⟩ = .ok response →
      ∃ rule, Rule.compile text = .ok rule ∧ response = ⟨text, .ofRule rule⟩ ∧
        ∀ node : Node, node.Represents rule → ∀ data traced,
          evaluate ⟨node, data, traced⟩ = match rule.evaluate data traced with
            | .ok evaluation =>
                .ok ⟨evaluation.matched, if traced then some evaluation.trace else none⟩
            | .error e => .error (.eval e) := by
  refine ⟨Node.represents_ofRule, ?_, ?_⟩
  · intro connective sources others h
    refine ⟨by rw [combine, combine, rulesOf_of_replacedBy h], ?_⟩
    exact mapIdx_eq_of_forall₂ (fun _ _ hreplaced => hreplaced.toRule_eq) h
  · intro text response h
    obtain ⟨rule, hrule, h⟩ := bind_eq_ok.mp h
    cases h
    have hcompile := liftError_eq_ok hrule
    refine ⟨rule, hcompile, rfl, ?_⟩
    intro node hnode data traced
    exact evaluate_of_represents hnode (Rule.isStorable_of_compile hcompile).isDecodable data traced

/-- A tree with a comparison kept as a text, its literal first, and a connective in mixed case. In
the place of the text it changes nothing: the blank text behind it is still the missing one, and
its evaluation still fails at the field that the record lacks. -/
theorem same_in_all_forms_mixed :
    combine ⟨[.tree ⟨.operator, some "oR",
        some ⟨.operand, some "'x' == a", none, none, none, none⟩,
        some (.ofComparison ⟨"b", .equal, .string "y"⟩), none, none⟩, .text " "], .and⟩
      = .error (.combine (.missingOperand 1)) ∧
    evaluate ⟨⟨.operator, some "oR", some ⟨.operand, some "'x' == a", none, none, none, none⟩,
        some (.ofComparison ⟨"b", .equal, .string "y"⟩), none, none⟩,
      Record.ofList [("b", .string "y")], true⟩ = .error (.eval (.unknownField "a")) := by
  have hcompile : Rule.compile "a == 'x' or b == 'y'" = .ok (.join
      (.leaf ⟨"a", .equal, .string "x"⟩) .or (.leaf ⟨"b", .equal, .string "y"⟩)) := by
    decide +kernel
  have hleaf : Rule.compile "'x' == a" = .ok (.leaf ⟨"a", .equal, .string "x"⟩) := by
    decide +kernel
  have hword : Connective.or.IsSpelling "oR" := by decide
  have hnode : Node.Represents _ (.join _ .or (.leaf ⟨"b", .equal, .string "y"⟩)) :=
    @Node.Represents.joint .or "oR" _ _ _ _ none none hword (.text hleaf) .parts
  refine ⟨?_, ?_⟩
  · have hsource := RuleSource.toRule_text_of_compile hcompile 0
    have hreplaced : List.Forall₂ RuleSource.ReplacedBy
        [.text "a == 'x' or b == 'y'", .text " "] _ :=
      .cons (.inr ⟨0, _, hsource, .tree hnode⟩) (.cons (.inl rfl) .nil)
    rw [(same_in_all_forms.2.1 .and _ _ hreplaced).1, combine, rulesOf, hsource]
    rfl
  · have hcreate : create ⟨"a == 'x' or b == 'y'"⟩
        = .ok ⟨"a == 'x' or b == 'y'", .ofRule (.join (.leaf ⟨"a", .equal, .string "x"⟩) .or
          (.leaf ⟨"b", .equal, .string "y"⟩))⟩ := by
      rw [create, hcompile]
      rfl
    obtain ⟨rule, hrule, -, hevaluate⟩ := same_in_all_forms.2.2 _ _ hcreate
    cases hrule.symm.trans hcompile
    rw [hevaluate _ hnode]
    rfl

end ComparisonRules.Service
