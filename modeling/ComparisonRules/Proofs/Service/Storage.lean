import ComparisonRules.Node.Stored
import ComparisonRules.Proofs.Node.Decode
import ComparisonRules.Service.Json

/-!
# Storage

All rules that the engine produces can be stored, and exactly these come back from storage.
-/

namespace ComparisonRules

theorem liftError_eq_ok {ε α : Type} {wrap : ε → RuleError} {x : Except ε α} {value : α}
    (h : liftError wrap x = .ok value) : x = .ok value := by
  cases x with
  | error e => cases h
  | ok v =>
      cases h
      rfl

/-! ## Sources of rules -/

/-- What a source must hold so that its rule can be stored. -/
def Service.RuleSource.FiniteLiterals : RuleSource → Prop
  | text _ => True
  | tree node => node.FiniteLiterals

theorem Service.RuleSource.finiteLiterals_of_read {levels : Nat} {document : Json.Document}
    {source : RuleSource} (h : RuleSource.read levels document = .ok source) :
    source.FiniteLiterals := by
  obtain ⟨_, -, h⟩ := bind_eq_ok.mp h
  cases document with
  | string q =>
      obtain ⟨s, -, h⟩ := bind_eq_ok.mp h
      cases h
      trivial
  | _ =>
      dsimp only at h
      split at h
      · rename_i node hnode
        cases h
        exact Node.finiteLiterals_of_read hnode
      · cases h

theorem Service.RuleSource.isStorable_of_toRule {source : RuleSource} {index : Nat}
    {rule : Rule} (hsource : source.FiniteLiterals) (h : source.toRule index = .ok rule) :
    rule.IsStorable := by
  cases source with
  | text s =>
      rw [toRule] at h
      by_cases hblank : Text.isBlankText s = true
      · rw [if_pos hblank] at h
        cases h
      · rw [if_neg hblank] at h
        exact Rule.isStorable_of_compile (liftError_eq_ok h)
  | tree node => exact Node.isStorable_of_toRule hsource (liftError_eq_ok h)

namespace Rule

theorem isStorable_of_ofStoredText {text : String} {rule : Rule}
    (h : ofStoredText text = .ok rule) : rule.IsStorable := by
  obtain ⟨node, hnode, hrule⟩ := bind_eq_ok.mp h
  obtain ⟨document, hread⟩ := Json.of_readText (liftError_eq_ok hnode)
  exact Node.isStorable_of_toRule (Node.finiteLiterals_of_read hread) (liftError_eq_ok hrule)

theorem ofStoredText_storedText (rule : Rule) :
    ofStoredText rule.storedText
      = if rule.depth + 1 ≤ Json.maxLevels then liftError .decode (Node.ofRule rule).stored.toRule
        else .error (.json .malformed) := by
  rw [ofStoredText, storedText, Json.readText_compactText, Node.read_document,
    Node.levels_ofRule]
  by_cases hlevels : rule.depth + 1 ≤ Json.maxLevels
  · rw [if_pos hlevels, if_pos hlevels]
    rfl
  · rw [if_neg hlevels, if_neg hlevels]
    rfl

theorem ofStoredText_of_isStorable {rule : Rule} (h : rule.IsStorable) :
    ofStoredText rule.storedText = .ok rule := by
  have hdepth := h.depth_le
  have hlevels : rule.depth + 1 ≤ Json.maxLevels :=
    Nat.le_trans (Nat.succ_le_succ hdepth) (by decide)
  rw [ofStoredText_storedText, if_pos hlevels, Node.toRule,
    Node.decodeAt_stored_ofRule h.literals hdepth]
  rfl

/-- The rules that arise in any chain of operations that starts from rules that can be stored,
from rule texts and from JSON texts. -/
inductive Produced : Rule → Prop where
  | given {rule : Rule} : rule.IsStorable → Produced rule
  | compiled {text : String} {rule : Rule} : compile text = .ok rule → Produced rule
  | decoded {text : String} {rule : Rule} : ofStoredText text = .ok rule → Produced rule
  | sourced {levels index : Nat} {document : Json.Document} {source : Service.RuleSource}
      {rule : Rule} : Service.RuleSource.read levels document = .ok source →
      source.toRule index = .ok rule → Produced rule
  | combined {connective : Connective} {rules : List Rule} {rule : Rule} :
      (∀ operand ∈ rules, Produced operand) → combineAll connective rules = .ok rule →
      Produced rule
  | served {request : Service.CombineRequest} {response : Service.CombineResponse}
      {rules : List Rule} {rule : Rule} : Service.rulesOf 0 request.rules = .ok rules →
      (∀ operand ∈ rules, Produced operand) → Service.combine request = .ok response →
      response.combined = .ofRule rule → Produced rule

theorem Produced.isStorable {rule : Rule} (h : Produced rule) : rule.IsStorable := by
  induction h with
  | given h => exact h
  | compiled h => exact isStorable_of_compile h
  | decoded h => exact isStorable_of_ofStoredText h
  | sourced hread h =>
      exact Service.RuleSource.isStorable_of_toRule
        (Service.RuleSource.finiteLiterals_of_read hread) h
  | combined _ h ih => exact isStorable_of_combineAll ih h
  | served hrules _ h hnode ih =>
      obtain ⟨rules, hfound, h⟩ := bind_eq_ok.mp h
      rw [hrules] at hfound
      cases hfound
      obtain ⟨result, hresult, h⟩ := bind_eq_ok.mp h
      cases h
      rw [← Node.ofRule_injective hnode]
      exact isStorable_of_combineAll ih (liftError_eq_ok hresult)

end Rule

end ComparisonRules
