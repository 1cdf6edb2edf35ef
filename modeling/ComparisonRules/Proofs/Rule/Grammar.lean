import Mathlib.Algebra.Ring.Int.Defs
import ComparisonRules.Rule.Parse

/-!
# The grammar of rules

Which rule a stretch of tokens derives, said without a reader. A chain joins operands by one
connective and leans to the left; the operands of OR are chains of AND, and those of AND are
terms. Beside the grammar stands the number of groups that are open at each token. The
grammar is unambiguous, with limits or without them.
-/

namespace ComparisonRules

/-- The value of a literal token: the one that it carries, or else its own text. -/
def Token.Denotes (token : Token) (value : Value) : Prop :=
  token.literal = some value ∨ (token.literal = none ∧ value = .string token.lexeme)

theorem Token.Denotes.unique {token : Token} {value value' : Value}
    (h : token.Denotes value) (h' : token.Denotes value') : value = value' := by
  rcases h with h | ⟨h, rfl⟩ <;> rcases h' with h' | ⟨h', rfl⟩ <;> simp_all

namespace Rule

/-- What a stretch of tokens stands for. The links of a chain are everything behind its first
operand; they start from the rule that has been joined so far. -/
inductive Phrase where
  | chain (connective : Connective)
  | links (connective : Connective) (left : Rule)
  | term

def Phrase.operand : Connective → Phrase
  | .or => chain .and
  | .and => term

/-- The rules that a stretch of tokens derives. A comparison with its literal first is kept
with the field first and the comparator flipped. -/
inductive Derives : Phrase → List Token → Rule → Prop where
  | chain {connective : Connective} {first rest : List Token} {left rule : Rule} :
      Derives (.operand connective) first left →
      Derives (.links connective left) rest rule →
      Derives (.chain connective) (first ++ rest) rule
  | done {connective : Connective} {left : Rule} :
      Derives (.links connective left) [] left
  | link {connective : Connective} {joint : Token} {operand rest : List Token}
      {left right rule : Rule} :
      joint.kind = .connective connective →
      Derives (.operand connective) operand right →
      Derives (.links connective (join left connective right)) rest rule →
      Derives (.links connective left) (joint :: (operand ++ rest)) rule
  | group {opening closing : Token} {inner : List Token} {rule : Rule} :
      opening.kind = .leftParen → closing.kind = .rightParen →
      Derives (.chain .or) inner rule →
      Derives .term (opening :: (inner ++ [closing])) rule
  | fieldFirst {field operator literal : Token} {comparator : Comparator} {value : Value} :
      field.kind = .identifier → operator.kind = .comparator comparator →
      literal.kind = .number ∨ literal.kind = .string → literal.Denotes value →
      Derives .term [field, operator, literal] (leaf ⟨field.lexeme, comparator, value⟩)
  | literalFirst {literal operator field : Token} {comparator : Comparator} {value : Value} :
      literal.kind = .number ∨ literal.kind = .string → literal.Denotes value →
      operator.kind = .comparator comparator → field.kind = .identifier →
      Derives .term [literal, operator, field] (leaf ⟨field.lexeme, comparator.flip, value⟩)

/-! ## Open groups -/

def groupStep (token : Token) : Int :=
  match token.kind with
  | .leftParen => 1
  | .rightParen => -1
  | _ => 0

/-- Number of groups that are open behind the tokens. -/
def openGroups (tokens : List Token) : Int :=
  (tokens.map groupStep).sum

/-- Every opening parenthesis stands inside fewer open groups than the limit. -/
def GroupsWithin (limit : Int) (tokens : List Token) : Prop :=
  ∀ before opening after, tokens = before ++ opening :: after →
    opening.kind = .leftParen → openGroups before < limit

@[simp] theorem openGroups_nil : openGroups [] = 0 := rfl

@[simp] theorem openGroups_cons (token : Token) (tokens : List Token) :
    openGroups (token :: tokens) = groupStep token + openGroups tokens := by
  simp [openGroups]

@[simp] theorem openGroups_append (front back : List Token) :
    openGroups (front ++ back) = openGroups front + openGroups back := by
  simp [openGroups]

theorem groupsWithin_nil (limit : Int) : GroupsWithin limit [] := by
  intro before opening after h
  simp at h

theorem groupsWithin_cons {limit : Int} {token : Token} {tokens : List Token} :
    GroupsWithin limit (token :: tokens) ↔
      (token.kind = .leftParen → 0 < limit) ∧
        GroupsWithin (limit - groupStep token) tokens := by
  constructor
  · intro h
    refine ⟨fun hkind => h [] token tokens rfl hkind, ?_⟩
    intro before opening after heq hkind
    have hlt := h (token :: before) opening after (by rw [heq]; rfl) hkind
    rw [openGroups_cons] at hlt
    omega
  · rintro ⟨hhead, htail⟩ before opening after heq hkind
    cases before with
    | nil =>
        obtain ⟨rfl, -⟩ := List.cons.inj heq
        exact hhead hkind
    | cons first before =>
        obtain ⟨rfl, htokens⟩ := List.cons.inj heq
        have hlt := htail before opening after htokens hkind
        rw [openGroups_cons]
        omega

theorem groupsWithin_append {limit : Int} {front back : List Token} :
    GroupsWithin limit (front ++ back) ↔
      GroupsWithin limit front ∧ GroupsWithin (limit - openGroups front) back := by
  induction front generalizing limit with
  | nil => simp [groupsWithin_nil]
  | cons token front ih =>
      rw [List.cons_append, groupsWithin_cons, groupsWithin_cons, ih, openGroups_cons,
        Int.sub_sub, and_assoc]

theorem GroupsWithin.mono {limit limit' : Int} {tokens : List Token}
    (h : GroupsWithin limit tokens) (hle : limit ≤ limit') : GroupsWithin limit' tokens :=
  fun before opening after heq hkind =>
    Int.lt_of_lt_of_le (h before opening after heq hkind) hle

theorem groupsWithin_cons_connective {limit : Int} {token : Token} {tokens : List Token}
    {connective : Connective} (h : token.kind = .connective connective) :
    GroupsWithin limit (token :: tokens) ↔ GroupsWithin limit tokens := by
  rw [groupsWithin_cons]
  simp [groupStep, h]

theorem Derives.openGroups_eq_zero {phrase : Phrase} {tokens : List Token} {rule : Rule}
    (h : Derives phrase tokens rule) : openGroups tokens = 0 := by
  induction h with
  | chain _ _ ihFirst ihRest => simp [ihFirst, ihRest]
  | done => rfl
  | link hkind _ _ ihOperand ihRest => simp [ihOperand, ihRest, groupStep, hkind]
  | group hopening hclosing _ ih => simp [ih, groupStep, hopening, hclosing]
  | fieldFirst hfield hoperator hliteral _ =>
      rcases hliteral with hliteral | hliteral <;>
        simp [groupStep, hfield, hoperator, hliteral]
  | literalFirst hliteral _ hoperator hfield =>
      rcases hliteral with hliteral | hliteral <;>
        simp [groupStep, hfield, hoperator, hliteral]

theorem Derives.groupsWithin_append {phrase : Phrase} {front : List Token} {rule : Rule}
    (h : Derives phrase front rule) {limit : Int} {back : List Token} :
    GroupsWithin limit (front ++ back) ↔ GroupsWithin limit front ∧ GroupsWithin limit back := by
  rw [Rule.groupsWithin_append, h.openGroups_eq_zero, Int.sub_zero]

theorem groupsWithin_group {limit : Int} {opening closing : Token} {inner : List Token}
    (hopening : opening.kind = .leftParen) (hclosing : closing.kind = .rightParen) :
    GroupsWithin limit (opening :: (inner ++ [closing])) ↔
      0 < limit ∧ GroupsWithin (limit - 1) inner := by
  have hlast (bound : Int) : GroupsWithin bound [closing] := by
    rw [groupsWithin_cons]
    exact ⟨fun h => by simp [hclosing] at h, groupsWithin_nil _⟩
  have hstep : groupStep opening = 1 := by simp [groupStep, hopening]
  rw [groupsWithin_cons, groupsWithin_append, hstep]
  simp [hopening, hlast]

theorem groupsWithin_of_forall_ne {limit : Int} {tokens : List Token}
    (h : ∀ token ∈ tokens, token.kind ≠ .leftParen) : GroupsWithin limit tokens := by
  intro before opening after heq hkind
  have hmem : opening ∈ tokens := by rw [heq]; simp
  exact absurd hkind (h opening hmem)

/-! ## Shape of derived rules -/

theorem Derives.kind_ne {phrase : Phrase} {tokens : List Token} {rule : Rule}
    (h : Derives phrase tokens rule) : ∀ token ∈ tokens, token.kind ≠ .endOfInput := by
  induction h with
  | chain _ _ ihFirst ihRest =>
      intro token htoken
      rcases List.mem_append.mp htoken with htoken | htoken
      · exact ihFirst token htoken
      · exact ihRest token htoken
  | done =>
      intro token htoken
      cases htoken
  | link hjoint _ _ ihOperand ihRest =>
      intro token htoken
      rcases List.mem_cons.mp htoken with rfl | htoken
      · simp [hjoint]
      · rcases List.mem_append.mp htoken with htoken | htoken
        · exact ihOperand token htoken
        · exact ihRest token htoken
  | group hopening hclosing _ ih =>
      intro token htoken
      rcases List.mem_cons.mp htoken with rfl | htoken
      · simp [hopening]
      · rcases List.mem_append.mp htoken with htoken | htoken
        · exact ih token htoken
        · rw [List.mem_singleton.mp htoken]
          simp [hclosing]
  | fieldFirst hfield hoperator hliteral _ =>
      rcases hliteral with hliteral | hliteral <;> simp [hfield, hoperator, hliteral]
  | literalFirst hliteral _ hoperator hfield =>
      rcases hliteral with hliteral | hliteral <;> simp [hfield, hoperator, hliteral]

theorem Derives.comparison {c : Comparison} {field operator literal : Token}
    (hfield : field.kind = .identifier) (hname : field.lexeme = c.field)
    (hoperator : operator.kind = .comparator c.comparator)
    (hliteral : literal.kind = .number ∨ literal.kind = .string)
    (hvalue : literal.literal = some c.literal) :
    Derives .term [field, operator, literal] (leaf c) := by
  obtain ⟨_, _, _⟩ := c
  subst hname
  exact .fieldFirst hfield hoperator hliteral (Or.inl hvalue)

theorem Derives.chain_of_operand {connective : Connective} {tokens : List Token} {rule : Rule}
    (h : Derives (.operand connective) tokens rule) : Derives (.chain connective) tokens rule := by
  have hchain := Derives.chain h .done
  rwa [List.append_nil] at hchain

theorem Derives.operand_of_term {tokens : List Token} {rule : Rule}
    (h : Derives .term tokens rule) (connective : Connective) :
    Derives (.operand connective) tokens rule := by
  cases connective with
  | and => exact h
  | or => exact @chain_of_operand .and _ _ h

theorem Derives.joined {connective : Connective} {before after : List Token} {joint : Token}
    {left right : Rule} (hleft : Derives .term before left)
    (hjoint : joint.kind = .connective connective) (hright : Derives .term after right) :
    Derives (.chain .or) (before ++ joint :: after) (join left connective right) := by
  have hlinks := Derives.link hjoint (hright.operand_of_term connective)
    (@Derives.done connective (join left connective right))
  have hchain := Derives.chain (hleft.operand_of_term connective) hlinks
  rw [List.append_nil] at hchain
  cases connective with
  | or => exact hchain
  | and => exact @chain_of_operand .or _ _ hchain

theorem Derives.depth_left_le {connective : Connective} {left rule : Rule}
    {tokens : List Token} (h : Derives (.links connective left) tokens rule) :
    left.depth ≤ rule.depth := by
  generalize hphrase : Phrase.links connective left = phrase at h
  induction h generalizing left with
  | done => cases hphrase; exact Nat.le_refl _
  | link _ _ _ _ ih =>
      cases hphrase
      have hjoin := ih rfl
      rw [depth] at hjoin
      omega
  | _ => cases hphrase

theorem Derives.tokens_of_mem_comparisons {phrase : Phrase} {tokens : List Token}
    {rule : Rule} (h : Derives phrase tokens rule) {c : Comparison}
    (hc : c ∈ rule.comparisons)
    (hleft : ∀ connective left, phrase = .links connective left → c ∉ left.comparisons) :
    ∃ field ∈ tokens, ∃ literal ∈ tokens, field.kind = .identifier ∧
      (literal.kind = .number ∨ literal.kind = .string) ∧ c.field = field.lexeme ∧
      literal.Denotes c.literal := by
  induction h with
  | @chain connective first rest left rule hfirst hrest ihFirst ihRest =>
      by_cases hmem : c ∈ left.comparisons
      · obtain ⟨field, hfield, literal, hliteral, hfacts⟩ := ihFirst hmem (by
          intro other rule heq
          cases connective <;> cases heq)
        exact ⟨field, List.mem_append_left _ hfield, literal, List.mem_append_left _ hliteral,
          hfacts⟩
      · obtain ⟨field, hfield, literal, hliteral, hfacts⟩ := ihRest hc (by
          rintro _ _ ⟨⟩
          exact hmem)
        exact ⟨field, List.mem_append_right _ hfield, literal,
          List.mem_append_right _ hliteral, hfacts⟩
  | done => exact absurd hc (hleft _ _ rfl)
  | @link connective joint operand rest left right rule hkind hoperand hrest ihOperand ihRest =>
      by_cases hmem : c ∈ right.comparisons
      · obtain ⟨field, hfield, literal, hliteral, hfacts⟩ := ihOperand hmem (by
          intro other rule heq
          cases connective <;> cases heq)
        exact ⟨field, by simp [hfield], literal, by simp [hliteral], hfacts⟩
      · obtain ⟨field, hfield, literal, hliteral, hfacts⟩ := ihRest hc (by
          rintro _ _ ⟨⟩
          simpa [comparisons, hmem] using hleft _ _ rfl)
        exact ⟨field, by simp [hfield], literal, by simp [hliteral], hfacts⟩
  | group _ _ _ ih =>
      obtain ⟨field, hfield, literal, hliteral, hfacts⟩ := ih hc (by
        rintro _ _ ⟨⟩)
      exact ⟨field, by simp [hfield], literal, by simp [hliteral], hfacts⟩
  | fieldFirst hfield _ hliteral hvalue =>
      cases List.mem_singleton.mp hc
      exact ⟨_, by simp, _, by simp, hfield, hliteral, rfl, hvalue⟩
  | literalFirst hliteral hvalue _ hfield =>
      cases List.mem_singleton.mp hc
      exact ⟨_, by simp, _, by simp, hfield, hliteral, rfl, hvalue⟩

/-! ## Unambiguity -/

def NotNext (connective : Connective) (tokens : List Token) : Prop :=
  ∀ joint after, tokens = joint :: after → joint.kind ≠ .connective connective

/-- A phrase may end before these tokens: they do not go on with it. -/
def Phrase.ClosedBy : Phrase → List Token → Prop
  | term, _ => True
  | chain .and, rest => NotNext .and rest
  | links .and _, rest => NotNext .and rest
  | chain .or, rest => NotNext .and rest ∧ NotNext .or rest
  | links .or _, rest => NotNext .and rest ∧ NotNext .or rest

theorem notNext_nil (connective : Connective) : NotNext connective [] := by
  intro joint after h
  cases h

theorem notNext_cons {connective : Connective} {token : Token} {rest : List Token}
    (h : token.kind ≠ .connective connective) : NotNext connective (token :: rest) := by
  rintro joint after ⟨⟩
  exact h

namespace Phrase

theorem closedBy_nil (phrase : Phrase) : phrase.ClosedBy [] := by
  unfold ClosedBy
  split <;> simp [notNext_nil]

theorem closedBy_cons {phrase : Phrase} {token : Token} {rest : List Token}
    (h : ∀ connective, token.kind ≠ .connective connective) :
    phrase.ClosedBy (token :: rest) := by
  unfold ClosedBy
  split <;> simp [notNext_cons, h]

theorem closedBy_links {connective : Connective} {left : Rule} {rest : List Token} :
    (links connective left).ClosedBy rest ↔ (chain connective).ClosedBy rest := by
  cases connective <;> exact Iff.rfl

theorem closedBy_operand {connective : Connective} {rest : List Token}
    (h : (chain connective).ClosedBy rest) : (operand connective).ClosedBy rest := by
  cases connective with
  | and => trivial
  | or => exact h.1

theorem closedBy_operand_cons {connective : Connective} {joint : Token} {rest : List Token}
    (h : joint.kind = .connective connective) :
    (operand connective).ClosedBy (joint :: rest) := by
  cases connective with
  | and => trivial
  | or => exact notNext_cons (by simp [h])

theorem not_closedBy_cons {connective : Connective} {left : Rule} {joint : Token}
    {rest : List Token} (h : joint.kind = .connective connective) :
    ¬ (links connective left).ClosedBy (joint :: rest) := by
  cases connective with
  | and => exact fun hclosed => hclosed joint rest rfl h
  | or => exact fun hclosed => hclosed.2 joint rest rfl h

end Phrase

theorem Derives.closedBy_operand {connective : Connective} {left rule : Rule}
    {tokens rest : List Token} (h : Derives (.links connective left) tokens rule)
    (hclosed : (Phrase.chain connective).ClosedBy rest) :
    (Phrase.operand connective).ClosedBy (tokens ++ rest) := by
  cases h with
  | done => exact Phrase.closedBy_operand hclosed
  | link hkind _ _ => exact Phrase.closedBy_operand_cons hkind

/-- Two derivations of one phrase from the same tokens read the same stretch and give the
same rule, if neither stretch could go on. The limits play no part here. -/
theorem Derives.unique {phrase : Phrase} {tokens tokens' rest rest' : List Token}
    {rule rule' : Rule} (h : Derives phrase tokens rule) (h' : Derives phrase tokens' rule')
    (heq : tokens ++ rest = tokens' ++ rest') (hclosed : phrase.ClosedBy rest)
    (hclosed' : phrase.ClosedBy rest') : tokens = tokens' ∧ rule = rule' := by
  induction h generalizing tokens' rule' rest rest' with
  | chain hfirst hlinks ihFirst ihLinks =>
      cases h' with
      | chain hfirst' hlinks' =>
          rw [List.append_assoc, List.append_assoc] at heq
          obtain ⟨rfl, rfl⟩ := ihFirst hfirst' heq (hlinks.closedBy_operand hclosed)
            (hlinks'.closedBy_operand hclosed')
          obtain ⟨rfl, rfl⟩ := ihLinks hlinks' (List.append_cancel_left heq)
            (Phrase.closedBy_links.mpr hclosed) (Phrase.closedBy_links.mpr hclosed')
          exact ⟨rfl, rfl⟩
  | done =>
      cases h' with
      | done => exact ⟨rfl, rfl⟩
      | link hkind' _ _ =>
          rw [List.nil_append] at heq
          exact absurd (heq ▸ hclosed) (Phrase.not_closedBy_cons hkind')
  | link hkind hoperand hlinks ihOperand ihLinks =>
      cases h' with
      | done =>
          rw [List.nil_append] at heq
          exact absurd (heq ▸ hclosed') (Phrase.not_closedBy_cons hkind)
      | link hkind' hoperand' hlinks' =>
          rw [List.cons_append, List.cons_append, List.append_assoc, List.append_assoc] at heq
          obtain ⟨rfl, htail⟩ := List.cons.inj heq
          have hchain := Phrase.closedBy_links.mp hclosed
          have hchain' := Phrase.closedBy_links.mp hclosed'
          obtain ⟨rfl, rfl⟩ := ihOperand hoperand' htail (hlinks.closedBy_operand hchain)
            (hlinks'.closedBy_operand hchain')
          obtain ⟨rfl, rfl⟩ := ihLinks hlinks' (List.append_cancel_left htail)
            (Phrase.closedBy_links.mpr hchain) (Phrase.closedBy_links.mpr hchain')
          exact ⟨rfl, rfl⟩
  | group hopening hclosing hinner ih =>
      cases h' with
      | group hopening' hclosing' hinner' =>
          rw [List.cons_append, List.cons_append, List.append_assoc, List.append_assoc] at heq
          obtain ⟨rfl, htail⟩ := List.cons.inj heq
          rw [List.singleton_append, List.singleton_append] at htail
          obtain ⟨rfl, rfl⟩ := ih hinner' htail
            (Phrase.closedBy_cons (by simp [hclosing]))
            (Phrase.closedBy_cons (by simp [hclosing']))
          have hlast := List.append_cancel_left htail
          obtain ⟨rfl, -⟩ := List.cons.inj hlast
          exact ⟨rfl, rfl⟩
      | fieldFirst hfield _ _ _ =>
          obtain ⟨rfl, -⟩ := List.cons.inj heq
          simp [hopening] at hfield
      | literalFirst hliteral _ _ _ =>
          obtain ⟨rfl, -⟩ := List.cons.inj heq
          simp [hopening] at hliteral
  | fieldFirst hfield hoperator hliteral hvalue =>
      cases h' with
      | group hopening _ _ =>
          obtain ⟨rfl, -⟩ := List.cons.inj heq
          simp [hopening] at hfield
      | fieldFirst hfield' hoperator' hliteral' hvalue' =>
          simp only [List.cons_append, List.nil_append, List.cons.injEq] at heq
          obtain ⟨rfl, rfl, rfl, -⟩ := heq
          rw [hoperator] at hoperator'
          cases hoperator'
          rw [hvalue.unique hvalue']
          exact ⟨rfl, rfl⟩
      | literalFirst hliteral' _ _ _ =>
          obtain ⟨rfl, -⟩ := List.cons.inj heq
          simp [hfield] at hliteral'
  | literalFirst hliteral hvalue hoperator hfield =>
      cases h' with
      | group hopening _ _ =>
          obtain ⟨rfl, -⟩ := List.cons.inj heq
          simp [hopening] at hliteral
      | fieldFirst hfield' _ _ _ =>
          obtain ⟨rfl, -⟩ := List.cons.inj heq
          simp [hfield'] at hliteral
      | literalFirst hliteral' hvalue' hoperator' hfield' =>
          simp only [List.cons_append, List.nil_append, List.cons.injEq] at heq
          obtain ⟨rfl, rfl, rfl, -⟩ := heq
          rw [hoperator] at hoperator'
          cases hoperator'
          rw [hvalue.unique hvalue']
          exact ⟨rfl, rfl⟩

end Rule

end ComparisonRules
