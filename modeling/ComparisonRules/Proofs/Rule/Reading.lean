import ComparisonRules.Proofs.Outcome
import ComparisonRules.Proofs.Rule.Grammar

/-!
# Reading is deriving

The readers take exactly the stretches of tokens that the grammar derives, as far as the
limits allow: no group inside as many open ones as the limit says, and no rule deeper than
the deepest. The readers check the limits on the way, group by group and joint by joint; the
statements put them on the tokens and on the rule as a whole.
-/

namespace ComparisonRules

theorem Token.Kind.isLiteral_iff {kind : Token.Kind} :
    kind.isLiteral = true ↔ kind = .number ∨ kind = .string := by
  cases kind <;> simp [Token.Kind.isLiteral]

namespace Rule

/-- A reading took a stretch off the tokens that derives the rule within the limits. -/
def Takes (phrase : Phrase) (groups : Nat) (tokens : List Token) (rule : Rule)
    (rest : List Token) : Prop :=
  ∃ taken, tokens = taken ++ rest ∧ Derives phrase taken rule ∧
    GroupsWithin groups taken ∧ rule.depth ≤ maxDepth

def operandReader (stop : Token) (groups : Nat) : Connective → List Token → Reading
  | .or => readChain .and (readTerm stop groups)
  | .and => readTerm stop groups

theorem joinAt_eq_ok {token : Token} {left right rule : Rule} {connective : Connective} :
    joinAt token left connective right = .ok rule ↔
      rule = join left connective right ∧ (join left connective right).depth ≤ maxDepth := by
  unfold joinAt
  dsimp only
  split
  · rename_i hdeep
    simp
    omega
  · rename_i hdeep
    simp only [Except.ok.injEq, eq_comm (a := rule)]
    exact ⟨fun h => ⟨h, by omega⟩, fun h => h.1⟩

theorem denotes_iff {token : Token} {value : Value} :
    token.Denotes value ↔ value = literalOf token := by
  unfold Token.Denotes literalOf
  cases token.literal with
  | none => simp
  | some carried => simp [eq_comm]

/-! ## What is read is derived -/

section Soundness

variable {stop : Token} {groups : Nat}

theorem readComparison_takes {tokens rest : List Token} {rule : Rule}
    (h : readComparison stop tokens = .ok (rule, rest)) :
    Takes .term groups tokens rule rest := by
  unfold readComparison at h
  split at h
  case h_2 => cases h
  rename_i left afterLeft
  split at h
  case isFalse => cases h
  rename_i hleft
  split at h
  case h_2 => cases h
  rename_i comparator lexeme literal offset behind
  unfold readRightSide at h
  split at h
  · rename_i hfield
    cases behind with
    | nil => cases h
    | cons right behind =>
        dsimp only at h
        split at h
        case isFalse => cases h
        rename_i hright
        cases h
        have hliteral := Token.Kind.isLiteral_iff.mp hright
        refine ⟨[left, _, right], rfl,
          .fieldFirst hfield rfl hliteral (denotes_iff.mpr rfl), ?_, Nat.zero_le _⟩
        apply groupsWithin_of_forall_ne
        rcases hliteral with hliteral | hliteral <;> simp [hfield, hliteral]
  · rename_i hfield
    cases behind with
    | nil => cases h
    | cons right behind =>
        dsimp only at h
        split at h
        case isFalse => cases h
        rename_i hright
        cases h
        have hliteral := Token.Kind.isLiteral_iff.mp (hleft.resolve_left hfield)
        refine ⟨[left, _, right], rfl,
          .literalFirst hliteral (denotes_iff.mpr rfl) rfl hright, ?_, Nat.zero_le _⟩
        apply groupsWithin_of_forall_ne
        rcases hliteral with hliteral | hliteral <;> simp [hright, hliteral]

variable {connective : Connective} {operand : List Token → Reading}

theorem readLinks_takes
    (hoperand : ∀ tokens rule rest, operand tokens = .ok (rule, rest) →
      Takes (.operand connective) groups tokens rule rest)
    {links : Nat} {left rule : Rule} {tokens rest : List Token}
    (h : readLinks connective operand links left tokens = .ok (rule, rest))
    (hleft : left.depth ≤ maxDepth) :
    Takes (.links connective left) groups tokens rule rest := by
  -- the rule joined so far stays within the depth, and no operand leaves a group open
  induction links generalizing left tokens with
  | zero =>
      cases h
      exact ⟨[], rfl, .done, groupsWithin_nil _, hleft⟩
  | succ links ih =>
      cases tokens with
      | nil =>
          cases h
          exact ⟨[], rfl, .done, groupsWithin_nil _, hleft⟩
      | cons joint behind =>
          unfold readLinks at h
          dsimp only at h
          split at h
          case isFalse =>
            cases h
            exact ⟨[], rfl, .done, groupsWithin_nil _, hleft⟩
          rename_i hjoint
          obtain ⟨⟨right, afterRight⟩, hright, hjoin⟩ := bind_eq_ok.mp h
          obtain ⟨joined, hjoined, hlinks⟩ := bind_eq_ok.mp hjoin
          obtain ⟨rfl, hdepth⟩ := joinAt_eq_ok.mp hjoined
          obtain ⟨front, rfl, hfront, hgroups, -⟩ := hoperand _ _ _ hright
          obtain ⟨back, rfl, hback, hgroups', hrule⟩ := ih hlinks hdepth
          refine ⟨joint :: (front ++ back), by simp, .link hjoint hfront hback, ?_, hrule⟩
          rw [groupsWithin_cons_connective hjoint, hfront.groupsWithin_append]
          exact ⟨hgroups, hgroups'⟩

theorem readChain_takes
    (hoperand : ∀ tokens rule rest, operand tokens = .ok (rule, rest) →
      Takes (.operand connective) groups tokens rule rest)
    {tokens rest : List Token} {rule : Rule}
    (h : readChain connective operand tokens = .ok (rule, rest)) :
    Takes (.chain connective) groups tokens rule rest := by
  obtain ⟨⟨first, afterFirst⟩, hfirst, hlinks⟩ := bind_eq_ok.mp h
  obtain ⟨front, rfl, hfront, hgroups, hdepth⟩ := hoperand _ _ _ hfirst
  obtain ⟨back, rfl, hback, hgroups', hrule⟩ := readLinks_takes hoperand hlinks hdepth
  refine ⟨front ++ back, by simp, .chain hfront hback, ?_, hrule⟩
  rw [hfront.groupsWithin_append]
  exact ⟨hgroups, hgroups'⟩

theorem readDisjunction_takes {term : List Token → Reading}
    (hterm : ∀ tokens rule rest, term tokens = .ok (rule, rest) →
      Takes .term groups tokens rule rest)
    {tokens rest : List Token} {rule : Rule}
    (h : readDisjunction term tokens = .ok (rule, rest)) :
    Takes (.chain .or) groups tokens rule rest := by
  refine readChain_takes (fun tokens rule rest hoperand => ?_) h
  have hchain : Takes (.chain .and) groups tokens rule rest := readChain_takes hterm hoperand
  exact hchain

theorem readTerm_takes {tokens rest : List Token} {rule : Rule}
    (h : readTerm stop groups tokens = .ok (rule, rest)) :
    Takes .term groups tokens rule rest := by
  induction groups generalizing tokens rule rest with
  | zero =>
      unfold readTerm at h
      split at h
      · cases h
      · exact readComparison_takes h
  | succ inner ih =>
      unfold readTerm at h
      split at h
      · rename_i lexeme literal offset behind
        obtain ⟨⟨found, afterRule⟩, hinner, hclose⟩ := bind_eq_ok.mp h
        obtain ⟨front, rfl, hfront, hgroups, hdepth⟩ :=
          readDisjunction_takes (fun _ _ _ hterm => ih hterm) hinner
        dsimp only at hclose
        split at hclose
        · rename_i lexeme' literal' offset' behind'
          cases hclose
          refine ⟨⟨.leftParen, lexeme, literal, offset⟩ ::
            (front ++ [⟨.rightParen, lexeme', literal', offset'⟩]), by simp,
            .group rfl rfl hfront, ?_, hdepth⟩
          rw [groupsWithin_group rfl rfl]
          exact ⟨by omega, by simpa using hgroups⟩
        · cases hclose
      · exact readComparison_takes h

end Soundness

/-! ## What is derived is read -/

section Completeness

variable {stop : Token} {groups : Nat}

/-- The reader of a phrase gives this rule and leaves these tokens. Links are read with any
number of turns that is at least the number of tokens. -/
def Phrase.Reads (stop : Token) (groups : Nat) :
    Phrase → List Token → Rule → List Token → Prop
  | term, tokens, rule, rest => readTerm stop groups tokens = .ok (rule, rest)
  | chain connective, tokens, rule, rest =>
      readChain connective (operandReader stop groups connective) tokens = .ok (rule, rest)
  | links connective left, tokens, rule, rest =>
      ∀ turns, tokens.length ≤ turns →
        readLinks connective (operandReader stop groups connective) turns left tokens
          = .ok (rule, rest)

theorem reads_operand {connective : Connective} {tokens rest : List Token} {rule : Rule} :
    (Phrase.operand connective).Reads stop groups tokens rule rest ↔
      operandReader stop groups connective tokens = .ok (rule, rest) := by
  cases connective <;> exact Iff.rfl

theorem readLinks_of_closedBy {connective : Connective} {operand : List Token → Reading}
    {left : Rule} {rest : List Token} (h : (Phrase.links connective left).ClosedBy rest)
    (turns : Nat) : readLinks connective operand turns left rest = .ok (left, rest) := by
  cases turns with
  | zero => rfl
  | succ turns =>
      cases rest with
      | nil => rfl
      | cons joint after =>
          have hkind : joint.kind ≠ .connective connective :=
            fun hkind => Phrase.not_closedBy_cons hkind h
          rw [readLinks]
          exact if_neg hkind

theorem readTerm_eq_readComparison {token : Token} {tokens : List Token}
    (h : token.kind ≠ .leftParen) :
    readTerm stop groups (token :: tokens) = readComparison stop (token :: tokens) := by
  obtain ⟨kind, lexeme, literal, offset⟩ := token
  cases groups <;> cases kind <;> first | rfl | exact absurd rfl h

theorem readTerm_group {lexeme : String} {literal : Option Value} {offset : Nat}
    {tokens : List Token} :
    readTerm stop (groups + 1) (⟨.leftParen, lexeme, literal, offset⟩ :: tokens) =
      (do
        let (rule, afterRule) ← readDisjunction (readTerm stop groups) tokens
        match afterRule with
        | ⟨.rightParen, _, _, _⟩ :: behind => .ok (rule, behind)
        | _ => refuse stop afterRule .closingParen) := rfl

/-- Whatever the grammar derives within the limits is read, and nothing behind it is touched. -/
theorem Derives.reads {phrase : Phrase} {tokens rest : List Token} {rule : Rule}
    (h : Derives phrase tokens rule) (hgroups : GroupsWithin groups tokens)
    (hdepth : rule.depth ≤ maxDepth) (hclosed : phrase.ClosedBy rest) :
    phrase.Reads stop groups (tokens ++ rest) rule rest := by
  -- the limits of the parts follow from those of the whole: a part of a rule is no deeper than
  -- the rule, and a stretch closes all groups that it opens
  induction h generalizing groups rest with
  | @chain connective first links left rule hfirst hlinks ihFirst ihLinks =>
      rw [hfirst.groupsWithin_append] at hgroups
      have hleft := ihFirst hgroups.1 (Nat.le_trans hlinks.depth_left_le hdepth)
        (hlinks.closedBy_operand hclosed)
      rw [reads_operand] at hleft
      have hrest := ihLinks hgroups.2 hdepth (Phrase.closedBy_links.mpr hclosed)
      rw [List.append_assoc]
      change readChain connective (operandReader stop groups connective) _ = _
      rw [readChain, hleft]
      exact hrest _ (Nat.le_refl _)
  | done =>
      intro turns _
      exact readLinks_of_closedBy hclosed turns
  | @link connective joint operand links left right rule hjoint hoperand hlinks ihOperand
      ihLinks =>
      rw [groupsWithin_cons_connective hjoint, hoperand.groupsWithin_append] at hgroups
      have hjoined := Nat.le_trans hlinks.depth_left_le hdepth
      have hchain := Phrase.closedBy_links.mp hclosed
      have hright := ihOperand hgroups.1 (by rw [depth] at hjoined; omega)
        (hlinks.closedBy_operand hchain)
      rw [reads_operand] at hright
      have hrest := ihLinks hgroups.2 hdepth (Phrase.closedBy_links.mpr hchain)
      intro turns hturns
      cases turns with
      | zero => simp at hturns
      | succ turns =>
          rw [List.cons_append, List.append_assoc, readLinks]
          dsimp only
          rw [if_pos hjoint, hright, ok_bind, joinAt_eq_ok.mpr ⟨rfl, hjoined⟩, ok_bind]
          apply hrest
          simp only [List.length_cons, List.length_append] at hturns ⊢
          omega
  | @group opening closing inner rule hopening hclosing hinner ih =>
      rw [groupsWithin_group hopening hclosing] at hgroups
      obtain ⟨kind, lexeme, literal, offset⟩ := opening
      obtain ⟨kind', lexeme', literal', offset'⟩ := closing
      cases hopening
      cases hclosing
      cases groups with
      | zero => exact absurd hgroups.1 (by simp)
      | succ groups =>
          have hinside : GroupsWithin groups inner := by simpa using hgroups.2
          have hend : (Phrase.chain .or).ClosedBy
              (⟨.rightParen, lexeme', literal', offset'⟩ :: rest) :=
            Phrase.closedBy_cons (by simp)
          have hrule := ih hinside hdepth hend
          rw [List.cons_append, List.append_assoc, List.singleton_append]
          change readTerm stop (groups + 1) _ = _
          rw [readTerm_group]
          change readDisjunction (readTerm stop groups) _ = _ at hrule
          rw [hrule]
          rfl
  | @fieldFirst field operator literal comparator value hfield hoperator hliteral hvalue =>
      obtain ⟨kind, lexeme, carried, offset⟩ := operator
      cases hoperator
      change readTerm stop groups (field :: _) = _
      rw [readTerm_eq_readComparison (by simp [hfield])]
      simp [readComparison, readRightSide, hfield, Token.Kind.isLiteral_iff.mpr hliteral,
        denotes_iff.mp hvalue]
  | @literalFirst literal operator field comparator value hliteral hvalue hoperator hfield =>
      obtain ⟨kind, lexeme, carried, offset⟩ := operator
      cases hoperator
      have hkind : literal.kind ≠ .leftParen ∧ literal.kind ≠ .identifier := by
        rcases hliteral with hliteral | hliteral <;> simp [hliteral]
      change readTerm stop groups (literal :: _) = _
      rw [readTerm_eq_readComparison hkind.1]
      simp [readComparison, readRightSide, hfield, hkind.2, Token.Kind.isLiteral_iff.mpr hliteral,
        denotes_iff.mp hvalue]

end Completeness

/-! ## Whole token lists -/

/-- The tokens up to the first that ends the input; all of them if none does. -/
def inputOf (tokens : List Token) : List Token :=
  tokens.takeWhile fun token => token.kind ≠ .endOfInput

theorem of_mem_inputOf {token : Token} {tokens : List Token} (h : token ∈ inputOf tokens) :
    token ∈ tokens ∧ token.kind ≠ .endOfInput := by
  have hkind := List.all_eq_true.mp List.all_takeWhile token h
  exact ⟨(List.takeWhile_sublist _).mem h, by simpa using hkind⟩

theorem takeWhile_isWithinInput (tokens : List Token) :
    tokens.takeWhile isWithinInput = inputOf tokens := by
  unfold inputOf
  congr 1
  funext token
  by_cases hkind : token.kind = .endOfInput <;> simp [isWithinInput, hkind]

theorem derives_of_ofTokens {tokens : List Token} {rule : Rule}
    (h : ofTokens tokens = .ok rule) :
    Derives (.chain .or) (inputOf tokens) rule ∧ GroupsWithin maxDepth (inputOf tokens) ∧
      rule.depth ≤ maxDepth := by
  rw [ofTokens, takeWhile_isWithinInput] at h
  obtain ⟨⟨found, rest⟩, hread, hend⟩ := bind_eq_ok.mp h
  obtain ⟨taken, heq, hderives, hgroups, hdepth⟩ :=
    readDisjunction_takes (fun _ _ _ hterm => readTerm_takes hterm) hread
  cases rest with
  | nil =>
      cases hend
      rw [List.append_nil] at heq
      rw [heq]
      exact ⟨hderives, hgroups, hdepth⟩
  | cons token rest => cases hend

theorem ofTokens_of_derives {tokens : List Token} {rule : Rule}
    (hderives : Derives (.chain .or) (inputOf tokens) rule)
    (hgroups : GroupsWithin maxDepth (inputOf tokens)) (hdepth : rule.depth ≤ maxDepth) :
    ofTokens tokens = .ok rule := by
  have hread : readDisjunction (readTerm (stopOf tokens) maxDepth) (inputOf tokens ++ [])
      = .ok (rule, []) :=
    hderives.reads hgroups hdepth (Phrase.closedBy_nil _)
  rw [List.append_nil] at hread
  rw [ofTokens, takeWhile_isWithinInput, hread]
  rfl

/-- The reader accepts exactly its grammar: a rule is read if and only if the input derives
it, no parenthesis opens inside too many groups, and the rule is not too deep. No input
derives two rules. -/
theorem ofTokens_eq_ok_iff_derives (tokens : List Token) :
    (∀ rule, ofTokens tokens = .ok rule ↔
      Derives (.chain .or) (inputOf tokens) rule ∧
        GroupsWithin maxDepth (inputOf tokens) ∧ rule.depth ≤ maxDepth) ∧
    ∀ rule rule', Derives (.chain .or) (inputOf tokens) rule →
      Derives (.chain .or) (inputOf tokens) rule' → rule = rule' := by
  refine ⟨?_, ?_⟩
  · intro rule
    constructor
    · exact derives_of_ofTokens
    · rintro ⟨hderives, hgroups, hdepth⟩
      exact ofTokens_of_derives hderives hgroups hdepth
  · intro rule rule' h h'
    exact (h.unique h' rfl (Phrase.closedBy_nil _) (Phrase.closedBy_nil _)).2

/-- A literal first, no value on it, and an end of input with more tokens behind it. -/
theorem ofTokens_literal_first :
    ofTokens [⟨.number, "7", none, 0⟩, ⟨.comparator .less, "<", none, 2⟩,
      ⟨.identifier, "age", none, 4⟩, ⟨.endOfInput, "", none, 7⟩, ⟨.leftParen, "(", none, 8⟩]
      = .ok (leaf ⟨"age", .greater, .string "7"⟩) := by
  refine ((ofTokens_eq_ok_iff_derives _).1 _).mpr ⟨?_, ?_, by decide⟩
  · have hvalue : Token.Denotes ⟨.number, "7", none, 0⟩ (.string "7") := .inr ⟨rfl, rfl⟩
    have hoperator : (⟨.comparator .less, "<", none, 2⟩ : Token).kind = .comparator .less := rfl
    have hfield : (⟨.identifier, "age", none, 4⟩ : Token).kind = .identifier := rfl
    have hterm := Derives.literalFirst (.inl rfl) hvalue hoperator hfield
    exact (hterm.operand_of_term .or).chain_of_operand
  · exact groupsWithin_of_forall_ne (by decide)

end Rule

end ComparisonRules
