import ComparisonRules.Proofs.Rule.Joins
import ComparisonRules.Proofs.Rule.Order

/-!
# Where reading stops

A text that is no rule is refused at its earliest wrong token. Everything before that token is the
start of some expression, and with the token it is the start of none, unless the token is wrong
only for opening one group too many; what comes behind makes no difference. A rule that becomes
too deep is refused at the first connective whose operands are as deep as can be.
-/

namespace ComparisonRules.Rule

/-! ## The order of tokens along a reading -/

def Place.awaited : Place → Awaited
  | operand => .operand
  | comparator left => .comparator (left.kind = .identifier)
  | side left _ => .side (left.kind = .identifier)
  | joint _ => .joint

/-- What may stand at the place, and how many groups are open there. -/
def Progress.awaits (progress : Progress) : Awaited × Nat :=
  (progress.place.awaited, progress.outer.length)

section

variable (level : Level) (outer : List Level)

@[simp] theorem Progress.awaits_operand :
    awaits ⟨level, outer, .operand⟩ = (.operand, outer.length) := rfl

@[simp] theorem Progress.awaits_comparator (left : Token) :
    awaits ⟨level, outer, .comparator left⟩
      = (.comparator (left.kind = .identifier), outer.length) := rfl

@[simp] theorem Progress.awaits_side (left : Token) (comparator : Comparator) :
    awaits ⟨level, outer, .side left comparator⟩
      = (.side (left.kind = .identifier), outer.length) := rfl

@[simp] theorem Progress.awaits_joint (rule : Rule) :
    awaits ⟨level, outer, .joint rule⟩ = (.joint, outer.length) := rfl

end

section

variable {progress next : Progress} {token : Token}

theorem advance_of_step (h : progress.step token = .ok next) (hkind : token.kind ≠ .endOfInput) :
    advance progress.awaits token = some next.awaits := by
  cases Progress.moves_of_step h with
  | opening hopening _ => simp [advance_operand, hopening]
  | left hleft =>
      rw [Token.Kind.isLiteral_iff] at hleft
      rcases hleft with hleft | hleft | hleft <;> simp [advance_operand, hleft]
  | comparator hoperator => simp [advance_comparator, hoperator]
  | literal hfield hliteral =>
      rcases Token.Kind.isLiteral_iff.mp hliteral with hliteral | hliteral <;>
        simp [advance_side, hfield, hliteral]
  | field hname hfield => simp [advance_side, hname, hfield]
  | and hand _ => simp [advance_joint, hand]
  | or hor _ _ => simp [advance_joint, hor]
  | closing hclosing _ _ => simp [advance_joint, hclosing]
  | ending hend _ _ => exact absurd hend hkind

theorem follow_of_run {tokens : List Token} (h : progress.run tokens = .ok next)
    (hkind : ∀ token ∈ tokens, token.kind ≠ .endOfInput) :
    follow progress.awaits tokens = some next.awaits := by
  induction tokens generalizing progress with
  | nil =>
      cases h
      rfl
  | cons token tokens ih =>
      obtain ⟨middle, hstep, hrest⟩ := bind_eq_ok.mp h
      rw [follow_cons, advance_of_step hstep (hkind token (by simp)), Option.bind_some]
      exact ih hrest fun later hlater => hkind later (by simp [hlater])

/-- A token is refused in its place. Unless it opens one group too many, it cannot stand there. -/
structure Refused (progress : Progress) (token : Token) (e : ParseError) : Prop where
  eq_describing : e = .describing token e.expected
  expected_ne : e.expected ≠ .fewerJoints
  misplaced : e.expected ≠ .fewerGroups →
    advance progress.awaits token = none ∧
      (token.kind = .endOfInput → progress.awaits ≠ (.joint, 0))

theorem refused_describing {expected : Expectation} (hexpected : expected ≠ .fewerJoints)
    (hnone : advance progress.awaits token = none)
    (hend : token.kind = .endOfInput → progress.awaits ≠ (.joint, 0)) :
    Refused progress token (.describing token expected) :=
  ⟨rfl, hexpected, fun _ => ⟨hnone, hend⟩⟩

theorem refused_shift {level : Level} {outer : List Level} {rule disjoined : Rule}
    {e : ParseError} (h : Progress.shift outer disjoined token = .error e)
    (hkind : token.kind ≠ .connective .and) : Refused ⟨level, outer, .joint rule⟩ token e := by
  obtain ⟨kind, lexeme, literal, offset⟩ := token
  cases kind with
  | connective connective =>
      cases connective with
      | and => exact absurd rfl hkind
      | or => cases h
  | rightParen =>
      cases outer with
      | nil =>
          cases h
          exact refused_describing (by decide) rfl (by simp)
      | cons => cases h
  | endOfInput =>
      cases outer with
      | nil => cases h
      | cons =>
          cases h
          exact refused_describing (by decide) rfl (by simp)
  | _ => cases outer <;> cases h <;> exact refused_describing (by decide) rfl (by simp)

theorem refused_or_joinFails {e : ParseError} (h : progress.step token = .error e) :
    Refused progress token e ∨
      ∃ rule, progress.place = .joint rule ∧ JoinFails progress.level rule token e := by
  obtain ⟨level, outer, place⟩ := progress
  cases place with
  | operand =>
      refine .inl ?_
      rw [Progress.step] at h
      split at h
      · split at h <;> cases h
        exact ⟨rfl, by simp [ParseError.describing], fun hgroups => absurd rfl hgroups⟩
      · split at h <;> cases h
        refine refused_describing (by decide) ?_ (by simp)
        obtain ⟨kind, lexeme, literal, offset⟩ := token
        cases kind <;> simp_all [advance_operand, Token.Kind.isLiteral]
  | comparator left =>
      refine .inl ?_
      rw [Progress.step] at h
      split at h <;> cases h
      refine refused_describing (by decide) ?_ (by simp)
      obtain ⟨kind, lexeme, literal, offset⟩ := token
      cases kind <;> simp_all [advance_comparator]
  | side left comparator =>
      refine .inl ?_
      rw [Progress.step] at h
      split at h
      · split at h <;> cases h
        refine refused_describing (by decide) ?_ (by simp)
        obtain ⟨kind, lexeme, literal, offset⟩ := token
        cases kind <;> simp_all [advance_side, Token.Kind.isLiteral]
      · split at h <;> cases h
        refine refused_describing (by decide) ?_ (by simp)
        obtain ⟨kind, lexeme, literal, offset⟩ := token
        cases kind <;> simp_all [advance_side]
  | joint rule =>
      rw [Progress.step, Progress.settle] at h
      cases hconjoined : joinPending .and rule level.conjunction with
      | error e' =>
          rw [hconjoined] at h
          cases h
          exact .inr ⟨rule, rfl, .conjunction hconjoined⟩
      | ok conjoined =>
          rw [hconjoined, ok_bind] at h
          split at h
          case isTrue => cases h
          rename_i hand
          cases hdisjoined : joinPending .or conjoined level.disjunction with
          | error e' =>
              rw [hdisjoined] at h
              cases h
              exact .inr ⟨rule, rfl, .disjunction hconjoined hand hdisjoined⟩
          | ok disjoined =>
              rw [hdisjoined, ok_bind] at h
              exact .inl (refused_shift h hand)

end

/-! ## The earliest wrong token -/

/-- The grammar derives a rule from the input, whatever its depth and its groups. -/
def IsExpression (tokens : List Token) : Prop :=
  ∃ rule, Derives (.chain .or) (inputOf tokens) rule

/-- Reading stops at a token that cannot stand where it does, while all before it could. -/
structure FirstWrong (tokens front : List Token) (token : Token) (e : ParseError) : Prop where
  tokens_eq : ∃ back, tokens = front ++ token :: back
  position_eq : e.position = token.offset
  width_eq : e.width = token.width
  found_eq : e.found = token.description
  kind_ne : ∀ earlier ∈ front, earlier.kind ≠ .endOfInput
  completed : ∃ more, IsExpression (front ++ more)
  stable : ∀ more, ofTokens (front ++ token :: more) = .error e
  hopeless : e.expected ≠ .fewerGroups → ∀ more, ¬ IsExpression (front ++ token :: more)

section

variable {front : List Token} {token : Token} {progress : Progress} {e : ParseError}

theorem isExpression_of_run (hfront : ∀ token ∈ front, token.kind ≠ .endOfInput)
    (hrun : Progress.start.run front = .ok progress) : ∃ more, IsExpression (front ++ more) := by
  have hspells := spells_run spells_start hrun hfront
  rw [List.nil_append] at hspells
  obtain ⟨more, rule, hderives⟩ := hspells.finish
  refine ⟨more, rule, ?_⟩
  have hinput := inputOf_append hderives.kind_ne []
  rw [List.append_nil] at hinput
  rw [hinput, inputOf, List.takeWhile_nil, List.append_nil]
  exact hderives

theorem ofTokens_of_run (hfront : ∀ token ∈ front, token.kind ≠ .endOfInput)
    (hrun : Progress.start.run front = .ok progress) (hstep : progress.step token = .error e)
    (more : List Token) : ofTokens (front ++ token :: more) = .error e := by
  obtain ⟨back, hback⟩ := exists_inputOf_append hfront token more
  rw [ofTokens_eq_error, hback, Progress.run_append, hrun, ok_bind, Progress.run_cons, hstep,
    error_bind]

theorem not_isExpression_of_run (hfront : ∀ token ∈ front, token.kind ≠ .endOfInput)
    (hrun : Progress.start.run front = .ok progress)
    (hnone : advance progress.awaits token = none)
    (hend : token.kind = .endOfInput → progress.awaits ≠ (.joint, 0)) (more : List Token) :
    ¬ IsExpression (front ++ token :: more) := by
  rintro ⟨rule, hderives⟩
  have hfollow := hderives.follow_eq 0
  have hread : follow (.operand, 0) front = some progress.awaits := follow_of_run hrun hfront
  change follow (.operand, 0) _ = _ at hfollow
  rw [inputOf_append hfront, follow_append, hread, Option.bind_some] at hfollow
  by_cases hkind : token.kind = .endOfInput
  · rw [inputOf_cons_of_eq hkind] at hfollow
    exact hend hkind (Option.some.inj hfollow)
  · rw [inputOf_cons_of_ne hkind, follow_cons, hnone] at hfollow
    cases hfollow

end

theorem exists_eq_append_singleton {input front back : List Token} {token stop : Token}
    (h : input ++ [stop] = front ++ token :: back) :
    ∃ after, token :: back = after ++ [stop] ∧ input = front ++ after := by
  rcases List.eq_nil_or_concat (token :: back) with hnil | ⟨after, last, hlast⟩
  · cases hnil
  · rw [List.concat_eq_append] at hlast
    rw [hlast, ← List.append_assoc] at h
    obtain ⟨rfl, heq⟩ := List.append_inj' h rfl
    cases heq
    exact ⟨after, hlast, rfl⟩

theorem exists_junction_of_run {input : List Token} {stop : Token} {e : ParseError}
    (hinput : ∀ token ∈ input, token.kind ≠ .endOfInput)
    (h : Progress.start.run (input ++ [stop]) = .error e) (he : e.expected = .fewerJoints) :
    ∃ junction : Junction input, e = .describing junction.joint .fewerJoints ∧
      max junction.left.depth junction.right.depth = maxDepth ∧
      (∀ other : Junction input, other.place = junction.place → other.rule = junction.rule) ∧
      ∀ earlier : Junction input, earlier.Before junction → earlier.rule.depth ≤ maxDepth := by
  obtain ⟨front, token, back, progress, htokens, hrun, hstep⟩ :=
    Progress.exists_of_run_eq_error h
  obtain ⟨after, hafter, rfl⟩ := exists_eq_append_singleton htokens
  have hfront : ∀ token ∈ front, token.kind ≠ .endOfInput := fun token htoken =>
    hinput token (List.mem_append_left _ htoken)
  obtain ⟨level, outer, place⟩ := progress
  rcases refused_or_joinFails hstep with hrefused | ⟨rule, hplace, hfails⟩
  · exact absurd he hrefused.expected_ne
  cases hplace
  have hnext : token.kind ≠ .connective .and → NotNext .and after := by
    intro hkind
    cases after with
    | nil => exact notNext_nil _
    | cons head after =>
        cases hafter
        exact notNext_cons hkind
  have hspells := spells_run spells_start hrun hfront
  rw [List.nil_append] at hspells
  obtain ⟨junction, hjunction, hjoint, hdepth, hor⟩ :=
    exists_junction hspells rfl hfails hnext
  refine ⟨junction, hjoint, hdepth, ?_, ?_⟩
  · intro other hplace
    obtain ⟨rest, -, heq⟩ := junction.exists_front_eq (by rw [hjunction])
    rw [heq] at hrun
    exact junction.rule_eq_of_place_eq hrun hplace
  · intro earlier hearlier
    exact Junction.depth_le_of_before earlier hjunction hrun hor hearlier

/-- Reading stops at the earliest token that is wrong, and the error describes it. If a rule becomes
too deep, that is a connective with an operand as deep as can be, the operands being those that its
place gives it; whatever is joined before it stays within the limit. -/
theorem ofTokens_error_is_earliest {tokens : List Token} {e : ParseError}
    (hend : tokens.getLast?.map Token.kind = some .endOfInput) (h : ofTokens tokens = .error e) :
    (e.expected ≠ .fewerJoints → ∃ front token, FirstWrong tokens front token e) ∧
    (e.expected = .fewerJoints → ∃ junction : Junction (inputOf tokens),
      e = .describing junction.joint .fewerJoints ∧
      max junction.left.depth junction.right.depth = maxDepth ∧
      (∀ other : Junction (inputOf tokens), other.place = junction.place →
        other.rule = junction.rule) ∧
      ∀ earlier : Junction (inputOf tokens), earlier.Before junction →
        earlier.rule.depth ≤ maxDepth) := by
  have hinput : ∀ token ∈ inputOf tokens, token.kind ≠ .endOfInput :=
    fun token htoken => (of_mem_inputOf htoken).2
  have hread := ofTokens_eq_error.mp h
  refine ⟨?_, exists_junction_of_run hinput hread⟩
  intro he
  obtain ⟨front, token, back, progress, heq, hrun, hstep⟩ :=
    Progress.exists_of_run_eq_error hread
  have hrefused := (refused_or_joinFails hstep).resolve_right (by
    rintro ⟨rule, -, hfails⟩
    exact he hfails.expected_eq)
  obtain ⟨after, -, hfront⟩ := exists_eq_append_singleton heq
  have hwithin : ∀ earlier ∈ front, earlier.kind ≠ .endOfInput := fun earlier hearlier =>
    hinput earlier (by rw [hfront]; exact List.mem_append_left _ hearlier)
  obtain ⟨junk, htokens⟩ := exists_eq_inputOf_append hend
  refine ⟨front, token, ⟨back ++ junk, ?_⟩, ?_, ?_, ?_, hwithin, isExpression_of_run hwithin hrun,
    ofTokens_of_run hwithin hrun hstep, ?_⟩
  · rw [List.append_cons, heq, List.append_assoc, List.cons_append] at htokens
    exact htokens
  · rw [hrefused.eq_describing, ParseError.describing]
  · rw [hrefused.eq_describing, ParseError.describing]
  · rw [hrefused.eq_describing, ParseError.describing]
  · intro hgroups
    obtain ⟨hnone, hplace⟩ := hrefused.misplaced hgroups
    exact not_isExpression_of_run hwithin hrun hnone hplace

/-- A group that the end of input leaves open, and the 101st joint of a chain. -/
theorem ofTokens_error_is_earliest_open_group :
    (∃ front token, FirstWrong [⟨.leftParen, "(", none, 0⟩, ⟨.identifier, "a", none, 1⟩,
        ⟨.comparator .greater, ">", none, 3⟩, ⟨.number, "1", none, 5⟩, ⟨.endOfInput, "", none, 6⟩]
        front token ⟨.closingParen, "end of input", 6, 0⟩) ∧
    ∃ junction : Junction (inputOf
        ((List.replicate 101 [⟨.identifier, "a", none, 0⟩, ⟨.comparator .greater, ">", none, 1⟩,
          ⟨.number, "1", none, 2⟩, ⟨.connective .and, "AND", none, 3⟩]).flatten
        ++ [⟨.identifier, "a", none, 0⟩, ⟨.comparator .greater, ">", none, 1⟩,
          ⟨.number, "1", none, 2⟩, ⟨.endOfInput, "", none, 3⟩])),
      max junction.left.depth junction.right.depth = 100 := by
  constructor
  · exact (ofTokens_error_is_earliest (by decide) (by decide)).1 (by decide)
  · have hdeep : ofTokens
        ((List.replicate 101 [⟨.identifier, "a", none, 0⟩, ⟨.comparator .greater, ">", none, 1⟩,
          ⟨.number, "1", none, 2⟩, ⟨.connective .and, "AND", none, 3⟩]).flatten
        ++ [⟨.identifier, "a", none, 0⟩, ⟨.comparator .greater, ">", none, 1⟩,
          ⟨.number, "1", none, 2⟩, ⟨.endOfInput, "", none, 3⟩])
        = .error ⟨.fewerJoints, "'AND'", 3, 3⟩ := by decide +kernel
    obtain ⟨junction, -, hdepth, -⟩ :=
      (ofTokens_error_is_earliest (by rw [List.getLast?_append]; rfl) hdeep).2 rfl
    exact ⟨junction, hdepth⟩

end ComparisonRules.Rule
