import ComparisonRules.Proofs.Rule.Unfinished

/-!
# The joins of a reading

Every connective of an input stands between the chain up to it and the operand behind it. Reading
joins the two where the operand ends, and then goes on with what they make. So whatever reading
has gone past is joined within the limit of depth. The join that fails is found in what waits.
-/

namespace ComparisonRules.Rule

/-- Where a chain of the connective may start: at the start of the input or of a group. A chain of
AND may also start behind an OR. -/
def StartsChain (connective : Connective) (before : List Token) : Prop :=
  ∀ last, before.getLast? = some last →
    last.kind = .leftParen ∨ (connective = .and ∧ last.kind = .connective .or)

/-- A connective of an input, with the chain up to it and the operand behind it. -/
structure Junction (input : List Token) where
  connective : Connective
  before : List Token
  first : List Token
  joint : Token
  second : List Token
  after : List Token
  left : Rule
  right : Rule
  input_eq : input = before ++ (first ++ joint :: (second ++ after))
  starts : StartsChain connective before
  joint_kind : joint.kind = .connective connective
  first_derives : Derives (.chain connective) first left
  second_derives : Derives (.operand connective) second right
  closed : (Phrase.operand connective).ClosedBy after

def Junction.rule {input : List Token} (junction : Junction input) : Rule :=
  join junction.left junction.connective junction.right

/-- Number of tokens before the connective. -/
def Junction.place {input : List Token} (junction : Junction input) : Nat :=
  junction.before.length + junction.first.length

/-- Rules are joined where the right operand ends. Where two joins end together, the one by OR
takes the one by AND as its right operand. -/
def Junction.Before {input : List Token} (a b : Junction input) : Prop :=
  b.after.length < a.after.length ∨
    (b.after.length = a.after.length ∧ a.connective = .and ∧ b.connective = .or)

/-! ## Going over what is derived -/

def Phrase.place : Phrase → Place
  | links _ left => .joint left
  | _ => .operand

theorem Phrase.place_operand (connective : Connective) :
    (operand connective).place = .operand := by
  cases connective <;> rfl

/-- What stands behind a chain makes its last join. A term needs nothing behind it. -/
def Phrase.SettledBy : Phrase → List Token → Prop
  | term, _ => True
  | chain connective, rest => rest ≠ [] ∧ (operand connective).ClosedBy rest
  | links connective _, rest => rest ≠ [] ∧ (operand connective).ClosedBy rest

theorem Phrase.settledBy_operand {connective : Connective} {rest : List Token} (h : rest ≠ []) :
    (operand connective).SettledBy rest := by
  cases connective with
  | and => trivial
  | or => exact ⟨h, trivial⟩

theorem Derives.closedBy_links_append {connective : Connective} {left rule : Rule}
    {tokens rest : List Token} (h : Derives (.links connective left) tokens rule)
    (hclosed : (Phrase.operand connective).ClosedBy rest) :
    (Phrase.operand connective).ClosedBy (tokens ++ rest) := by
  cases h with
  | done => exact hclosed
  | link hjoint _ _ => exact Phrase.closedBy_operand_cons hjoint

theorem Derives.run_append {phrase : Phrase} {tokens : List Token} {rule : Rule}
    (h : Derives phrase tokens rule) {level : Level} {outer : List Level} {rest : List Token}
    {next : Progress} (hstarts : phrase.StartsAt level) (hsettled : phrase.SettledBy rest)
    (hrun : Progress.run ⟨level, outer, phrase.place⟩ (tokens ++ rest) = .ok next) :
    Progress.run ⟨level, outer, .joint rule⟩ rest = .ok next := by
  induction h generalizing level outer rest with
  | @chain connective first links left rule hfirst hlinks ihFirst ihLinks =>
      rw [Phrase.place_operand] at ihFirst
      rw [List.append_assoc] at hrun
      exact ihLinks hstarts hsettled
        (ihFirst (Phrase.startsAt_operand hstarts)
          (Phrase.settledBy_operand (by simp [hsettled.1])) hrun)
  | done => exact hrun
  | @link connective joint operand links left right rule hjoint hoperand hlinks ihOperand
      ihLinks =>
      rw [Phrase.place_operand] at ihOperand
      change Progress.run ⟨level, outer, .joint left⟩ _ = _ at hrun
      rw [List.cons_append, List.append_assoc, Progress.run_cons,
        Progress.step_connective hstarts hjoint, ok_bind] at hrun
      have hright := ihOperand (Phrase.startsAt_operand_hold hstarts)
        (Phrase.settledBy_operand (by simp [hsettled.1])) hrun
      have hclosed := hlinks.closedBy_links_append hsettled.2
      cases hbehind : links ++ rest with
      | nil => exact absurd (List.append_eq_nil_iff.mp hbehind).2 hsettled.1
      | cons token behind =>
          rw [hbehind] at hright hclosed
          rw [Progress.run_hold hstarts hclosed] at hright
          obtain ⟨joined, hjoined, hrest⟩ := bind_eq_ok.mp hright
          obtain ⟨rfl, -⟩ := joinAt_eq_ok.mp hjoined
          rw [← hbehind] at hrest
          exact ihLinks hstarts hsettled hrest
  | @group opening closing inner rule hopening hclosing hinner ih =>
      change Progress.run ⟨level, outer, .operand⟩ _ = _ at hrun
      rw [List.cons_append, List.append_assoc, Progress.run_cons, Progress.step, if_pos hopening]
        at hrun
      split at hrun
      case isFalse => cases hrun
      have hend : (Phrase.chain .or).SettledBy ([closing] ++ rest) :=
        ⟨by simp, notNext_cons (by simp [hclosing])⟩
      have hrule := ih (Level.opens_fresh .or) hend hrun
      rw [List.singleton_append, Progress.run_cons] at hrule
      simpa [Progress.step, Progress.settle, Progress.shift, joinPending, Level.fresh, hclosing]
        using hrule
  | fieldFirst hfield hoperator hliteral hvalue =>
      change Progress.run ⟨level, outer, .operand⟩ _ = _ at hrun
      rw [denotes_iff.mp hvalue]
      simpa [Progress.step, hfield, hoperator, Token.Kind.isLiteral_iff.mpr hliteral] using hrun
  | literalFirst hliteral hvalue hoperator hfield =>
      change Progress.run ⟨level, outer, .operand⟩ _ = _ at hrun
      rename_i literal operator field comparator value
      have hkind : literal.kind ≠ .leftParen ∧ literal.kind ≠ .identifier := by
        rcases hliteral with hliteral | hliteral <;> simp [hliteral]
      rw [denotes_iff.mp hvalue]
      simpa [Progress.step, hkind, hfield, hoperator, Token.Kind.isLiteral_iff.mpr hliteral]
        using hrun

/-! ## Where a junction stands -/

theorem exists_of_step {connective : Connective} {progress next : Progress} {token : Token}
    (h : progress.step token = .ok next)
    (hkind : token.kind = .leftParen ∨ (connective = .and ∧ token.kind = .connective .or)) :
    ∃ level outer, next = ⟨level, outer, .operand⟩ ∧ level.Opens connective := by
  cases Progress.moves_of_step h with
  | opening _ _ => exact ⟨.fresh, _, rfl, Level.opens_fresh connective⟩
  | or hor _ _ =>
      obtain ⟨rfl, -⟩ := hkind.resolve_left (by simp [hor])
      exact ⟨_, _, rfl, rfl⟩
  | _ => rcases hkind with hkind | ⟨-, hkind⟩ <;> simp_all [Token.Kind.isLiteral]

theorem StartsChain.opens {connective : Connective} {before : List Token} {progress : Progress}
    (h : StartsChain connective before) (hrun : Progress.start.run before = .ok progress) :
    ∃ level outer, progress = ⟨level, outer, .operand⟩ ∧ level.Opens connective := by
  rcases List.eq_nil_or_concat before with rfl | ⟨front, last, rfl⟩
  · cases hrun
    exact ⟨.fresh, [], rfl, Level.opens_fresh connective⟩
  · rw [List.concat_eq_append] at h hrun
    rw [Progress.run_append] at hrun
    obtain ⟨middle, -, hlast⟩ := bind_eq_ok.mp hrun
    obtain ⟨next, hstep, hnext⟩ := bind_eq_ok.mp hlast
    cases hnext
    exact exists_of_step hstep (h last (by simp))

namespace Junction

variable {input : List Token} (junction : Junction input)

theorem run_joint {rest : List Token} {next : Progress}
    (hrun : Progress.start.run
      (junction.before ++ (junction.first ++ junction.joint :: rest)) = .ok next) :
    ∃ (level : Level) (outer : List Level), level.Opens junction.connective ∧
      Progress.run ⟨level.hold junction.connective junction.left junction.joint, outer,
        .operand⟩ rest = .ok next := by
  rw [Progress.run_append] at hrun
  obtain ⟨progress, hbefore, hchain⟩ := bind_eq_ok.mp hrun
  obtain ⟨level, outer, rfl, hopens⟩ := junction.starts.opens hbefore
  have hleft := junction.first_derives.run_append hopens
    ⟨by simp, Phrase.closedBy_operand_cons junction.joint_kind⟩ hchain
  rw [Progress.run_cons, Progress.step_connective hopens junction.joint_kind, ok_bind] at hleft
  exact ⟨level, outer, hopens, hleft⟩

theorem run_operand {rest : List Token} {next : Progress}
    (hsettled : (Phrase.operand junction.connective).SettledBy rest)
    (hrun : Progress.start.run (junction.before ++
      (junction.first ++ junction.joint :: (junction.second ++ rest))) = .ok next) :
    ∃ (level : Level) (outer : List Level), level.Opens junction.connective ∧
      Progress.run ⟨level.hold junction.connective junction.left junction.joint, outer,
        .joint junction.right⟩ rest = .ok next := by
  obtain ⟨level, outer, hopens, hjoint⟩ := junction.run_joint hrun
  have hright : Progress.run _ rest = .ok next :=
    junction.second_derives.run_append (Phrase.startsAt_operand_hold hopens) hsettled (by
      rw [Phrase.place_operand]
      exact hjoint)
  exact ⟨level, outer, hopens, hright⟩

/-- Once reading has passed a connective, its operands are settled: the left one is what reading
holds there, and the right one is what can be read behind it. -/
theorem rule_eq_of_place_eq {rest : List Token} {next : Progress} {other : Junction input}
    (hrun : Progress.start.run
      (junction.before ++ (junction.first ++ junction.joint :: rest)) = .ok next)
    (hplace : other.place = junction.place) : other.rule = junction.rule := by
  have hinput : other.before ++ other.first ++ other.joint :: (other.second ++ other.after)
      = junction.before ++ junction.first
        ++ junction.joint :: (junction.second ++ junction.after) := by
    rw [List.append_assoc, List.append_assoc, ← other.input_eq, ← junction.input_eq]
  obtain ⟨hfront, hback⟩ := List.append_inj hinput (by
    rw [List.length_append, List.length_append]
    exact hplace)
  obtain ⟨hjoint, hoperand⟩ := List.cons.inj hback
  have hconnective : other.connective = junction.connective := by
    have hkind := other.joint_kind
    rw [hjoint, junction.joint_kind] at hkind
    exact (Token.Kind.connective.inj hkind).symm
  have hright : other.right = junction.right := by
    have hderives := other.second_derives
    have hclosed := other.closed
    rw [hconnective] at hderives hclosed
    exact (hderives.unique junction.second_derives hoperand hclosed junction.closed).2
  rw [List.append_cons junction.first, ← List.append_assoc, Progress.run_append] at hrun
  obtain ⟨progress, hjunction, -⟩ := bind_eq_ok.mp hrun
  have hother : Progress.start.run (other.before ++ (other.first ++ [other.joint]))
      = .ok progress := by
    rw [← List.append_assoc, hfront, hjoint, List.append_assoc]
    exact hjunction
  obtain ⟨level, outer, -, hheld⟩ := junction.run_joint hjunction
  obtain ⟨level', outer', -, hheld'⟩ := other.run_joint hother
  rw [Progress.run_nil] at hheld hheld'
  rw [← hheld', hconnective] at hheld
  have hleft : other.left = junction.left := by
    simp only [Except.ok.injEq, Progress.mk.injEq] at hheld
    exact (Level.left_of_hold_eq hheld.1).symm
  rw [rule, rule, hleft, hconnective, hright]

theorem exists_front_eq {front after : List Token} (junction : Junction (front ++ after))
    (h : after.length ≤ junction.after.length) :
    ∃ rest, junction.after = rest ++ after ∧ front = junction.before ++
      (junction.first ++ junction.joint :: (junction.second ++ rest)) := by
  have hinput : front ++ after = junction.before ++
      (junction.first ++ junction.joint :: junction.second) ++ junction.after := by
    simpa using junction.input_eq
  obtain ⟨rest, hrest⟩ := List.suffix_of_suffix_length_le (List.suffix_append front after)
    ⟨_, hinput.symm⟩ h
  rw [← hrest, ← List.append_assoc] at hinput
  refine ⟨rest, hrest.symm, ?_⟩
  simpa using List.append_cancel_right hinput

theorem depth_le_of_run {token : Token} {rest : List Token} {next : Progress}
    (hclosed : (Phrase.operand junction.connective).ClosedBy (token :: rest))
    (hrun : Progress.start.run (junction.before ++
      (junction.first ++ junction.joint :: (junction.second ++ token :: rest))) = .ok next) :
    junction.rule.depth ≤ maxDepth := by
  obtain ⟨level, outer, hopens, hright⟩ :=
    junction.run_operand (Phrase.settledBy_operand (by simp)) hrun
  rw [Progress.run_hold hopens hclosed] at hright
  obtain ⟨joined, hjoined, -⟩ := bind_eq_ok.mp hright
  exact (joinAt_eq_ok.mp hjoined).2

theorem depth_le_of_joinPending {level : Level} {outer : List Level} {rule conjoined : Rule}
    (hand : junction.connective = .and)
    (hrun : Progress.start.run (junction.before ++
      (junction.first ++ junction.joint :: junction.second)) = .ok ⟨level, outer, .joint rule⟩)
    (hjoin : joinPending .and rule level.conjunction = .ok conjoined) :
    junction.rule.depth ≤ maxDepth := by
  have hsettled : (Phrase.operand junction.connective).SettledBy [] := by
    rw [hand]
    trivial
  obtain ⟨held, around, -, hright⟩ := junction.run_operand hsettled (by rwa [List.append_nil])
  cases hright
  rw [hand] at hjoin
  have hjoined : joinAt junction.joint junction.left .and junction.right = .ok conjoined := hjoin
  rw [Junction.rule, hand]
  exact (joinAt_eq_ok.mp hjoined).2

end Junction

theorem Junction.depth_le_of_before {front after : List Token} {level : Level} {outer : List Level}
    {rule : Rule} {junction : Junction (front ++ after)} (earlier : Junction (front ++ after))
    (hafter : junction.after = after)
    (hrun : Progress.start.run front = .ok ⟨level, outer, .joint rule⟩)
    (hor : junction.connective = .or →
      ∃ conjoined, joinPending .and rule level.conjunction = .ok conjoined)
    (h : earlier.Before junction) : earlier.rule.depth ≤ maxDepth := by
  rw [Junction.Before, hafter] at h
  obtain ⟨rest, hrest, hfront⟩ := earlier.exists_front_eq (by omega)
  have hclosed := earlier.closed
  rw [hrest] at hclosed h
  rw [hfront] at hrun
  cases rest with
  | cons token rest => exact earlier.depth_le_of_run (Phrase.closedBy_cons_congr hclosed rest) hrun
  | nil =>
      obtain ⟨-, hand, hlast⟩ := h.resolve_left (by simp)
      obtain ⟨conjoined, hconjoined⟩ := hor hlast
      rw [List.append_nil] at hrun
      exact earlier.depth_le_of_joinPending hand hrun hconjoined

/-! ## The join that fails -/

/-- The two joins that a token behind a term may settle: first AND, then OR. -/
inductive JoinFails (level : Level) (rule : Rule) (token : Token) (e : ParseError) : Prop where
  | conjunction :
      joinPending .and rule level.conjunction = .error e → JoinFails level rule token e
  | disjunction {conjoined : Rule} : joinPending .and rule level.conjunction = .ok conjoined →
      token.kind ≠ .connective .and →
      joinPending .or conjoined level.disjunction = .error e → JoinFails level rule token e

theorem joinAt_eq_error {connective : Connective} {left right : Rule} {joint : Token}
    {e : ParseError} :
    joinAt joint left connective right = .error e ↔
      e = .describing joint .fewerJoints ∧ maxDepth < (join left connective right).depth := by
  unfold joinAt
  dsimp only
  split
  · rename_i hdeep
    simp [hdeep, eq_comm]
  · rename_i hdeep
    simp [hdeep]

theorem exists_of_joinPending_eq_error {connective : Connective} {right : Rule}
    {pending : Option (Rule × Token)} {e : ParseError}
    (h : joinPending connective right pending = .error e) :
    ∃ left joint, pending = some (left, joint) ∧ e = .describing joint .fewerJoints ∧
      maxDepth < (join left connective right).depth := by
  cases pending with
  | none => cases h
  | some waiting => exact ⟨waiting.1, waiting.2, rfl, joinAt_eq_error.mp h⟩

theorem JoinFails.expected_eq {level : Level} {rule : Rule} {token : Token} {e : ParseError}
    (h : JoinFails level rule token e) : e.expected = .fewerJoints := by
  cases h with
  | conjunction herror =>
      obtain ⟨left, joint, -, rfl, -⟩ := exists_of_joinPending_eq_error herror
      rfl
  | disjunction _ _ herror =>
      obtain ⟨left, joint, -, rfl, -⟩ := exists_of_joinPending_eq_error herror
      rfl

theorem startsChain_append_singleton {connective : Connective} {front : List Token} {last : Token}
    (h : last.kind = .leftParen ∨ (connective = .and ∧ last.kind = .connective .or)) :
    StartsChain connective (front ++ [last]) := by
  intro token htoken
  rw [List.getLast?_concat] at htoken
  cases htoken
  exact h

theorem SpellsOuter.starts {around : List Token} {outer : List Level}
    (h : SpellsOuter around outer) (connective : Connective) : StartsChain connective around := by
  cases h with
  | nil =>
      intro last hlast
      cases hlast
  | group _ _ hopening =>
      rw [← List.append_assoc, ← List.append_assoc]
      exact startsChain_append_singleton (.inl hopening)

theorem SpellsLevel.starts {around disjunction conjunction : List Token} {outer : List Level}
    {level : Level} (h : SpellsLevel disjunction conjunction level)
    (houter : SpellsOuter around outer) : StartsChain .and (around ++ disjunction) := by
  have hpending := h.disjunction
  cases hdisjunction : level.disjunction with
  | none =>
      rw [hdisjunction] at hpending
      cases hpending
      rw [List.append_nil]
      exact houter.starts .and
  | some waiting =>
      rw [hdisjunction] at hpending
      obtain ⟨hor, -, first, rfl, -⟩ := hpending
      rw [← List.append_assoc]
      exact startsChain_append_singleton (.inr ⟨rfl, hor⟩)

theorem exists_junction {front after : List Token} {progress : Progress} {rule : Rule}
    {token : Token} {e : ParseError} (h : Spells front progress)
    (hplace : progress.place = .joint rule) (hfails : JoinFails progress.level rule token e)
    (hafter : token.kind ≠ .connective .and → NotNext .and after) :
    ∃ junction : Junction (front ++ after), junction.after = after ∧
      e = .describing junction.joint .fewerJoints ∧
      max junction.left.depth junction.right.depth = maxDepth ∧
      (junction.connective = .or →
        ∃ conjoined, joinPending .and rule progress.level.conjunction = .ok conjoined) := by
  obtain ⟨level, outer, place⟩ := progress
  cases hplace
  obtain ⟨around, disjunction, conjunction, here, rfl, houter, hlevel, hterm, hdepth⟩ := h
  cases hfails with
  | conjunction herror =>
      obtain ⟨left, joint, hpending, rfl, hdeep⟩ := exists_of_joinPending_eq_error herror
      have hconjunction := hlevel.conjunction
      rw [hpending] at hconjunction
      obtain ⟨hand, hleft, first, rfl, hfirst⟩ := hconjunction
      refine ⟨⟨.and, around ++ disjunction, first, joint, here, after, left, rule, by simp,
        hlevel.starts houter, hand, hfirst, hterm, trivial⟩, rfl, rfl, ?_, ?_⟩
      · rw [depth] at hdeep
        dsimp only
        omega
      · intro hor
        cases hor
  | @disjunction conjoined hconjoined hkind herror =>
      obtain ⟨left, joint, hpending, rfl, hdeep⟩ := exists_of_joinPending_eq_error herror
      obtain ⟨hright, hrightdepth⟩ := hlevel.conjunction.joined hterm hdepth hconjoined
      have hdisjunction := hlevel.disjunction
      rw [hpending] at hdisjunction
      obtain ⟨hor, hleft, first, rfl, hfirst⟩ := hdisjunction
      refine ⟨⟨.or, around, first, joint, conjunction ++ here, after, left, conjoined, by simp,
        houter.starts .or, hor, hfirst, hright, hafter hkind⟩, rfl, rfl, ?_,
        fun _ => ⟨conjoined, hconjoined⟩⟩
      rw [depth] at hdeep
      dsimp only
      omega

end ComparisonRules.Rule
