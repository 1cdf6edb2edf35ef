import ComparisonRules.Proofs.Rule.Reading

/-!
# Reading token by token

The readers call one another, and a caller keeps what it has read while it waits for the rest.
Here the same reading goes from one token to the next, and what the callers keep is written down:
the left operands that wait for their right ones, group by group. A rule is joined to a waiting
operand only when the token behind it is seen. Going through the input and the token that ends it
gives what the readers give, rule or error.
-/

namespace ComparisonRules.Rule

/-- The left operands that wait in one group, each with the token of its connective: at most one
for OR and, behind that, at most one for AND. -/
structure Level where
  disjunction : Option (Rule × Token)
  conjunction : Option (Rule × Token)

namespace Level

def fresh : Level := ⟨none, none⟩

/-- Nothing waits at a level where a chain of the connective starts, except for what the chain is
an operand of. -/
def Opens (level : Level) : Connective → Prop
  | .or => level = fresh
  | .and => level.conjunction = none

def hold (level : Level) (connective : Connective) (left : Rule) (joint : Token) : Level :=
  match connective with
  | .or => { level with disjunction := some (left, joint) }
  | .and => { level with conjunction := some (left, joint) }

theorem left_of_hold_eq {level level' : Level} {connective : Connective} {left left' : Rule}
    {joint joint' : Token}
    (h : level.hold connective left joint = level'.hold connective left' joint') :
    left = left' := by
  cases connective with
  | or =>
      have hdisjunction := congrArg disjunction h
      cases hdisjunction
      rfl
  | and =>
      have hconjunction := congrArg conjunction h
      cases hconjunction
      rfl

theorem opens_fresh (connective : Connective) : fresh.Opens connective := by
  cases connective <;> exact rfl

end Level

/-- What has been read of the term at a place. -/
inductive Place where
  | operand
  | comparator (left : Token)
  | side (left : Token) (comparator : Comparator)
  | joint (rule : Rule)

/-- How far reading has come: what waits in the innermost open group and in the groups around it,
and what has been read of the term there. -/
structure Progress where
  level : Level
  outer : List Level
  place : Place

def joinPending (connective : Connective) (right : Rule) :
    Option (Rule × Token) → Except ParseError Rule
  | none => .ok right
  | some (left, joint) => joinAt joint left connective right

namespace Progress

/-- Takes a token behind a disjunction to which nothing more can be joined on the left. -/
def shift (outer : List Level) (rule : Rule) (token : Token) : Except ParseError Progress :=
  match token.kind, outer with
  | .connective .or, _ => .ok ⟨⟨some (rule, token), none⟩, outer, .operand⟩
  | .rightParen, level :: outer => .ok ⟨level, outer, .joint rule⟩
  | .endOfInput, [] => .ok ⟨.fresh, [], .joint rule⟩
  | _, [] => .error (.describing token .endOrConnective)
  | _, _ :: _ => .error (.describing token .closingParen)

/-- Takes a token behind a term. It settles what the term is joined to. -/
def settle (level : Level) (outer : List Level) (rule : Rule) (token : Token) :
    Except ParseError Progress := do
  let conjunction ← joinPending .and rule level.conjunction
  if token.kind = .connective .and then
    .ok ⟨{ level with conjunction := some (conjunction, token) }, outer, .operand⟩
  else do
    let disjunction ← joinPending .or conjunction level.disjunction
    shift outer disjunction token

def step (progress : Progress) (token : Token) : Except ParseError Progress :=
  match progress with
  | ⟨level, outer, .operand⟩ =>
      if token.kind = .leftParen then
        if outer.length < maxDepth then .ok ⟨.fresh, level :: outer, .operand⟩
        else .error (.describing token .fewerGroups)
      else if token.kind = .identifier ∨ token.kind.isLiteral then
        .ok ⟨level, outer, .comparator token⟩
      else .error (.describing token .operand)
  | ⟨level, outer, .comparator left⟩ =>
      match token.kind with
      | .comparator comparator => .ok ⟨level, outer, .side left comparator⟩
      | _ => .error (.describing token .comparator)
  | ⟨level, outer, .side left comparator⟩ =>
      if left.kind = .identifier then
        if token.kind.isLiteral then
          .ok ⟨level, outer, .joint (leaf ⟨left.lexeme, comparator, literalOf token⟩)⟩
        else .error (.describing token .literal)
      else if token.kind = .identifier then
        .ok ⟨level, outer, .joint (leaf ⟨token.lexeme, comparator.flip, literalOf left⟩)⟩
      else .error (.describing token .field)
  | ⟨level, outer, .joint rule⟩ => settle level outer rule token

def run (progress : Progress) (tokens : List Token) : Except ParseError Progress :=
  tokens.foldlM step progress

@[simp] theorem run_nil (progress : Progress) : progress.run [] = .ok progress := rfl

@[simp] theorem run_cons (progress : Progress) (token : Token) (tokens : List Token) :
    progress.run (token :: tokens) = progress.step token >>= fun next => next.run tokens := rfl

theorem run_append (progress : Progress) (front back : List Token) :
    progress.run (front ++ back) = progress.run front >>= fun next => next.run back := by
  rw [run, List.foldlM_append]
  rfl

theorem exists_of_run_eq_error {progress : Progress} {tokens : List Token} {e : ParseError}
    (h : progress.run tokens = .error e) :
    ∃ front token back middle, tokens = front ++ token :: back ∧
      progress.run front = .ok middle ∧ middle.step token = .error e := by
  induction tokens generalizing progress with
  | nil => cases h
  | cons token tokens ih =>
      rw [run_cons] at h
      cases hstep : progress.step token with
      | error e' =>
          rw [hstep] at h
          cases h
          exact ⟨[], token, tokens, progress, rfl, rfl, hstep⟩
      | ok next =>
          rw [hstep, ok_bind] at h
          obtain ⟨front, later, back, middle, rfl, hrun, herror⟩ := ih h
          refine ⟨token :: front, later, back, middle, rfl, ?_, herror⟩
          rw [run_cons, hstep, ok_bind, hrun]

/-- Everything that a step can do, and when it does it. -/
inductive Moves : Progress → Token → Progress → Prop where
  | opening {level : Level} {outer : List Level} {token : Token} :
      token.kind = .leftParen → outer.length < maxDepth →
      Moves ⟨level, outer, .operand⟩ token ⟨.fresh, level :: outer, .operand⟩
  | left {level : Level} {outer : List Level} {token : Token} :
      token.kind = .identifier ∨ token.kind.isLiteral = true →
      Moves ⟨level, outer, .operand⟩ token ⟨level, outer, .comparator token⟩
  | comparator {level : Level} {outer : List Level} {left token : Token}
      {comparator : Comparator} :
      token.kind = .comparator comparator →
      Moves ⟨level, outer, .comparator left⟩ token ⟨level, outer, .side left comparator⟩
  | literal {level : Level} {outer : List Level} {left token : Token} {comparator : Comparator} :
      left.kind = .identifier → token.kind.isLiteral = true →
      Moves ⟨level, outer, .side left comparator⟩ token
        ⟨level, outer, .joint (leaf ⟨left.lexeme, comparator, literalOf token⟩)⟩
  | field {level : Level} {outer : List Level} {left token : Token} {comparator : Comparator} :
      left.kind ≠ .identifier → token.kind = .identifier →
      Moves ⟨level, outer, .side left comparator⟩ token
        ⟨level, outer, .joint (leaf ⟨token.lexeme, comparator.flip, literalOf left⟩)⟩
  | and {level : Level} {outer : List Level} {token : Token} {rule conjoined : Rule} :
      token.kind = .connective .and → joinPending .and rule level.conjunction = .ok conjoined →
      Moves ⟨level, outer, .joint rule⟩ token
        ⟨{ level with conjunction := some (conjoined, token) }, outer, .operand⟩
  | or {level : Level} {outer : List Level} {token : Token} {rule conjoined disjoined : Rule} :
      token.kind = .connective .or → joinPending .and rule level.conjunction = .ok conjoined →
      joinPending .or conjoined level.disjunction = .ok disjoined →
      Moves ⟨level, outer, .joint rule⟩ token ⟨⟨some (disjoined, token), none⟩, outer, .operand⟩
  | closing {level around : Level} {outer : List Level} {token : Token}
      {rule conjoined disjoined : Rule} :
      token.kind = .rightParen → joinPending .and rule level.conjunction = .ok conjoined →
      joinPending .or conjoined level.disjunction = .ok disjoined →
      Moves ⟨level, around :: outer, .joint rule⟩ token ⟨around, outer, .joint disjoined⟩
  | ending {level : Level} {token : Token} {rule conjoined disjoined : Rule} :
      token.kind = .endOfInput → joinPending .and rule level.conjunction = .ok conjoined →
      joinPending .or conjoined level.disjunction = .ok disjoined →
      Moves ⟨level, [], .joint rule⟩ token ⟨.fresh, [], .joint disjoined⟩

theorem moves_of_step {progress next : Progress} {token : Token}
    (h : progress.step token = .ok next) : Moves progress token next := by
  obtain ⟨level, outer, place⟩ := progress
  cases place with
  | operand =>
      rw [step] at h
      split at h
      · rename_i hopening
        split at h <;> cases h
        rename_i houter
        exact .opening hopening houter
      · split at h <;> cases h
        rename_i hleft
        exact .left hleft
  | comparator left =>
      rw [step] at h
      split at h <;> cases h
      rename_i hoperator
      exact .comparator hoperator
  | side left comparator =>
      rw [step] at h
      split at h
      · rename_i hfield
        split at h <;> cases h
        rename_i hliteral
        exact .literal hfield hliteral
      · rename_i hfield
        split at h <;> cases h
        rename_i hright
        exact .field hfield hright
  | joint rule =>
      obtain ⟨conjoined, hconjoined, hrest⟩ := bind_eq_ok.mp h
      split at hrest
      · rename_i hand
        cases hrest
        exact .and hand hconjoined
      · obtain ⟨disjoined, hdisjoined, hshift⟩ := bind_eq_ok.mp hrest
        unfold shift at hshift
        split at hshift <;> cases hshift
        case h_1 hor => exact .or hor hconjoined hdisjoined
        case h_2 hclosing => exact .closing hclosing hconjoined hdisjoined
        case h_3 hend => exact .ending hend hconjoined hdisjoined

end Progress

/-! ## Chains, one link at a time -/

theorem Phrase.closedBy_chain {connective : Connective} {rest : List Token}
    (h : (operand connective).ClosedBy rest) (hnext : NotNext connective rest) :
    (chain connective).ClosedBy rest := by
  cases connective with
  | and => exact hnext
  | or => exact ⟨h, hnext⟩

/-- Where a phrase may start. -/
def Phrase.StartsAt : Phrase → Level → Prop
  | term, _ => True
  | chain connective, level => level.Opens connective
  | links connective _, level => level.Opens connective

theorem Phrase.startsAt_operand {connective : Connective} {level : Level}
    (h : level.Opens connective) : (operand connective).StartsAt level := by
  cases connective with
  | and => trivial
  | or =>
      cases h
      exact rfl

theorem Phrase.startsAt_operand_hold {connective : Connective} {level : Level} {left : Rule}
    {joint : Token} (h : level.Opens connective) :
    (operand connective).StartsAt (level.hold connective left joint) := by
  cases connective with
  | and => trivial
  | or =>
      cases h
      exact rfl

namespace Progress

variable {level : Level} {outer : List Level} {connective : Connective}

theorem step_connective {left : Rule} {joint : Token} (hopens : level.Opens connective)
    (hjoint : joint.kind = .connective connective) :
    step ⟨level, outer, .joint left⟩ joint
      = .ok ⟨level.hold connective left joint, outer, .operand⟩ := by
  cases connective with
  | and =>
      obtain ⟨disjunction, conjunction⟩ := level
      cases hopens
      simp [step, settle, joinPending, hjoint, Level.hold]
  | or =>
      cases hopens
      simp [step, settle, joinPending, shift, hjoint, Level.fresh, Level.hold]

theorem step_hold {left right : Rule} {joint token : Token} {rest : List Token}
    (hopens : level.Opens connective)
    (hclosed : (Phrase.operand connective).ClosedBy (token :: rest)) :
    step ⟨level.hold connective left joint, outer, .joint right⟩ token
      = joinAt joint left connective right >>= fun joined =>
          step ⟨level, outer, .joint joined⟩ token := by
  cases connective with
  | and =>
      obtain ⟨disjunction, conjunction⟩ := level
      cases hopens
      rfl
  | or =>
      cases hopens
      have hkind : token.kind ≠ .connective .and := hclosed token rest rfl
      simp [step, settle, joinPending, hkind, Level.fresh, Level.hold]

theorem run_hold {left right : Rule} {joint token : Token} {rest : List Token}
    (hopens : level.Opens connective)
    (hclosed : (Phrase.operand connective).ClosedBy (token :: rest)) :
    run ⟨level.hold connective left joint, outer, .joint right⟩ (token :: rest)
      = joinAt joint left connective right >>= fun joined =>
          run ⟨level, outer, .joint joined⟩ (token :: rest) := by
  rw [run_cons, step_hold hopens hclosed, bind_assoc]
  rfl

end Progress

/-! ## The readers in steps -/

variable {stop : Token}

theorem Phrase.closedBy_cons_congr {phrase : Phrase} {token : Token} {rest : List Token}
    (h : phrase.ClosedBy (token :: rest)) (rest' : List Token) :
    phrase.ClosedBy (token :: rest') := by
  have hnext {connective : Connective} (h : NotNext connective (token :: rest)) :
      NotNext connective (token :: rest') := notNext_cons (h token rest rfl)
  cases phrase with
  | term => trivial
  | chain connective =>
      cases connective with
      | and => exact hnext h
      | or => exact ⟨hnext h.1, hnext h.2⟩
  | links connective left =>
      cases connective with
      | and => exact hnext h
      | or => exact ⟨hnext h.1, hnext h.2⟩

theorem Phrase.kind_ne_of_closedBy {token : Token} {rest : List Token}
    (h : (chain .or).ClosedBy (token :: rest)) (connective : Connective) :
    token.kind ≠ .connective connective := by
  cases connective with
  | and => exact h.1 token rest rfl
  | or => exact h.2 token rest rfl

theorem Phrase.closedBy_stop (hstop : stop.kind = .endOfInput) {phrase : Phrase}
    {rest : List Token} (h : phrase.ClosedBy rest) : phrase.ClosedBy (rest ++ [stop]) := by
  cases rest with
  | nil => exact closedBy_cons (by simp [hstop])
  | cons token rest => exact closedBy_cons_congr h _

/-- Behind what a reader has read, the tokens that it leaves are gone through. -/
def goOn (stop : Token) (level : Level) (outer : List Level) (reading : Reading) :
    Except ParseError Progress :=
  reading >>= fun found => Progress.run ⟨level, outer, .joint found.1⟩ (found.2 ++ [stop])

section

variable (level : Level) (outer : List Level)

@[simp] theorem goOn_ok (rule : Rule) (rest : List Token) :
    goOn stop level outer (.ok (rule, rest))
      = Progress.run ⟨level, outer, .joint rule⟩ (rest ++ [stop]) := rfl

@[simp] theorem goOn_error (e : ParseError) : goOn stop level outer (.error e) = .error e := rfl

theorem goOn_bind {α : Type} (x : Except ParseError α) (f : α → Reading) :
    goOn stop level outer (x >>= f) = x >>= fun a => goOn stop level outer (f a) := by
  cases x <;> rfl

end

/-- A reader comes as far as the tokens that it takes do, one after the other. What it leaves
does not go on with its phrase. -/
structure Traced (stop : Token) (outer : List Level) (phrase : Phrase)
    (reader : List Token → Reading) : Prop where
  run_eq : ∀ level tokens, phrase.StartsAt level →
    Progress.run ⟨level, outer, .operand⟩ (tokens ++ [stop])
      = goOn stop level outer (reader tokens)
  closed : ∀ tokens rule rest, reader tokens = .ok (rule, rest) →
    phrase.ClosedBy rest ∧ rest.length ≤ tokens.length

namespace Traced

variable {outer : List Level} {connective : Connective} {operand : List Token → Reading}

theorem run_links (hstop : stop.kind = .endOfInput)
    (h : Traced stop outer (.operand connective) operand) {level : Level}
    (hopens : level.Opens connective) (turns : Nat) (left : Rule) (tokens : List Token) :
    Progress.run ⟨level, outer, .joint left⟩ (tokens ++ [stop])
      = goOn stop level outer (readLinks connective operand turns left tokens) := by
  -- a turn holds the rule joined so far, reads an operand, and joins the two
  induction turns generalizing left tokens with
  | zero => rfl
  | succ turns ih =>
      cases tokens with
      | nil => rfl
      | cons joint behind =>
          rw [readLinks]
          dsimp only
          split
          case isFalse => rfl
          rename_i hjoint
          rw [List.cons_append, Progress.run_cons, Progress.step_connective hopens hjoint,
            ok_bind, h.run_eq _ _ (Phrase.startsAt_operand_hold hopens), goOn_bind]
          cases hread : operand behind with
          | error e => rfl
          | ok found =>
              obtain ⟨right, rest⟩ := found
              have hclosed := Phrase.closedBy_stop hstop (h.closed _ _ _ hread).1
              rw [goOn_ok, ok_bind, goOn_bind]
              dsimp only
              cases hrest : rest ++ [stop] with
              | nil => simp at hrest
              | cons token after =>
                  rw [hrest] at hclosed
                  rw [Progress.run_hold hopens hclosed]
                  congr 1
                  funext joined
                  rw [← hrest, ih]

theorem closed_links (h : Traced stop outer (.operand connective) operand) {turns : Nat}
    {left rule : Rule} {tokens rest : List Token}
    (hread : readLinks connective operand turns left tokens = .ok (rule, rest))
    (hturns : tokens.length ≤ turns) (hclosed : (Phrase.operand connective).ClosedBy tokens) :
    (Phrase.chain connective).ClosedBy rest ∧ rest.length ≤ tokens.length := by
  induction turns generalizing left tokens with
  | zero =>
      cases hread
      cases List.eq_nil_of_length_eq_zero (Nat.le_zero.mp hturns)
      exact ⟨Phrase.closedBy_nil _, Nat.le_refl _⟩
  | succ turns ih =>
      cases tokens with
      | nil =>
          cases hread
          exact ⟨Phrase.closedBy_nil _, Nat.le_refl _⟩
      | cons joint behind =>
          rw [readLinks] at hread
          dsimp only at hread
          split at hread
          · obtain ⟨⟨right, after⟩, hright, hjoin⟩ := bind_eq_ok.mp hread
            obtain ⟨joined, -, hlinks⟩ := bind_eq_ok.mp hjoin
            obtain ⟨hafter, hshorter⟩ := h.closed _ _ _ hright
            rw [List.length_cons] at hturns ⊢
            obtain ⟨hrest, hlength⟩ := ih hlinks (by dsimp only; omega) hafter
            exact ⟨hrest, by dsimp only at hlength; omega⟩
          · rename_i hjoint
            cases hread
            exact ⟨Phrase.closedBy_chain hclosed (notNext_cons hjoint), Nat.le_refl _⟩

theorem chain (hstop : stop.kind = .endOfInput)
    (h : Traced stop outer (.operand connective) operand) :
    Traced stop outer (.chain connective) (readChain connective operand) where
  run_eq := by
    intro level tokens hopens
    rw [h.run_eq level tokens (Phrase.startsAt_operand hopens), readChain, goOn_bind, goOn]
    congr 1
    funext found
    exact run_links hstop h hopens found.2.length found.1 found.2
  closed := by
    intro tokens rule rest hread
    obtain ⟨⟨first, behind⟩, hfirst, hlinks⟩ := bind_eq_ok.mp hread
    obtain ⟨hbehind, hshorter⟩ := h.closed _ _ _ hfirst
    obtain ⟨hrest, hlength⟩ := closed_links h hlinks (Nat.le_refl _) hbehind
    exact ⟨hrest, Nat.le_trans hlength hshorter⟩

theorem disjunction (hstop : stop.kind = .endOfInput) {term : List Token → Reading}
    (h : Traced stop outer .term term) :
    Traced stop outer (.chain .or) (readDisjunction term) := by
  have hconjunction : Traced stop outer (.operand .or) (readChain .and term) :=
    @chain stop outer .and term hstop h
  exact hconjunction.chain hstop

end Traced

section

variable (hstop : stop.kind = .endOfInput) (level : Level) (outer : List Level)

include hstop

theorem readRightSide_run (left : Token) (comparator : Comparator) (tokens : List Token) :
    Progress.run ⟨level, outer, .side left comparator⟩ (tokens ++ [stop])
      = goOn stop level outer (readRightSide stop left comparator tokens) := by
  unfold readRightSide
  cases tokens with
  | nil => split <;> simp [Progress.step, refuse, Token.Kind.isLiteral, *]
  | cons right rest =>
      rw [List.cons_append, Progress.run_cons, Progress.step]
      dsimp only
      split <;> split <;> rfl

theorem readComparison_run {tokens : List Token}
    (h : ∀ token rest, tokens = token :: rest → token.kind ≠ .leftParen) :
    Progress.run ⟨level, outer, .operand⟩ (tokens ++ [stop])
      = goOn stop level outer (readComparison stop tokens) := by
  cases tokens with
  | nil => simp [readComparison, Progress.step, refuse, Token.Kind.isLiteral, hstop]
  | cons left behind =>
      rw [List.cons_append, Progress.run_cons, Progress.step, if_neg (h left behind rfl)]
      unfold readComparison
      dsimp only
      split
      case isFalse => rfl
      cases behind with
      | nil => simp [Progress.step, refuse, hstop]
      | cons operator rest =>
          obtain ⟨kind, lexeme, literal, offset⟩ := operator
          cases kind with
          | comparator comparator => exact readRightSide_run hstop level outer left comparator rest
          | _ => rfl

end

/-- What an opening parenthesis leads to. -/
def GroupTraced (stop : Token) (outer : List Level) (groups : Nat) : Prop :=
  ∀ level lexeme literal offset rest,
    Progress.run ⟨level, outer, .operand⟩
        (⟨.leftParen, lexeme, literal, offset⟩ :: rest ++ [stop])
      = goOn stop level outer (readTerm stop groups (⟨.leftParen, lexeme, literal, offset⟩ :: rest))

theorem groupTraced_succ (hstop : stop.kind = .endOfInput) {groups : Nat} {outer : List Level}
    (hgroups : outer.length < maxDepth)
    (hinner : ∀ level, Traced stop (level :: outer) .term (readTerm stop groups)) :
    GroupTraced stop outer (groups + 1) := by
  intro level lexeme literal offset rest
  have hdisjunction := (hinner level).disjunction hstop
  have hopen : Progress.step ⟨level, outer, .operand⟩ ⟨.leftParen, lexeme, literal, offset⟩
      = .ok ⟨.fresh, level :: outer, .operand⟩ := by
    simp [Progress.step, hgroups]
  rw [List.cons_append, Progress.run_cons, hopen, ok_bind,
    hdisjunction.run_eq _ _ (Level.opens_fresh .or), readTerm_group, goOn_bind]
  cases hread : readDisjunction (readTerm stop groups) rest with
  | error e => rfl
  | ok found =>
      obtain ⟨rule, behind⟩ := found
      have hclosed := (hdisjunction.closed _ _ _ hread).1
      cases behind with
      | nil =>
          simp [Progress.step, Progress.settle, Progress.shift, joinPending, refuse, hstop,
            Level.fresh]
      | cons closing behind =>
          obtain ⟨kind, lexeme, literal, offset⟩ := closing
          cases kind with
          | connective connective =>
              exact absurd rfl (Phrase.kind_ne_of_closedBy hclosed connective)
          | _ => rfl

theorem traced_of_groupTraced (hstop : stop.kind = .endOfInput) {groups : Nat}
    {outer : List Level} (h : GroupTraced stop outer groups) :
    Traced stop outer .term (readTerm stop groups) where
  run_eq := by
    intro level tokens _
    by_cases hopening : ∃ token rest, tokens = token :: rest ∧ token.kind = .leftParen
    · obtain ⟨⟨kind, lexeme, literal, offset⟩, rest, rfl, hkind⟩ := hopening
      cases hkind
      exact h level lexeme literal offset rest
    · have hterm : readTerm stop groups tokens = readComparison stop tokens := by
        cases tokens with
        | nil => cases groups <;> rfl
        | cons token rest =>
            exact readTerm_eq_readComparison fun hkind => hopening ⟨token, rest, rfl, hkind⟩
      rw [hterm]
      refine readComparison_run hstop level outer ?_
      rintro token rest rfl hkind
      exact hopening ⟨token, rest, rfl, hkind⟩
  closed := by
    intro tokens rule rest hread
    obtain ⟨taken, rfl, -⟩ := readTerm_takes hread
    exact ⟨trivial, by simp⟩

theorem readTerm_traced (hstop : stop.kind = .endOfInput) {groups : Nat} {outer : List Level}
    (h : outer.length + groups = maxDepth) : Traced stop outer .term (readTerm stop groups) := by
  induction groups generalizing outer with
  | zero =>
      refine traced_of_groupTraced hstop ?_
      intro level lexeme literal offset rest
      have hfull : ¬ outer.length < maxDepth := by omega
      simp [Progress.step, hfull, readTerm, refuse]
  | succ groups ih =>
      refine traced_of_groupTraced hstop (groupTraced_succ hstop (by omega) ?_)
      intro level
      exact ih (by rw [List.length_cons]; omega)

/-! ## Whole token lists -/

theorem inputOf_append {front : List Token} (h : ∀ token ∈ front, token.kind ≠ .endOfInput)
    (back : List Token) : inputOf (front ++ back) = front ++ inputOf back := by
  unfold inputOf
  exact List.takeWhile_append_of_pos (by simpa using h)

theorem inputOf_cons_of_ne {token : Token} (h : token.kind ≠ .endOfInput) (back : List Token) :
    inputOf (token :: back) = token :: inputOf back := by
  unfold inputOf
  exact List.takeWhile_cons_of_pos (by simpa using h)

theorem inputOf_cons_of_eq {token : Token} (h : token.kind = .endOfInput) (back : List Token) :
    inputOf (token :: back) = [] := by
  unfold inputOf
  exact List.takeWhile_cons_of_neg (by simpa using h)

theorem stopOf_append {front : List Token} (h : ∀ token ∈ front, token.kind ≠ .endOfInput)
    {stop : Token} (hstop : stop.kind = .endOfInput) (back : List Token) :
    stopOf (front ++ stop :: back) = stop := by
  have hfront : front.find? (fun token => !isWithinInput token) = none := by
    rw [List.find?_eq_none]
    intro token htoken
    simpa [isWithinInput] using h token htoken
  rw [stopOf, List.find?_append, hfront]
  simp [isWithinInput, hstop]

theorem exists_inputOf_append {front : List Token}
    (h : ∀ token ∈ front, token.kind ≠ .endOfInput) (token : Token) (more : List Token) :
    ∃ back, inputOf (front ++ token :: more) ++ [stopOf (front ++ token :: more)]
      = front ++ token :: back := by
  rw [inputOf_append h]
  by_cases hkind : token.kind = .endOfInput
  · rw [inputOf_cons_of_eq hkind, stopOf_append h hkind]
    exact ⟨[], by simp⟩
  · rw [inputOf_cons_of_ne hkind]
    exact ⟨_, by rw [List.append_assoc, List.cons_append]⟩

theorem exists_eq_inputOf_append {tokens : List Token}
    (h : tokens.getLast?.map Token.kind = some .endOfInput) :
    ∃ back, tokens = inputOf tokens ++ stopOf tokens :: back := by
  have htokens : inputOf tokens ++ tokens.dropWhile (fun token => token.kind ≠ .endOfInput)
      = tokens := List.takeWhile_append_dropWhile
  cases hdrop : tokens.dropWhile fun token => token.kind ≠ .endOfInput with
  | nil =>
      obtain ⟨last, hlast, hkind⟩ := Option.map_eq_some_iff.mp h
      rw [hdrop, List.append_nil] at htokens
      rw [← htokens] at hlast
      exact absurd hkind (of_mem_inputOf (List.mem_of_getLast? hlast)).2
  | cons stop back =>
      have hstop := List.head?_dropWhile_not (fun token : Token => token.kind ≠ .endOfInput) tokens
      rw [hdrop] at hstop htokens
      have hfront : ∀ token ∈ inputOf tokens, token.kind ≠ .endOfInput :=
        fun token htoken => (of_mem_inputOf htoken).2
      have hstopOf := stopOf_append hfront (by simpa using hstop) back
      rw [htokens] at hstopOf
      exact ⟨back, by rw [hstopOf, htokens]⟩

def Progress.start : Progress := ⟨.fresh, [], .operand⟩

theorem stopOf_kind (tokens : List Token) : (stopOf tokens).kind = .endOfInput := by
  unfold stopOf
  cases hfind : tokens.find? fun token => !isWithinInput token with
  | some token => simpa [isWithinInput] using List.find?_some hfind
  | none => cases tokens.getLast? <;> rfl

/-- Going through the input and the token that ends it gives what reading gives. -/
theorem run_start (tokens : List Token) :
    Progress.start.run (inputOf tokens ++ [stopOf tokens])
      = ofTokens tokens >>= fun rule => .ok ⟨.fresh, [], .joint rule⟩ := by
  have hstop := stopOf_kind tokens
  have hdisjunction : Traced (stopOf tokens) [] (.chain .or)
      (readDisjunction (readTerm (stopOf tokens) maxDepth)) :=
    (readTerm_traced hstop (Nat.zero_add maxDepth)).disjunction hstop
  rw [Progress.start, hdisjunction.run_eq _ _ (Level.opens_fresh .or), ofTokens,
    takeWhile_isWithinInput, bind_assoc]
  cases hread : readDisjunction (readTerm (stopOf tokens) maxDepth) (inputOf tokens) with
  | error e => rfl
  | ok found =>
      obtain ⟨rule, rest⟩ := found
      have hclosed := (hdisjunction.closed _ _ _ hread).1
      cases rest with
      | nil =>
          simp [Progress.step, Progress.settle, Progress.shift, joinPending, hstop, Level.fresh]
      | cons token behind =>
          obtain ⟨taken, heq, -⟩ :=
            readDisjunction_takes (fun _ _ _ hterm => readTerm_takes hterm) hread
          have hkind := (of_mem_inputOf (by rw [heq]; simp : token ∈ inputOf tokens)).2
          obtain ⟨kind, lexeme, literal, offset⟩ := token
          cases kind with
          | connective connective =>
              exact absurd rfl (Phrase.kind_ne_of_closedBy hclosed connective)
          | endOfInput => exact absurd rfl hkind
          | _ => rfl

theorem ofTokens_eq_error {tokens : List Token} {e : ParseError} :
    ofTokens tokens = .error e ↔
      Progress.start.run (inputOf tokens ++ [stopOf tokens]) = .error e := by
  rw [run_start]
  cases ofTokens tokens <;> simp

end ComparisonRules.Rule
