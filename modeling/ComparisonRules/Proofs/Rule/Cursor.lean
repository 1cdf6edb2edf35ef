import ComparisonRules.Proofs.Rule.Steps

/-!
# Reading by index

The readers take tokens off a list, so they cannot leave it. Here the same reading goes by an index
into the whole list and by a count of the groups that are open. A look at a token can miss the
list, a group can be closed that is not open, and the calls and the turns of a loop are limited.
Everywhere that the reading comes to is written down. It never misses the list and meets no limit,
and it gives what the readers give.
-/

namespace ComparisonRules.Rule

/-- The index of the next token and the number of groups that are open around it. -/
structure Cursor where
  place : Nat
  nesting : Nat

/-- Why a walk stops: at a token that does not belong where it stands, outside the list or the
open groups, or because its calls or turns are used up. -/
inductive Fault where
  | wrong (e : ParseError)
  | outside
  | exhausted

/-- Where a walk has been and how it ended. -/
structure Walked (α : Type) where
  reached : List Cursor
  outcome : Except Fault (α × Cursor)

def Walk (α : Type) := Cursor → Walked α

namespace Walked

variable {α β : Type}

def after (walked : Walked α) (before : List Cursor) : Walked α :=
  ⟨before ++ walked.reached, walked.outcome⟩

/-- The next walk starts where the one before it has ended. -/
def andThen (walked : Walked α) (next : α → Walk β) : Walked β :=
  match walked.outcome with
  | .ok (a, cursor) => (next a cursor).after walked.reached
  | .error fault => ⟨walked.reached, .error fault⟩

end Walked

namespace Walk

variable {α β : Type}

instance : Monad Walk where
  pure a := fun cursor => ⟨[], .ok (a, cursor)⟩
  bind walk next := fun cursor => (walk cursor).andThen next

theorem pure_apply (a : α) (cursor : Cursor) :
    (pure a : Walk α) cursor = ⟨[], .ok (a, cursor)⟩ := rfl

theorem bind_apply (walk : Walk α) (next : α → Walk β) (cursor : Cursor) :
    (walk >>= next) cursor = (walk cursor).andThen next := rfl

theorem bind_bind {γ : Type} (walk : Walk α) (next : α → Walk β) (last : β → Walk γ) :
    (walk >>= next) >>= last = walk >>= fun a => next a >>= last := by
  funext cursor
  simp only [bind_apply, Walked.andThen]
  cases (walk cursor).outcome with
  | error fault => rfl
  | ok found =>
      simp only [Walked.after]
      cases (next found.1 found.2).outcome <;> simp

def halt (fault : Fault) : Walk α := fun _ => ⟨[], .error fault⟩

def ofExcept : Except ParseError α → Walk α
  | .ok a => pure a
  | .error e => halt (.wrong e)

def goTo (cursor : Cursor) : Walk Unit := fun _ => ⟨[cursor], .ok ((), cursor)⟩

def here : Walk Cursor := fun cursor => ⟨[cursor], .ok (cursor, cursor)⟩

def enterGroup : Walk Unit := do
  let cursor ← here
  goTo ⟨cursor.place, cursor.nesting + 1⟩

def leaveGroup : Walk Unit := do
  let cursor ← here
  match cursor.nesting with
  | 0 => halt .outside
  | nesting + 1 => goTo ⟨cursor.place, nesting⟩

end Walk

/-! ## The readers by index -/

section

open Walk

variable (tokens : List Token)

def look : Walk Token := do
  let cursor ← here
  match tokens[cursor.place]? with
  | some token => return token
  | none => halt .outside

/-- Takes the next token, but stays at one that ends the input. -/
def takeNext : Walk Token := do
  let token ← look tokens
  if token.kind = .endOfInput then return token
  else do
    let cursor ← here
    goTo ⟨cursor.place + 1, cursor.nesting⟩
    return token

def complain {α : Type} (expected : Expectation) : Walk α := do
  let token ← look tokens
  halt (.wrong (.describing token expected))

/-- Takes the next token if it is acceptable, and complains about it if it is not. -/
def takeIf (accepts : Token → Prop) [DecidablePred accepts] (expected : Expectation) :
    Walk Token := do
  let token ← look tokens
  if accepts token then takeNext tokens else complain tokens expected

def walkRightSide (left : Token) (comparator : Comparator) : Walk Rule :=
  if left.kind = .identifier then do
    let right ← takeIf tokens (fun token => token.kind.isLiteral) .literal
    return leaf ⟨left.lexeme, comparator, literalOf right⟩
  else do
    let right ← takeIf tokens (fun token => token.kind = .identifier) .field
    return leaf ⟨right.lexeme, comparator.flip, literalOf left⟩

def walkComparison : Walk Rule := do
  let left ← takeIf tokens (fun token => token.kind = .identifier ∨ token.kind.isLiteral)
    .operand
  let operator ← look tokens
  match operator.kind with
  | .comparator comparator => do
      let _ ← takeNext tokens
      walkRightSide tokens left comparator
  | _ => complain tokens .comparator

/-- Reads on behind the first operand of a chain, in at most the given number of turns. -/
def walkLinks (connective : Connective) (operand : Walk Rule) : Nat → Rule → Walk Rule
  | 0, _ => halt .exhausted
  | turns + 1, left => do
      let joint ← look tokens
      if joint.kind = .connective connective then do
        let joint ← takeNext tokens
        let right ← operand
        let joined ← ofExcept (joinAt joint left connective right)
        walkLinks connective operand turns joined
      else return left

def walkChain (connective : Connective) (operand : Walk Rule) : Walk Rule := do
  let first ← operand
  walkLinks tokens connective operand tokens.length first

def walkDisjunction (term : Walk Rule) : Walk Rule :=
  walkChain tokens .or (walkChain tokens .and term)

/-- Reads a term with at most the given number of calls inside one another. -/
def walkTerm : Nat → Walk Rule
  | 0 => halt .exhausted
  | calls + 1 => do
      let token ← look tokens
      if token.kind = .leftParen then do
        let cursor ← here
        if cursor.nesting = maxDepth then complain tokens .fewerGroups
        else do
          let _ ← takeNext tokens
          enterGroup
          let rule ← walkDisjunction tokens (walkTerm calls)
          leaveGroup
          let _ ← takeIf tokens (fun token => token.kind = .rightParen) .closingParen
          return rule
      else walkComparison tokens

/-- The tokens, with one behind them that ends the input if the last does not. As for `stopOf`,
the offsets are those of tokens of a text, so the sum cannot overflow a machine word. -/
def terminated : List Token :=
  if tokens.getLast?.map Token.kind = some .endOfInput then tokens
  else tokens ++ [.endAt ((tokens.getLast?.map fun last => last.offset + last.width).getD 0)]

/-- Walks through a whole list. Groups are open inside at most as many others as the limit says,
so there is one call more than that. -/
def walkTokens : Walked Rule :=
  let list := terminated tokens
  let walk : Walk Rule := do
    let rule ← walkDisjunction list (walkTerm list (maxDepth + 1))
    let token ← look list
    if token.kind = .endOfInput then return rule else complain list .endOrConnective
  walk ⟨0, 0⟩

end

/-! ## Agreement with the readers -/

/-- A list is an input, a token that ends it, and tokens behind that. -/
structure EndsWith (tokens input : List Token) (stop : Token) : Prop where
  split : ∃ back, tokens = input ++ stop :: back
  kind : stop.kind = .endOfInput
  kind_ne : ∀ token ∈ input, token.kind ≠ .endOfInput

def Cursor.Within (cursor : Cursor) (input : List Token) : Prop :=
  cursor.place ≤ input.length ∧ cursor.nesting ≤ maxDepth

/-- The cursor in front of the last tokens of an input. -/
def cursorAt (input : List Token) (nesting : Nat) (rest : List Token) : Cursor :=
  ⟨input.length - rest.length, nesting⟩

@[simp] theorem cursorAt_nesting (input : List Token) (nesting : Nat) (rest : List Token) :
    (cursorAt input nesting rest).nesting = nesting := rfl

/-- A walk that stays within the input and gives what a reading of the start gives: the same error,
or the same rule with the cursor in front of the tokens that the reading leaves. -/
structure Agrees {α : Type} (input start : List Token) (nesting : Nat) (walked : Walked α)
    (reading : Except ParseError (α × List Token)) : Prop where
  within : ∀ cursor ∈ walked.reached, cursor.Within input
  outcome : walked.outcome =
    match reading with
    | .ok (a, rest) => .ok (a, cursorAt input nesting rest)
    | .error e => .error (.wrong e)
  suffix : ∀ a rest, reading = .ok (a, rest) → rest <:+ start

def Walk.Follows (input : List Token) (nesting : Nat) (walk : Walk Rule)
    (reader : List Token → Reading) : Prop :=
  ∀ start, start <:+ input →
    Agrees input start nesting (walk (cursorAt input nesting start)) (reader start)

namespace Agrees

variable {α β : Type} {input start : List Token} {nesting : Nat} {walked : Walked α}
  {reading : Except ParseError (α × List Token)}

theorem after (h : Agrees input start nesting walked reading) (before : List Cursor)
    (hbefore : ∀ cursor ∈ before, cursor.Within input) :
    Agrees input start nesting (walked.after before) reading where
  within := by
    intro cursor hcursor
    exact (List.mem_append.mp hcursor).elim (hbefore cursor) (h.within cursor)
  outcome := h.outcome
  suffix := h.suffix

theorem mono (h : Agrees input start nesting walked reading) {start' : List Token}
    (hstart : start <:+ start') : Agrees input start' nesting walked reading :=
  ⟨h.within, h.outcome, fun a rest heq => (h.suffix a rest heq).trans hstart⟩

theorem done {rest : List Token} (hrest : rest <:+ start) (a : α) :
    Agrees input start nesting ((pure a : Walk α) (cursorAt input nesting rest))
      (.ok (a, rest)) where
  within := by
    intro cursor hcursor
    cases hcursor
  outcome := rfl
  suffix := by
    rintro _ _ ⟨⟩
    exact hrest

theorem refused (e : ParseError) :
    Agrees input start nesting (⟨[], .error (.wrong e)⟩ : Walked α) (.error e) where
  within := by
    intro cursor hcursor
    cases hcursor
  outcome := rfl
  suffix := by
    rintro _ _ ⟨⟩

theorem bind {inner : Nat} {next : α → Walk β}
    {go : α × List Token → Except ParseError (β × List Token)}
    (h : Agrees input start inner walked reading)
    (hnext : ∀ a rest, rest <:+ start →
      Agrees input start nesting (next a (cursorAt input inner rest)) (go (a, rest))) :
    Agrees input start nesting (walked.andThen next) (reading >>= go) := by
  obtain ⟨reached, outcome⟩ := walked
  obtain ⟨hwithin, rfl, hsuffix⟩ := h
  cases reading with
  | error e => exact ⟨hwithin, rfl, fun _ _ heq => by cases heq⟩
  | ok found =>
      obtain ⟨a, rest⟩ := found
      exact (hnext a rest (hsuffix a rest rfl)).after _ hwithin

end Agrees

section

open Walk

variable {β : Type} {tokens input start rest : List Token} {stop token : Token}
  {nesting final : Nat} {reading : Except ParseError (β × List Token)}

theorem within_cursorAt (hnesting : nesting ≤ maxDepth) (rest : List Token) :
    (cursorAt input nesting rest).Within input :=
  ⟨Nat.sub_le _ _, hnesting⟩

theorem EndsWith.getElem?_cursorAt (h : EndsWith tokens input stop) (hrest : rest <:+ input)
    (nesting : Nat) : tokens[(cursorAt input nesting rest).place]? = some (rest.headD stop) := by
  obtain ⟨back, rfl⟩ := h.split
  obtain ⟨front, rfl⟩ := hrest
  have hplace : (cursorAt (front ++ rest) nesting rest).place = front.length := by
    simp [cursorAt]
  rw [hplace, List.append_assoc, List.getElem?_append_right (Nat.le_refl _), Nat.sub_self]
  cases rest <;> rfl

theorem cursorAt_cons (hrest : token :: rest <:+ input) (nesting : Nat) :
    cursorAt input nesting rest
      = ⟨(cursorAt input nesting (token :: rest)).place + 1, nesting⟩ := by
  have hlength := hrest.length_le
  rw [List.length_cons] at hlength
  simp only [cursorAt, List.length_cons, Cursor.mk.injEq, and_true]
  omega

theorem EndsWith.look_apply (h : EndsWith tokens input stop) (hrest : rest <:+ input) :
    look tokens (cursorAt input nesting rest)
      = ⟨[cursorAt input nesting rest], .ok (rest.headD stop, cursorAt input nesting rest)⟩ := by
  simp only [look, bind_apply, here, Walked.andThen, h.getElem?_cursorAt hrest]
  rfl

theorem here_bind (hnesting : nesting ≤ maxDepth) {next : Cursor → Walk β}
    (hnext : Agrees input start final
      (next (cursorAt input nesting rest) (cursorAt input nesting rest)) reading) :
    Agrees input start final ((here >>= next) (cursorAt input nesting rest)) reading :=
  hnext.after [cursorAt input nesting rest] (by simpa using within_cursorAt hnesting rest)

section

variable (hnesting : nesting < maxDepth) {next : Unit → Walk β}

include hnesting

theorem within_both_sides (rest : List Token) :
    (cursorAt input nesting rest).Within input ∧ (cursorAt input (nesting + 1) rest).Within input :=
  ⟨within_cursorAt (Nat.le_of_lt hnesting) rest, within_cursorAt hnesting rest⟩

theorem enterGroup_bind
    (hnext : Agrees input start final (next () (cursorAt input (nesting + 1) rest)) reading) :
    Agrees input start final ((enterGroup >>= next) (cursorAt input nesting rest)) reading :=
  hnext.after [cursorAt input nesting rest, cursorAt input (nesting + 1) rest]
    (by simpa using within_both_sides hnesting rest)

theorem leaveGroup_bind
    (hnext : Agrees input start final (next () (cursorAt input nesting rest)) reading) :
    Agrees input start final ((leaveGroup >>= next) (cursorAt input (nesting + 1) rest)) reading :=
  hnext.after [cursorAt input (nesting + 1) rest, cursorAt input nesting rest]
    (by simpa [and_comm] using within_both_sides hnesting rest)

end

namespace EndsWith

variable (h : EndsWith tokens input stop) (hnesting : nesting ≤ maxDepth)

include h hnesting

theorem look_bind (hrest : rest <:+ input) {next : Token → Walk β}
    (hnext : Agrees input start final (next (rest.headD stop) (cursorAt input nesting rest))
      reading) :
    Agrees input start final ((look tokens >>= next) (cursorAt input nesting rest)) reading := by
  rw [bind_apply, h.look_apply hrest]
  exact hnext.after _ (by simpa using within_cursorAt hnesting rest)

theorem takeNext_bind (hrest : token :: rest <:+ input) {next : Token → Walk β}
    (hnext : Agrees input start final (next token (cursorAt input nesting rest)) reading) :
    Agrees input start final ((takeNext tokens >>= next) (cursorAt input nesting (token :: rest)))
      reading := by
  have hkind : token.kind ≠ .endOfInput := h.kind_ne token (hrest.subset List.mem_cons_self)
  have htake : takeNext tokens (cursorAt input nesting (token :: rest))
      = ⟨[cursorAt input nesting (token :: rest), cursorAt input nesting (token :: rest),
          cursorAt input nesting rest], .ok (token, cursorAt input nesting rest)⟩ := by
    rw [takeNext, bind_apply, h.look_apply hrest, cursorAt_cons hrest]
    simp [Walked.andThen, Walked.after, bind_apply, here, goTo, pure_apply, hkind, cursorAt]
  rw [bind_apply, htake]
  exact hnext.after _ (by simp [within_cursorAt hnesting])

theorem complain_agrees (hrest : rest <:+ input) (expected : Expectation) :
    Agrees input start final (complain tokens expected (cursorAt input nesting rest))
      (refuse stop rest expected) :=
  h.look_bind hnesting hrest (.refused _)

section

variable {accepts : Token → Prop} [DecidablePred accepts]

theorem takeIf_bind (hrest : token :: rest <:+ input) (haccepts : accepts token)
    (expected : Expectation) {next : Token → Walk β}
    (hnext : Agrees input start final (next token (cursorAt input nesting rest)) reading) :
    Agrees input start final
      ((takeIf tokens accepts expected >>= next) (cursorAt input nesting (token :: rest)))
      reading := by
  rw [takeIf, bind_bind]
  refine h.look_bind hnesting hrest ?_
  rw [List.headD_cons, if_pos haccepts]
  exact h.takeNext_bind hnesting hrest hnext

theorem takeIf_refused (hrest : rest <:+ input) (hrefuses : ¬ accepts (rest.headD stop))
    (expected : Expectation) {next : Token → Walk β} :
    Agrees input start final
      ((takeIf tokens accepts expected >>= next) (cursorAt input nesting rest))
      (.error (.describing (rest.headD stop) expected)) := by
  rw [takeIf, bind_bind]
  refine h.look_bind hnesting hrest ?_
  rw [if_neg hrefuses, complain, bind_bind]
  exact h.look_bind hnesting hrest (.refused _)

end

theorem walkRightSide_agrees (left : Token) (comparator : Comparator) (hrest : rest <:+ input)
    (hstart : rest <:+ start) :
    Agrees input start nesting (walkRightSide tokens left comparator (cursorAt input nesting rest))
      (readRightSide stop left comparator rest) := by
  have hbehind {token : Token} {behind : List Token} (heq : rest = token :: behind) :
      behind <:+ start := by
    rw [heq] at hstart
    exact (List.suffix_cons token behind).trans hstart
  unfold walkRightSide readRightSide
  split
  · cases rest with
    | nil => exact h.takeIf_refused hnesting hrest (by simp [h.kind, Token.Kind.isLiteral]) _
    | cons right behind =>
        dsimp only
        split
        case isTrue hliteral =>
          exact h.takeIf_bind hnesting hrest hliteral _ (.done (hbehind rfl) _)
        case isFalse hliteral => exact h.takeIf_refused hnesting hrest hliteral _
  · cases rest with
    | nil => exact h.takeIf_refused hnesting hrest (by simp [h.kind]) _
    | cons right behind =>
        dsimp only
        split
        case isTrue hfield =>
          exact h.takeIf_bind hnesting hrest hfield _ (.done (hbehind rfl) _)
        case isFalse hfield => exact h.takeIf_refused hnesting hrest hfield _

theorem walkComparison_follows :
    (walkComparison tokens).Follows input nesting (readComparison stop) := by
  intro start hstart
  unfold walkComparison readComparison
  cases start with
  | nil => exact h.takeIf_refused hnesting hstart (by simp [h.kind, Token.Kind.isLiteral]) _
  | cons left behind =>
      dsimp only
      split
      case isFalse hleft => exact h.takeIf_refused hnesting hstart hleft _
      case isTrue hleft =>
        have hbehind := (List.suffix_cons left behind).trans hstart
        refine h.takeIf_bind hnesting hstart hleft _ (h.look_bind hnesting hbehind ?_)
        cases behind with
        | nil =>
            rw [List.headD_nil, h.kind]
            exact h.complain_agrees hnesting hbehind .comparator
        | cons operator rest =>
            obtain ⟨kind, lexeme, literal, offset⟩ := operator
            cases kind with
            | comparator comparator =>
                have hrest := (List.suffix_cons _ rest).trans hbehind
                exact h.takeNext_bind hnesting hbehind (h.walkRightSide_agrees hnesting left
                  comparator hrest ((List.suffix_cons _ rest).trans (List.suffix_cons _ _)))
            | _ => exact h.complain_agrees hnesting hbehind .comparator

theorem walkLinks_agrees {connective : Connective} {operand : Walk Rule}
    {reader : List Token → Reading} (hoperand : operand.Follows input nesting reader)
    {turns links : Nat} {left : Rule} {rest : List Token} (hrest : rest <:+ input)
    (hlinks : rest.length ≤ links) (hturns : rest.length < turns) :
    Agrees input rest nesting
      (walkLinks tokens connective operand turns left (cursorAt input nesting rest))
      (readLinks connective reader links left rest) := by
  -- a turn takes a connective at least; one more turn sees that none follows
  induction turns generalizing links left rest with
  | zero => exact absurd hturns (Nat.not_lt_zero _)
  | succ turns ih =>
      refine h.look_bind hnesting hrest ?_
      cases rest with
      | nil =>
          rw [List.headD_nil, if_neg (by simp [h.kind])]
          cases links <;> exact .done (List.suffix_refl _) left
      | cons joint behind =>
          cases links with
          | zero => exact absurd hlinks (by simp)
          | succ links =>
              rw [List.headD_cons, readLinks]
              dsimp only
              split
              · have hbehind := (List.suffix_cons joint behind).trans hrest
                refine h.takeNext_bind hnesting hrest ?_
                -- the operand leaves a part of what is behind the joint, so a turn is saved
                refine (Agrees.bind (hoperand behind hbehind) ?_).mono (List.suffix_cons _ _)
                intro right after hafter
                have hlength := hafter.length_le
                rw [List.length_cons] at hlinks hturns
                dsimp only
                cases joinAt joint left connective right with
                | error e => exact .refused e
                | ok joined =>
                    exact (ih (hafter.trans hbehind) (by omega) (by omega)).mono hafter
              · exact .done (List.suffix_refl _) left

theorem walkChain_follows {connective : Connective} {operand : Walk Rule}
    {reader : List Token → Reading} (hoperand : operand.Follows input nesting reader) :
    (walkChain tokens connective operand).Follows input nesting (readChain connective reader) := by
  intro start hstart
  refine Agrees.bind (hoperand start hstart) ?_
  intro first rest hrest
  have hwithin := hrest.trans hstart
  obtain ⟨back, hback⟩ := h.split
  have hturns : rest.length < tokens.length := by
    have hle := hwithin.length_le
    rw [hback, List.length_append, List.length_cons]
    omega
  exact (h.walkLinks_agrees hnesting hoperand hwithin (Nat.le_refl _) hturns).mono hrest

theorem walkDisjunction_follows {term : Walk Rule} {reader : List Token → Reading}
    (hterm : term.Follows input nesting reader) :
    (walkDisjunction tokens term).Follows input nesting (readDisjunction reader) :=
  h.walkChain_follows hnesting (h.walkChain_follows hnesting hterm)

theorem walkTerm_group {calls groups : Nat} (hopening : nesting < maxDepth)
    (hinner : (walkTerm tokens calls).Follows input (nesting + 1) (readTerm stop groups))
    (hrest : token :: rest <:+ input) (htoken : token.kind = .leftParen) :
    Agrees input (token :: rest) nesting
      (walkTerm tokens (calls + 1) (cursorAt input nesting (token :: rest)))
      (readTerm stop (groups + 1) (token :: rest)) := by
  have hdeeper : nesting + 1 ≤ maxDepth := hopening
  have hbehind := (List.suffix_cons token rest).trans hrest
  have hread := h.walkDisjunction_follows hdeeper hinner rest hbehind
  obtain ⟨kind, lexeme, literal, offset⟩ := token
  cases htoken
  rw [readTerm_group]
  refine h.look_bind hnesting hrest (here_bind hnesting ?_)
  rw [cursorAt_nesting, if_neg (Nat.ne_of_lt hopening)]
  refine h.takeNext_bind hnesting hrest (enterGroup_bind hopening ?_)
  refine (Agrees.bind hread ?_).mono (List.suffix_cons _ _)
  intro rule after hafter
  have hwithin := hafter.trans hbehind
  refine leaveGroup_bind hopening ?_
  cases after with
  | nil => exact h.takeIf_refused hnesting hwithin (by simp [h.kind]) .closingParen
  | cons closing behind =>
      obtain ⟨kind, lexeme, literal, offset⟩ := closing
      cases kind with
      | rightParen =>
          refine h.takeIf_bind hnesting hwithin (by rfl) .closingParen ?_
          exact .done ((List.suffix_cons _ _).trans hafter) rule
      | _ => exact h.takeIf_refused hnesting hwithin nofun .closingParen

theorem walkTerm_full {calls : Nat} (hfull : nesting = maxDepth) (hrest : token :: rest <:+ input)
    (htoken : token.kind = .leftParen) :
    Agrees input (token :: rest) nesting
      (walkTerm tokens (calls + 1) (cursorAt input nesting (token :: rest)))
      (readTerm stop 0 (token :: rest)) := by
  obtain ⟨kind, lexeme, literal, offset⟩ := token
  cases htoken
  refine h.look_bind hnesting hrest (here_bind hnesting ?_)
  rw [cursorAt_nesting, if_pos hfull]
  exact h.complain_agrees hnesting hrest .fewerGroups

theorem walkTerm_follows_of_group {calls groups : Nat}
    (hgroup : ∀ token rest, token :: rest <:+ input → token.kind = .leftParen →
      Agrees input (token :: rest) nesting
        (walkTerm tokens (calls + 1) (cursorAt input nesting (token :: rest)))
        (readTerm stop groups (token :: rest))) :
    (walkTerm tokens (calls + 1)).Follows input nesting (readTerm stop groups) := by
  intro start hstart
  have hcomparison := h.walkComparison_follows hnesting start hstart
  cases start with
  | nil =>
      have hterm : readTerm stop groups [] = readComparison stop [] := by cases groups <;> rfl
      rw [hterm]
      refine h.look_bind hnesting hstart ?_
      rw [List.headD_nil, if_neg (by simp [h.kind])]
      exact hcomparison
  | cons token rest =>
      by_cases htoken : token.kind = .leftParen
      · exact hgroup token rest hstart htoken
      · rw [readTerm_eq_readComparison htoken]
        refine h.look_bind hnesting hstart ?_
        rw [List.headD_cons, if_neg htoken]
        exact hcomparison

end EndsWith

theorem EndsWith.walkTerm_follows (h : EndsWith tokens input stop) {groups calls : Nat}
    (hgroups : nesting + groups = maxDepth) (hcalls : groups < calls) :
    (walkTerm tokens calls).Follows input nesting (readTerm stop groups) := by
  have hnesting : nesting ≤ maxDepth := by omega
  obtain ⟨calls, rfl⟩ : ∃ further, calls = further + 1 := ⟨calls - 1, by omega⟩
  induction groups generalizing nesting calls with
  | zero =>
      refine h.walkTerm_follows_of_group hnesting ?_
      intro token rest hrest htoken
      exact h.walkTerm_full hnesting hgroups hrest htoken
  | succ groups ih =>
      have hdeeper : nesting + 1 ≤ maxDepth := by omega
      obtain ⟨calls, rfl⟩ : ∃ further, calls = further + 1 := ⟨calls - 1, by omega⟩
      refine h.walkTerm_follows_of_group hnesting ?_
      intro token rest hrest htoken
      refine h.walkTerm_group hnesting (by omega) ?_ hrest htoken
      exact ih (by omega) hdeeper calls (by omega)

end

end ComparisonRules.Rule
