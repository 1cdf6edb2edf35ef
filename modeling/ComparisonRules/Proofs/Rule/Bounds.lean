import ComparisonRules.Proofs.Rule.Cursor

/-!
# Where reading by index comes

Reading by index never misses its list: it goes no further than the first token that ends the
input, opens no more groups than the limit allows, and never uses up its calls or turns. A
production that is read takes three tokens at least and closes what it has opened. A list that
does not end is ended first, and nothing matters that stands behind an end.
-/

namespace ComparisonRules.Rule

/-! ## Progress -/

theorem Derives.three_le_length {phrase : Phrase} {tokens : List Token} {rule : Rule}
    (h : Derives phrase tokens rule)
    (hphrase : ∀ connective left, phrase ≠ .links connective left) : 3 ≤ tokens.length := by
  induction h with
  | @chain connective first rest left rule _ _ ihFirst _ =>
      have hfirst : 3 ≤ first.length := ihFirst (by cases connective <;> exact fun _ _ => nofun)
      rw [List.length_append]
      omega
  | done => exact absurd rfl (hphrase _ _)
  | link => exact absurd rfl (hphrase _ _)
  | @group opening closing inner rule _ _ _ ih =>
      have hinner : 3 ≤ inner.length := ih nofun
      rw [List.length_cons, List.length_append]
      omega
  | fieldFirst => exact Nat.le_refl 3
  | literalFirst => exact Nat.le_refl 3

/-- What a walk reads. -/
inductive Production where
  | comparison
  | term
  | conjunction
  | disjunction

namespace Production

def walk (tokens : List Token) (calls : Nat) : Production → Walk Rule
  | comparison => walkComparison tokens
  | term => walkTerm tokens calls
  | conjunction => walkChain tokens .and (walkTerm tokens calls)
  | disjunction => walkDisjunction tokens (walkTerm tokens calls)

def read (stop : Token) (groups : Nat) : Production → List Token → Reading
  | comparison => readComparison stop
  | term => readTerm stop groups
  | conjunction => readChain .and (readTerm stop groups)
  | disjunction => readDisjunction (readTerm stop groups)

theorem length_add_three_le {production : Production} {stop : Token} {groups : Nat}
    {tokens rest : List Token} {rule : Rule}
    (h : production.read stop groups tokens = .ok (rule, rest)) :
    rest.length + 3 ≤ tokens.length := by
  have htakes : ∃ phrase : Phrase, (∀ connective left, phrase ≠ .links connective left) ∧
      Takes phrase groups tokens rule rest := by
    have hterm (tokens : List Token) (rule : Rule) (rest : List Token)
        (hread : readTerm stop groups tokens = .ok (rule, rest)) :
        Takes .term groups tokens rule rest := readTerm_takes hread
    cases production with
    | comparison => exact ⟨.term, nofun, readComparison_takes h⟩
    | term => exact ⟨.term, nofun, hterm _ _ _ h⟩
    | conjunction => exact ⟨.chain .and, nofun, @readChain_takes groups .and _ hterm _ _ _ h⟩
    | disjunction => exact ⟨.chain .or, nofun, readDisjunction_takes hterm h⟩
  obtain ⟨phrase, hphrase, taken, rfl, hderives, -⟩ := htakes
  have htaken := hderives.three_le_length hphrase
  rw [List.length_append]
  omega

theorem follows {tokens input : List Token} {stop : Token} {nesting groups calls : Nat}
    (production : Production) (h : EndsWith tokens input stop)
    (hgroups : nesting + groups = maxDepth) (hcalls : groups < calls) :
    (production.walk tokens calls).Follows input nesting (production.read stop groups) := by
  have hnesting : nesting ≤ maxDepth := by omega
  have hterm := h.walkTerm_follows hgroups hcalls
  cases production with
  | comparison => exact h.walkComparison_follows hnesting
  | term => exact hterm
  | conjunction => exact h.walkChain_follows hnesting hterm
  | disjunction => exact h.walkDisjunction_follows hnesting hterm

theorem agrees_drop {tokens input : List Token} {stop : Token} (production : Production)
    (h : EndsWith tokens input stop) {calls : Nat} {cursor : Cursor} (hcursor : cursor.Within input)
    (hcalls : maxDepth < cursor.nesting + calls) :
    Agrees input (input.drop cursor.place) cursor.nesting (production.walk tokens calls cursor)
      (production.read stop (maxDepth - cursor.nesting) (input.drop cursor.place)) := by
  obtain ⟨place, nesting⟩ := cursor
  obtain ⟨hplace, hnesting⟩ := hcursor
  dsimp only at hplace hnesting hcalls ⊢
  have hgroups : nesting + (maxDepth - nesting) = maxDepth := by omega
  have hcursor : cursorAt input nesting (input.drop place) = ⟨place, nesting⟩ := by
    rw [cursorAt, List.length_drop, Nat.sub_sub_self hplace]
  have hleft : maxDepth - nesting < calls := by omega
  have hfollows := production.follows h hgroups hleft _ (List.drop_suffix place input)
  rwa [hcursor] at hfollows

end Production

/-! ## Whole token lists -/

theorem inputOf_append_stop {stop : Token} (hstop : stop.kind = .endOfInput)
    (front junk : List Token) : inputOf (front ++ stop :: junk) = inputOf front := by
  induction front with
  | nil => exact inputOf_cons_of_eq hstop junk
  | cons token front ih =>
      by_cases hkind : token.kind = .endOfInput
      · rw [List.cons_append, inputOf_cons_of_eq hkind, inputOf_cons_of_eq hkind]
      · rw [List.cons_append, inputOf_cons_of_ne hkind, inputOf_cons_of_ne hkind, ih]

theorem stopOf_append_stop {stop : Token} (hstop : stop.kind = .endOfInput)
    (front junk : List Token) : stopOf (front ++ stop :: junk)
      = (front.find? fun token => !isWithinInput token).getD stop := by
  rw [stopOf, List.find?_append]
  cases front.find? fun token => !isWithinInput token <;> simp [isWithinInput, hstop]

theorem ofTokens_congr {tokens tokens' : List Token} (hinput : inputOf tokens = inputOf tokens')
    (hstop : stopOf tokens = stopOf tokens') : ofTokens tokens = ofTokens tokens' := by
  rw [ofTokens, ofTokens, takeWhile_isWithinInput, takeWhile_isWithinInput, hinput, hstop]

theorem endsWith_terminated (tokens : List Token) :
    EndsWith (terminated tokens) (inputOf tokens) (stopOf tokens) where
  split := by
    unfold terminated
    split
    case isTrue hlast => exact exists_eq_inputOf_append hlast
    case isFalse =>
      generalize hstop :
        Token.endAt ((tokens.getLast?.map fun last => last.offset + last.width).getD 0) = stop
      have hkind : stop.kind = .endOfInput := by rw [← hstop]; rfl
      have hstopOf : stopOf (tokens ++ [stop]) = stopOf tokens := by
        rw [stopOf_append_stop hkind, stopOf, ← hstop]
        cases tokens.find? fun token => !isWithinInput token with
        | some token => rfl
        | none => cases tokens.getLast? <;> rfl
      obtain ⟨back, hback⟩ := exists_eq_inputOf_append
        (by simp [hkind] : (tokens ++ [stop]).getLast?.map Token.kind = some .endOfInput)
      rw [inputOf_append_stop hkind, hstopOf] at hback
      exact ⟨back, hback⟩
  kind := stopOf_kind tokens
  kind_ne := fun _ htoken => (of_mem_inputOf htoken).2

/-- The index of the first token that ends the input. -/
def firstEnd (tokens : List Token) : Nat :=
  tokens.findIdx fun token => token.kind = .endOfInput

theorem EndsWith.firstEnd_eq {tokens input : List Token} {stop : Token}
    (h : EndsWith tokens input stop) :
    firstEnd tokens = input.length ∧ input.length < tokens.length := by
  obtain ⟨back, rfl⟩ := h.split
  have hinput : input.findIdx (fun token => token.kind = .endOfInput) = input.length := by
    rw [List.findIdx_eq_length]
    simpa using h.kind_ne
  refine ⟨?_, by simp⟩
  rw [firstEnd, List.findIdx_append, if_neg (by rw [hinput]; exact Nat.lt_irrefl _)]
  simp [List.findIdx_cons, h.kind]

/-- The reading of a whole list, with nothing left behind it. -/
def readAll (stop : Token) (input : List Token) : Reading := do
  let (rule, rest) ← readDisjunction (readTerm stop maxDepth) input
  match rest with
  | [] => .ok (rule, [])
  | token :: _ => .error (.describing token .endOrConnective)

theorem ofTokens_eq_readAll (tokens : List Token) :
    ofTokens tokens = (readAll (stopOf tokens) (inputOf tokens)).map Prod.fst := by
  rw [ofTokens, readAll, takeWhile_isWithinInput]
  cases readDisjunction (readTerm (stopOf tokens) maxDepth) (inputOf tokens) with
  | error e => rfl
  | ok found =>
      obtain ⟨rule, rest⟩ := found
      cases rest <;> rfl

theorem walkTokens_agrees (tokens : List Token) :
    Agrees (inputOf tokens) (inputOf tokens) 0 (walkTokens tokens)
      (readAll (stopOf tokens) (inputOf tokens)) := by
  have h := endsWith_terminated tokens
  have hread := h.walkDisjunction_follows (Nat.zero_le _)
    (h.walkTerm_follows (Nat.zero_add maxDepth) (Nat.lt_succ_self maxDepth)) _ (List.suffix_refl _)
  have hstart : cursorAt (inputOf tokens) 0 (inputOf tokens) = ⟨0, 0⟩ := by simp [cursorAt]
  rw [hstart] at hread
  refine hread.bind ?_
  intro rule rest hrest
  refine h.look_bind (Nat.zero_le _) hrest ?_
  cases rest with
  | nil =>
      rw [List.headD_nil, if_pos h.kind]
      exact .done hrest rule
  | cons token rest =>
      rw [List.headD_cons, if_neg (h.kind_ne token (hrest.subset List.mem_cons_self))]
      exact h.complain_agrees (Nat.zero_le _) hrest .endOrConnective

/-- Reading by index stays in the list. It ends with the rule or the error that reading gives,
wherever the list has tokens that end the input; from anywhere within the bounds each production
moves on by at least a comparison and comes back to the groups that it started in; and nothing
behind the first token that ends the input matters. -/
theorem walk_stays_within :
    (∀ tokens,
      firstEnd (terminated tokens) < (terminated tokens).length ∧
      (walkTokens tokens).outcome.map Prod.fst = (ofTokens tokens).mapError .wrong ∧
      ∀ cursor ∈ (walkTokens tokens).reached,
        cursor.place ≤ firstEnd (terminated tokens) ∧ cursor.nesting ≤ maxDepth) ∧
    (∀ (tokens : List Token) (production : Production) (calls : Nat) (cursor : Cursor),
      cursor.place ≤ firstEnd (terminated tokens) → cursor.nesting ≤ maxDepth →
      maxDepth < cursor.nesting + calls →
      let walked := production.walk (terminated tokens) calls cursor
      (∀ between ∈ walked.reached,
        between.place ≤ firstEnd (terminated tokens) ∧ between.nesting ≤ maxDepth) ∧
      ((∃ e, walked.outcome = .error (.wrong e)) ∨
        ∃ rule next, walked.outcome = .ok (rule, next) ∧ cursor.place + 3 ≤ next.place ∧
          next.place ≤ firstEnd (terminated tokens) ∧ next.nesting = cursor.nesting)) ∧
    ∀ (front junk : List Token) (stop : Token), stop.kind = .endOfInput →
      ofTokens (front ++ stop :: junk) = ofTokens (front ++ [stop]) := by
  refine ⟨?_, ?_, ?_⟩
  · intro tokens
    obtain ⟨hfirst, hlength⟩ := (endsWith_terminated tokens).firstEnd_eq
    obtain ⟨hwithin, houtcome, -⟩ := walkTokens_agrees tokens
    rw [hfirst]
    refine ⟨hlength, ?_, hwithin⟩
    rw [houtcome, ofTokens_eq_readAll]
    cases readAll (stopOf tokens) (inputOf tokens) <;> rfl
  · intro tokens production calls cursor hplace hnesting hcalls
    have h := endsWith_terminated tokens
    rw [h.firstEnd_eq.1] at hplace ⊢
    obtain ⟨hwithin, houtcome, -⟩ := production.agrees_drop h ⟨hplace, hnesting⟩ hcalls
    refine ⟨hwithin, ?_⟩
    rw [houtcome]
    cases hread : production.read (stopOf tokens) (maxDepth - cursor.nesting)
        ((inputOf tokens).drop cursor.place) with
    | error e => exact .inl ⟨e, rfl⟩
    | ok found =>
        obtain ⟨rule, rest⟩ := found
        have hprogress := Production.length_add_three_le hread
        rw [List.length_drop] at hprogress
        refine .inr ⟨rule, _, rfl, ?_, Nat.sub_le _ _, rfl⟩
        rw [cursorAt]
        dsimp only
        omega
  · intro front junk stop hstop
    refine ofTokens_congr ?_ ?_
    · rw [inputOf_append_stop hstop, inputOf_append_stop hstop]
    · rw [stopOf_append_stop hstop, stopOf_append_stop hstop]

/-- A group that is not closed before its list ends, the comparison in it, and a list that goes on
behind its end. -/
theorem walk_stays_within_open_group :
    (walkTokens [⟨.leftParen, "(", none, 0⟩, ⟨.identifier, "a", none, 1⟩,
        ⟨.comparator .less, "<", none, 2⟩, ⟨.string, "x", none, 3⟩]).outcome.map Prod.fst
      = .error (.wrong ⟨.closingParen, "end of input", 4, 0⟩) ∧
    (∃ rule next, (Production.comparison.walk (terminated [⟨.leftParen, "(", none, 0⟩,
        ⟨.identifier, "a", none, 1⟩, ⟨.comparator .less, "<", none, 2⟩, ⟨.string, "x", none, 3⟩])
        100 ⟨1, 1⟩).outcome = .ok (rule, next) ∧ 4 ≤ next.place ∧ next.place ≤ 4 ∧
        next.nesting = 1) ∧
    ofTokens [⟨.identifier, "a", none, 0⟩, ⟨.comparator .less, "<", none, 2⟩,
        ⟨.string, "x", none, 4⟩, ⟨.endOfInput, "", none, 5⟩, ⟨.rightParen, ")", none, 5⟩,
        ⟨.endOfInput, "", none, 6⟩] = .ok (leaf ⟨"a", .less, .string "x"⟩) := by
  refine ⟨?_, ?_, ?_⟩
  · rw [(walk_stays_within.1 _).2.1]
    have hread : ofTokens [⟨.leftParen, "(", none, 0⟩, ⟨.identifier, "a", none, 1⟩,
        ⟨.comparator .less, "<", none, 2⟩, ⟨.string, "x", none, 3⟩]
        = .error ⟨.closingParen, "end of input", 4, 0⟩ := by decide +kernel
    rw [hread]
    rfl
  · obtain ⟨-, hended⟩ := walk_stays_within.2.1 [⟨.leftParen, "(", none, 0⟩,
      ⟨.identifier, "a", none, 1⟩, ⟨.comparator .less, "<", none, 2⟩, ⟨.string, "x", none, 3⟩]
      .comparison 100 ⟨1, 1⟩ (by decide) (by decide) (by decide)
    rcases hended with ⟨e, he⟩ | hended
    · cases he
    · exact hended
  · have hread := walk_stays_within.2.2 [⟨.identifier, "a", none, 0⟩,
      ⟨.comparator .less, "<", none, 2⟩, ⟨.string, "x", none, 4⟩]
      [⟨.rightParen, ")", none, 5⟩, ⟨.endOfInput, "", none, 6⟩] ⟨.endOfInput, "", none, 5⟩ rfl
    exact hread.trans (by decide +kernel)

end ComparisonRules.Rule
