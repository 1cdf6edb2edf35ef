import ComparisonRules.Proofs.Rule.Reading
import ComparisonRules.Proofs.Token.Layout
import ComparisonRules.Rule.Compile

/-!
# Layouts of rules

A rule is read from what its tokens mean, and not from how they are written or where they stand.
Two readers of tokens that are alike in pairs go the same way: they read the same rule, or they
stop at the tokens of one pair and expect the same there. So the layout of a text does not matter.
-/

namespace ComparisonRules.Rule

open Token (Alike)

/-! ## Two readers side by side -/

/-- Two outcomes of reading: related results, or errors in which the same is expected in the place
of related tokens. -/
inductive Agree {α : Type} (P : Token → Token → Prop) (R : α → α → Prop) :
    Except ParseError α → Except ParseError α → Prop where
  | ok {a b : α} : R a b → Agree P R (.ok a) (.ok b)
  | error {t u : Token} {expected : Expectation} : P t u →
      Agree P R (.error (.describing t expected)) (.error (.describing u expected))

/-- The same rule was read, and related tokens are left. -/
structure SameReading (P : Token → Token → Prop) (a b : Rule × List Token) : Prop where
  rule : a.1 = b.1
  rest : List.Forall₂ P a.2 b.2

/-- From related tokens, both readers have outcomes that agree. -/
def ReadersAgree (P : Token → Token → Prop) (reader reader' : List Token → Reading) : Prop :=
  ∀ tokens tokens', List.Forall₂ P tokens tokens' →
    Agree P (SameReading P) (reader tokens) (reader' tokens')

theorem Agree.bind {α β : Type} {P : Token → Token → Prop} {R : α → α → Prop}
    {S : β → β → Prop} {x y : Except ParseError α} {f g : α → Except ParseError β}
    (h : Agree P R x y) (hnext : ∀ a b, R a b → Agree P S (f a) (g b)) :
    Agree P S (x >>= f) (y >>= g) := by
  cases h with
  | ok hab => exact hnext _ _ hab
  | error htu => exact .error htu

section

variable {P : Token → Token → Prop} {stop stop' : Token}

theorem agree_refuse {tokens tokens' : List Token} (hstop : P stop stop')
    (h : List.Forall₂ P tokens tokens') (expected : Expectation) :
    Agree P (SameReading P) (refuse stop tokens expected) (refuse stop' tokens' expected) := by
  cases h with
  | nil => exact .error hstop
  | cons hfirst _ => exact .error hfirst

theorem agree_joinAt {t u : Token} (h : P t u) (left : Rule) (connective : Connective)
    (right : Rule) :
    Agree P Eq (joinAt t left connective right) (joinAt u left connective right) := by
  unfold joinAt
  dsimp only
  split
  · exact .error h
  · exact .ok rfl

variable (hP : ∀ t u, P t u → Alike t u)

include hP

theorem literalOf_eq {t u : Token} (h : P t u) (hkind : t.kind.isLiteral = true) :
    literalOf t = literalOf u := by
  obtain ⟨value, ht, hu⟩ := (hP t u h).value hkind
  rw [literalOf, literalOf, ht, hu]
  rfl

theorem agree_readRightSide {left left' : Token} (hstop : P stop stop') (hleft : P left left')
    (hkind : left.kind = .identifier ∨ left.kind.isLiteral = true) (comparator : Comparator) :
    ReadersAgree P (readRightSide stop left comparator)
      (readRightSide stop' left' comparator) := by
  intro tokens tokens' h
  unfold readRightSide
  rw [← (hP _ _ hleft).kind]
  by_cases hfield : left.kind = .identifier
  · rw [if_pos hfield, if_pos hfield]
    cases h with
    | nil => exact agree_refuse hstop .nil _
    | @cons right right' rest rest' hright hrest =>
        dsimp only
        rw [← (hP _ _ hright).kind]
        split
        · rename_i hliteral
          rw [(hP _ _ hleft).name hfield, literalOf_eq hP hright hliteral]
          exact .ok ⟨rfl, hrest⟩
        · exact agree_refuse hstop (.cons hright hrest) _
  · rw [if_neg hfield, if_neg hfield]
    cases h with
    | nil => exact agree_refuse hstop .nil _
    | @cons right right' rest rest' hright hrest =>
        dsimp only
        rw [← (hP _ _ hright).kind]
        split
        · rename_i hname
          rw [(hP _ _ hright).name hname,
            literalOf_eq hP hleft (hkind.resolve_left hfield)]
          exact .ok ⟨rfl, hrest⟩
        · exact agree_refuse hstop (.cons hright hrest) _

theorem agree_readComparison (hstop : P stop stop') :
    ReadersAgree P (readComparison stop) (readComparison stop') := by
  intro tokens tokens' h
  unfold readComparison
  cases h with
  | nil => exact agree_refuse hstop .nil _
  | @cons left left' afterLeft afterLeft' hleft hafter =>
      dsimp only
      rw [← (hP _ _ hleft).kind]
      split
      · rename_i hkind
        cases hafter with
        | nil => exact agree_refuse hstop .nil _
        | @cons operator operator' rest rest' hoperator hrest =>
            have hrefuse := agree_refuse hstop (.cons hoperator hrest) .comparator
            have hsame := (hP _ _ hoperator).kind
            obtain ⟨kind, lexeme, literal, offset⟩ := operator
            obtain ⟨kind', lexeme', literal', offset'⟩ := operator'
            dsimp only at hsame
            subst hsame
            cases kind with
            | comparator c => exact agree_readRightSide hP hstop hleft hkind c _ _ hrest
            | _ => exact hrefuse
      · exact agree_refuse hstop (.cons hleft hafter) _

section

variable {operand operand' : List Token → Reading} {connective : Connective}

theorem agree_readLinks (hoperand : ReadersAgree P operand operand') (links : Nat)
    (left : Rule) :
    ReadersAgree P (readLinks connective operand links left)
      (readLinks connective operand' links left) := by
  induction links generalizing left with
  | zero => exact fun _ _ h => .ok ⟨rfl, h⟩
  | succ links ih =>
      intro tokens tokens' h
      unfold readLinks
      cases h with
      | nil => exact .ok ⟨rfl, .nil⟩
      | @cons joint joint' afterJoint afterJoint' hjoint hafter =>
          dsimp only
          rw [← (hP _ _ hjoint).kind]
          split
          · apply (hoperand _ _ hafter).bind
            rintro ⟨right, rest⟩ ⟨right', rest'⟩ ⟨rfl, hrest⟩
            apply (agree_joinAt hjoint left connective right).bind
            rintro joined - rfl
            exact ih joined rest rest' hrest
          · exact .ok ⟨rfl, .cons hjoint hafter⟩

theorem agree_readChain (hoperand : ReadersAgree P operand operand') :
    ReadersAgree P (readChain connective operand) (readChain connective operand') := by
  intro tokens tokens' h
  apply (hoperand _ _ h).bind
  rintro ⟨first, rest⟩ ⟨first', rest'⟩ ⟨rfl, hrest⟩
  dsimp only at hrest ⊢
  rw [← hrest.length_eq]
  exact agree_readLinks hP hoperand rest.length first rest rest' hrest

end

theorem agree_readDisjunction {term term' : List Token → Reading}
    (hterm : ReadersAgree P term term') :
    ReadersAgree P (readDisjunction term) (readDisjunction term') :=
  agree_readChain hP (agree_readChain hP hterm)

theorem agree_readClosing (hstop : P stop stop') (rule : Rule) (tokens tokens' : List Token) :
    List.Forall₂ P tokens tokens' →
      Agree P (SameReading P)
        (match tokens with
          | ⟨.rightParen, _, _, _⟩ :: behind => .ok (rule, behind)
          | _ => refuse stop tokens .closingParen)
        (match tokens' with
          | ⟨.rightParen, _, _, _⟩ :: behind => .ok (rule, behind)
          | _ => refuse stop' tokens' .closingParen) := by
  intro h
  cases h with
  | nil => exact agree_refuse hstop .nil _
  | @cons closing closing' behind behind' hclosing hbehind =>
      have hrefuse := agree_refuse hstop (.cons hclosing hbehind) .closingParen
      have hsame := (hP _ _ hclosing).kind
      obtain ⟨kind, lexeme, literal, offset⟩ := closing
      obtain ⟨kind', lexeme', literal', offset'⟩ := closing'
      dsimp only at hsame
      subst hsame
      cases kind with
      | rightParen => exact .ok ⟨rfl, hbehind⟩
      | _ => exact hrefuse

theorem agree_readTerm (hstop : P stop stop') (groups : Nat) :
    ReadersAgree P (readTerm stop groups) (readTerm stop' groups) := by
  induction groups using Nat.strongRecOn with
  | ind groups ih =>
      intro tokens tokens' h
      cases h with
      | nil => cases groups <;> exact agree_readComparison hP hstop _ _ .nil
      | @cons first first' rest rest' hfirst hrest =>
          have hsame := (hP _ _ hfirst).kind
          by_cases hkind : first.kind = .leftParen
          · obtain ⟨kind, lexeme, literal, offset⟩ := first
            obtain ⟨kind', lexeme', literal', offset'⟩ := first'
            cases hkind
            cases hsame
            cases groups with
            | zero => exact agree_refuse hstop (.cons hfirst hrest) .fewerGroups
            | succ inner =>
                have hinner := ih inner inner.lt_succ_self
                rw [readTerm_group, readTerm_group]
                apply (agree_readDisjunction hP hinner _ _ hrest).bind
                rintro ⟨rule, afterRule⟩ ⟨rule', afterRule'⟩ ⟨rfl, hafter⟩
                exact agree_readClosing hP hstop rule afterRule afterRule' hafter
          · rw [readTerm_eq_readComparison hkind, readTerm_eq_readComparison (hsame ▸ hkind)]
            exact agree_readComparison hP hstop _ _ (.cons hfirst hrest)

/-! ## Whole token lists -/

theorem isWithinInput_eq {t u : Token} (h : P t u) : isWithinInput t = isWithinInput u := by
  rw [isWithinInput, isWithinInput, (hP t u h).kind]

theorem forall₂_takeWhile {tokens tokens' : List Token} (h : List.Forall₂ P tokens tokens') :
    List.Forall₂ P (tokens.takeWhile isWithinInput) (tokens'.takeWhile isWithinInput) := by
  induction h with
  | nil => exact .nil
  | cons hfirst _ ih =>
      rw [List.takeWhile_cons, List.takeWhile_cons, ← isWithinInput_eq hP hfirst]
      split
      · exact .cons hfirst ih
      · exact .nil

theorem stopOf_rel {tokens tokens' : List Token} (h : List.Forall₂ P tokens tokens')
    (hend : ∃ t ∈ tokens, t.kind = .endOfInput) : P (stopOf tokens) (stopOf tokens') := by
  have hfound : ∃ t u, tokens.find? (fun t => !isWithinInput t) = some t ∧
      tokens'.find? (fun t => !isWithinInput t) = some u ∧ P t u := by
    induction h with
    | nil => simp at hend
    | @cons first first' rest rest' hfirst _ ih =>
        rw [List.find?_cons, List.find?_cons, ← isWithinInput_eq hP hfirst]
        by_cases hkind : first.kind = .endOfInput
        · have hstop : isWithinInput first = false := by simp [isWithinInput, hkind]
          rw [hstop]
          exact ⟨first, first', rfl, rfl, hfirst⟩
        · have hwithin : isWithinInput first = true := by simp [isWithinInput, hkind]
          rw [hwithin]
          apply ih
          obtain ⟨t, ht, hlast⟩ := hend
          rcases List.mem_cons.mp ht with rfl | hmem
          · exact absurd hlast hkind
          · exact ⟨t, hmem, hlast⟩
  obtain ⟨t, u, ht, hu, htu⟩ := hfound
  rw [stopOf, stopOf, ht, hu]
  exact htu

theorem agree_ofTokens {tokens tokens' : List Token} (h : List.Forall₂ P tokens tokens')
    (hend : ∃ t ∈ tokens, t.kind = .endOfInput) :
    Agree P Eq (ofTokens tokens) (ofTokens tokens') := by
  have hstop := stopOf_rel hP h hend
  have hinput := forall₂_takeWhile hP h
  apply (agree_readDisjunction hP (agree_readTerm hP hstop maxDepth) _ _ hinput).bind
  rintro ⟨rule, rest⟩ ⟨rule', rest'⟩ ⟨rfl, hrest⟩
  cases hrest with
  | nil => exact .ok rfl
  | cons hfirst _ => exact .error hfirst

end

/-! ## Texts -/

theorem forall₂_getElem? {R : Token → Token → Prop} {tokens tokens' : List Token}
    (h : List.Forall₂ R tokens tokens') :
    List.Forall₂ (fun t u => R t u ∧ ∃ index : Nat, tokens[index]? = some t ∧
      tokens'[index]? = some u) tokens tokens' := by
  rw [List.forall₂_iff_get] at h ⊢
  refine ⟨h.1, fun index hindex hindex' => ⟨h.2 index hindex hindex', index, ?_, ?_⟩⟩
  · exact List.getElem?_eq_getElem hindex
  · exact List.getElem?_eq_getElem hindex'

/-- The layout of a text does not matter. Behind white space, a text has the tokens or the error
that it has on its own, further back. A text in which the tokens of another one are laid out has
tokens that are alike, and both are compiled to the same rule, or both are refused at the tokens
in one place, where the same is expected. -/
theorem same_in_all_layouts :
    (∀ first gap second tokens, Token.scan first = .ok tokens → gap ≠ "" →
      (∀ c ∈ gap.toList, Text.isBlank c = true) →
      Token.scan (first ++ gap ++ second) = ((Token.scan second).map fun more =>
        tokens.dropLast ++ more.map (Token.movedBy (first ++ gap).utf8ByteSize)).mapError
          (LexError.movedBy (first ++ gap).utf8ByteSize)) ∧
    ∀ source other tokens, Token.scan source = .ok tokens →
      Token.LaidOut tokens.dropLast other.toList →
      ∃ tokens', Token.scan other = .ok tokens' ∧ List.Forall₂ Alike tokens tokens' ∧
        ((∃ rule, compile source = .ok rule ∧ compile other = .ok rule) ∨
          ∃ (index : Nat) (t u : Token) (expected : Expectation),
            tokens[index]? = some t ∧ tokens'[index]? = some u ∧
            compile source = .error (.parse (.describing t expected)) ∧
            compile other = .error (.parse (.describing u expected))) := by
  refine ⟨fun first gap second tokens => Token.scan_append, ?_⟩
  intro source other tokens hscan hother
  obtain ⟨tokens', hscan', halike⟩ := Token.scan_of_laidOut hscan hother
  refine ⟨tokens', hscan', halike, ?_⟩
  have hend : ∃ t ∈ tokens, t.kind = .endOfInput := by
    obtain ⟨pieces, rfl, -⟩ := Token.cuts_of_scanFrom hscan
    exact ⟨_, List.mem_append_right _ List.mem_cons_self, rfl⟩
  have hagree := agree_ofTokens (fun _ _ hpair => hpair.1) (forall₂_getElem? halike) hend
  unfold compile
  rw [hscan, hscan']
  dsimp only
  generalize ofTokens tokens = outcome at hagree
  generalize ofTokens tokens' = outcome' at hagree
  cases hagree with
  | @ok rule _ hrule => exact .inl ⟨rule, rfl, by rw [← hrule]⟩
  | @error t u expected hpair =>
      obtain ⟨-, index, ht, hu⟩ := hpair
      exact .inr ⟨index, t, u, expected, ht, hu, rfl, rfl⟩

/-- A quote that is not closed, behind a letter and a gap that take more than one byte each, and a
text with no white space written with much of it, with other quotes and another case. -/
theorem same_in_all_layouts_respelled :
    Token.scan ("é" ++ "\u3000" ++ "'x") = .error (.unterminatedString 5) ∧
    compile "a < \"x\"\nOR 'y'  < b " = .ok
      (.join (.leaf ⟨"a", .less, .string "x"⟩) .or (.leaf ⟨"b", .greater, .string "y"⟩)) := by
  refine ⟨?_, ?_⟩
  · have hfirst : Token.scan "é"
        = .ok [⟨.identifier, "é", none, 0⟩, ⟨.endOfInput, "", none, 2⟩] := by decide +kernel
    have hsecond : Token.scan "'x" = .error (.unterminatedString 0) := by decide +kernel
    have hblank : ∀ c ∈ "\u3000".toList, Text.isBlank c = true :=
      List.all_eq_true.mp (by decide +kernel)
    rw [same_in_all_layouts.1 _ _ _ _ hfirst (by decide) hblank, hsecond]
    rfl
  · have hscan : Token.scan "a<'x'oR'y'<b" = .ok [⟨.identifier, "a", none, 0⟩,
        ⟨.comparator .less, "<", none, 1⟩, ⟨.string, "'x'", some (.string "x"), 2⟩,
        ⟨.connective .or, "oR", none, 5⟩, ⟨.string, "'y'", some (.string "y"), 7⟩,
        ⟨.comparator .less, "<", none, 10⟩, ⟨.identifier, "b", none, 11⟩,
        ⟨.endOfInput, "", none, 12⟩] := by decide +kernel
    have hcompile : compile "a<'x'oR'y'<b" = .ok
        (.join (.leaf ⟨"a", .less, .string "x"⟩) .or (.leaf ⟨"b", .greater, .string "y"⟩)) := by
      decide +kernel
    have hquoted : Token.WrittenAs ⟨.string, "'x'", some (.string "x"), 2⟩
        ('"' :: (['x'] ++ ['"'])) := .quoted rfl rfl (.inr rfl) (by decide)
    have hother : Token.LaidOut [⟨.identifier, "a", none, 0⟩,
        ⟨.comparator .less, "<", none, 1⟩, ⟨.string, "'x'", some (.string "x"), 2⟩,
        ⟨.connective .or, "oR", none, 5⟩, ⟨.string, "'y'", some (.string "y"), 7⟩,
        ⟨.comparator .less, "<", none, 10⟩, ⟨.identifier, "b", none, 11⟩]
        ([] ++ (['a'] ++ ([' '] ++ (['<'] ++ ([' '] ++ (['"', 'x', '"'] ++ (['\n'] ++
          (['O', 'R'] ++ ([' '] ++ (['\'', 'y', '\''] ++ ([' ', ' '] ++ (['<'] ++ ([' '] ++
            (['b'] ++ [' '])))))))))))))) := by
      have hempty : ∀ c ∈ ([] : List Char), Text.isBlank c = true := by simp
      have hspace : ∀ c ∈ [' '], Text.isBlank c = true := List.all_eq_true.mp (by decide)
      have hspaces : ∀ c ∈ [' ', ' '], Text.isBlank c = true := List.all_eq_true.mp (by decide)
      have hbreak : ∀ c ∈ ['\n'], Text.isBlank c = true := List.all_eq_true.mp (by decide)
      refine .token hempty .same (by rintro c ⟨⟩; decide) ?_
      refine .token hspace .same (by rintro c ⟨⟩; decide) ?_
      refine .token hspace hquoted (by rintro c ⟨⟩; decide) ?_
      refine .token hbreak (.word rfl rfl) (by rintro c ⟨⟩; decide) ?_
      refine .token hspace .same (by rintro c ⟨⟩; decide) ?_
      refine .token hspaces .same (by rintro c ⟨⟩; decide) ?_
      exact .token hspace .same (by rintro c ⟨⟩; decide) (.blanks hspace)
    obtain ⟨tokens', -, -, hok | hrefused⟩ :=
      same_in_all_layouts.2 _ "a < \"x\"\nOR 'y'  < b " _ hscan hother
    · obtain ⟨rule, hrule, hsame⟩ := hok
      cases hrule.symm.trans hcompile
      exact hsame
    · obtain ⟨index, t, u, expected, -, -, hrefused, -⟩ := hrefused
      cases hrefused.symm.trans hcompile

end ComparisonRules.Rule
