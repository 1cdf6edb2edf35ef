import ComparisonRules.Proofs.Service.Storage
import ComparisonRules.Proofs.Rule.Order
import ComparisonRules.Proofs.Token.Marks

/-!
# Texts of stored rules

A stored rule may have any field name and numbers of either sign, and not every such rule can be
written. As long as its field names have no marks in them and no white space around them, the
canonical text of a rule that cannot be written is refused. Marks or white space can make the
text read as another rule.
-/

namespace ComparisonRules

/-! ## Literals -/

theorem Value.IsStorable.isWritable_or {value : Value} (h : value.IsStorable) :
    value.IsWritable ∨ ∃ cs, value.text.toList = '-' :: cs := by
  cases value with
  | number n =>
      obtain _ | ⟨_ | _, m⟩ := n
      · exact nomatch h.finite
      · exact .inl h.finite
      · exact .inr ⟨_, String.toList_ofList⟩
  | string s =>
      refine .inl fun ⟨hsingle, hdouble⟩ => ?_
      have hquotable := h.quotable
      simp [isQuotable, mentions, hsingle, hdouble] at hquotable

theorem Token.scanFrom_sign (offset : Nat) (cs : List Char) :
    scanFrom offset ('-' :: cs) = .error (.unexpectedChar offset '-') := by
  have hname : isNameStart '-' = false := isNameStart_of_lt (by decide)
  have hcomparator : comparatorAt? '-' cs = none := by
    unfold comparatorAt?
    split <;> rfl
  have hpiece : pieceAt offset '-' cs = .error (.unexpectedChar offset '-') := by
    unfold pieceAt
    rw [if_neg (by decide), if_neg (by decide), if_neg (by decide), if_neg (by decide), hname,
      if_neg Bool.false_ne_true, hcomparator]
  rw [scanFrom, if_neg (by decide), hpiece]

/-- A field name that has no marks in it and no white space around it. -/
structure Comparison.IsPlain (c : Comparison) : Prop where
  unmarked : ∀ d ∈ c.field.toList, ¬ Token.IsMark d
  trimmed : Text.IsTrimmed c.field.toList

theorem Comparison.IsWritable.isPlain {c : Comparison} (h : c.IsWritable) : c.IsPlain :=
  ⟨h.name.unmarked, h.name.isTrimmed⟩

namespace Rule

/-! ## From tokens to rules -/

/-- If the tokens can be followed, they make up an operand with further groups that are left
open. If none is, the fact holds. -/
def BalancedOnlyIf (tokens : List Token) (fact : Prop) : Prop :=
  ∀ opened state, follow (.operand, opened) tokens = some state →
    ∃ further, state = (.joint, opened + further) ∧ (further = 0 → fact)

theorem BalancedOnlyIf.mono {tokens : List Token} {fact fact' : Prop}
    (h : BalancedOnlyIf tokens fact) (himp : fact → fact') : BalancedOnlyIf tokens fact' := by
  intro opened state hfollow
  obtain ⟨further, hstate, hfact⟩ := h opened state hfollow
  exact ⟨further, hstate, fun hzero => himp (hfact hzero)⟩

theorem BalancedOnlyIf.joined {before after : List Token} {joint : Token}
    {connective : Connective} {fact fact' : Prop} (hbefore : BalancedOnlyIf before fact)
    (hjoint : joint.kind = .connective connective) (hafter : BalancedOnlyIf after fact') :
    BalancedOnlyIf (before ++ joint :: after) (fact ∧ fact') := by
  intro opened state hfollow
  rw [follow_append] at hfollow
  obtain ⟨_, hfirst, hfollow⟩ := Option.bind_eq_some_iff.mp hfollow
  obtain ⟨further, rfl, hfact⟩ := hbefore opened _ hfirst
  rw [follow_cons, advance_connective _ hjoint, Option.bind_some] at hfollow
  obtain ⟨further', rfl, hfact'⟩ := hafter _ _ hfollow
  exact ⟨further + further', by rw [Nat.add_assoc], fun hzero =>
    ⟨hfact (by omega), hfact' (by omega)⟩⟩

theorem BalancedOnlyIf.grouped {inner : List Token} {opening closing : Token} {fact : Prop}
    (h : BalancedOnlyIf inner fact) (hopening : opening.kind = .leftParen)
    (hclosing : closing.kind = .rightParen) :
    BalancedOnlyIf (opening :: (inner ++ [closing])) fact := by
  intro opened state hfollow
  rw [follow_cons, advance_opening _ hopening, Option.bind_some, follow_append] at hfollow
  obtain ⟨_, hinner, hfollow⟩ := Option.bind_eq_some_iff.mp hfollow
  obtain ⟨further, rfl, hfact⟩ := h _ _ hinner
  rw [Nat.add_right_comm, follow_cons, advance_closing _ hclosing] at hfollow
  cases hfollow
  exact ⟨further, rfl, hfact⟩

section

variable {words : List Token} {operator literal : Token} {comparator : Comparator}

theorem eq_nil_of_follow {named : Bool} {opened : Nat} {state : Awaited × Nat}
    (hwords : ∀ t ∈ words, ∀ comparator, t.kind ≠ .comparator comparator)
    (hoperator : operator.kind = .comparator comparator)
    (hliteral : literal.kind = .number ∨ literal.kind = .string)
    (h : follow (.comparator named, opened) (words ++ [operator, literal]) = some state) :
    words = [] ∧ named = true ∧ state = (.joint, opened) := by
  cases words with
  | nil =>
      rcases hliteral with hliteral | hliteral <;> cases named <;>
        simp_all [advance_comparator, advance_side]
  | cons t words =>
      have hother := hwords t List.mem_cons_self
      have hstep : advance (.comparator named, opened) t = none := by
        cases hkind : t.kind <;> simp [advance_comparator, hkind]
        exact absurd hkind (hother _)
      rw [List.cons_append, follow_cons, hstep] at h
      cases h

theorem balancedOnlyIf_comparison
    (hwords : ∀ t ∈ words, ∀ comparator, t.kind ≠ .comparator comparator)
    (hoperator : operator.kind = .comparator comparator)
    (hliteral : literal.kind = .number ∨ literal.kind = .string) :
    BalancedOnlyIf (words ++ [operator, literal]) (∃ t, words = [t] ∧ t.kind = .identifier) := by
  -- what stands there is a single name, or it leaves parentheses open
  induction words with
  | nil =>
      intro opened state hfollow
      simp [advance_operand, hoperator] at hfollow
  | cons t words ih =>
      obtain ⟨-, hwords⟩ := List.forall_mem_cons.mp hwords
      intro opened state hfollow
      rw [List.cons_append, follow_cons] at hfollow
      obtain ⟨next, hstep, hfollow⟩ := Option.bind_eq_some_iff.mp hfollow
      cases hkind : t.kind with
      | leftParen =>
          rw [advance_opening _ hkind] at hstep
          cases hstep
          obtain ⟨further, rfl, -⟩ := ih hwords _ _ hfollow
          exact ⟨further + 1, by rw [Nat.add_assoc, Nat.add_comm 1], by simp⟩
      | identifier =>
          simp only [advance_operand, hkind, Option.some.injEq] at hstep
          subst hstep
          obtain ⟨rfl, -, rfl⟩ := eq_nil_of_follow hwords hoperator hliteral hfollow
          exact ⟨0, rfl, fun _ => ⟨t, rfl, hkind⟩⟩
      | number | string =>
          simp only [advance_operand, hkind, Option.some.injEq] at hstep
          subst hstep
          obtain ⟨-, hnamed, -⟩ := eq_nil_of_follow hwords hoperator hliteral hfollow
          cases hnamed
      | rightParen | comparator | connective | endOfInput => simp [advance_operand, hkind] at hstep

end

/-! ## From texts to tokens -/

/-- Wherever no number goes on behind them, the characters are refused or scanned as tokens that
close what they open only if the fact holds. -/
def ScansOnlyIf (chars : List Char) (fact : Prop) : Prop :=
  ∀ offset rest tokens, Token.EndsNumber rest →
    Token.scanFrom offset (chars ++ rest) = .ok tokens →
    ∃ front back offset', tokens = front ++ back ∧ BalancedOnlyIf front fact ∧
      Token.scanFrom offset' rest = .ok back

theorem scansOnlyIf_comparison {c : Comparison} (hfield : c.IsPlain)
    (hstorable : c.literal.IsStorable) : ScansOnlyIf c.text.toList c.IsWritable := by
  intro offset rest tokens hrest hscan
  rw [c.toList_text, List.append_assoc, List.cons_append, List.append_assoc, List.cons_append]
    at hscan
  obtain ⟨words, fromOperator, _, rfl, hoperator, hwords, -, hsingle⟩ :=
    Token.words_of_scanFrom hfield.unmarked hscan
  obtain ⟨operator, fromLiteral, _, hoperatorKind, rfl, hliteral⟩ :=
    (Token.fits_comparator c.comparator _).exists_of_scanFrom hoperator
  rw [Token.scanFrom_blank (by decide)] at hliteral
  rcases hstorable.isWritable_or with hwritable | ⟨cs, hsign⟩
  · obtain ⟨kind, hkind, hfits⟩ := Token.fits_literal hwritable hrest
    obtain ⟨literal, back, offset', rfl, rfl, hback⟩ := hfits.exists_of_scanFrom hliteral
    refine ⟨words ++ [operator, literal], back, offset', by simp, ?_, hback⟩
    refine (balancedOnlyIf_comparison hwords hoperatorKind hkind).mono ?_
    rintro ⟨t, ht, hname⟩
    obtain ⟨chars, _, hpads, hfits⟩ := hsingle t ht
    rw [hname, ← hpads.eq_of_isTrimmed hfield.trimmed] at hfits
    generalize t.literal = carried at hfits
    cases hfits with
    | identifier hshape _ hand hor => exact ⟨hshape, hand, hor, hwritable⟩
  · rw [hsign, List.cons_append, Token.scanFrom_sign] at hliteral
    cases hliteral

theorem ScansOnlyIf.joined {connective : Connective} {before after : List Char}
    {fact fact' : Prop} (hbefore : ScansOnlyIf before fact) (hafter : ScansOnlyIf after fact') :
    ScansOnlyIf (before ++ ' ' :: (connective.text.toList ++ ' ' :: after)) (fact ∧ fact') := by
  intro offset rest tokens hrest hscan
  rw [List.append_assoc, List.cons_append, List.append_assoc, List.cons_append] at hscan
  obtain ⟨front, fromJoint, _, rfl, hfront, hjoint⟩ :=
    hbefore _ _ _ (Token.endsNumber_blank _) hscan
  rw [Token.scanFrom_blank (by decide)] at hjoint
  obtain ⟨joint, fromAfter, _, hkind, rfl, hscanAfter⟩ :=
    (Token.fits_connective connective _).exists_of_scanFrom hjoint
  rw [Token.scanFrom_blank (by decide)] at hscanAfter
  obtain ⟨last, back, offset', rfl, hlast, hback⟩ := hafter _ _ _ hrest hscanAfter
  exact ⟨front ++ joint :: last, back, offset', by simp, hfront.joined hkind hlast, hback⟩

theorem ScansOnlyIf.grouped {chars : List Char} {fact : Prop} (h : ScansOnlyIf chars fact) :
    ScansOnlyIf ('(' :: (chars ++ [')'])) fact := by
  intro offset rest tokens _ hscan
  have htext : '(' :: (chars ++ [')']) ++ rest = ['('] ++ (chars ++ ([')'] ++ rest)) := by simp
  rw [htext] at hscan
  obtain ⟨opening, fromInner, _, hopening, rfl, hinner⟩ :=
    Token.Fits.leftParen.exists_of_scanFrom hscan
  obtain ⟨inner, fromClosing, _, rfl, hbalanced, hclosing⟩ :=
    h _ _ _ (Token.endsNumber_closing _) hinner
  obtain ⟨closing, back, offset', hkind, rfl, hback⟩ :=
    Token.Fits.rightParen.exists_of_scanFrom hclosing
  exact ⟨opening :: (inner ++ [closing]), back, offset', by simp,
    hbalanced.grouped hopening hkind, hback⟩

theorem scansOnlyIf_join {left right : Rule} {connective : Connective}
    (hleft : ScansOnlyIf left.operandText.toList (∀ c ∈ left.comparisons, c.IsWritable))
    (hright : ScansOnlyIf right.operandText.toList (∀ c ∈ right.comparisons, c.IsWritable)) :
    ScansOnlyIf (join left connective right).text.toList
      (∀ c ∈ (join left connective right).comparisons, c.IsWritable) := by
  rw [toList_text_join, comparisons, List.forall_mem_append]
  exact hleft.joined hright

theorem scansOnlyIf_operandText {rule : Rule}
    (h : ∀ c ∈ rule.comparisons, c.IsPlain ∧ c.literal.IsStorable) :
    ScansOnlyIf rule.operandText.toList (∀ c ∈ rule.comparisons, c.IsWritable) := by
  induction rule with
  | leaf c =>
      rw [comparisons, List.forall_mem_singleton] at h ⊢
      exact scansOnlyIf_comparison h.1 h.2
  | join left connective right ihLeft ihRight =>
      rw [comparisons, List.forall_mem_append] at h
      rw [toList_operandText_join]
      exact (scansOnlyIf_join (ihLeft h.1) (ihRight h.2)).grouped

theorem scansOnlyIf_text {rule : Rule}
    (h : ∀ c ∈ rule.comparisons, c.IsPlain ∧ c.literal.IsStorable) :
    ScansOnlyIf rule.text.toList (∀ c ∈ rule.comparisons, c.IsWritable) := by
  cases rule with
  | leaf c => exact @scansOnlyIf_operandText (leaf c) h
  | join left connective right =>
      rw [comparisons, List.forall_mem_append] at h
      exact scansOnlyIf_join (scansOnlyIf_operandText h.1) (scansOnlyIf_operandText h.2)

/-! ## Compiling -/

theorem inputOf_of_scanFrom {offset stop : Nat} {text : List Char} {tokens : List Token}
    (h : Token.scanFrom offset text = .ok (tokens ++ [.endAt stop])) :
    inputOf (tokens ++ [.endAt stop]) = tokens := by
  obtain ⟨pieces, heq, hcuts⟩ := Token.cuts_of_scanFrom h
  obtain ⟨rfl, -⟩ := List.append_inj' heq rfl
  refine inputOf_append_endAt (fun t ht => ?_) stop
  obtain ⟨_, _, -, -, hfits⟩ := hcuts.placed t ht
  exact hfits.kind_ne

theorem ScansOnlyIf.of_compile {text : String} {found : Rule} {fact : Prop}
    (hscans : ScansOnlyIf text.toList fact) (h : compile text = .ok found) : fact := by
  obtain ⟨tokens, hscan, hread⟩ := compile_eq_ok.mp h
  have hscanFrom : Token.scanFrom 0 (text.toList ++ []) = .ok tokens := by
    rwa [List.append_nil]
  obtain ⟨front, back, stop, rfl, hbalanced, hback⟩ :=
    hscans 0 [] tokens Token.endsNumber_nil hscanFrom
  rw [Token.scanFrom] at hback
  cases hback
  obtain ⟨hderives, -, -⟩ := derives_of_ofTokens hread
  rw [inputOf_of_scanFrom hscan] at hderives
  obtain ⟨further, heq, hfact⟩ := hbalanced 0 _ (hderives.follow_eq 0)
  obtain ⟨-, hzero⟩ := Prod.mk.inj heq
  exact hfact (by omega)

/-- The text of a stored rule with plain field names compiles to that rule or to none. -/
theorem compile_text_of_ofStoredText {stored : String} {rule found : Rule}
    (h : ofStoredText stored = .ok rule) (hfields : ∀ c ∈ rule.comparisons, c.IsPlain)
    (hcompile : compile rule.text = .ok found) : found = rule := by
  have hstorable := isStorable_of_ofStoredText h
  have hscans := scansOnlyIf_text fun c hc => ⟨hfields c hc, hstorable.literals c hc⟩
  have hwritable := hscans.of_compile hcompile
  rw [compile_text ⟨hstorable.depth_le, hwritable⟩] at hcompile
  cases hcompile
  rfl

/-- Marks in a literal do no harm. -/
theorem compile_text_of_ofStoredText_marked_literal :
    ∃ found, compile (leaf ⟨"team", .equal, .string "a' OR b == "⟩).text = .ok found ∧
      found = leaf ⟨"team", .equal, .string "a' OR b == "⟩ := by
  have hname : Token.IsName "team".toList := .of_all (by decide +kernel)
  have hwritable : Comparison.IsWritable ⟨"team", .equal, .string "a' OR b == "⟩ :=
    ⟨hname, by decide, by decide, fun hquotes => absurd hquotes.2 (by decide)⟩
  have hcompile : compile (leaf ⟨"team", .equal, .string "a' OR b == "⟩).text = .ok _ :=
    compile_text ⟨Nat.zero_le _, List.forall_mem_singleton.mpr hwritable⟩
  have hstored := ofStoredText_of_isStorable (isStorable_leaf hwritable.literal.isStorable)
  exact ⟨_, hcompile, compile_text_of_ofStoredText hstored
    (List.forall_mem_singleton.mpr hwritable.isPlain) hcompile⟩

/-- A field name with marks: the text of a single comparison is that of a joint. -/
theorem compile_text_marked_field :
    ofStoredText (leaf ⟨"a == 'x' OR b", .equal, .string "y"⟩).storedText
        = .ok (leaf ⟨"a == 'x' OR b", .equal, .string "y"⟩) ∧
      compile (leaf ⟨"a == 'x' OR b", .equal, .string "y"⟩).text
        = .ok (join (leaf ⟨"a", .equal, .string "x"⟩) .or (leaf ⟨"b", .equal, .string "y"⟩)) ∧
      join (leaf ⟨"a", .equal, .string "x"⟩) .or (leaf ⟨"b", .equal, .string "y"⟩)
        ≠ leaf ⟨"a == 'x' OR b", .equal, .string "y"⟩ := by
  have hstorable : (leaf ⟨"a == 'x' OR b", .equal, .string "y"⟩).IsStorable :=
    isStorable_leaf ⟨rfl, by decide⟩
  have htext : (leaf ⟨"a == 'x' OR b", .equal, .string "y"⟩).text
      = (join (leaf ⟨"a", .equal, .string "x"⟩) .or (leaf ⟨"b", .equal, .string "y"⟩)).text := by
    decide +kernel
  have hleft : Comparison.IsWritable ⟨"a", .equal, .string "x"⟩ :=
    ⟨.of_all (by decide +kernel), by decide, by decide, fun hquotes => absurd hquotes.1 (by decide)⟩
  have hright : Comparison.IsWritable ⟨"b", .equal, .string "y"⟩ :=
    ⟨.of_all (by decide +kernel), by decide, by decide, fun hquotes => absurd hquotes.1 (by decide)⟩
  refine ⟨ofStoredText_of_isStorable hstorable, ?_, by simp⟩
  rw [htext]
  refine compile_text ⟨by decide, ?_⟩
  exact List.forall_mem_append.mpr
    ⟨List.forall_mem_singleton.mpr hleft, List.forall_mem_singleton.mpr hright⟩

/-- White space in front of a field name is lost when the text of the comparison is read. -/
theorem compile_text_padded {c : Comparison} (h : c.IsWritable) {padding : String}
    (hpadding : ∀ d ∈ padding.toList, Text.isBlank d = true) :
    compile (leaf { c with field := padding ++ c.field }).text = .ok (leaf c) := by
  have htext : (leaf { c with field := padding ++ c.field }).text.toList
      = padding.toList ++ c.text.toList := by
    simp [text, Comparison.toList_text]
  obtain ⟨tokens, hscan, hderives, hgroups⟩ :=
    spelledBy_comparison h (0 + Text.byteLength padding.toList) [] Token.endsNumber_nil
  have hwhole := (Token.ScansAs.blanks hpadding 0 _).append hscan
  rw [← htext, List.nil_append] at hwhole
  refine compile_eq_ok.mpr ⟨_, hwhole.scan_eq, ofTokens_of_derives ?_ ?_ (Nat.zero_le _)⟩
  · rw [inputOf_append_endAt hderives.kind_ne]
    exact (hderives.operand_of_term .or).chain_of_operand
  · rw [inputOf_append_endAt hderives.kind_ne]
    exact hgroups.mono (by decide)

end Rule

end ComparisonRules
