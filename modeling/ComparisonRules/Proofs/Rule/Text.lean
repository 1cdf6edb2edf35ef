import ComparisonRules.Proofs.Number.Layout
import ComparisonRules.Proofs.Rule.Reading
import ComparisonRules.Proofs.Token.Cut
import ComparisonRules.Rule.Compile

/-!
# Canonical texts

Which rules have a text. The canonical text of a rule is cut into tokens that derive the rule
if its names and literals can be written, and it opens fewer groups than the rule is deep. On
the other side, whatever a text compiles to can be written. So a rule has its canonical text
or none at all.
-/

namespace ComparisonRules

/-- A literal that can be written: a finite number without a sign, or a string that lacks one
of the quotes. -/
def Value.IsWritable : Value → Prop
  | number (.signed false m) => m.isFinite = true
  | number _ => False
  | string s => ¬ (Text.singleQuote ∈ s.toList ∧ Text.doubleQuote ∈ s.toList)

/-- A comparison that can be written: its field is a name and no connective. -/
structure Comparison.IsWritable (c : Comparison) : Prop where
  name : Token.IsName c.field.toList
  ne_and : c.field.toList.map Char.toLower ≠ ['a', 'n', 'd']
  ne_or : c.field.toList.map Char.toLower ≠ ['o', 'r']
  literal : c.literal.IsWritable

theorem Comparison.toList_text (c : Comparison) : c.text.toList
    = c.field.toList ++ ' ' :: (c.comparator.symbol.toList ++ ' ' :: c.literal.text.toList) := by
  simp [text]

/-- A rule that can be written: it is not too deep, and all its comparisons can be written. -/
structure Rule.IsRepresentable (rule : Rule) : Prop where
  depth_le : rule.depth ≤ Rule.maxDepth
  writable : ∀ c ∈ rule.comparisons, c.IsWritable

namespace Token

/-! ## Literals -/

/-- No number goes on with the text. -/
def EndsNumber (rest : List Char) : Prop :=
  Text.StopsAt (fun c => c.isDigit || c == '.') rest

theorem fits_number {chars rest : List Char} {n : Number} (hplain : Decimal.IsPlain chars)
    (hvalue : Number.ofText? (String.ofList chars) = some n) (hfinite : n.isFinite = true)
    (hrest : EndsNumber rest) : Fits .number chars (some (.number n)) rest := by
  refine .number hplain ?_ hvalue hfinite
  intro more behind heq hlonger
  cases more with
  | nil => rfl
  | cons c more =>
      have hstop := hrest c (by rw [heq]; rfl)
      have hdigit := hlonger.isDigit_or_eq c (by simp)
      rw [Bool.or_eq_false_iff, beq_eq_false_iff_ne] at hstop
      rcases hdigit with hdigit | hpoint
      · rw [hdigit] at hstop
        cases hstop.1
      · exact absurd hpoint hstop.2

theorem fits_literal {value : Value} {rest : List Char} (h : value.IsWritable)
    (hrest : EndsNumber rest) :
    ∃ kind, (kind = .number ∨ kind = .string) ∧
      Fits kind value.text.toList (some value) rest := by
  cases value with
  | number n =>
      obtain _ | ⟨_ | _, m⟩ := n
      · cases h
      · have hfinite : m.isFinite = true := h
        have hspelled := Decimal.spelledOut_spec (m.shortest .up)
        rw [Magnitude.magnitude_shortest .up hfinite] at hspelled
        have htext : (Value.number (.signed false m)).text.toList
            = (m.shortest .up).spelledOut := by
          change (String.ofList ([] ++ if m.isFinite then _ else _)).toList = _
          rw [if_pos hfinite, List.nil_append, String.toList_ofList]
        rw [htext]
        exact ⟨.number, Or.inl rfl, fits_number hspelled.1 hspelled.2 hfinite hrest⟩
      · cases h
  | string s =>
      have hquote : Value.quoteFor s = Text.singleQuote ∨ Value.quoteFor s = Text.doubleQuote := by
        unfold Value.quoteFor
        split
        · exact Or.inr rfl
        · exact Or.inl rfl
      have hbody : Value.quoteFor s ∉ s.toList := by
        unfold Value.quoteFor Value.mentions
        by_cases hsingle : Text.singleQuote ∈ s.toList
        · rw [if_pos (List.contains_iff_mem.mpr hsingle)]
          exact fun hdouble => h ⟨hsingle, hdouble⟩
        · rw [if_neg (by simpa using hsingle)]
          exact hsingle
      have htext : (Value.string s).text.toList
          = Value.quoteFor s :: (s.toList ++ [Value.quoteFor s]) := String.toList_ofList
      have hfits := @Fits.string _ _ rest hquote hbody
      rw [String.ofList_toList] at hfits
      rw [htext]
      exact ⟨.string, Or.inr rfl, hfits⟩

theorem isWritable_of_fits {kind : Kind} {chars rest : List Char} {literal : Option Value}
    (h : Fits kind chars literal rest) (hkind : kind = .number ∨ kind = .string) :
    ∃ value, literal = some value ∧ value.IsWritable := by
  cases h with
  | number hplain _ hvalue hfinite =>
      obtain ⟨m, hm⟩ := Number.ofText?_of_isPlain hplain
      rw [hm] at hvalue
      cases hvalue
      exact ⟨_, rfl, hfinite⟩
  | string hquote hbody =>
      refine ⟨_, rfl, ?_⟩
      change ¬ _
      rw [String.toList_ofList]
      rintro ⟨hsingle, hdouble⟩
      rcases hquote with rfl | rfl
      · exact hbody hsingle
      · exact hbody hdouble
  | _ => rcases hkind with hkind | hkind <;> cases hkind

/-! ## Parts between blanks -/

theorem endsNumber_nil : EndsNumber [] :=
  Text.stopsAt_nil _

theorem endsNumber_blank (rest : List Char) : EndsNumber (' ' :: rest) :=
  Text.stopsAt_cons (by decide)

theorem endsNumber_closing (rest : List Char) : EndsNumber (')' :: rest) :=
  Text.stopsAt_cons (by decide)

theorem isNamePart_blank : isNamePart ' ' = false := by
  decide

theorem ScansAs.spaced {offset : Nat} {front back rest : List Char} {before after : List Token}
    (hfront : ScansAs offset front (' ' :: (back ++ rest)) before)
    (hback : ScansAs (offset + Text.byteLength front + 1) back rest after) :
    ScansAs offset (front ++ ' ' :: back) rest (before ++ after) := by
  have hblank : ScansAs (offset + Text.byteLength front) [' '] (back ++ rest) [] :=
    .blank (by decide)
  exact hfront.append (hblank.append hback)

theorem fits_connective (connective : Connective) (rest : List Char) :
    Fits (.connective connective) connective.text.toList none (' ' :: rest) := by
  have hrest : Text.StopsAt isNamePart (' ' :: rest) := Text.stopsAt_cons isNamePart_blank
  cases connective with
  | and => exact .and (.of_all (by decide)) hrest rfl
  | or => exact .or (.of_all (by decide)) hrest rfl

theorem fits_field {c : Comparison} (h : c.IsWritable) (rest : List Char) :
    Fits .identifier c.field.toList none (' ' :: rest) :=
  .identifier h.name (Text.stopsAt_cons isNamePart_blank) h.ne_and h.ne_or

theorem fits_comparator (comparator : Comparator) (rest : List Char) :
    Fits (.comparator comparator) comparator.symbol.toList none (' ' :: rest) :=
  .comparator fun _ => by simp

end Token

namespace Rule

/-! ## From rules to texts -/

/-- Wherever no number goes on behind them, the characters are scanned as tokens that derive
the rule and open groups within the limit. -/
def SpelledBy (phrase : Phrase) (limit : Nat) (chars : List Char) (rule : Rule) : Prop :=
  ∀ offset rest, Token.EndsNumber rest → ∃ tokens, Token.ScansAs offset chars rest tokens ∧
    Derives phrase tokens rule ∧ GroupsWithin limit tokens

theorem spelledBy_comparison {c : Comparison} (h : c.IsWritable) :
    SpelledBy .term 0 c.text.toList (leaf c) := by
  intro offset rest hrest
  obtain ⟨kind, hkind, hliteral⟩ := Token.fits_literal h.literal hrest
  rw [c.toList_text]
  refine ⟨_, (Token.ScansAs.of_fits (Token.fits_field h _)).spaced
    ((Token.ScansAs.of_fits (Token.fits_comparator _ _)).spaced (Token.ScansAs.of_fits hliteral)),
    ?_, ?_⟩
  · exact Derives.comparison rfl String.ofList_toList rfl hkind rfl
  · refine groupsWithin_of_forall_ne ?_
    rcases hkind with rfl | rfl <;> simp

theorem SpelledBy.joined {connective : Connective} {limit limit' : Nat}
    {before after : List Char} {left right : Rule} (hleft : SpelledBy .term limit before left)
    (hright : SpelledBy .term limit' after right) :
    SpelledBy (.chain .or) (max limit limit')
      (before ++ ' ' :: (connective.text.toList ++ ' ' :: after))
      (join left connective right) := by
  intro offset rest hrest
  have hjoint := Token.fits_connective connective (after ++ rest)
  obtain ⟨tokens, hscan, hderives, hgroups⟩ :=
    hleft offset (' ' :: (connective.text.toList ++ ' ' :: after ++ rest))
      (Token.endsNumber_blank _)
  obtain ⟨tokens', hscan', hderives', hgroups'⟩ := hright
    (offset + Text.byteLength before + 1 + Text.byteLength connective.text.toList + 1) rest hrest
  refine ⟨_, hscan.spaced ((Token.ScansAs.of_fits hjoint).spaced hscan'), ?_, ?_⟩
  · exact hderives.joined rfl hderives'
  · rw [hderives.groupsWithin_append, List.singleton_append, groupsWithin_cons_connective rfl]
    exact ⟨hgroups.mono (by omega), hgroups'.mono (by omega)⟩

theorem spelledBy_of_closing {limit : Nat} {chars : List Char} {rule : Rule}
    (h : ∀ offset rest, ∃ tokens, Token.ScansAs offset chars (')' :: rest) tokens ∧
      Derives (.chain .or) tokens rule ∧ GroupsWithin limit tokens) :
    SpelledBy .term (limit + 1) ('(' :: (chars ++ [')'])) rule := by
  intro offset rest _
  obtain ⟨tokens, hscan, hderives, hgroups⟩ := h (offset + 1) rest
  have hopening : Token.ScansAs offset ['('] (chars ++ [')'] ++ rest) _ := .of_fits .leftParen
  have hclosing : Token.ScansAs (offset + 1 + Text.byteLength chars) [')'] rest _ :=
    .of_fits .rightParen
  refine ⟨_, hopening.append (hscan.append hclosing), .group rfl rfl hderives, ?_⟩
  change GroupsWithin _ (_ :: (tokens ++ [_]))
  rw [groupsWithin_group rfl rfl]
  exact ⟨by omega, by simpa using hgroups⟩

theorem SpelledBy.grouped {limit : Nat} {chars : List Char} {rule : Rule}
    (h : SpelledBy (.chain .or) limit chars rule) :
    SpelledBy .term (limit + 1) ('(' :: (chars ++ [')'])) rule :=
  spelledBy_of_closing fun offset rest => h offset (')' :: rest) (Token.endsNumber_closing rest)

theorem toList_text_join (left right : Rule) (connective : Connective) :
    (join left connective right).text.toList = left.operandText.toList
      ++ ' ' :: (connective.text.toList ++ ' ' :: right.operandText.toList) := by
  simp [text]

theorem toList_operandText_join (left right : Rule) (connective : Connective) :
    (join left connective right).operandText.toList
      = '(' :: ((join left connective right).text.toList ++ [')']) := by
  simp [operandText_join]

theorem spelledBy_operandText {rule : Rule} (h : ∀ c ∈ rule.comparisons, c.IsWritable) :
    SpelledBy .term rule.depth rule.operandText.toList rule := by
  induction rule with
  | leaf c => exact spelledBy_comparison (h c (by simp [comparisons]))
  | join left connective right ihLeft ihRight =>
      have hleft := ihLeft fun c hc => h c (List.mem_append_left _ hc)
      have hright := ihRight fun c hc => h c (List.mem_append_right _ hc)
      rw [toList_operandText_join, toList_text_join, depth, Nat.add_comm]
      exact (@SpelledBy.joined connective _ _ _ _ _ _ hleft hright).grouped

theorem spelledBy_text {rule : Rule} (h : ∀ c ∈ rule.comparisons, c.IsWritable) :
    SpelledBy (.chain .or) rule.depth rule.text.toList rule := by
  intro offset rest hrest
  cases rule with
  | leaf c =>
      obtain ⟨tokens, hscan, hderives, hgroups⟩ :=
        spelledBy_comparison (h c (by simp [comparisons])) offset rest hrest
      exact ⟨tokens, hscan, (hderives.operand_of_term .or).chain_of_operand, hgroups⟩
  | join left connective right =>
      have hleft := @spelledBy_operandText left fun c hc => h c (List.mem_append_left _ hc)
      have hright := @spelledBy_operandText right fun c hc => h c (List.mem_append_right _ hc)
      obtain ⟨tokens, hscan, hderives, hgroups⟩ :=
        @SpelledBy.joined connective _ _ _ _ _ _ hleft hright offset rest hrest
      rw [toList_text_join]
      exact ⟨tokens, hscan, hderives, hgroups.mono (by rw [depth]; omega)⟩

/-! ## Compiling -/

theorem compile_eq_ok {text : String} {rule : Rule} :
    compile text = .ok rule ↔ ∃ tokens, Token.scan text = .ok tokens ∧
      ofTokens tokens = .ok rule := by
  unfold compile
  constructor
  · intro h
    cases hscan : Token.scan text with
    | error e => simp [hscan] at h
    | ok tokens =>
        rw [hscan] at h
        dsimp only at h
        split at h
        · cases h
        · rename_i found hread
          cases h
          exact ⟨tokens, rfl, hread⟩
  · rintro ⟨tokens, hscan, hread⟩
    rw [hscan]
    dsimp only
    rw [hread]

theorem inputOf_append_endAt {tokens : List Token} (h : ∀ t ∈ tokens, t.kind ≠ .endOfInput)
    (stop : Nat) : inputOf (tokens ++ [.endAt stop]) = tokens := by
  unfold inputOf
  rw [List.takeWhile_append_of_pos (by simpa using h)]
  simp [Token.endAt]

theorem exists_scan_text {rule : Rule} (h : ∀ c ∈ rule.comparisons, c.IsWritable) :
    ∃ tokens, Token.scan rule.text = .ok tokens ∧ Derives (.chain .or) (inputOf tokens) rule ∧
      GroupsWithin rule.depth (inputOf tokens) := by
  obtain ⟨tokens, hscan, hderives, hgroups⟩ := spelledBy_text h 0 [] Token.endsNumber_nil
  refine ⟨_, hscan.scan_eq, ?_⟩
  rw [inputOf_append_endAt hderives.kind_ne]
  exact ⟨hderives, hgroups⟩

theorem compile_text {rule : Rule} (h : rule.IsRepresentable) : compile rule.text = .ok rule := by
  obtain ⟨tokens, hscan, hderives, hgroups⟩ := exists_scan_text h.writable
  have hdepth : ((rule.depth : Nat) : Int) ≤ maxDepth := by
    have hle := h.depth_le
    omega
  exact compile_eq_ok.mpr
    ⟨tokens, hscan, ofTokens_of_derives hderives (hgroups.mono hdepth) h.depth_le⟩

theorem fits_of_mem_inputOf {text : String} {tokens : List Token}
    (h : Token.scan text = .ok tokens) {t : Token} (ht : t ∈ inputOf tokens) :
    ∃ rest, Token.Fits t.kind t.lexeme.toList t.literal rest := by
  obtain ⟨pieces, rfl, hcuts⟩ := Token.cuts_of_scanFrom h
  obtain ⟨hmem, hkind⟩ := of_mem_inputOf ht
  rcases List.mem_append.mp hmem with hmem | hmem
  · obtain ⟨before, behind, -, -, hfits⟩ := hcuts.placed t hmem
    exact ⟨behind, hfits⟩
  · rw [List.mem_singleton.mp hmem] at hkind
    exact absurd rfl hkind

theorem isRepresentable_of_compile {source : String} {rule : Rule}
    (h : compile source = .ok rule) : rule.IsRepresentable := by
  obtain ⟨tokens, hscan, hread⟩ := compile_eq_ok.mp h
  obtain ⟨hderives, -, hdepth⟩ := derives_of_ofTokens hread
  refine ⟨hdepth, ?_⟩
  intro c hc
  obtain ⟨field, hfield, literal, hliteral, hkind, hkind', hname, hvalue⟩ :=
    hderives.tokens_of_mem_comparisons hc (by rintro _ _ ⟨⟩)
  obtain ⟨_, hfits⟩ := fits_of_mem_inputOf hscan hfield
  obtain ⟨_, hfits'⟩ := fits_of_mem_inputOf hscan hliteral
  obtain ⟨value, hcarried, hwritable⟩ := Token.isWritable_of_fits hfits' hkind'
  have hliteral : c.literal = value := hvalue.unique (Or.inl hcarried)
  rw [hkind, ← hname] at hfits
  generalize field.literal = carried at hfits
  cases hfits with
  | identifier hshape _ hand hor => exact ⟨hshape, hand, hor, by rw [hliteral]; exact hwritable⟩

/-- A rule has its canonical text, or some text at all, if and only if it can be written. So
whatever compiles is printed as a text that compiles to the same rule. -/
theorem compile_text_iff_isRepresentable (rule : Rule) :
    (compile rule.text = .ok rule ↔ rule.IsRepresentable) ∧
    ((∃ source, compile source = .ok rule) ↔ rule.IsRepresentable) ∧
    ∀ source, compile source = .ok rule → compile rule.text = .ok rule := by
  refine ⟨⟨isRepresentable_of_compile, compile_text⟩, ?_, ?_⟩
  · constructor
    · rintro ⟨source, h⟩
      exact isRepresentable_of_compile h
    · intro h
      exact ⟨rule.text, compile_text h⟩
  · intro source h
    exact compile_text (isRepresentable_of_compile h)

/-- The smallest positive number, a name outside of ASCII and a string with a quote survive
printing and compiling. -/
theorem compile_text_smallest_number :
    compile (join (leaf ⟨"size", .less, .number (.signed false (.ofRank 1))⟩) .or
      (leaf ⟨"ö_2", .notEqual, .string "it's"⟩)).text
      = .ok (join (leaf ⟨"size", .less, .number (.signed false (.ofRank 1))⟩) .or
        (leaf ⟨"ö_2", .notEqual, .string "it's"⟩)) := by
  have hsize : Token.IsName "size".toList := .of_all (by decide +kernel)
  have hother : Token.IsName "ö_2".toList := .of_all (by decide +kernel)
  have hleft : Comparison.IsWritable ⟨"size", .less, .number (.signed false (.ofRank 1))⟩ :=
    ⟨hsize, by decide, by decide, show (Magnitude.ofRank 1).isFinite = true by decide +kernel⟩
  have hright : Comparison.IsWritable ⟨"ö_2", .notEqual, .string "it's"⟩ :=
    ⟨hother, by decide, by decide, fun hquotes => absurd hquotes.2 (by decide)⟩
  refine (compile_text_iff_isRepresentable _).1.mpr ⟨by decide, ?_⟩
  intro c hc
  rcases List.mem_cons.mp hc with rfl | hc
  · exact hleft
  · rw [List.mem_singleton.mp hc]
    exact hright

end Rule

end ComparisonRules
