import ComparisonRules.Proofs.Number.Reading

/-!
# Shapes of tokens

What a token of each kind looks like, and what may follow it: a token that could be longer is
not one. The piece that the scanner takes at a character is the only one of such a shape.
-/

namespace ComparisonRules

namespace Connective

/-- The word of a connective in any ASCII case. -/
def IsSpelling (connective : Connective) (word : String) : Prop :=
  word.toList.map Char.toLower = connective.text.toList.map Char.toLower

instance (connective : Connective) (word : String) : Decidable (connective.IsSpelling word) :=
  decEq (word.toList.map Char.toLower) (connective.text.toList.map Char.toLower)

theorem isSpelling_text (connective : Connective) : connective.IsSpelling connective.text := rfl

theorem IsSpelling.ofWord? {connective : Connective} {word : String}
    (h : connective.IsSpelling word) : Connective.ofWord? word = some connective := by
  unfold IsSpelling at h
  unfold Connective.ofWord?
  rw [h]
  cases connective <;> rfl

theorem isSpelling_of_ofWord? {connective : Connective} {word : String}
    (h : ofWord? word = some connective) : connective.IsSpelling word := by
  unfold ofWord? at h
  split at h
  · rename_i hword
    cases h
    exact hword
  · rename_i hword
    cases h
    exact hword
  · cases h

end Connective

namespace Token

/-- A letter or an underscore, with letters, numbers and underscores behind it. -/
def IsName (chars : List Char) : Prop :=
  ∃ first more, chars = first :: more ∧ isNameStart first = true ∧
    ∀ c ∈ more, isNamePart c = true

theorem IsName.of_all {first : Char} {more : List Char}
    (h : (isNameStart first && more.all isNamePart) = true) : IsName (first :: more) := by
  rw [Bool.and_eq_true, List.all_eq_true] at h
  exact ⟨first, more, rfl, h⟩

/-- The characters, with what follows them in the text, make up a token of the kind that
carries the literal. -/
inductive Fits : Kind → List Char → Option Value → List Char → Prop where
  | leftParen {rest : List Char} : Fits .leftParen ['('] none rest
  | rightParen {rest : List Char} : Fits .rightParen [')'] none rest
  | comparator {comparator : Comparator} {rest : List Char} :
      (comparator = .less ∨ comparator = .greater → rest.head? ≠ some '=') →
      Fits (.comparator comparator) comparator.symbol.toList none rest
  | and {chars rest : List Char} :
      IsName chars → Text.StopsAt isNamePart rest →
      chars.map Char.toLower = ['a', 'n', 'd'] → Fits (.connective .and) chars none rest
  | or {chars rest : List Char} :
      IsName chars → Text.StopsAt isNamePart rest →
      chars.map Char.toLower = ['o', 'r'] → Fits (.connective .or) chars none rest
  | identifier {chars rest : List Char} :
      IsName chars → Text.StopsAt isNamePart rest →
      chars.map Char.toLower ≠ ['a', 'n', 'd'] → chars.map Char.toLower ≠ ['o', 'r'] →
      Fits .identifier chars none rest
  | number {chars rest : List Char} {n : Number} :
      Decimal.IsPlain chars →
      (∀ more behind, rest = more ++ behind → Decimal.IsPlain (chars ++ more) → more = []) →
      Number.ofText? (String.ofList chars) = some n → n.isFinite = true →
      Fits .number chars (some (.number n)) rest
  | string {quote : Char} {body rest : List Char} :
      quote = Text.singleQuote ∨ quote = Text.doubleQuote → quote ∉ body →
      Fits .string (quote :: (body ++ [quote])) (some (.string (String.ofList body))) rest

/-! ## First characters -/

theorem IsName.exists_head {chars : List Char} (h : IsName chars) :
    ∃ c cs, chars = c :: cs ∧ Text.isBlank c = false := by
  obtain ⟨first, more, rfl, hfirst, -⟩ := h
  exact ⟨first, more, rfl, isBlank_of_isNamePart (isNamePart_of_isNameStart hfirst)⟩

theorem Fits.exists_head {kind : Kind} {chars rest : List Char} {literal : Option Value}
    (h : Fits kind chars literal rest) : ∃ c cs, chars = c :: cs ∧ Text.isBlank c = false := by
  cases h with
  | leftParen => exact ⟨_, _, rfl, by decide⟩
  | rightParen => exact ⟨_, _, rfl, by decide⟩
  | @comparator comparator _ _ => cases comparator <;> exact ⟨_, _, rfl, by decide⟩
  | and hname _ _ => exact hname.exists_head
  | or hname _ _ => exact hname.exists_head
  | identifier hname _ _ _ => exact hname.exists_head
  | number hplain _ _ _ =>
      obtain ⟨d, cs, rfl, hdigit⟩ := hplain.exists_head
      exact ⟨d, cs, rfl, isBlank_of_isDigit hdigit⟩
  | string hquote _ => rcases hquote with rfl | rfl <;> exact ⟨_, _, rfl, by decide⟩

theorem Fits.ne_nil {kind : Kind} {chars rest : List Char} {literal : Option Value}
    (h : Fits kind chars literal rest) : chars ≠ [] := by
  obtain ⟨c, cs, rfl, -⟩ := h.exists_head
  exact List.cons_ne_nil _ _

theorem Fits.kind_ne {kind : Kind} {chars rest : List Char} {literal : Option Value}
    (h : Fits kind chars literal rest) : kind ≠ .endOfInput := by
  cases h <;> simp

theorem Fits.isSome_literal {kind : Kind} {chars rest : List Char} {literal : Option Value}
    (h : Fits kind chars literal rest) : literal.isSome = kind.isLiteral := by
  cases h <;> rfl

theorem ne_of_isNameStart {c : Char} (h : isNameStart c = true) :
    c ≠ '(' ∧ c ≠ ')' ∧ isQuote c = false ∧ c.isDigit = false := by
  have hcode : ¬ c.toNat < 0x41 := by
    intro hlt
    simp [isNameStart_of_lt hlt] at h
  refine ⟨?_, ?_, ?_, ?_⟩
  · rintro rfl
    exact hcode (by decide)
  · rintro rfl
    exact hcode (by decide)
  · unfold isQuote
    rw [Bool.or_eq_false_iff, beq_eq_false_iff_ne, beq_eq_false_iff_ne]
    constructor <;> rintro rfl <;> exact hcode (by decide)
  · rw [Bool.eq_false_iff]
    intro hdigit
    have hhigh := (toNat_of_isDigit hdigit).2
    omega

theorem ne_of_isDigit {c : Char} (h : c.isDigit = true) :
    c ≠ '(' ∧ c ≠ ')' ∧ isQuote c = false := by
  refine ⟨?_, ?_, ?_⟩
  · rintro rfl
    simp at h
  · rintro rfl
    simp at h
  · unfold isQuote
    rw [Bool.or_eq_false_iff, beq_eq_false_iff_ne, beq_eq_false_iff_ne]
    constructor <;> rintro rfl <;> exact absurd h (by decide)

/-! ## Numbers -/

theorem prefix_numberChars {chars : List Char} (h : Decimal.IsPlain chars)
    (rest : List Char) :
    ∃ more, numberChars (chars ++ rest) = chars ++ more := by
  cases h with
  | whole _ hdigits =>
      unfold numberChars Decimal.splitDigits
      rw [List.takeWhile_append_of_pos hdigits]
      dsimp only
      split
      · exact ⟨_, rfl⟩
      · exact ⟨_, List.append_assoc _ _ _⟩
  | @pointed whole fraction _ hwhole hne hfraction =>
      unfold numberChars
      rw [List.append_assoc, List.cons_append, Decimal.splitDigits_pointed hwhole]
      have htake : fractionOf ('.' :: (fraction ++ rest))
          = fraction ++ rest.takeWhile Char.isDigit := by
        simp [fractionOf, Decimal.splitDigits, List.takeWhile_append_of_pos hfraction]
      dsimp only
      rw [htake, if_neg (by simp [hne])]
      exact ⟨rest.takeWhile Char.isDigit, by simp⟩

theorem numberChars_spec {c : Char} (hdigit : c.isDigit = true) (rest : List Char) :
    Decimal.IsPlain (numberChars (c :: rest)) ∧
      (∃ behind, c :: rest = numberChars (c :: rest) ++ behind) ∧
      Number.ofText? (String.ofList (numberChars (c :: rest)))
        = some (.signed false (numberMagnitude (c :: rest))) := by
  have hsplit := Decimal.splitDigits_append (c :: rest)
  have hwhole : ∀ d ∈ (Decimal.splitDigits (c :: rest)).1, d.isDigit = true :=
    fun d hd => Text.of_mem_takeWhile hd
  have hne : (Decimal.splitDigits (c :: rest)).1 ≠ [] := by
    simp [Decimal.splitDigits, hdigit]
  unfold numberChars numberMagnitude
  generalize Decimal.splitDigits (c :: rest) = parts at hsplit hwhole hne
  obtain ⟨whole, tail⟩ := parts
  dsimp only at hsplit hwhole hne ⊢
  split
  · rename_i hempty
    rw [List.isEmpty_iff.mp hempty]
    exact ⟨.whole hne hwhole, ⟨tail, hsplit.symm⟩, Number.ofText?_whole hne hwhole⟩
  · rename_i hempty
    have hfractionNe : fractionOf tail ≠ [] := by simpa using hempty
    cases tail with
    | nil => exact absurd rfl hfractionNe
    | cons point behind =>
        by_cases hpoint : point = '.'
        · subst hpoint
          have hfraction : ∀ d ∈ fractionOf ('.' :: behind), d.isDigit = true :=
            fun d hd => Text.of_mem_takeWhile hd
          refine ⟨.pointed hne hwhole hfractionNe hfraction,
            ⟨behind.dropWhile Char.isDigit, ?_⟩, Number.ofText?_pointed hne hwhole hfraction⟩
          rw [← hsplit]
          simp [fractionOf, Decimal.splitDigits]
        · exact absurd (by simp [fractionOf, hpoint]) hfractionNe

theorem numberChars_of_isPlain {chars rest : List Char} (h : Decimal.IsPlain chars)
    (hlongest : ∀ more behind, rest = more ++ behind →
      Decimal.IsPlain (chars ++ more) → more = []) :
    numberChars (chars ++ rest) = chars := by
  obtain ⟨more, hmore⟩ := prefix_numberChars h rest
  obtain ⟨d, cs, rfl, hdigit⟩ := h.exists_head
  rw [List.cons_append] at hmore
  obtain ⟨hplain, ⟨behind, heq⟩, -⟩ := numberChars_spec hdigit (cs ++ rest)
  rw [hmore] at hplain heq
  rw [List.append_assoc, ← List.cons_append] at heq
  have hrest := List.append_cancel_left heq
  rw [List.cons_append, hmore, hlongest more behind hrest hplain, List.append_nil]

/-! ## Words -/

theorem ofWord?_ofList {chars : List Char} {connective : Connective} :
    Connective.ofWord? (String.ofList chars) = some connective ↔
      (connective = .and ∧ chars.map Char.toLower = ['a', 'n', 'd']) ∨
        (connective = .or ∧ chars.map Char.toLower = ['o', 'r']) := by
  unfold Connective.ofWord?
  rw [String.toList_ofList]
  split
  · rename_i hand
    simp [hand, eq_comm]
  · rename_i hor
    simp [hor, eq_comm]
  · rename_i hand hor
    constructor
    · intro h
      cases h
    · rintro (⟨-, h⟩ | ⟨-, h⟩)
      · exact absurd h hand
      · exact absurd h hor

theorem ofWord?_ofList_eq_none {chars : List Char} :
    Connective.ofWord? (String.ofList chars) = none ↔
      chars.map Char.toLower ≠ ['a', 'n', 'd'] ∧ chars.map Char.toLower ≠ ['o', 'r'] := by
  rw [Option.eq_none_iff_forall_ne_some]
  constructor
  · intro h
    exact ⟨fun hand => h .and (ofWord?_ofList.mpr (.inl ⟨rfl, hand⟩)),
      fun hor => h .or (ofWord?_ofList.mpr (.inr ⟨rfl, hor⟩))⟩
  · rintro ⟨hand, hor⟩ connective h
    rcases ofWord?_ofList.mp h with ⟨-, h⟩ | ⟨-, h⟩
    · exact hand h
    · exact hor h

@[simp] theorem wordPiece_chars (chars : List Char) : (wordPiece chars).chars = chars := by
  unfold wordPiece
  split <;> rfl

theorem fits_wordPiece {chars rest : List Char} (hname : IsName chars)
    (hrest : Text.StopsAt isNamePart rest) :
    Fits (wordPiece chars).kind chars (wordPiece chars).literal rest := by
  unfold wordPiece
  split
  · rename_i connective hword
    rcases ofWord?_ofList.mp hword with ⟨rfl, hand⟩ | ⟨rfl, hor⟩
    · exact .and hname hrest hand
    · exact .or hname hrest hor
  · rename_i hword
    obtain ⟨hand, hor⟩ := ofWord?_ofList_eq_none.mp hword
    exact .identifier hname hrest hand hor

theorem isNameStart_of_isLower_toLower {c : Char} (h : c.toLower.isLower = true) :
    isNameStart c = true := by
  have hall : ∀ n < 128, (Char.ofNat n).toLower.isLower = true →
      isNameStart (Char.ofNat n) = true := by decide
  have hcode : c.toNat < 128 := by
    unfold Char.toLower at h
    split at h
    · rename_i hupper
      have hle : c.toNat ≤ 90 := hupper.2
      omega
    · have hle : c.toNat ≤ 122 := of_decide_eq_true (Bool.and_eq_true_iff.mp h).2
      omega
  have hc := hall c.toNat hcode
  rw [Char.ofNat_toNat] at hc
  exact hc h

theorem fits_of_isSpelling {connective : Connective} {chars rest : List Char}
    (h : connective.IsSpelling (String.ofList chars)) (hrest : Text.StopsAt isNamePart rest) :
    Fits (.connective connective) chars none rest := by
  unfold Connective.IsSpelling at h
  rw [String.toList_ofList] at h
  have hletters : ∀ c ∈ chars, isNameStart c = true := by
    intro c hc
    apply isNameStart_of_isLower_toLower
    have hmem : c.toLower ∈ connective.text.toList.map Char.toLower := by
      rw [← h]
      exact List.mem_map_of_mem hc
    have hlower : (connective.text.toList.map Char.toLower).all Char.isLower = true := by
      cases connective <;> decide
    exact List.all_eq_true.mp hlower _ hmem
  have hname : IsName chars := by
    cases chars with
    | nil => cases connective <;> cases h
    | cons first more =>
        obtain ⟨hfirst, hmore⟩ := List.forall_mem_cons.mp hletters
        exact ⟨first, more, rfl, hfirst, fun c hc => isNamePart_of_isNameStart (hmore c hc)⟩
  cases connective with
  | and => exact .and hname hrest h
  | or => exact .or hname hrest h

/-! ## The piece at a character -/

theorem exists_of_length_takeWhile_lt {quote : Char} {rest : List Char}
    (h : (rest.takeWhile fun d => d != quote).length < rest.length) :
    ∃ behind, rest = rest.takeWhile (fun d => d != quote) ++ quote :: behind := by
  have happend := List.takeWhile_append_dropWhile (p := fun d => d != quote) (l := rest)
  cases hdrop : rest.dropWhile fun d => d != quote with
  | nil =>
      rw [hdrop, List.append_nil] at happend
      rw [happend] at h
      exact absurd h (Nat.lt_irrefl _)
  | cons d behind =>
      have hstop : (d != quote) = false :=
        Text.stopsAt_dropWhile (fun d => d != quote) rest d (by rw [hdrop]; rfl)
      rw [hdrop] at happend
      have hd : d = quote := by simpa using hstop
      subst hd
      exact ⟨behind, happend.symm⟩

theorem comparatorAt?_eq_some {c : Char} {rest : List Char} {comparator : Comparator}
    (h : comparatorAt? c rest = some comparator) :
    ∃ behind, c :: rest = comparator.symbol.toList ++ behind ∧
      (comparator = .less ∨ comparator = .greater → behind.head? ≠ some '=') := by
  unfold comparatorAt? at h
  split at h
  · rename_i hnext
    obtain ⟨behind, rfl⟩ : ∃ behind, rest = '=' :: behind := by
      cases rest with
      | nil => cases hnext
      | cons d behind => cases hnext; exact ⟨behind, rfl⟩
    split at h <;> cases h <;> exact ⟨behind, rfl, by simp⟩
  · rename_i hnext
    split at h <;> cases h <;> exact ⟨rest, rfl, fun _ => hnext⟩

/-- What the scanner takes stands at the start of the text and has the shape of a token. -/
theorem fits_of_pieceAt {offset : Nat} {c : Char} {rest : List Char} {piece : Piece}
    (h : pieceAt offset c rest = .ok piece) :
    ∃ behind, c :: rest = piece.chars ++ behind ∧
      Fits piece.kind piece.chars piece.literal behind := by
  unfold pieceAt at h
  split at h
  case isTrue hparen =>
    cases h
    exact ⟨rest, rfl, hparen ▸ .leftParen⟩
  split at h
  case isTrue hparen =>
    cases h
    exact ⟨rest, rfl, hparen ▸ .rightParen⟩
  split at h
  case isTrue hquote =>
    dsimp only at h
    split at h
    case isFalse => cases h
    rename_i hclosed
    cases h
    obtain ⟨behind, hrest⟩ := exists_of_length_takeWhile_lt hclosed
    refine ⟨behind, ?_, .string ?_ ?_⟩
    · change c :: rest = c :: ((_ ++ [c]) ++ behind)
      rw [List.append_assoc, List.singleton_append, ← hrest]
    · simpa [isQuote] using hquote
    · intro hmem
      simpa using Text.of_mem_takeWhile hmem
  split at h
  case isTrue hdigit =>
    dsimp only at h
    split at h
    case isFalse => cases h
    rename_i hfinite
    cases h
    obtain ⟨hplain, ⟨behind, heq⟩, hvalue⟩ := numberChars_spec hdigit rest
    refine ⟨behind, heq, .number hplain ?_ hvalue hfinite⟩
    rintro more behind' rfl hlonger
    obtain ⟨other, hother⟩ := prefix_numberChars hlonger behind'
    rw [List.append_assoc, ← heq] at hother
    have hlength := congrArg List.length hother
    simp only [List.length_append] at hlength
    exact List.eq_nil_of_length_eq_zero (by omega)
  split at h
  case isTrue hstart =>
    cases h
    refine ⟨rest.dropWhile isNamePart, ?_, ?_⟩
    · rw [wordPiece_chars, List.cons_append, List.takeWhile_append_dropWhile]
    · rw [wordPiece_chars]
      exact fits_wordPiece ⟨c, _, rfl, hstart, fun d hd => Text.of_mem_takeWhile hd⟩
        (Text.stopsAt_dropWhile _ _)
  split at h
  case h_2 => cases h
  rename_i comparator hcomparator
  cases h
  obtain ⟨behind, heq, hnext⟩ := comparatorAt?_eq_some hcomparator
  exact ⟨behind, heq, .comparator hnext⟩

theorem pieceAt_of_isNameStart {offset : Nat} {c : Char} {rest : List Char}
    (h : isNameStart c = true) :
    pieceAt offset c rest = .ok (wordPiece (c :: rest.takeWhile isNamePart)) := by
  obtain ⟨hleft, hright, hquote, hdigit⟩ := ne_of_isNameStart h
  simp [pieceAt, hleft, hright, hquote, hdigit, h]

theorem pieceAt_of_isName {offset : Nat} {c : Char} {cs rest : List Char}
    (hname : IsName (c :: cs)) (hrest : Text.StopsAt isNamePart rest) :
    pieceAt offset c (cs ++ rest) = .ok (wordPiece (c :: cs)) := by
  obtain ⟨first, more, heq, hfirst, hmore⟩ := hname
  cases heq
  rw [pieceAt_of_isNameStart hfirst, Text.takeWhile_append_of_stopsAt hmore hrest]

/-- The characters that start a comparator start nothing else. -/
def StartsComparator (c : Char) : Prop :=
  c = '=' ∨ c = '!' ∨ c = '<' ∨ c = '>'

theorem pieceAt_of_comparatorAt? {offset : Nat} {c : Char} {rest : List Char}
    {comparator : Comparator} (h : StartsComparator c)
    (hfound : comparatorAt? c rest = some comparator) :
    pieceAt offset c rest
      = .ok ⟨.comparator comparator, comparator.symbol.toList, none⟩ := by
  have hname : isNameStart c = false :=
    isNameStart_of_lt (by rcases h with rfl | rfl | rfl | rfl <;> decide)
  have hother : c ≠ '(' ∧ c ≠ ')' ∧ ¬ isQuote c = true ∧ ¬ c.isDigit = true := by
    rcases h with rfl | rfl | rfl | rfl <;> decide
  unfold pieceAt
  rw [if_neg hother.1, if_neg hother.2.1, if_neg hother.2.2.1, if_neg hother.2.2.2, hname,
    if_neg Bool.false_ne_true, hfound]

theorem comparatorAt?_of_symbol {comparator : Comparator} {c : Char} {cs rest : List Char}
    (hnext : comparator = .less ∨ comparator = .greater → rest.head? ≠ some '=')
    (hsymbol : comparator.symbol.toList = c :: cs) :
    StartsComparator c ∧ comparatorAt? c (cs ++ rest) = some comparator := by
  unfold comparatorAt?
  cases comparator with
  | greater =>
      cases hsymbol
      exact ⟨.inr (.inr (.inr rfl)), if_neg (hnext (.inr rfl))⟩
  | less =>
      cases hsymbol
      exact ⟨.inr (.inr (.inl rfl)), if_neg (hnext (.inl rfl))⟩
  | greaterOrEqual => cases hsymbol; exact ⟨.inr (.inr (.inr rfl)), rfl⟩
  | lessOrEqual => cases hsymbol; exact ⟨.inr (.inr (.inl rfl)), rfl⟩
  | equal => cases hsymbol; exact ⟨.inl rfl, rfl⟩
  | notEqual => cases hsymbol; exact ⟨.inr (.inl rfl), rfl⟩

/-- Whatever stands at the start of the text and has the shape of a token is taken. -/
theorem pieceAt_of_fits {offset : Nat} {kind : Kind} {c : Char} {cs rest : List Char}
    {literal : Option Value} (h : Fits kind (c :: cs) literal rest) :
    pieceAt offset c (cs ++ rest) = .ok ⟨kind, c :: cs, literal⟩ := by
  generalize hchars : c :: cs = chars at h
  cases h with
  | leftParen =>
      cases hchars
      rfl
  | rightParen =>
      cases hchars
      rfl
  | @comparator comparator _ hnext =>
      rw [← hchars]
      obtain ⟨hother, hfound⟩ := comparatorAt?_of_symbol hnext hchars.symm
      rw [pieceAt_of_comparatorAt? hother hfound, ← hchars]
  | and hname hrest hand =>
      subst hchars
      rw [pieceAt_of_isName hname hrest, wordPiece, ofWord?_ofList.mpr (.inl ⟨rfl, hand⟩)]
  | or hname hrest hor =>
      subst hchars
      rw [pieceAt_of_isName hname hrest, wordPiece, ofWord?_ofList.mpr (.inr ⟨rfl, hor⟩)]
  | identifier hname hrest hand hor =>
      subst hchars
      rw [pieceAt_of_isName hname hrest, wordPiece, ofWord?_ofList_eq_none.mpr ⟨hand, hor⟩]
  | @number _ _ n hplain hlongest hvalue hfinite =>
      subst hchars
      have hchars := numberChars_of_isPlain hplain hlongest
      obtain ⟨d, ds, heq, hdigit⟩ := hplain.exists_head
      cases heq
      obtain ⟨hleft, hright, hquote⟩ := ne_of_isDigit hdigit
      obtain ⟨-, -, hmagnitude⟩ := numberChars_spec hdigit (cs ++ rest)
      rw [List.cons_append] at hchars
      rw [hchars, hvalue] at hmagnitude
      cases hmagnitude
      have hfinite : (numberMagnitude (c :: (cs ++ rest))).isFinite = true := hfinite
      simp [pieceAt, hleft, hright, hquote, hdigit, hfinite, hchars]
  | @string quote body _ hquote hbody =>
      cases hchars
      have htake : ((body ++ [c]) ++ rest).takeWhile (fun d => d != c) = body := by
        rw [List.append_assoc]
        refine Text.takeWhile_append_of_stopsAt (fun d hd => ?_)
          (Text.stopsAt_cons (by simp))
        rw [bne_iff_ne]
        rintro rfl
        exact hbody hd
      have hparens : c ≠ '(' ∧ c ≠ ')' := by
        rcases hquote with rfl | rfl <;> decide
      have hisQuote : isQuote c = true := by
        rcases hquote with rfl | rfl <;> decide
      unfold pieceAt
      rw [if_neg hparens.1, if_neg hparens.2, if_pos hisQuote, htake]
      dsimp only
      rw [if_pos (by simp)]
      rfl

end Token

end ComparisonRules
