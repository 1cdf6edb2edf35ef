import Mathlib.Data.List.Basic
import ComparisonRules.Proofs.Token.Moved

/-!
# Where scanning stops

A text that cannot be cut is refused at the first character that is not white space and starts no
token. What stands in front of it is cut on its own into the tokens that were taken before: a
token that cannot be longer in a text cannot be longer where the text breaks off.
-/

namespace ComparisonRules

namespace Decimal

/-- A plain numeral in a text that goes on neither in front of the characters nor behind them. -/
structure IsWholeNumeral (before chars behind : List Char) : Prop where
  plain : IsPlain chars
  longest : ∀ front more later after, before = front ++ more → behind = later ++ after →
    IsPlain (more ++ (chars ++ later)) → more = [] ∧ later = []

/-- No numeral has the last character of the text in it. -/
def EndsNoNumeral (chars : List Char) : Prop :=
  ∀ c ∈ chars.getLast?, c.isDigit = false ∧ c ≠ '.'

theorem IsPlain.append_digit {chars : List Char} {d : Char} (h : IsPlain chars)
    (hdigit : d.isDigit = true) : IsPlain (chars ++ [d]) := by
  have hlast (digits : List Char) (hdigits : ∀ c ∈ digits, c.isDigit = true) :
      ∀ c ∈ digits ++ [d], c.isDigit = true :=
    List.forall_mem_append.mpr ⟨hdigits, List.forall_mem_singleton.mpr hdigit⟩
  cases h with
  | whole _ hdigits => exact .whole (by simp) (hlast _ hdigits)
  | pointed hne hwhole _ hfraction =>
      rw [List.append_assoc, List.cons_append]
      exact .pointed hne hwhole (by simp) (hlast _ hfraction)

theorem EndsNoNumeral.eq_nil {before front more chars : List Char} (h : EndsNoNumeral before)
    (heq : before = front ++ more) (hplain : IsPlain (more ++ chars)) : more = [] := by
  rcases List.eq_nil_or_concat more with hnil | ⟨most, c, hmore⟩
  · exact hnil
  · rw [List.concat_eq_append] at hmore
    obtain ⟨hdigit, hpoint⟩ := h c (by rw [heq, hmore]; simp)
    rcases hplain.isDigit_or_eq c (by rw [hmore]; simp) with hc | hc
    · simp [hdigit] at hc
    · exact absurd hc hpoint

theorem EndsNoNumeral.append {front back : List Char} (hfront : back = [] → EndsNoNumeral front)
    (hback : EndsNoNumeral back) : EndsNoNumeral (front ++ back) := by
  intro c hc
  rw [List.getLast?_append] at hc
  cases hlast : back.getLast? with
  | none =>
      rw [hlast, Option.none_or] at hc
      exact hfront (List.getLast?_eq_none_iff.mp hlast) c hc
  | some d =>
      rw [hlast, Option.some_or] at hc
      exact hback c (hlast.trans hc)

end Decimal

theorem Magnitude.eq_infinite {m : Magnitude} (h : ¬ m.isFinite = true) : m = infinite := by
  obtain ⟨rank, hle⟩ := m
  have hrank : rank = infiniteRank := by
    simp only [isFinite, decide_eq_true_eq] at h
    omega
  subst hrank
  simp [infinite, ofRank]

namespace Token

/-! ## Tokens in front of less text -/

section

variable {kind : Kind} {chars behind rest : List Char} {literal : Option Value}

theorem Fits.of_append (h : Fits kind chars literal (behind ++ rest)) :
    Fits kind chars literal behind := by
  have hhead (c : Char) (hc : behind.head? = some c) : (behind ++ rest).head? = some c := by
    rw [List.head?_append, hc, Option.some_or]
  cases h with
  | leftParen => exact .leftParen
  | rightParen => exact .rightParen
  | comparator hnext => exact .comparator fun hshort hequal => hnext hshort (hhead _ hequal)
  | and hname hstops hand => exact .and hname (fun c hc => hstops c (hhead c hc)) hand
  | or hname hstops hor => exact .or hname (fun c hc => hstops c (hhead c hc)) hor
  | identifier hname hstops hand hor =>
      exact .identifier hname (fun c hc => hstops c (hhead c hc)) hand hor
  | number hplain hlongest hvalue hfinite =>
      refine .number hplain ?_ hvalue hfinite
      intro more after heq hlonger
      exact hlongest more (after ++ rest) (by rw [heq, List.append_assoc]) hlonger
  | string hquote hbody => exact .string hquote hbody

theorem isNamePart_of_isDigit {c : Char} (h : c.isDigit = true) : isNamePart c = true := by
  obtain ⟨hlow, hhigh⟩ := toNat_of_isDigit h
  unfold isNamePart Text.isAlphanumeric Text.numericRanges Text.Ranges.contains
  rw [decide_eq_true hlow, decide_eq_true hhigh, Bool.true_or, Bool.true_and, Bool.or_true,
    Bool.or_true]

theorem Fits.endsNoNumeral {d : Char} (h : Fits kind chars literal (d :: rest))
    (hdigit : d.isDigit = true) : Decimal.EndsNoNumeral chars := by
  have hname (hstops : Text.StopsAt isNamePart (d :: rest)) : False := by
    simpa [isNamePart_of_isDigit hdigit] using hstops d rfl
  intro c hc
  cases h with
  | leftParen => cases hc; decide
  | rightParen => cases hc; decide
  | @comparator comparator _ _ => cases comparator <;> cases hc <;> decide
  | and _ hstops _ => exact (hname hstops).elim
  | or _ hstops _ => exact (hname hstops).elim
  | identifier _ hstops _ _ => exact (hname hstops).elim
  | number hplain hlongest _ _ =>
      have hnil := hlongest [d] rest rfl (hplain.append_digit hdigit)
      cases hnil
  | @string quote body _ hquote _ =>
      rw [← List.cons_append, List.getLast?_concat] at hc
      cases hc
      rcases hquote with rfl | rfl <;> decide

end

/-! ## The way to the error -/

/-- The scanner takes tokens from the start of a text, one behind the other, and stands in front of
what is left of it. -/
inductive Advances : Nat → List Char → List Token → Nat → List Char → Prop where
  | stop {offset : Nat} {text : List Char} : Advances offset text [] offset text
  | blank {offset stop : Nat} {c : Char} {rest left : List Char} {tokens : List Token} :
      Text.isBlank c = true → Advances (offset + c.utf8Size) rest tokens stop left →
      Advances offset (c :: rest) tokens stop left
  | token {offset stop : Nat} {c : Char} {rest left : List Char} {piece : Piece}
      {tokens : List Token} :
      Text.isBlank c = false → pieceAt offset c rest = .ok piece →
      Advances (offset + Text.byteLength piece.chars) (rest.drop (piece.chars.length - 1)) tokens
        stop left →
      Advances offset (c :: rest) (piece.placedAt offset :: tokens) stop left

theorem advances_of_scanFrom {offset : Nat} {text : List Char} {e : LexError}
    (h : scanFrom offset text = .error e) :
    ∃ tokens stop c rest, Advances offset text tokens stop (c :: rest) ∧
      Text.isBlank c = false ∧ pieceAt stop c rest = .error e := by
  fun_induction scanFrom offset text with
  | case1 offset => cases h
  | case2 offset c rest hblank ih =>
      obtain ⟨tokens, stop, d, left, hadvances, hd, herror⟩ := ih h
      exact ⟨tokens, stop, d, left, .blank hblank hadvances, hd, herror⟩
  | case3 offset c rest hblank e' hpiece =>
      cases h
      exact ⟨[], offset, c, rest, .stop, Bool.eq_false_iff.mpr hblank, hpiece⟩
  | case4 offset c rest hblank piece hpiece e' hrest ih =>
      cases h
      obtain ⟨tokens, stop, d, left, hadvances, hd, herror⟩ := ih hrest
      exact ⟨_, stop, d, left, .token (Bool.eq_false_iff.mpr hblank) hpiece hadvances, hd, herror⟩
  | case5 offset c rest hblank piece hpiece tokens hrest ih => cases h

theorem Advances.exists_before {offset stop : Nat} {text left : List Char}
    {tokens : List Token} (h : Advances offset text tokens stop left) :
    ∃ before, text = before ++ left ∧ stop = offset + Text.byteLength before ∧
      scanFrom offset before = .ok (tokens ++ [endAt stop]) ∧
      ∀ d rest, left = d :: rest → d.isDigit = true → Decimal.EndsNoNumeral before := by
  induction h with
  | stop =>
      refine ⟨[], rfl, rfl, ?_, fun _ _ _ _ c hc => by cases hc⟩
      rw [scanFrom]
      rfl
  | @blank _ _ c _ left _ hblank _ ih =>
      obtain ⟨before, rfl, rfl, hscan, hends⟩ := ih
      refine ⟨c :: before, rfl, ?_, ?_, ?_⟩
      · rw [Text.byteLength_cons, Nat.add_assoc]
      · rw [scanFrom_blank hblank, hscan]
      · intro d rest hleft hdigit
        have hc := endsToken_of_isBlank hblank
        have hfirst : Decimal.EndsNoNumeral [c] := fun e he => by
          cases he
          exact ⟨hc.digit, hc.point⟩
        exact .append (fun _ => hfirst) (hends d rest hleft hdigit)
  | @token _ _ _ _ left piece _ _ hpiece _ ih =>
      obtain ⟨before, heq, rfl, hscan, hends⟩ := ih
      obtain ⟨htext, hfits⟩ := fits_drop_of_pieceAt hpiece
      rw [heq] at htext hfits
      refine ⟨piece.chars ++ before, ?_, ?_, ?_, ?_⟩
      · rw [htext, List.append_assoc]
      · rw [Text.byteLength_append, Nat.add_assoc]
      · rw [scanFrom_append_of_fits hfits.of_append, hscan]
        rfl
      · rintro d rest rfl hdigit
        refine .append ?_ (hends d rest rfl hdigit)
        rintro rfl
        exact hfits.endsNoNumeral hdigit

/-! ## The reasons -/

/-- Why no token starts at a character, with what stands in front of it and behind it. -/
inductive Refuses (before : List Char) (c : Char) (rest : List Char) : LexError → Prop where
  | unexpectedChar :
      c ∉ ['(', ')', '<', '>', Text.singleQuote, Text.doubleQuote, '!', '='] →
      Text.isBlank c = false → c.isDigit = false → Text.isAlphabetic c = false → c ≠ '_' →
      Refuses before c rest (.unexpectedChar (Text.byteLength before) c)
  | loneSign :
      c = '!' ∨ c = '=' → rest.head? ≠ some '=' →
      Refuses before c rest (.unexpectedChar (Text.byteLength before) c)
  | unterminatedString :
      c = Text.singleQuote ∨ c = Text.doubleQuote → c ∉ rest →
      Refuses before c rest (.unterminatedString (Text.byteLength before))
  | numberTooLarge {chars behind : List Char} :
      c :: rest = chars ++ behind → Decimal.IsWholeNumeral before chars behind →
      Number.ofText? (String.ofList chars) = some (.signed false .infinite) →
      Refuses before c rest
        (.numberTooLarge (Text.byteLength before) (Text.byteLength chars))

theorem notMem_of_length_takeWhile {quote : Char} {rest : List Char}
    (h : ¬ (rest.takeWhile fun d => d != quote).length < rest.length) : quote ∉ rest := by
  intro hmem
  have happend := List.takeWhile_append_dropWhile (p := fun d => d != quote) (l := rest)
  have hnil : rest.dropWhile (fun d => d != quote) = [] := by
    have hlength := congrArg List.length happend
    rw [List.length_append] at hlength
    exact List.eq_nil_of_length_eq_zero (by omega)
  rw [hnil, List.append_nil] at happend
  rw [← happend] at hmem
  simpa using Text.of_mem_takeWhile hmem

theorem isWholeNumeral_numberChars {before rest : List Char} {c : Char}
    (hdigit : c.isDigit = true) (hends : Decimal.EndsNoNumeral before) :
    ∃ behind, c :: rest = numberChars (c :: rest) ++ behind ∧
      Decimal.IsWholeNumeral before (numberChars (c :: rest)) behind := by
  obtain ⟨hplain, ⟨behind, heq⟩, -⟩ := numberChars_spec hdigit rest
  refine ⟨behind, heq, hplain, ?_⟩
  rintro front more later after hbefore rfl hlonger
  have hmore : more = [] := hends.eq_nil hbefore hlonger
  subst hmore
  refine ⟨rfl, ?_⟩
  obtain ⟨past, hpast⟩ := prefix_numberChars hlonger after
  rw [List.nil_append, List.append_assoc, ← heq] at hpast
  have hlength := congrArg List.length hpast
  simp only [List.length_append] at hlength
  exact List.eq_nil_of_length_eq_zero (by omega)

theorem comparatorAt?_eq_none {c : Char} {rest : List Char} (h : comparatorAt? c rest = none) :
    c ≠ '<' ∧ c ≠ '>' ∧ (c = '!' ∨ c = '=' → rest.head? ≠ some '=') := by
  unfold comparatorAt? at h
  split at h
  · split at h <;> simp_all
  · rename_i hnext
    split at h <;> simp_all

theorem refuses_of_pieceAt {before rest : List Char} {c : Char} {e : LexError}
    (h : pieceAt (Text.byteLength before) c rest = .error e) (hblank : Text.isBlank c = false)
    (hends : c.isDigit = true → Decimal.EndsNoNumeral before) : Refuses before c rest e := by
  unfold pieceAt at h
  split at h
  case isTrue => cases h
  rename_i hleft
  split at h
  case isTrue => cases h
  rename_i hright
  split at h
  case isTrue hquote =>
    dsimp only at h
    split at h
    case isTrue => cases h
    rename_i hopen
    cases h
    exact .unterminatedString (by simpa [isQuote] using hquote) (notMem_of_length_takeWhile hopen)
  rename_i hquote
  split at h
  case isTrue hdigit =>
    dsimp only at h
    split at h
    case isTrue => cases h
    rename_i hinfinite
    cases h
    obtain ⟨behind, heq, hwhole⟩ := @isWholeNumeral_numberChars before rest c hdigit (hends hdigit)
    refine .numberTooLarge heq hwhole ?_
    rw [(numberChars_spec hdigit rest).2.2, Magnitude.eq_infinite hinfinite]
  rename_i hdigit
  split at h
  case isTrue => cases h
  rename_i hstart
  split at h
  case h_1 => cases h
  rename_i hcomparator
  cases h
  obtain ⟨hless, hgreater, hsign⟩ := comparatorAt?_eq_none hcomparator
  by_cases hlone : c = '!' ∨ c = '='
  · exact .loneSign hlone (hsign hlone)
  · obtain ⟨hbang, hequal⟩ := not_or.mp hlone
    simp only [isNameStart, Bool.or_eq_true, beq_iff_eq, not_or, Bool.not_eq_true] at hstart
    simp only [isQuote, Bool.or_eq_true, beq_iff_eq, not_or] at hquote
    refine .unexpectedChar ?_ hblank (Bool.eq_false_iff.mpr hdigit) hstart.2 hstart.1
    simp [hleft, hright, hless, hgreater, hquote, hbang, hequal]

theorem Refuses.position_eq {before rest : List Char} {c : Char} {e : LexError}
    (h : Refuses before c rest e) : e.position = Text.byteLength before := by
  cases h <;> rfl

theorem Refuses.isDigit_eq_false {before rest : List Char} {c found : Char} {position : Nat}
    (h : Refuses before c rest (.unexpectedChar position found)) : found.isDigit = false := by
  cases h with
  | unexpectedChar _ _ hdigit _ _ => exact hdigit
  | loneSign hsign _ => rcases hsign with rfl | rfl <;> decide

theorem exists_refuses_of_scan {text : String} {e : LexError} (h : scan text = .error e) :
    ∃ before c rest tokens, text.toList = before ++ c :: rest ∧
      Advances 0 text.toList tokens (Text.byteLength before) (c :: rest) ∧
      scan (String.ofList before) = .ok (tokens ++ [endAt (Text.byteLength before)]) ∧
      Refuses before c rest e := by
  obtain ⟨tokens, stop, c, rest, hadvances, hblank, hpiece⟩ := advances_of_scanFrom h
  obtain ⟨before, htext, hstop, hscan, hends⟩ := hadvances.exists_before
  rw [Nat.zero_add] at hstop
  subst hstop
  refine ⟨before, c, rest, tokens, htext, hadvances, ?_, ?_⟩
  · rw [scan, String.toList_ofList, hscan]
  · exact refuses_of_pieceAt hpiece hblank (hends c rest rfl)

/-- A text that cannot be cut is refused at a character inside of it. What stands in front is cut on
its own, into the tokens that the scanner takes before it gets there. The character starts no token:
no token starts with such a character, an exclamation mark or an equality sign stands alone, a quote
is not closed, or a numeral is too large. A digit is refused for no other reason. -/
theorem scan_error_is_first {text : String} {e : LexError} (h : scan text = .error e) :
    ∃ before c rest tokens, text.toList = before ++ c :: rest ∧
      e.position = Text.byteLength before ∧ e.position < text.utf8ByteSize ∧
      (⟨e.position⟩ : String.Pos.Raw).IsValid text ∧
      Advances 0 text.toList tokens e.position (c :: rest) ∧
      scan (String.ofList before) = .ok (tokens ++ [endAt e.position]) ∧
      Refuses before c rest e ∧
      ∀ position found, e = .unexpectedChar position found → found.isDigit = false := by
  obtain ⟨before, c, rest, tokens, htext, hadvances, hscan, hrefuses⟩ := exists_refuses_of_scan h
  have hsize : Text.byteLength before < text.utf8ByteSize := by
    have hpos := c.utf8Size_pos
    rw [← Text.byteLength_toList, htext, Text.byteLength_append, Text.byteLength_cons]
    omega
  refine ⟨before, c, rest, tokens, htext, hrefuses.position_eq, ?_⟩
  rw [hrefuses.position_eq]
  refine ⟨hsize, Text.isValid_byteLength htext, hadvances, hscan, hrefuses, ?_⟩
  rintro position found rfl
  exact hrefuses.isDigit_eq_false

/-- A point behind a number: the comparator and the number in front of it are taken as they are in
the text without it. -/
theorem scan_error_is_first_point :
    ∃ before c rest tokens, "é <1.".toList = before ++ c :: rest ∧ 5 = Text.byteLength before ∧
      scan (String.ofList before) = .ok (tokens ++ [endAt 5]) ∧
      Refuses before c rest (.unexpectedChar 5 '.') := by
  have hscan : scan "é <1." = .error (.unexpectedChar 5 '.') := by decide +kernel
  obtain ⟨before, c, rest, tokens, htext, hposition, -, -, -, hbefore, hrefuses, -⟩ :=
    scan_error_is_first hscan
  exact ⟨before, c, rest, tokens, htext, hposition, hbefore, hrefuses⟩

end Token

end ComparisonRules
