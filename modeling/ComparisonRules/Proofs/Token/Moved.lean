import ComparisonRules.Proofs.Token.Cut

/-!
# Texts inside of others

White space and a closing parenthesis go on with no token. So a text that is scanned on its own is
cut in the same way wherever it stands in front of one of these, and only the places of its tokens
move. What is behind is scanned as on its own too, with its tokens or its error further back.
-/

namespace ComparisonRules

/-- The same error further back in a text. -/
def LexError.movedBy (distance : Nat) : LexError → LexError
  | unexpectedChar position found => unexpectedChar (position + distance) found
  | unterminatedString position => unterminatedString (position + distance)
  | numberTooLarge position length => numberTooLarge (position + distance) length

namespace Token

/-- The same token further back in a text. -/
def movedBy (distance : Nat) (t : Token) : Token :=
  { t with offset := t.offset + distance }

@[simp] theorem kind_movedBy (distance : Nat) (t : Token) :
    (t.movedBy distance).kind = t.kind := rfl

@[simp] theorem lexeme_movedBy (distance : Nat) (t : Token) :
    (t.movedBy distance).lexeme = t.lexeme := rfl

@[simp] theorem literal_movedBy (distance : Nat) (t : Token) :
    (t.movedBy distance).literal = t.literal := rfl

/-! ## Ends of tokens -/

/-- No token goes on with the character, unless it is a string. -/
structure EndsToken (c : Char) : Prop where
  name : isNamePart c = false
  symbol : c ≠ '='
  digit : c.isDigit = false
  point : c ≠ '.'

theorem endsToken_closing : EndsToken ')' :=
  ⟨by decide, by decide, by decide, by decide⟩

theorem endsToken_of_isBlank {c : Char} (h : Text.isBlank c = true) : EndsToken c := by
  refine ⟨?_, ?_, ?_, ?_⟩
  · rw [Bool.eq_false_iff]
    intro hname
    simp [isBlank_of_isNamePart hname] at h
  · rintro rfl
    exact absurd h (by decide)
  · rw [Bool.eq_false_iff]
    intro hdigit
    simp [isBlank_of_isDigit hdigit] at h
  · rintro rfl
    exact absurd h (by decide)

section

variable {kind : Kind} {chars behind : List Char} {literal : Option Value} {c : Char}

theorem EndsToken.stopsAt_append (hc : EndsToken c) (h : Text.StopsAt isNamePart behind)
    (rest : List Char) : Text.StopsAt isNamePart (behind ++ c :: rest) := by
  cases behind with
  | nil => exact Text.stopsAt_cons hc.name
  | cons d behind => exact h

theorem Fits.append_of_endsToken (h : Fits kind chars literal behind) (hc : EndsToken c)
    (rest : List Char) : Fits kind chars literal (behind ++ c :: rest) := by
  cases h with
  | leftParen => exact .leftParen
  | rightParen => exact .rightParen
  | comparator hnext =>
      refine .comparator fun hshort => ?_
      cases behind with
      | nil => simpa using hc.symbol
      | cons d behind => exact hnext hshort
  | and hname hstops hand => exact .and hname (hc.stopsAt_append hstops rest) hand
  | or hname hstops hor => exact .or hname (hc.stopsAt_append hstops rest) hor
  | identifier hname hstops hand hor =>
      exact .identifier hname (hc.stopsAt_append hstops rest) hand hor
  | number hplain hlongest hvalue hfinite =>
      refine .number hplain ?_ hvalue hfinite
      intro more after heq hlonger
      rcases List.append_eq_append_iff.mp heq with ⟨past, hmore, hpast⟩ | ⟨past, hbehind, -⟩
      · cases past with
        | nil =>
            rw [List.append_nil] at hmore
            exact hlongest more [] (by rw [hmore, List.append_nil]) hlonger
        | cons d past =>
            -- the longer numeral would have the character in it
            obtain ⟨rfl, -⟩ := List.cons.inj hpast
            rcases hlonger.isDigit_or_eq c (by simp [hmore]) with hdigit | hpoint
            · simp [hc.digit] at hdigit
            · exact absurd hpoint hc.point
      · exact hlongest more past hbehind hlonger
  | string hquote hbody => exact .string hquote hbody

theorem Fits.of_endsToken (h : Fits kind chars literal behind) {rest : List Char}
    (hrest : ∀ d, rest.head? = some d → EndsToken d) : Fits kind chars literal rest := by
  have hstops : Text.StopsAt isNamePart rest := fun d hd => (hrest d hd).name
  cases h with
  | leftParen => exact .leftParen
  | rightParen => exact .rightParen
  | comparator _ => exact .comparator fun _ hequal => (hrest _ hequal).symbol rfl
  | and hname _ hand => exact .and hname hstops hand
  | or hname _ hor => exact .or hname hstops hor
  | identifier hname _ hand hor => exact .identifier hname hstops hand hor
  | number hplain _ hvalue hfinite =>
      refine .number hplain ?_ hvalue hfinite
      intro more after heq hlonger
      cases more with
      | nil => rfl
      | cons d more =>
          have hd := hrest d (by rw [heq]; rfl)
          rcases hlonger.isDigit_or_eq d (by simp) with hdigit | hpoint
          · simp [hd.digit] at hdigit
          · exact absurd hpoint hd.point
  | string hquote hbody => exact .string hquote hbody

end

/-! ## Scans further back -/

/-- A text that is scanned on its own gives the same tokens further back in front of a character
that ends tokens. -/
theorem scansAs_of_scanFrom {offset : Nat} {text : List Char} {tokens : List Token} {c : Char}
    (h : scanFrom offset text = .ok tokens) (hc : EndsToken c) (distance : Nat)
    (rest : List Char) :
    ∃ pieces stop, tokens = pieces ++ [endAt stop] ∧ (∀ t ∈ pieces, t.kind ≠ .endOfInput) ∧
      ScansAs (offset + distance) text (c :: rest) (pieces.map (movedBy distance)) := by
  fun_induction scanFrom offset text generalizing tokens with
  | case1 offset =>
      cases h
      exact ⟨[], offset, rfl, by simp, .nil _ _⟩
  | case2 offset d text hblank ih =>
      obtain ⟨pieces, stop, rfl, hkinds, hscan⟩ := ih h
      refine ⟨pieces, stop, rfl, hkinds, ?_⟩
      have hfirst : ScansAs (offset + distance) [d] (text ++ c :: rest) [] := .blank hblank
      refine hfirst.append ?_
      rwa [Text.byteLength_cons, Text.byteLength_nil, Nat.add_zero, Nat.add_right_comm]
  | case3 offset d text hblank e hpiece => cases h
  | case4 offset d text hblank piece hpiece e hrest ih => cases h
  | case5 offset d text hblank piece hpiece tokens' hrest ih =>
      cases h
      obtain ⟨pieces, stop, rfl, hkinds, hscan⟩ := ih hrest
      obtain ⟨heq, hfits⟩ := fits_drop_of_pieceAt hpiece
      refine ⟨piece.placedAt offset :: pieces, stop, rfl,
        List.forall_mem_cons.mpr ⟨hfits.kind_ne, hkinds⟩, ?_⟩
      rw [heq]
      have hfirst : ScansAs (offset + distance) piece.chars (_ ++ c :: rest)
          [(piece.placedAt offset).movedBy distance] :=
        .of_fits (hfits.append_of_endsToken hc rest)
      refine hfirst.append ?_
      rwa [Nat.add_right_comm]

/-! ## What is behind -/

theorem pieceAt_add (offset distance : Nat) (c : Char) (rest : List Char) :
    pieceAt (offset + distance) c rest
      = (pieceAt offset c rest).mapError (LexError.movedBy distance) := by
  simp only [pieceAt]
  repeat' split
  all_goals rfl

theorem scanFrom_add (offset distance : Nat) (text : List Char) :
    scanFrom (offset + distance) text
      = ((scanFrom offset text).map (List.map (movedBy distance))).mapError
          (LexError.movedBy distance) := by
  fun_induction scanFrom offset text with
  | case1 offset =>
      rw [scanFrom]
      rfl
  | case2 offset c rest hblank ih => rw [scanFrom_blank hblank, Nat.add_right_comm, ih]
  | case3 offset c rest hblank e hpiece =>
      rw [scanFrom, if_neg hblank, pieceAt_add, hpiece]
      rfl
  | case4 offset c rest hblank piece hpiece e hrest ih =>
      rw [scanFrom, if_neg hblank, pieceAt_add, hpiece]
      dsimp only [Except.mapError]
      rw [Nat.add_right_comm, ih, hrest]
      rfl
  | case5 offset c rest hblank piece hpiece tokens hrest ih =>
      rw [scanFrom, if_neg hblank, pieceAt_add, hpiece]
      dsimp only [Except.mapError]
      rw [Nat.add_right_comm, ih, hrest]
      rfl

theorem scan_append {first gap second : String} {tokens : List Token}
    (h : scan first = .ok tokens) (hgap : gap ≠ "")
    (hblank : ∀ c ∈ gap.toList, Text.isBlank c = true) :
    scan (first ++ gap ++ second)
      = ((scan second).map fun more =>
          tokens.dropLast ++ more.map (movedBy (first ++ gap).utf8ByteSize)).mapError
            (LexError.movedBy (first ++ gap).utf8ByteSize) := by
  have hne : gap.toList ≠ [] := by simpa using hgap
  obtain ⟨c, rest, hcons⟩ := List.exists_cons_of_ne_nil hne
  have hfirst : Text.isBlank c = true := hblank c (by simp [hcons])
  obtain ⟨pieces, stop, rfl, -, hscan⟩ :=
    scansAs_of_scanFrom h (endsToken_of_isBlank hfirst) 0 (rest ++ second.toList)
  have hfront : ScansAs 0 first.toList (gap.toList ++ second.toList) pieces := by
    have hplace : pieces.map (movedBy 0) = pieces := List.map_id'' (fun t => rfl) pieces
    rw [hcons, List.cons_append]
    rwa [hplace] at hscan
  have htext := hfront.append (.blanks hblank _ second.toList)
  unfold ScansAs at htext
  have hbytes : Text.byteLength (first.toList ++ gap.toList) = (first ++ gap).utf8ByteSize := by
    rw [← String.toList_append, Text.byteLength_toList]
  rw [scan, String.toList_append, String.toList_append, htext, List.append_nil, hbytes,
    scanFrom_add, List.dropLast_concat]
  show (_ >>= _) = (((scanFrom 0 second.toList).map _).mapError _)
  cases scanFrom 0 second.toList <;> rfl

end Token

end ComparisonRules
