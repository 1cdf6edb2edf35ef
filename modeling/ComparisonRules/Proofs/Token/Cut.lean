import ComparisonRules.Proofs.Outcome
import ComparisonRules.Proofs.Token.Shape

/-!
# Cuts of a text

A cut of a text is a list of tokens that stand in it one behind the other, each in a shape
that cannot be longer, with nothing but white space around them. The scanner finds the cut of
a text if there is one, and there is never a second one.
-/

namespace ComparisonRules.Token

/-- The tokens are a cut of a text whose first byte has the given offset. -/
structure Cuts (start : Nat) (text : List Char) (tokens : List Token) : Prop where
  placed : ∀ t ∈ tokens, ∃ before behind, text = before ++ (t.lexeme.toList ++ behind) ∧
    t.offset = start + Text.byteLength before ∧ Fits t.kind t.lexeme.toList t.literal behind
  ascending : tokens.Pairwise fun t u => t.offset + t.width ≤ u.offset
  covering : ∀ before c behind, text = before ++ c :: behind → Text.isBlank c = false →
    ∃ t ∈ tokens, t.offset ≤ start + Text.byteLength before ∧
      start + Text.byteLength before < t.offset + t.width

/-- A cut of a whole text, with the end of input behind the last byte. -/
def IsCut (text : String) (tokens : List Token) : Prop :=
  ∃ pieces, tokens = pieces ++ [⟨.endOfInput, "", none, text.utf8ByteSize⟩] ∧
    Cuts 0 text.toList pieces

/-! ## Cuts, character by character -/

namespace Cuts

variable {start : Nat} {text : List Char} {tokens : List Token}

theorem nil_iff : Cuts start [] tokens ↔ tokens = [] := by
  constructor
  · intro h
    cases tokens with
    | nil => rfl
    | cons t tokens =>
        obtain ⟨before, behind, heq, -, hfits⟩ := h.placed t List.mem_cons_self
        have hempty := (List.append_eq_nil_iff.mp heq.symm).2
        exact absurd (List.append_eq_nil_iff.mp hempty).1 hfits.ne_nil
  · rintro rfl
    refine ⟨?_, List.Pairwise.nil, ?_⟩
    · intro t ht
      cases ht
    · intro before c behind heq
      simp at heq

theorem blank_iff {c : Char} (hblank : Text.isBlank c = true) :
    Cuts start (c :: text) tokens ↔ Cuts (start + c.utf8Size) text tokens := by
  constructor
  · intro h
    refine ⟨?_, h.ascending, ?_⟩
    · intro t ht
      obtain ⟨before, behind, heq, hoffset, hfits⟩ := h.placed t ht
      cases before with
      | nil =>
          obtain ⟨d, ds, hchars, hd⟩ := hfits.exists_head
          rw [hchars] at heq
          obtain ⟨rfl, -⟩ := List.cons.inj heq
          simp [hblank] at hd
      | cons d before =>
          obtain ⟨rfl, htext⟩ := List.cons.inj heq
          refine ⟨before, behind, htext, ?_, hfits⟩
          rw [hoffset, Text.byteLength_cons, Nat.add_assoc]
    · intro before d behind heq hd
      obtain ⟨t, ht, hlow, hhigh⟩ := h.covering (c :: before) d behind (by rw [heq]; rfl) hd
      rw [Text.byteLength_cons, ← Nat.add_assoc] at hlow hhigh
      exact ⟨t, ht, hlow, hhigh⟩
  · intro h
    refine ⟨?_, h.ascending, ?_⟩
    · intro t ht
      obtain ⟨before, behind, heq, hoffset, hfits⟩ := h.placed t ht
      refine ⟨c :: before, behind, by rw [heq]; rfl, ?_, hfits⟩
      rw [hoffset, Text.byteLength_cons, Nat.add_assoc]
    · intro before d behind heq hd
      cases before with
      | nil =>
          obtain ⟨rfl, -⟩ := List.cons.inj heq
          simp [hblank] at hd
      | cons e before =>
          obtain ⟨rfl, htext⟩ := List.cons.inj heq
          obtain ⟨t, ht, hlow, hhigh⟩ := h.covering before d behind htext hd
          rw [Text.byteLength_cons, ← Nat.add_assoc]
          exact ⟨t, ht, hlow, hhigh⟩

theorem start_le (h : Cuts start text tokens) : ∀ t ∈ tokens, start ≤ t.offset := by
  intro t ht
  obtain ⟨before, behind, -, hoffset, -⟩ := h.placed t ht
  omega

theorem width_pos (h : Cuts start text tokens) : ∀ t ∈ tokens, 0 < t.width := by
  intro t ht
  obtain ⟨before, behind, -, -, hfits⟩ := h.placed t ht
  have hlength := Text.length_le_byteLength t.lexeme.toList
  have hpos := List.length_pos_iff.mpr hfits.ne_nil
  unfold width
  omega

theorem tail {t : Token} (h : Cuts start (t.lexeme.toList ++ text) (t :: tokens))
    (hoffset : t.offset = start) : Cuts (start + t.width) text tokens := by
  have hbehind := List.pairwise_cons.mp h.ascending
  refine ⟨?_, hbehind.2, ?_⟩
  · intro u hu
    obtain ⟨before, behind, heq, hplace, hfits⟩ := h.placed u (List.mem_cons_of_mem _ hu)
    have hle := hbehind.1 u hu
    -- the second token starts behind the first one, so the first one is part of `before`
    rcases List.append_eq_append_iff.mp heq with ⟨between, hbefore, htext⟩ | ⟨past, hlex, htext⟩
    · refine ⟨between, behind, htext, ?_, hfits⟩
      rw [hplace, hbefore, Text.byteLength_append, ← Nat.add_assoc]
      rfl
    · have hwidth : t.width = Text.byteLength before + Text.byteLength past := by
        rw [width, hlex, Text.byteLength_append]
      have hpast := Text.length_le_byteLength past
      have hnil : past = [] := List.eq_nil_of_length_eq_zero (by omega)
      subst hnil
      rw [List.append_nil] at hlex
      refine ⟨[], behind, htext.symm, ?_, hfits⟩
      rw [hplace, width, hlex, Text.byteLength_nil, Nat.add_zero]
  · intro before c behind heq hc
    obtain ⟨u, hu, hlow, hhigh⟩ := h.covering (t.lexeme.toList ++ before) c behind
      (by rw [heq, List.append_assoc]) hc
    have hplace : start + Text.byteLength (t.lexeme.toList ++ before)
        = start + t.width + Text.byteLength before := by
      rw [Text.byteLength_append, ← Nat.add_assoc]
      rfl
    rw [hplace] at hlow hhigh
    rcases List.mem_cons.mp hu with rfl | hu
    · omega
    · exact ⟨u, hu, hlow, hhigh⟩

theorem cons {t : Token} (h : Cuts (start + t.width) text tokens) (hoffset : t.offset = start)
    (hfits : Fits t.kind t.lexeme.toList t.literal text) :
    Cuts start (t.lexeme.toList ++ text) (t :: tokens) := by
  refine ⟨?_, List.pairwise_cons.mpr ⟨?_, h.ascending⟩, ?_⟩
  · intro u hu
    rcases List.mem_cons.mp hu with rfl | hu
    · exact ⟨[], text, rfl, by simp [hoffset], hfits⟩
    · obtain ⟨before, behind, heq, hplace, hfits'⟩ := h.placed u hu
      refine ⟨t.lexeme.toList ++ before, behind, by rw [heq, List.append_assoc], ?_, hfits'⟩
      rw [hplace, Text.byteLength_append, ← Nat.add_assoc]
      rfl
  · intro u hu
    have hle := h.start_le u hu
    omega
  · intro before c behind heq hc
    rcases List.append_eq_append_iff.mp heq with ⟨between, hbefore, htext⟩ | ⟨past, hlex, hcons⟩
    · obtain ⟨u, hu, hlow, hhigh⟩ := h.covering between c behind htext hc
      have hplace : start + Text.byteLength before
          = start + t.width + Text.byteLength between := by
        rw [hbefore, Text.byteLength_append, ← Nat.add_assoc]
        rfl
      rw [hplace]
      exact ⟨u, List.mem_cons_of_mem _ hu, hlow, hhigh⟩
    · cases past with
      | nil =>
          obtain ⟨u, hu, hlow, hhigh⟩ := h.covering [] c behind hcons.symm hc
          rw [List.append_nil] at hlex
          have hplace : start + Text.byteLength before
              = start + t.width + Text.byteLength [] := by
            rw [Text.byteLength_nil, Nat.add_zero, width, hlex]
          rw [hplace]
          exact ⟨u, List.mem_cons_of_mem _ hu, hlow, hhigh⟩
      | cons d past =>
          obtain ⟨rfl, -⟩ := List.cons.inj hcons
          have hwidth : t.width
              = Text.byteLength before + (c.utf8Size + Text.byteLength past) := by
            rw [width, hlex, Text.byteLength_append, Text.byteLength_cons]
          have hsize := c.utf8Size_pos
          exact ⟨t, List.mem_cons_self, by omega, by omega⟩

theorem cons_of_fits {kind : Kind} {chars : List Char} {literal : Option Value}
    (h : Cuts (start + Text.byteLength chars) text tokens) (hfits : Fits kind chars literal text) :
    Cuts start (chars ++ text) (⟨kind, String.ofList chars, literal, start⟩ :: tokens) := by
  have hlexeme : (String.ofList chars).toList = chars := String.toList_ofList
  rw [← hlexeme] at h hfits ⊢
  rw [String.ofList_toList]
  exact @cons start text tokens ⟨kind, String.ofList chars, literal, start⟩ h rfl hfits

theorem exists_head {c : Char} (h : Cuts start (c :: text) tokens)
    (hc : Text.isBlank c = false) :
    ∃ t tokens' behind, tokens = t :: tokens' ∧ c :: text = t.lexeme.toList ++ behind ∧
      t.offset = start ∧ Fits t.kind t.lexeme.toList t.literal behind := by
  obtain ⟨t, ht, hlow, hhigh⟩ := h.covering [] c text rfl hc
  rw [Text.byteLength_nil, Nat.add_zero] at hlow hhigh
  obtain ⟨first, tokens', rfl⟩ := List.exists_cons_of_ne_nil (List.ne_nil_of_mem ht)
  have hbehind := List.pairwise_cons.mp h.ascending
  -- no other token can stand at the start: it would stand behind the first one
  have hfirst : t = first := by
    rcases List.mem_cons.mp ht with heq | hmem
    · exact heq
    · have hle := hbehind.1 t hmem
      have hge := h.start_le first List.mem_cons_self
      have hpos := h.width_pos first List.mem_cons_self
      omega
  subst hfirst
  obtain ⟨before, behind, heq, hoffset, hfits⟩ := h.placed t ht
  have hge := h.start_le t ht
  have hbytes := Text.length_le_byteLength before
  have hbefore : before = [] := List.eq_nil_of_length_eq_zero (by omega)
  subst hbefore
  exact ⟨t, tokens', behind, rfl, heq, by omega, hfits⟩

end Cuts

/-! ## Scanning -/

theorem scanFrom_blank {offset : Nat} {c : Char} {rest : List Char}
    (h : Text.isBlank c = true) :
    scanFrom offset (c :: rest) = scanFrom (offset + c.utf8Size) rest := by
  rw [scanFrom, if_pos h]

theorem scanFrom_append_of_fits {offset : Nat} {kind : Kind} {chars rest : List Char}
    {literal : Option Value} (h : Fits kind chars literal rest) :
    scanFrom offset (chars ++ rest) = (do
      let tokens ← scanFrom (offset + Text.byteLength chars) rest
      return ⟨kind, String.ofList chars, literal, offset⟩ :: tokens) := by
  obtain ⟨c, cs, rfl, hblank⟩ := h.exists_head
  have hdrop : (cs ++ rest).drop ((c :: cs).length - 1) = rest := by simp
  rw [List.cons_append, scanFrom, if_neg (by simp [hblank]), pieceAt_of_fits h]
  dsimp only
  rw [hdrop]
  cases scanFrom (offset + Text.byteLength (c :: cs)) rest <;> rfl

/-- The characters give the tokens wherever they stand before the rest, and the rest goes on
behind them. -/
def ScansAs (offset : Nat) (chars rest : List Char) (tokens : List Token) : Prop :=
  scanFrom offset (chars ++ rest) = (do
    let more ← scanFrom (offset + Text.byteLength chars) rest
    return tokens ++ more)

theorem ScansAs.nil (offset : Nat) (rest : List Char) : ScansAs offset [] rest [] := by
  unfold ScansAs
  rw [List.nil_append, Text.byteLength_nil, Nat.add_zero]
  cases scanFrom offset rest <;> rfl

theorem ScansAs.of_fits {offset : Nat} {kind : Kind} {chars rest : List Char}
    {literal : Option Value} (h : Fits kind chars literal rest) :
    ScansAs offset chars rest [⟨kind, String.ofList chars, literal, offset⟩] :=
  scanFrom_append_of_fits h

theorem ScansAs.blank {offset : Nat} {c : Char} {rest : List Char}
    (h : Text.isBlank c = true) : ScansAs offset [c] rest [] := by
  unfold ScansAs
  rw [List.singleton_append, scanFrom_blank h, Text.byteLength_cons, Text.byteLength_nil,
    Nat.add_zero]
  cases scanFrom (offset + c.utf8Size) rest <;> rfl

theorem ScansAs.append {offset : Nat} {front back rest : List Char}
    {before after : List Token} (hfront : ScansAs offset front (back ++ rest) before)
    (hback : ScansAs (offset + Text.byteLength front) back rest after) :
    ScansAs offset (front ++ back) rest (before ++ after) := by
  unfold ScansAs at hfront hback ⊢
  rw [List.append_assoc, hfront, hback, Text.byteLength_append, ← Nat.add_assoc]
  cases scanFrom (offset + Text.byteLength front + Text.byteLength back) rest with
  | error e => rfl
  | ok more => simp [pure, Except.pure, bind, Except.bind]

theorem ScansAs.blanks {chars : List Char} (h : ∀ c ∈ chars, Text.isBlank c = true)
    (offset : Nat) (rest : List Char) : ScansAs offset chars rest [] := by
  induction chars generalizing offset with
  | nil => exact .nil offset rest
  | cons c chars ih =>
      obtain ⟨hblank, hblanks⟩ := List.forall_mem_cons.mp h
      have hfirst : ScansAs offset [c] (chars ++ rest) [] := .blank hblank
      exact hfirst.append (ih hblanks _)

theorem ScansAs.scan_eq {text : String} {tokens : List Token}
    (h : ScansAs 0 text.toList [] tokens) :
    scan text = .ok (tokens ++ [endAt text.utf8ByteSize]) := by
  unfold ScansAs at h
  rw [List.append_nil, Nat.zero_add, Text.byteLength_toList, scanFrom] at h
  exact h

theorem fits_drop_of_pieceAt {offset : Nat} {c : Char} {rest : List Char} {piece : Piece}
    (h : pieceAt offset c rest = .ok piece) :
    c :: rest = piece.chars ++ rest.drop (piece.chars.length - 1) ∧
      Fits piece.kind piece.chars piece.literal (rest.drop (piece.chars.length - 1)) := by
  obtain ⟨behind, heq, hfits⟩ := fits_of_pieceAt h
  have hdrop : rest.drop (piece.chars.length - 1) = behind := by
    obtain ⟨d, ds, hchars, -⟩ := hfits.exists_head
    rw [hchars] at heq ⊢
    obtain ⟨rfl, rfl⟩ := List.cons.inj heq
    simp
  rw [hdrop]
  exact ⟨heq, hfits⟩

theorem cuts_of_scanFrom {offset : Nat} {text : List Char} {tokens : List Token}
    (h : scanFrom offset text = .ok tokens) :
    ∃ pieces, tokens = pieces ++ [endAt (offset + Text.byteLength text)] ∧
      Cuts offset text pieces := by
  fun_induction scanFrom offset text generalizing tokens with
  | case1 offset =>
      cases h
      exact ⟨[], rfl, Cuts.nil_iff.mpr rfl⟩
  | case2 offset c rest hblank ih =>
      obtain ⟨pieces, rfl, hcuts⟩ := ih h
      refine ⟨pieces, ?_, (Cuts.blank_iff hblank).mpr hcuts⟩
      rw [Text.byteLength_cons, Nat.add_assoc]
  | case3 offset c rest hblank e hpiece => cases h
  | case4 offset c rest hblank piece hpiece e hrest ih => cases h
  | case5 offset c rest hblank piece hpiece tokens' hrest ih =>
      cases h
      obtain ⟨pieces, rfl, hcuts⟩ := ih hrest
      obtain ⟨heq, hfits⟩ := fits_drop_of_pieceAt hpiece
      refine ⟨piece.placedAt offset :: pieces, ?_, ?_⟩
      · rw [heq, Text.byteLength_append, ← Nat.add_assoc]
        rfl
      · rw [heq]
        exact hcuts.cons_of_fits hfits

/-- Whatever is a cut is what the scanner gives. -/
theorem scanFrom_of_cuts {offset : Nat} {text : List Char} {pieces : List Token}
    (h : Cuts offset text pieces) :
    scanFrom offset text = .ok (pieces ++ [endAt (offset + Text.byteLength text)]) := by
  generalize hlength : text.length = length
  induction length using Nat.strongRecOn generalizing offset text pieces with
  | ind length ih =>
      cases text with
      | nil =>
          rw [Cuts.nil_iff.mp h, scanFrom]
          rfl
      | cons c rest =>
          by_cases hblank : Text.isBlank c = true
          · have hrest := ih rest.length (by simp [← hlength])
              ((Cuts.blank_iff hblank).mp h) rfl
            rw [scanFrom_blank hblank, hrest, Text.byteLength_cons, Nat.add_assoc]
          · obtain ⟨t, tokens, behind, rfl, heq, hoffset, hfits⟩ :=
              h.exists_head (by simpa using hblank)
            rw [heq] at h hlength ⊢
            have hshorter : behind.length < length := by
              have hpos := List.length_pos_iff.mpr hfits.ne_nil
              rw [List.length_append] at hlength
              omega
            have hrest := ih behind.length hshorter (h.tail hoffset) rfl
            rw [width] at hrest
            rw [scanFrom_append_of_fits hfits, hrest, ok_bind, String.ofList_toList,
              Text.byteLength_append, ← Nat.add_assoc, ← hoffset]
            rfl

/-- The scanner gives exactly the cuts of a text, and no text has two. -/
theorem scan_eq_ok_iff_isCut (text : String) :
    (∀ tokens, scan text = .ok tokens ↔ IsCut text tokens) ∧
    ∀ tokens tokens', IsCut text tokens → IsCut text tokens' → tokens = tokens' := by
  have hscan : ∀ tokens, scan text = .ok tokens ↔ IsCut text tokens := by
    intro tokens
    constructor
    · intro h
      obtain ⟨pieces, heq, hcuts⟩ := cuts_of_scanFrom h
      rw [Nat.zero_add, Text.byteLength_toList] at heq
      exact ⟨pieces, heq, hcuts⟩
    · rintro ⟨pieces, rfl, hcuts⟩
      rw [scan, scanFrom_of_cuts hcuts, Nat.zero_add, Text.byteLength_toList]
      rfl
  refine ⟨hscan, ?_⟩
  intro tokens tokens' h h'
  have heq := (hscan tokens).mpr h
  rw [(hscan tokens').mpr h'] at heq
  exact (Except.ok.inj heq).symm

/-- A name of two bytes, white space, and two comparators: the first takes the equality sign
that follows it. -/
theorem scan_longest_comparator :
    scan "ö <===" = .ok [⟨.identifier, "ö", none, 0⟩, ⟨.comparator .lessOrEqual, "<=", none, 3⟩,
      ⟨.comparator .equal, "==", none, 5⟩, ⟨.endOfInput, "", none, 7⟩] := by
  have hname : Fits .identifier ['ö'] none [' ', '<', '=', '=', '='] :=
    .identifier (.of_all (by decide +kernel)) (Text.stopsAt_cons (by decide +kernel)) (by decide)
      (by decide)
  have hless : Fits (.comparator .lessOrEqual) ['<', '='] none ['=', '='] :=
    .comparator (by simp)
  have hequal : Fits (.comparator .equal) ['=', '='] none [] := .comparator (by simp)
  have hend : Cuts 7 [] [] := Cuts.nil_iff.mpr rfl
  have hsecond := Cuts.cons_of_fits hend hequal
  have hfirst := Cuts.cons_of_fits hsecond hless
  have hblank := (@Cuts.blank_iff 2 _ _ ' ' (by decide +kernel)).mpr hfirst
  exact ((scan_eq_ok_iff_isCut _).1 _).mpr ⟨_, rfl, Cuts.cons_of_fits hblank hname⟩

end ComparisonRules.Token
