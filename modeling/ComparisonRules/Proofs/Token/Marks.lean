import ComparisonRules.Proofs.Token.Cut

/-!
# Texts without marks

Strings and comparators start with marks: quotes and the four characters of comparators. A text
without marks, in front of white space, is refused or cut into tokens that are no comparators.
If there is a single one, it is the whole text, up to white space around it.
-/

namespace ComparisonRules

namespace Text

/-- There is no white space at the start or the end. -/
def IsTrimmed (chars : List Char) : Prop :=
  (∀ c ∈ chars.head?, isBlank c = false) ∧ ∀ c ∈ chars.getLast?, isBlank c = false

/-- The text is the characters with white space around them. -/
def Pads (text chars : List Char) : Prop :=
  ∃ before behind, text = before ++ (chars ++ behind) ∧ (∀ c ∈ before, isBlank c = true) ∧
    ∀ c ∈ behind, isBlank c = true

theorem Pads.cons {text chars : List Char} (h : Pads text chars) {c : Char}
    (hblank : isBlank c = true) : Pads (c :: text) chars := by
  obtain ⟨before, behind, rfl, hbefore, hbehind⟩ := h
  exact ⟨c :: before, behind, rfl, List.forall_mem_cons.mpr ⟨hblank, hbefore⟩, hbehind⟩

theorem Pads.eq_of_isTrimmed {text chars : List Char} (h : Pads text chars)
    (htrimmed : IsTrimmed text) : text = chars := by
  obtain ⟨before, behind, rfl, hbefore, hbehind⟩ := h
  cases before with
  | cons c before =>
      have hfirst := htrimmed.1 c rfl
      simp [hbefore c List.mem_cons_self] at hfirst
  | nil =>
      rcases List.eq_nil_or_concat behind with rfl | ⟨front, c, rfl⟩
      · rw [List.append_nil, List.nil_append]
      · have hlast := htrimmed.2 c (by simp)
        simp [hbehind c (by simp)] at hlast

theorem exists_of_append_eq {stop : Char} {text more chars behind : List Char}
    (h : text ++ stop :: more = chars ++ behind) (hstop : stop ∉ chars) :
    ∃ left, text = chars ++ left ∧ behind = left ++ stop :: more := by
  rcases List.append_eq_append_iff.mp h with ⟨past, hchars, hpast⟩ | ⟨left, htext, hbehind⟩
  · cases past with
    | nil => exact ⟨[], by rw [hchars]; simp, by simpa using hpast.symm⟩
    | cons c past =>
        obtain ⟨rfl, -⟩ := List.cons.inj hpast
        exact absurd (by rw [hchars]; simp) hstop
  · exact ⟨left, htext, hbehind⟩

end Text

namespace Token

def IsMark (c : Char) : Prop :=
  isQuote c = true ∨ StartsComparator c

theorem exists_of_scanFrom_cons {offset : Nat} {c : Char} {rest : List Char}
    {tokens : List Token} (h : scanFrom offset (c :: rest) = .ok tokens)
    (hblank : Text.isBlank c = false) :
    ∃ kind chars literal behind tokens', c :: rest = chars ++ behind ∧
      Fits kind chars literal behind ∧
      tokens = ⟨kind, String.ofList chars, literal, offset⟩ :: tokens' ∧
      scanFrom (offset + Text.byteLength chars) behind = .ok tokens' := by
  have hpiece : ∃ piece, pieceAt offset c rest = .ok piece := by
    rw [scanFrom, if_neg (by simp [hblank])] at h
    cases hpiece : pieceAt offset c rest with
    | error e => simp [hpiece] at h
    | ok piece => exact ⟨piece, rfl⟩
  obtain ⟨piece, hpiece⟩ := hpiece
  obtain ⟨behind, heq, hfits⟩ := fits_of_pieceAt hpiece
  rw [heq, scanFrom_append_of_fits hfits] at h
  obtain ⟨tokens', hscan, htokens⟩ := bind_eq_ok.mp h
  cases htokens
  exact ⟨piece.kind, piece.chars, piece.literal, behind, tokens', heq, hfits, rfl, hscan⟩

theorem Fits.exists_of_scanFrom {offset : Nat} {kind : Kind} {chars rest : List Char}
    {literal : Option Value} {tokens : List Token} (hfits : Fits kind chars literal rest)
    (h : scanFrom offset (chars ++ rest) = .ok tokens) :
    ∃ t back offset', t.kind = kind ∧ tokens = t :: back ∧ scanFrom offset' rest = .ok back := by
  rw [scanFrom_append_of_fits hfits] at h
  obtain ⟨back, hback, heq⟩ := bind_eq_ok.mp h
  cases heq
  exact ⟨_, back, _, rfl, rfl, hback⟩

theorem IsName.isNamePart {chars : List Char} (h : IsName chars) :
    ∀ c ∈ chars, isNamePart c = true := by
  obtain ⟨first, more, rfl, hfirst, hmore⟩ := h
  exact List.forall_mem_cons.mpr ⟨isNamePart_of_isNameStart hfirst, hmore⟩

theorem IsName.blank_notMem {chars : List Char} (h : IsName chars) : ' ' ∉ chars := by
  intro hmem
  have hblank := isBlank_of_isNamePart (h.isNamePart ' ' hmem)
  exact absurd hblank (by decide)

theorem isNamePart_of_isMark {c : Char} (h : IsMark c) : isNamePart c = false := by
  unfold IsMark isQuote StartsComparator at h
  rw [Bool.or_eq_true, beq_iff_eq, beq_iff_eq] at h
  rcases h with (rfl | rfl) | rfl | rfl | rfl | rfl <;> decide

theorem IsName.unmarked {chars : List Char} (h : IsName chars) : ∀ c ∈ chars, ¬ IsMark c := by
  intro c hc hmark
  have hpart := h.isNamePart c hc
  simp [isNamePart_of_isMark hmark] at hpart

theorem IsName.isTrimmed {chars : List Char} (h : IsName chars) : Text.IsTrimmed chars :=
  ⟨fun c hc => isBlank_of_isNamePart (h.isNamePart c (List.mem_of_mem_head? hc)),
    fun c hc => isBlank_of_isNamePart (h.isNamePart c (List.mem_of_mem_getLast? hc))⟩

theorem Fits.unmarked {kind : Kind} {c : Char} {cs rest : List Char} {literal : Option Value}
    (h : Fits kind (c :: cs) literal rest) (hc : ¬ IsMark c) :
    (∀ comparator, kind ≠ .comparator comparator) ∧ ' ' ∉ c :: cs := by
  generalize hchars : c :: cs = chars at h
  cases h with
  | leftParen => exact ⟨by simp, by decide⟩
  | rightParen => exact ⟨by simp, by decide⟩
  | comparator hnext =>
      exact absurd (.inr (comparatorAt?_of_symbol hnext hchars.symm).1) hc
  | and hname _ _ => exact ⟨by simp, hname.blank_notMem⟩
  | or hname _ _ => exact ⟨by simp, hname.blank_notMem⟩
  | identifier hname _ _ _ => exact ⟨by simp, hname.blank_notMem⟩
  | number hplain _ _ _ =>
      refine ⟨by simp, fun hblank => ?_⟩
      exact absurd (hplain.isDigit_or_eq ' ' hblank) (by decide)
  | string hquote _ =>
      cases hchars
      have hisQuote : isQuote c = true := by rcases hquote with rfl | rfl <;> decide
      exact absurd (.inl hisQuote) hc

/-- The tokens of a text without marks in front of white space. -/
theorem words_of_scanFrom {offset : Nat} {text more : List Char} {tokens : List Token}
    (htext : ∀ c ∈ text, ¬ IsMark c) (h : scanFrom offset (text ++ ' ' :: more) = .ok tokens) :
    ∃ words back offset', tokens = words ++ back ∧ scanFrom offset' more = .ok back ∧
      (∀ t ∈ words, ∀ comparator, t.kind ≠ .comparator comparator) ∧
      (words = [] → ∀ c ∈ text, Text.isBlank c = true) ∧
      ∀ t, words = [t] → ∃ chars rest, Text.Pads text chars ∧ Fits t.kind chars t.literal rest := by
  generalize hlength : text.length = length
  -- the first token ends within the text, and what is left of the text is shorter
  induction length using Nat.strongRecOn generalizing offset text tokens with
  | ind length ih =>
      cases text with
      | nil =>
          rw [List.nil_append, scanFrom_blank (by decide +kernel)] at h
          exact ⟨[], tokens, _, rfl, h, by simp, by simp, by simp⟩
      | cons c cs =>
          by_cases hblank : Text.isBlank c = true
          · rw [List.cons_append, scanFrom_blank hblank] at h
            obtain ⟨words, back, offset', rfl, hback, hwords, hnil, hsingle⟩ :=
              ih cs.length (by simp [← hlength])
                (fun d hd => htext d (List.mem_cons_of_mem _ hd)) h rfl
            refine ⟨words, back, offset', rfl, hback, hwords,
              fun hempty => List.forall_mem_cons.mpr ⟨hblank, hnil hempty⟩, ?_⟩
            intro t ht
            obtain ⟨chars, rest, hpads, hfits⟩ := hsingle t ht
            exact ⟨chars, rest, hpads.cons hblank, hfits⟩
          · obtain ⟨kind, chars, literal, behind, tokens', heq, hfits, rfl, hscan⟩ :=
              exists_of_scanFrom_cons h (Bool.eq_false_iff.mpr hblank)
            obtain ⟨d, ds, rfl, -⟩ := hfits.exists_head
            obtain ⟨rfl, -⟩ := List.cons.inj heq
            obtain ⟨hkind, hnot⟩ := hfits.unmarked (htext c List.mem_cons_self)
            have hsplit : (c :: cs) ++ ' ' :: more = (c :: ds) ++ behind := heq
            obtain ⟨left, hleft, rfl⟩ := Text.exists_of_append_eq hsplit hnot
            have hshorter : left.length < length := by
              have hlen := congrArg List.length hleft
              simp only [List.length_append, List.length_cons] at hlen hlength
              omega
            obtain ⟨words, back, offset', rfl, hback, hwords, hnil, -⟩ :=
              ih left.length hshorter
                (fun e he => htext e (by rw [hleft]; exact List.mem_append_right _ he)) hscan rfl
            refine ⟨_ :: words, back, offset', rfl, hback,
              List.forall_mem_cons.mpr ⟨hkind, hwords⟩, by simp, ?_⟩
            intro t ht
            obtain ⟨rfl, rfl⟩ := List.cons.inj ht
            exact ⟨_, _, ⟨[], left, hleft, by simp, hnil rfl⟩, hfits⟩

end Token

end ComparisonRules
