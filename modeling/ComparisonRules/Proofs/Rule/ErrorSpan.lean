import ComparisonRules.Error
import ComparisonRules.Proofs.Rule.Refusal
import ComparisonRules.Proofs.Token.Refusal

/-!
# Where errors point

The bytes that an error points at are a part of the text, between two characters of it or at its
end. A lexical error points at the character, quote or numeral that it names. A parse error points
at a token, or behind the last byte if the text ends too early.
-/

namespace ComparisonRules

namespace Text

/-- The bytes of a text from one place up to another are those of a part of it. -/
structure IsPart (text : String) (start stop : Nat) (before part behind : List Char) : Prop where
  text_eq : text.toList = before ++ (part ++ behind)
  start_eq : start = byteLength before
  stop_eq : stop = start + byteLength part

namespace IsPart

variable {text : String} {start stop : Nat} {before part behind : List Char}

theorem stop_le (h : IsPart text start stop before part behind) : stop ≤ text.utf8ByteSize := by
  rw [← byteLength_toList, h.text_eq, byteLength_append, byteLength_append, h.stop_eq, h.start_eq]
  omega

theorem isValid_start (h : IsPart text start stop before part behind) :
    (⟨start⟩ : String.Pos.Raw).IsValid text := by
  rw [h.start_eq]
  exact isValid_byteLength h.text_eq

theorem isValid_stop (h : IsPart text start stop before part behind) :
    (⟨stop⟩ : String.Pos.Raw).IsValid text := by
  rw [h.stop_eq, h.start_eq, ← byteLength_append]
  exact isValid_byteLength (by rw [h.text_eq, List.append_assoc])

theorem eq_nil (h : IsPart text start stop before part behind) (heq : start = stop) :
    part = [] := by
  have hlength := length_le_byteLength part
  have hstop := h.stop_eq
  exact List.eq_nil_of_length_eq_zero (by omega)

end IsPart

end Text

/-- What an error says of the part of the text that it points at. -/
def CompileError.Cites (before part behind : List Char) : CompileError → Prop
  | .lex (.unexpectedChar _ found) => part = [found]
  | .lex (.unterminatedString _) =>
      ∃ quote, (quote = Text.singleQuote ∨ quote = Text.doubleQuote) ∧ part = [quote] ∧
        quote ∉ behind
  | .lex (.numberTooLarge _ _) => Decimal.IsWholeNumeral before part behind
  | .parse e => e.found = if part = [] then "end of input" else "'" ++ String.ofList part ++ "'"

namespace Rule

theorem compile_eq_error {text : String} {e : CompileError} (h : compile text = .error e) :
    (∃ cause, e = .lex cause ∧ Token.scan text = .error cause) ∨
      ∃ cause tokens, e = .parse cause ∧ Token.scan text = .ok tokens ∧
        ofTokens tokens = .error cause := by
  unfold compile at h
  cases hscan : Token.scan text with
  | error cause =>
      rw [hscan] at h
      cases h
      exact .inl ⟨cause, rfl, rfl⟩
  | ok tokens =>
      rw [hscan] at h
      dsimp only at h
      split at h
      · rename_i cause hread
        cases h
        exact .inr ⟨cause, tokens, rfl, rfl, hread⟩
      · cases h

theorem Junction.joint_mem {input : List Token} (junction : Junction input) :
    junction.joint ∈ input := by
  have hmem : junction.joint ∈ junction.before
      ++ (junction.first ++ junction.joint :: (junction.second ++ junction.after)) :=
    List.mem_append_right _ (List.mem_append_right _ List.mem_cons_self)
  rwa [← junction.input_eq] at hmem

theorem exists_describing_of_ofTokens {tokens : List Token} {e : ParseError}
    (h : ofTokens tokens = .error e) :
    ∃ token ∈ inputOf tokens ++ [stopOf tokens], e = .describing token e.expected := by
  have hread := ofTokens_eq_error.mp h
  by_cases he : e.expected = .fewerJoints
  · obtain ⟨junction, hjunction, -⟩ :=
      exists_junction_of_run (fun token htoken => (of_mem_inputOf htoken).2) hread he
    exact ⟨junction.joint, List.mem_append_left _ junction.joint_mem, he ▸ hjunction⟩
  · obtain ⟨front, token, back, progress, heq, -, hstep⟩ := Progress.exists_of_run_eq_error hread
    have hrefused := (refused_or_joinFails hstep).resolve_right (by
      rintro ⟨rule, -, hfails⟩
      exact he hfails.expected_eq)
    refine ⟨token, ?_, hrefused.eq_describing⟩
    rw [heq]
    simp

theorem exists_isPart_of_scan {text : String} {e : LexError} (h : Token.scan text = .error e) :
    ∃ before part behind, Text.IsPart text e.span.1 e.span.2 before part behind ∧ part ≠ [] ∧
      (CompileError.lex e).Cites before part behind := by
  obtain ⟨before, c, rest, tokens, htext, -, -, hrefuses⟩ := Token.exists_refuses_of_scan h
  have hpart : Text.IsPart text (Text.byteLength before) (Text.byteLength before + c.utf8Size)
      before [c] rest := ⟨htext, rfl, rfl⟩
  cases hrefuses with
  | unexpectedChar _ _ _ _ _ => exact ⟨before, [c], rest, hpart, by simp, rfl⟩
  | loneSign _ _ => exact ⟨before, [c], rest, hpart, by simp, rfl⟩
  | unterminatedString hquote hopen =>
      have hsize : c.utf8Size = 1 := by rcases hquote with rfl | rfl <;> rfl
      rw [hsize] at hpart
      exact ⟨before, [c], rest, hpart, by simp, c, hquote, rfl, hopen⟩
  | @numberTooLarge chars behind heq hwhole _ =>
      refine ⟨before, chars, behind, ⟨by rw [htext, heq], rfl, rfl⟩, ?_, hwhole⟩
      obtain ⟨d, ds, rfl, -⟩ := hwhole.plain.exists_head
      exact List.cons_ne_nil _ _

theorem exists_isPart_of_ofTokens {text : String} {tokens : List Token} {e : ParseError}
    (hscan : Token.scan text = .ok tokens) (h : ofTokens tokens = .error e) :
    ∃ before part behind, Text.IsPart text e.span.1 e.span.2 before part behind ∧
      (part = [] → behind = []) ∧ (CompileError.parse e).Cites before part behind := by
  obtain ⟨token, htoken, he⟩ := exists_describing_of_ofTokens h
  obtain ⟨pieces, rfl, hcuts⟩ := Token.cuts_of_scanFrom hscan
  rw [Nat.zero_add, Text.byteLength_toList] at htoken
  have hkinds : ∀ t ∈ pieces, t.kind ≠ .endOfInput := by
    intro t ht
    obtain ⟨_, _, -, -, hfits⟩ := hcuts.placed t ht
    exact hfits.kind_ne
  rw [inputOf_append_endAt hkinds, stopOf_append hkinds rfl] at htoken
  rw [he]
  rcases List.mem_append.mp htoken with htoken | htoken
  · obtain ⟨before, behind, htext, hoffset, hfits⟩ := hcuts.placed token htoken
    rw [Nat.zero_add] at hoffset
    refine ⟨before, token.lexeme.toList, behind, ⟨htext, hoffset, rfl⟩, fun hnil => ?_, ?_⟩
    · exact absurd hnil hfits.ne_nil
    · simp [CompileError.Cites, ParseError.describing, Token.description, hfits.ne_nil,
        hkinds token htoken]
  · rw [List.mem_singleton.mp htoken]
    refine ⟨text.toList, [], [], ⟨by simp, ?_, rfl⟩, fun _ => rfl, rfl⟩
    exact (Text.byteLength_toList text).symm

/-- Every error of a text points at a part of it, which is between two of its characters and ends
within it, so cutting the place off at the end of the text would change nothing. Only a parse error
may point at no bytes at all, behind the end of the text. A lexical error points at the character
that is unexpected, at the quote that is not closed, or at the whole numeral that is too large; a
parse error points at what it says it found. -/
theorem compile_error_points_into_text {text : String} {e : CompileError}
    (h : compile text = .error e) :
    ∃ start stop before part behind, (RuleError.compile e).span = some (start, stop) ∧
      Text.IsPart text start stop before part behind ∧
      start ≤ stop ∧ stop ≤ text.utf8ByteSize ∧
      (⟨start⟩ : String.Pos.Raw).IsValid text ∧ (⟨stop⟩ : String.Pos.Raw).IsValid text ∧
      min start text.utf8ByteSize = start ∧ min stop text.utf8ByteSize = stop ∧
      (start = stop → stop = text.utf8ByteSize ∧ ∃ cause, e = .parse cause) ∧
      e.Cites before part behind := by
  have hpoints : ∃ before part behind, Text.IsPart text e.span.1 e.span.2 before part behind ∧
      (part = [] → behind = [] ∧ ∃ cause, e = .parse cause) ∧ e.Cites before part behind := by
    rcases compile_eq_error h with ⟨cause, rfl, hscan⟩ | ⟨cause, tokens, rfl, hscan, hread⟩
    · obtain ⟨before, part, behind, hpart, hne, hcites⟩ := exists_isPart_of_scan hscan
      exact ⟨before, part, behind, hpart, fun hnil => absurd hnil hne, hcites⟩
    · obtain ⟨before, part, behind, hpart, hend, hcites⟩ := exists_isPart_of_ofTokens hscan hread
      exact ⟨before, part, behind, hpart, fun hnil => ⟨hend hnil, cause, rfl⟩, hcites⟩
  obtain ⟨before, part, behind, hpart, hend, hcites⟩ := hpoints
  have hle : e.span.1 ≤ e.span.2 := by
    have hstop := hpart.stop_eq
    omega
  refine ⟨e.span.1, e.span.2, before, part, behind, rfl, hpart, hle, hpart.stop_le,
    hpart.isValid_start, hpart.isValid_stop, Nat.min_eq_left (Nat.le_trans hle hpart.stop_le),
    Nat.min_eq_left hpart.stop_le, ?_, hcites⟩
  intro heq
  obtain ⟨hbehind, hcause⟩ := hend (hpart.eq_nil heq)
  refine ⟨?_, hcause⟩
  rw [← Text.byteLength_toList, hpart.text_eq, hpart.eq_nil heq, hbehind, List.append_nil,
    List.append_nil, ← heq, hpart.start_eq]

/-- A name of two letters with four bytes in the place of a comparator. -/
theorem compile_error_points_into_text_name :
    ∃ before part behind, Text.IsPart "größe öß" 8 12 before part behind ∧
      (CompileError.parse ⟨.comparator, "'öß'", 8, 4⟩).Cites before part behind := by
  have hcompile : compile "größe öß" = .error (.parse ⟨.comparator, "'öß'", 8, 4⟩) := by
    decide +kernel
  obtain ⟨start, stop, before, part, behind, hspan, hpart, -, -, -, -, -, -, -, hcites⟩ :=
    compile_error_points_into_text hcompile
  cases hspan
  exact ⟨before, part, behind, hpart, hcites⟩

end Rule

end ComparisonRules
