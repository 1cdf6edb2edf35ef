import ComparisonRules.Proofs.Rule.Text
import ComparisonRules.Proofs.Token.Marks

/-!
# The order of tokens

The tokens of a rule are followed from left to right without building the rule. At each place
only some kinds may stand, and the groups that are open are counted. Whatever the grammar
derives can be followed to its end, and closes what it opens. So only a few characters can start
a text that compiles.
-/

namespace ComparisonRules.Rule

/-- What may stand at a place. Behind the left side of a comparison it matters whether that was a
name, for then the right side is a literal. -/
inductive Awaited where
  | operand
  | comparator (named : Bool)
  | side (named : Bool)
  | joint

/-- What may stand behind a token and how many groups are open there, if the token may stand at
its place at all. -/
def advance (state : Awaited × Nat) (token : Token) : Option (Awaited × Nat) :=
  match state, token.kind with
  | (.operand, opened), .leftParen => some (.operand, opened + 1)
  | (.operand, opened), .identifier => some (.comparator true, opened)
  | (.operand, opened), .number => some (.comparator false, opened)
  | (.operand, opened), .string => some (.comparator false, opened)
  | (.comparator named, opened), .comparator _ => some (.side named, opened)
  | (.side true, opened), .number => some (.joint, opened)
  | (.side true, opened), .string => some (.joint, opened)
  | (.side false, opened), .identifier => some (.joint, opened)
  | (.joint, opened), .connective _ => some (.operand, opened)
  | (.joint, opened + 1), .rightParen => some (.joint, opened)
  | _, _ => none

section

variable (token : Token) (opened : Nat)

theorem advance_operand :
    advance (.operand, opened) token =
      match token.kind with
      | .leftParen => some (.operand, opened + 1)
      | .identifier => some (.comparator true, opened)
      | .number => some (.comparator false, opened)
      | .string => some (.comparator false, opened)
      | _ => none := by
  obtain ⟨kind, lexeme, literal, offset⟩ := token
  cases kind <;> rfl

theorem advance_comparator (named : Bool) :
    advance (.comparator named, opened) token =
      match token.kind with
      | .comparator _ => some (.side named, opened)
      | _ => none := by
  obtain ⟨kind, lexeme, literal, offset⟩ := token
  cases kind <;> rfl

theorem advance_side (named : Bool) :
    advance (.side named, opened) token =
      match token.kind with
      | .number => if named then some (.joint, opened) else none
      | .string => if named then some (.joint, opened) else none
      | .identifier => if named then none else some (.joint, opened)
      | _ => none := by
  obtain ⟨kind, lexeme, literal, offset⟩ := token
  cases named <;> cases kind <;> rfl

theorem advance_joint :
    advance (.joint, opened) token =
      match token.kind with
      | .connective _ => some (.operand, opened)
      | .rightParen => if opened = 0 then none else some (.joint, opened - 1)
      | _ => none := by
  obtain ⟨kind, lexeme, literal, offset⟩ := token
  cases opened <;> cases kind <;> rfl

end

def follow (state : Awaited × Nat) (tokens : List Token) : Option (Awaited × Nat) :=
  tokens.foldlM advance state

@[simp] theorem follow_nil (state : Awaited × Nat) : follow state [] = some state := rfl

@[simp] theorem follow_cons (state : Awaited × Nat) (token : Token) (tokens : List Token) :
    follow state (token :: tokens) = (advance state token).bind fun next => follow next tokens :=
  rfl

@[simp] theorem follow_append (state : Awaited × Nat) (front back : List Token) :
    follow state (front ++ back) = (follow state front).bind fun next => follow next back := by
  rw [follow, List.foldlM_append]
  rfl

section

variable {token : Token} (opened : Nat)

theorem advance_opening (h : token.kind = .leftParen) :
    advance (.operand, opened) token = some (.operand, opened + 1) := by
  simp [advance_operand, h]

theorem advance_connective {connective : Connective} (h : token.kind = .connective connective) :
    advance (.joint, opened) token = some (.operand, opened) := by
  simp [advance_joint, h]

theorem advance_closing (h : token.kind = .rightParen) :
    advance (.joint, opened + 1) token = some (.joint, opened) := by
  simp [advance_joint, h]

end

/-- What stands at the start of a phrase. -/
def Phrase.awaited : Phrase → Awaited
  | links _ _ => .joint
  | _ => .operand

@[simp] theorem Phrase.awaited_operand (connective : Connective) :
    (operand connective).awaited = .operand := by
  cases connective <;> rfl

theorem Derives.follow_eq {phrase : Phrase} {tokens : List Token} {rule : Rule}
    (h : Derives phrase tokens rule) (opened : Nat) :
    follow (phrase.awaited, opened) tokens = some (.joint, opened) := by
  induction h generalizing opened with
  | chain _ _ ihFirst ihRest =>
      rw [Phrase.awaited_operand] at ihFirst
      change follow (.operand, opened) _ = _
      rw [follow_append, ihFirst]
      exact ihRest opened
  | done => rfl
  | link hjoint _ _ ihOperand ihRest =>
      rw [Phrase.awaited_operand] at ihOperand
      change follow (.joint, opened) _ = _
      rw [follow_cons, advance_connective opened hjoint, Option.bind_some, follow_append,
        ihOperand]
      exact ihRest opened
  | group hopening hclosing _ ih =>
      change follow (.operand, opened) _ = _
      have hinner : follow (.operand, opened + 1) _ = _ := ih (opened + 1)
      rw [follow_cons, advance_opening opened hopening, Option.bind_some, follow_append, hinner,
        Option.bind_some, follow_cons, advance_closing opened hclosing]
      rfl
  | fieldFirst hfield hoperator hliteral _ =>
      rcases hliteral with hliteral | hliteral <;>
        simp [Phrase.awaited, advance_operand, advance_comparator, advance_side, hfield, hoperator,
          hliteral]
  | literalFirst hliteral _ hoperator hfield =>
      rcases hliteral with hliteral | hliteral <;>
        simp [Phrase.awaited, advance_operand, advance_comparator, advance_side, hfield, hoperator,
          hliteral]

/-! ## First characters -/

/-- The characters that an operand starts with. -/
def StartsOperand (c : Char) : Prop :=
  c = '(' ∨ Token.isQuote c = true ∨ c.isDigit = true ∨ Token.isNameStart c = true

theorem startsOperand_of_fits {token : Token} {opened : Nat} {next : Awaited × Nat} {c : Char}
    {cs rest : List Char} (h : advance (.operand, opened) token = some next)
    (hfits : Token.Fits token.kind (c :: cs) token.literal rest) : StartsOperand c := by
  generalize hkind : token.kind = kind at hfits
  generalize token.literal = literal at hfits
  generalize hchars : c :: cs = chars at hfits
  cases hfits with
  | leftParen =>
      cases hchars
      exact .inl rfl
  | identifier hname _ _ _ =>
      obtain ⟨first, more, rfl, hfirst, -⟩ := hname
      cases hchars
      exact .inr (.inr (.inr hfirst))
  | number hplain _ _ _ =>
      obtain ⟨d, ds, rfl, hdigit⟩ := hplain.exists_head
      cases hchars
      exact .inr (.inr (.inl hdigit))
  | string hquote _ =>
      cases hchars
      rcases hquote with rfl | rfl <;> exact .inr (.inl (by decide))
  | _ => simp [advance_operand, hkind] at h

theorem exists_head_of_compile {source : String} {rule : Rule}
    (h : compile source = .ok rule) :
    ∃ c cs, source.toList.dropWhile Text.isBlank = c :: cs ∧ StartsOperand c := by
  obtain ⟨tokens, hscan, hread⟩ := compile_eq_ok.mp h
  have hfollow := (derives_of_ofTokens hread).1.follow_eq 0
  have hblanks := @Token.ScansAs.blanks (source.toList.takeWhile Text.isBlank)
    (fun c hc => Text.of_mem_takeWhile hc) 0 (source.toList.dropWhile Text.isBlank)
  unfold Token.ScansAs at hblanks
  rw [List.takeWhile_append_dropWhile, ← Token.scan, hscan] at hblanks
  obtain ⟨more, hmore, heq⟩ := bind_eq_ok.mp hblanks.symm
  cases heq
  cases hdrop : source.toList.dropWhile Text.isBlank with
  | nil =>
      rw [hdrop, Token.scanFrom] at hmore
      cases hmore
      cases hfollow
  | cons c cs =>
      have hblank : Text.isBlank c = false :=
        Text.stopsAt_dropWhile Text.isBlank source.toList c (by rw [hdrop]; rfl)
      rw [hdrop] at hmore
      obtain ⟨kind, chars, literal, behind, tokens', hchars, hfits, rfl, -⟩ :=
        Token.exists_of_scanFrom_cons hmore hblank
      obtain ⟨d, ds, rfl, -⟩ := hfits.exists_head
      obtain ⟨rfl, -⟩ := List.cons.inj hchars
      rw [List.nil_append, inputOf, List.takeWhile_cons_of_pos (by simpa using hfits.kind_ne)]
        at hfollow
      obtain ⟨next, hstep, -⟩ := Option.bind_eq_some_iff.mp hfollow
      exact ⟨c, cs, rfl, startsOperand_of_fits hstep hfits⟩

theorem isBlankText_of_compile {source : String} {rule : Rule} (h : compile source = .ok rule) :
    Text.isBlankText source = false := by
  obtain ⟨c, cs, hdrop, -⟩ := exists_head_of_compile h
  rw [Bool.eq_false_iff]
  intro hblank
  have hall := List.all_eq_true.mp hblank
  rw [← List.append_nil source.toList, Text.dropWhile_append_of_stopsAt hall
    (Text.stopsAt_nil _)] at hdrop
  cases hdrop

theorem not_startsOperand_of_startsComparator {c : Char} (h : Token.StartsComparator c) :
    ¬ StartsOperand c := by
  unfold StartsOperand
  rcases h with rfl | rfl | rfl | rfl <;> decide

theorem ofSymbol?_of_compile {source : String} {rule : Rule} (h : compile source = .ok rule) :
    Comparator.ofSymbol? source = none := by
  obtain ⟨c, cs, hdrop, hstarts⟩ := exists_head_of_compile h
  rw [Comparator.ofSymbol?, List.find?_eq_none]
  intro comparator _ hsymbol
  have hfits := @Token.Fits.comparator comparator [] fun _ => by simp
  obtain ⟨d, ds, hchars, hblank⟩ := hfits.exists_head
  rw [← beq_iff_eq.mp hsymbol, hchars, List.dropWhile_cons_of_neg (by simp [hblank])] at hdrop
  obtain ⟨rfl, -⟩ := List.cons.inj hdrop
  have hcomparator := @Token.comparatorAt?_of_symbol comparator d ds [] (fun _ => by simp) hchars
  exact not_startsOperand_of_startsComparator hcomparator.1 hstarts

end ComparisonRules.Rule
