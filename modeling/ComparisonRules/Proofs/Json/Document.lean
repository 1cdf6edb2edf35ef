import ComparisonRules.Json.Document
import ComparisonRules.Proofs.Json.Numeral
import ComparisonRules.Proofs.Json.Quotation

/-!
# Written data read back

The document that written data holds: the data itself, with null in the place of every number
that is not finite. The text of the data is read as that document, whatever it is nested in.
-/

namespace ComparisonRules

namespace Json

/-- The numeral that is cut off the text of a decimal. -/
def Numeral.ofDecimal (negative : Bool) (d : Decimal) : Numeral :=
  match cutNumeral negative d.jsonText with
  | .ok cut => cut.part
  | .error _ => ⟨negative, [], [], 0, true⟩

/-- What a written number holds. -/
def Document.ofNumber : Number → Document
  | .nan => null
  | .signed negative m =>
      if m.isFinite then number (.ofDecimal negative (m.shortest .even)) else null

namespace Data

mutual

/-- What written data holds. -/
def document : Data → Document
  | null => .null
  | bool b => .bool b
  | number n => .ofNumber n
  | string s => .string (.ofString s)
  | array items => .array (itemsOf items)
  | object members => .object (membersOf members)

def itemsOf : List Data → Items
  | [] => .closed
  | item :: rest => .item item.document (itemsOf rest)

def membersOf : List (String × Data) → Members
  | [] => .closed
  | (name, item) :: rest => .member (.written (.ofString name)) item.document (membersOf rest)

end

end Data

/-! ## Numbers -/

theorem endsNumber_nil : EndsNumber [] :=
  Text.stopsAt_nil _

theorem endsNumber_cons {c : Char} {rest : List Char}
    (h : (c.isDigit || c == '.' || c == 'e' || c == 'E') = false) : EndsNumber (c :: rest) :=
  Text.stopsAt_cons h

theorem ofDecimal_spec (negative : Bool) {m : Magnitude} (hfinite : m.isFinite = true) :
    (Numeral.ofDecimal negative (m.shortest .even)).number = .signed negative m ∧
      ∀ rest, EndsNumber rest →
        cutNumeral negative ((m.shortest .even).jsonText ++ rest)
          = .ok ⟨.ofDecimal negative (m.shortest .even), rest⟩ := by
  obtain ⟨numeral, hnumber, hcut⟩ :=
    isNumeralOf_jsonText negative (m.length_digits_shortest .even hfinite)
  have heq : Numeral.ofDecimal negative (m.shortest .even) = numeral := by
    have halone := hcut [] endsNumber_nil
    rw [List.append_nil] at halone
    rw [Numeral.ofDecimal, halone]
  rw [heq, hnumber, Magnitude.magnitude_shortest .even hfinite]
  exact ⟨rfl, hcut⟩

theorem exists_digit_of_cutNumeral {negative : Bool} {cs : List Char} {cut : Cut Numeral}
    (h : cutNumeral negative cs = .ok cut) : ∃ d ds, cs = d :: ds ∧ d.isDigit = true := by
  obtain ⟨whole, hwhole, -⟩ := bind_eq_ok.mp h
  obtain ⟨digits, hdigits, -⟩ := bind_eq_ok.mp hwhole
  cases cs with
  | nil => cases hdigits
  | cons d ds =>
      refine ⟨d, ds, rfl, ?_⟩
      by_cases hdigit : d.isDigit = true
      · exact hdigit
      · rw [cutDigits, Decimal.splitDigits, List.takeWhile_cons_of_neg hdigit,
          List.dropWhile_cons_of_neg hdigit] at hdigits
        cases hdigits

/-! ## Lexemes -/

theorem lexemesFrom_cons {c : Char} {rest : List Char} (h : isBlank c = false) :
    lexemesFrom (c :: rest)
      = (cutLexeme c rest).part :: lexemesFrom (cutLexeme c rest).rest := by
  rw [lexemesFrom, if_neg (by simp [h])]

theorem cutLexeme_of_isDigit {d : Char} (h : d.isDigit = true) (rest : List Char) :
    cutLexeme d rest = cutNumber false (d :: rest) := by
  unfold cutLexeme
  split
  all_goals try exact absurd h (by decide)
  rw [if_neg, if_pos h]
  intro heq
  rw [heq] at h
  exact absurd h (by decide)

theorem isBlank_of_isDigit {d : Char} (h : d.isDigit = true) : isBlank d = false := by
  unfold isBlank
  simp only [Bool.or_eq_false_iff, beq_eq_false_iff_ne]
  refine ⟨⟨⟨?_, ?_⟩, ?_⟩, ?_⟩ <;> rintro rfl <;> exact absurd h (by decide)

theorem lexemesFrom_mark {c : Char} {mark : Lexeme} (hblank : isBlank c = false)
    (hcut : ∀ rest, cutLexeme c rest = ⟨mark, rest⟩) (rest : List Char) :
    lexemesFrom (c :: rest) = mark :: lexemesFrom rest := by
  rw [lexemesFrom_cons hblank, hcut]

theorem lexemesFrom_null (rest : List Char) :
    lexemesFrom ('n' :: 'u' :: 'l' :: 'l' :: rest) = .null :: lexemesFrom rest := by
  rw [lexemesFrom_cons (by decide)]
  rfl

theorem lexemesFrom_number (negative : Bool) {m : Magnitude} (hfinite : m.isFinite = true)
    {rest : List Char} (hrest : EndsNumber rest) :
    lexemesFrom (Number.signText negative ++ ((m.shortest .even).jsonText ++ rest))
      = .number (.ofDecimal negative (m.shortest .even)) :: lexemesFrom rest := by
  have hcut := (ofDecimal_spec negative hfinite).2 rest hrest
  have hnumber : cutNumber negative ((m.shortest .even).jsonText ++ rest)
      = ⟨.number (.ofDecimal negative (m.shortest .even)), rest⟩ := by
    rw [cutNumber, hcut]
  cases negative with
  | true =>
      change lexemesFrom ('-' :: ((m.shortest .even).jsonText ++ rest)) = _
      rw [lexemesFrom_cons (by decide)]
      change (cutNumber true _).part :: lexemesFrom (cutNumber true _).rest = _
      rw [hnumber]
  | false =>
      obtain ⟨d, ds, hds, hdigit⟩ := exists_digit_of_cutNumeral hcut
      change lexemesFrom ((m.shortest .even).jsonText ++ rest) = _
      rw [hds] at hnumber ⊢
      rw [lexemesFrom_cons (isBlank_of_isDigit hdigit), cutLexeme_of_isDigit hdigit, hnumber]

theorem lexemesFrom_string (s : String) (rest : List Char) :
    lexemesFrom (stringText s ++ rest) = .string (.ofString s) :: lexemesFrom rest := by
  have hcut := cutString_flatMap s.toList rest
  have htext : stringText s ++ rest
      = Text.doubleQuote :: (s.toList.flatMap escape ++ Text.doubleQuote :: rest) := by
    simp [stringText]
  have hlexeme : ∀ cs, cutLexeme Text.doubleQuote cs
      = ⟨.string (cutString cs).part, (cutString cs).rest⟩ := fun _ => rfl
  rw [htext, lexemesFrom_cons (by decide), hlexeme, hcut]
  rfl

theorem lexemesFrom_bool (b : Bool) (rest : List Char) :
    lexemesFrom (boolText b ++ rest) = .bool b :: lexemesFrom rest := by
  cases b with
  | true =>
      change lexemesFrom ('t' :: 'r' :: 'u' :: 'e' :: rest) = _
      rw [lexemesFrom_cons (by decide)]
      rfl
  | false =>
      change lexemesFrom ('f' :: 'a' :: 'l' :: 's' :: 'e' :: rest) = _
      rw [lexemesFrom_cons (by decide)]
      rfl

/-! ## Space between parts -/

/-- There is nothing but white space where the style puts space between the parts of data. -/
structure Style.IsSpaced (style : Style) : Prop where
  lineBreak : ∀ level, ∀ c ∈ style.lineBreak level, isBlank c = true
  separator : ∃ gap, style.separator = ':' :: gap ∧ ∀ c ∈ gap, isBlank c = true

theorem isSpaced_compact : Style.compact.IsSpaced :=
  ⟨by simp [Style.compact], [], rfl, by simp⟩

theorem isSpaced_pretty : Style.pretty.IsSpaced := by
  refine ⟨?_, [' '], rfl, List.all_eq_true.mp (by decide)⟩
  intro level c hc
  rcases List.mem_cons.mp hc with rfl | hspace
  · rfl
  · rw [List.eq_of_mem_replicate hspace]
    rfl

theorem lexemesFrom_blanks {gap : List Char} (h : ∀ c ∈ gap, isBlank c = true)
    (rest : List Char) : lexemesFrom (gap ++ rest) = lexemesFrom rest := by
  induction gap with
  | nil => rfl
  | cons c gap ih =>
      obtain ⟨hblank, hgap⟩ := List.forall_mem_cons.mp h
      rw [List.cons_append, lexemesFrom, if_pos hblank, ih hgap]

theorem endsNumber_blanks {gap rest : List Char} (h : ∀ c ∈ gap, isBlank c = true)
    (hrest : EndsNumber rest) : EndsNumber (gap ++ rest) := by
  cases gap with
  | nil => exact hrest
  | cons c gap =>
      apply endsNumber_cons
      have hblank := h c List.mem_cons_self
      simp only [isBlank, Bool.or_eq_true, beq_iff_eq] at hblank
      rcases hblank with ((rfl | rfl) | rfl) | rfl <;> decide

/-! ## Documents -/

section

variable {style : Style}

theorem write_array_cons (level : Nat) (first : Data) (items : List Data) :
    Data.write style level (.array (first :: items))
      = '[' :: (style.lineBreak (level + 1) ++ (Data.write style (level + 1) first
        ++ Data.writeItems style level items)) := by
  simp [Data.write]

theorem write_object_cons (level : Nat) (name : String) (first : Data)
    (members : List (String × Data)) :
    Data.write style level (.object ((name, first) :: members))
      = '\x7b' :: (style.lineBreak (level + 1) ++ (stringText name ++ (style.separator
        ++ (Data.write style (level + 1) first ++ Data.writeMembers style level members)))) := by
  simp [Data.write]

theorem writeItems_cons (level : Nat) (item : Data) (items : List Data) :
    Data.writeItems style level (item :: items)
      = ',' :: (style.lineBreak (level + 1) ++ (Data.write style (level + 1) item
        ++ Data.writeItems style level items)) := by
  simp [Data.writeItems]

theorem writeMembers_cons (level : Nat) (name : String) (item : Data)
    (members : List (String × Data)) :
    Data.writeMembers style level ((name, item) :: members)
      = ',' :: (style.lineBreak (level + 1) ++ (stringText name ++ (style.separator
        ++ (Data.write style (level + 1) item ++ Data.writeMembers style level members)))) := by
  simp [Data.writeMembers]

theorem lexemesFrom_comma (rest : List Char) :
    lexemesFrom (',' :: rest) = .comma :: lexemesFrom rest :=
  lexemesFrom_mark (by decide) (fun _ => rfl) rest

theorem atValue_number (n : Number) (stack : List Frame) {rest : List Char}
    (hrest : EndsNumber rest) :
    Document.atValue stack (lexemesFrom (n.jsonText ++ rest))
      = Document.behindValue stack (.ofNumber n) (lexemesFrom rest) := by
  cases n with
  | nan =>
      change Document.atValue stack (lexemesFrom ('n' :: 'u' :: 'l' :: 'l' :: rest)) = _
      rw [lexemesFrom_null, Document.atValue]
      rfl
  | signed negative m =>
      rw [Number.jsonText, Document.ofNumber]
      by_cases hfinite : m.isFinite = true
      · rw [if_pos hfinite, if_pos hfinite, List.append_assoc,
          lexemesFrom_number negative hfinite hrest, Document.atValue]
      · rw [if_neg hfinite, if_neg hfinite]
        change Document.atValue stack (lexemesFrom ('n' :: 'u' :: 'l' :: 'l' :: rest)) = _
        rw [lexemesFrom_null, Document.atValue]

variable (hstyle : style.IsSpaced)

include hstyle

theorem endsNumber_writeItems (level : Nat) (items : List Data) (rest : List Char) :
    EndsNumber (Data.writeItems style level items ++ rest) := by
  cases items with
  | nil =>
      rw [Data.writeItems, List.append_assoc]
      exact endsNumber_blanks (hstyle.lineBreak level) (endsNumber_cons (by decide))
  | cons item items =>
      rw [writeItems_cons]
      exact endsNumber_cons (by decide)

theorem endsNumber_writeMembers (level : Nat) (members : List (String × Data))
    (rest : List Char) : EndsNumber (Data.writeMembers style level members ++ rest) := by
  cases members with
  | nil =>
      rw [Data.writeMembers, List.append_assoc]
      exact endsNumber_blanks (hstyle.lineBreak level) (endsNumber_cons (by decide))
  | cons member members =>
      rw [writeMembers_cons]
      exact endsNumber_cons (by decide)

theorem lexemesFrom_member (level : Nat) (name : String) (rest : List Char) :
    lexemesFrom (style.lineBreak level ++ (stringText name ++ (style.separator ++ rest)))
      = .string (.ofString name) :: .colon :: lexemesFrom rest := by
  obtain ⟨gap, hseparator, hgap⟩ := hstyle.separator
  rw [lexemesFrom_blanks (hstyle.lineBreak level), lexemesFrom_string, hseparator,
    List.cons_append, @lexemesFrom_mark ':' .colon (by decide) (fun _ => rfl),
    lexemesFrom_blanks hgap]

mutual

theorem atValue_write (data : Data) (level : Nat) (stack : List Frame) {rest : List Char}
    (hrest : EndsNumber rest) :
    Document.atValue stack (lexemesFrom (data.write style level ++ rest))
      = Document.behindValue stack data.document (lexemesFrom rest) := by
  -- a value inside an array or object is read with one frame more
  cases data with
  | null =>
      change Document.atValue stack (lexemesFrom ('n' :: 'u' :: 'l' :: 'l' :: rest)) = _
      rw [lexemesFrom_null, Document.atValue]
      rfl
  | bool b =>
      rw [Data.write, lexemesFrom_bool, Document.atValue]
      rfl
  | number n => exact atValue_number n stack hrest
  | string s =>
      rw [Data.write, lexemesFrom_string, Document.atValue]
      rfl
  | array items =>
      cases items with
      | nil =>
          change Document.atValue stack (lexemesFrom ('[' :: ']' :: rest)) = _
          rw [@lexemesFrom_mark '[' .openArray (by decide) (fun _ => rfl),
            @lexemesFrom_mark ']' .closeArray (by decide) (fun _ => rfl), Document.atValue,
            Document.atValue]
          rfl
      | cons first items =>
          rw [write_array_cons, List.cons_append,
            @lexemesFrom_mark '[' .openArray (by decide) (fun _ => rfl), Document.atValue,
            List.append_assoc, lexemesFrom_blanks (hstyle.lineBreak _), List.append_assoc,
            atValue_write first _ _ (endsNumber_writeItems hstyle _ _ _),
            behindValue_writeItems items]
          rfl
  | object members =>
      cases members with
      | nil =>
          change Document.atValue stack (lexemesFrom ('\x7b' :: '\x7d' :: rest)) = _
          rw [@lexemesFrom_mark '\x7b' .openObject (by decide) (fun _ => rfl),
            @lexemesFrom_mark '\x7d' .closeObject (by decide) (fun _ => rfl), Document.atValue,
            Document.atName]
          rfl
      | cons member members =>
          obtain ⟨name, first⟩ := member
          rw [write_object_cons, List.cons_append,
            @lexemesFrom_mark '\x7b' .openObject (by decide) (fun _ => rfl), Document.atValue,
            List.append_assoc, List.append_assoc, List.append_assoc, lexemesFrom_member hstyle,
            Document.atName, List.append_assoc,
            atValue_write first _ _ (endsNumber_writeMembers hstyle _ _ _),
            behindValue_writeMembers members]
          rfl

theorem behindValue_writeItems (items : List Data) (level : Nat) (before : List Document)
    (stack : List Frame) (value : Document) (rest : List Char) :
    Document.behindValue (.array before :: stack) value
        (lexemesFrom (Data.writeItems style level items ++ rest))
      = Document.behindValue stack (.array (.prepend before (.item value (Data.itemsOf items))))
          (lexemesFrom rest) := by
  cases items with
  | nil =>
      rw [Data.writeItems, List.append_assoc, lexemesFrom_blanks (hstyle.lineBreak level)]
      change Document.behindValue _ _ (lexemesFrom (']' :: rest)) = _
      rw [@lexemesFrom_mark ']' .closeArray (by decide) (fun _ => rfl), Document.behindValue]
      rfl
  | cons item items =>
      rw [writeItems_cons, List.cons_append, lexemesFrom_comma, Document.behindValue,
        List.append_assoc, lexemesFrom_blanks (hstyle.lineBreak _), List.append_assoc,
        atValue_write item _ _ (endsNumber_writeItems hstyle _ _ _),
        behindValue_writeItems items]
      rfl

theorem behindValue_writeMembers (members : List (String × Data)) (level : Nat)
    (before : List (Name × Document)) (name : Name) (stack : List Frame) (value : Document)
    (rest : List Char) :
    Document.behindValue (.object before name :: stack) value
        (lexemesFrom (Data.writeMembers style level members ++ rest))
      = Document.behindValue stack
          (.object (.prepend before (.member name value (Data.membersOf members))))
          (lexemesFrom rest) := by
  cases members with
  | nil =>
      rw [Data.writeMembers, List.append_assoc, lexemesFrom_blanks (hstyle.lineBreak level)]
      change Document.behindValue _ _ (lexemesFrom ('\x7d' :: rest)) = _
      rw [@lexemesFrom_mark '\x7d' .closeObject (by decide) (fun _ => rfl), Document.behindValue]
      rfl
  | cons member members =>
      obtain ⟨name', item⟩ := member
      rw [writeMembers_cons, List.cons_append, lexemesFrom_comma, Document.behindValue,
        List.append_assoc, List.append_assoc, List.append_assoc, lexemesFrom_member hstyle,
        Document.atName, List.append_assoc,
        atValue_write item _ _ (endsNumber_writeMembers hstyle _ _ _),
        behindValue_writeMembers members]
      rfl

end

/-- The text of data holds the data, and nothing stands behind it. -/
theorem ofText_write (data : Data) :
    Document.ofText (String.ofList (data.write style 0)) = (data.document, []) := by
  have hread := atValue_write hstyle data 0 [] endsNumber_nil
  rw [List.append_nil] at hread
  rw [Document.ofText, lexemes, String.toList_ofList, hread, lexemesFrom]
  rfl

end

end Json

end ComparisonRules
