import ComparisonRules.Token.Scan

/-!
# Classes of characters

White space and the characters of names have nothing in common, and below the first letter
there are no names. Beside these facts stand the bytes that a text takes, and how far a run
of characters of one class goes.
-/

namespace ComparisonRules

namespace Text

/-! ## Ranges -/

/-- No range of the one table meets a range of the other. -/
def Ranges.disjoint (ranges others : Ranges) : Bool :=
  ranges.all fun range => others.all fun other =>
    decide (range.2 < other.1) || decide (other.2 < range.1)

theorem Ranges.contains_eq_false_of_disjoint {ranges others : Ranges}
    (h : ranges.disjoint others = true) {n : Nat} (hn : ranges.contains n = true) :
    others.contains n = false := by
  rw [Bool.eq_false_iff]
  intro hother
  obtain ⟨range, hrange, hlow, hhigh⟩ := exists_range_of_contains hn
  obtain ⟨other, hmem, hlow', hhigh'⟩ := exists_range_of_contains hother
  have hpair := List.all_eq_true.mp (List.all_eq_true.mp h range hrange) other hmem
  simp only [Bool.or_eq_true, decide_eq_true_eq] at hpair
  omega

theorem blankRanges_disjoint_alphabeticRanges :
    blankRanges.disjoint alphabeticRanges = true := by
  decide +kernel

theorem blankRanges_disjoint_numericRanges :
    blankRanges.disjoint numericRanges = true := by
  decide +kernel

theorem isAlphanumeric_of_isBlank {c : Char} (h : isBlank c = true) :
    isAlphanumeric c = false := by
  unfold isAlphanumeric isAlphabetic
  rw [Ranges.contains_eq_false_of_disjoint blankRanges_disjoint_alphabeticRanges h,
    Ranges.contains_eq_false_of_disjoint blankRanges_disjoint_numericRanges h]
  rfl

theorem isAlphabetic_of_lt {c : Char} (h : c.toNat < 0x41) : isAlphabetic c = false := by
  unfold isAlphabetic alphabeticRanges Ranges.contains
  rw [decide_eq_false (by omega), Bool.false_and]

/-! ## Bytes -/

theorem utf8ByteSize_ofList (cs : List Char) :
    (String.ofList cs).utf8ByteSize = byteLength cs := by
  induction cs with
  | nil => rfl
  | cons c cs ih =>
      have hhead : [c].utf8Encode.size = c.utf8Size := by
        rw [List.utf8Encode_singleton, List.size_toByteArray, String.length_utf8EncodeChar]
      rw [← String.size_toByteArray, String.toByteArray_ofList] at ih ⊢
      rw [List.utf8Encode_cons, ByteArray.size_append, ih, hhead, byteLength_cons]

theorem byteLength_toList (text : String) : byteLength text.toList = text.utf8ByteSize := by
  rw [← utf8ByteSize_ofList, String.ofList_toList]

theorem length_le_byteLength (cs : List Char) : cs.length ≤ byteLength cs := by
  induction cs with
  | nil => exact Nat.le_refl _
  | cons c cs ih =>
      have hpos := c.utf8Size_pos
      simp only [List.length_cons, byteLength_cons]
      omega

theorem isValid_byteLength {text : String} {before behind : List Char}
    (h : text.toList = before ++ behind) :
    (⟨byteLength before⟩ : String.Pos.Raw).IsValid text := by
  rw [String.Pos.Raw.isValid_iff_exists_append]
  refine ⟨String.ofList before, String.ofList behind, ?_, ?_⟩
  · rw [← String.ofList_append, ← h, String.ofList_toList]
  · rw [String.Pos.Raw.ext_iff, String.byteIdx_rawEndPos, utf8ByteSize_ofList]

/-! ## Runs of one class -/

/-- The text does not go on with a character of the class. -/
def StopsAt (p : Char → Bool) (cs : List Char) : Prop :=
  ∀ c, cs.head? = some c → p c = false

theorem stopsAt_nil (p : Char → Bool) : StopsAt p [] := by
  intro c h
  cases h

theorem stopsAt_cons {p : Char → Bool} {c : Char} {cs : List Char} (h : p c = false) :
    StopsAt p (c :: cs) := by
  rintro d ⟨⟩
  exact h

theorem stopsAt_dropWhile (p : Char → Bool) (cs : List Char) : StopsAt p (cs.dropWhile p) := by
  intro c h
  have hnot := List.head?_dropWhile_not p cs
  rw [h] at hnot
  simpa using hnot

theorem takeWhile_append_of_stopsAt {p : Char → Bool} {run rest : List Char}
    (hrun : ∀ c ∈ run, p c = true) (hrest : StopsAt p rest) :
    (run ++ rest).takeWhile p = run := by
  rw [List.takeWhile_append_of_pos hrun]
  cases rest with
  | nil => simp
  | cons c rest => simp [hrest c rfl]

theorem dropWhile_append_of_stopsAt {p : Char → Bool} {run rest : List Char}
    (hrun : ∀ c ∈ run, p c = true) (hrest : StopsAt p rest) :
    (run ++ rest).dropWhile p = rest := by
  rw [List.dropWhile_append_of_pos hrun]
  cases rest with
  | nil => simp
  | cons c rest => simp [hrest c rfl]

theorem of_mem_takeWhile {p : Char → Bool} {cs : List Char} {c : Char}
    (h : c ∈ cs.takeWhile p) : p c = true :=
  List.all_eq_true.mp List.all_takeWhile c h

end Text

namespace Token

theorem isNameStart_of_lt {c : Char} (h : c.toNat < 0x41) : isNameStart c = false := by
  unfold isNameStart
  rw [Text.isAlphabetic_of_lt h, Bool.or_false]
  exact beq_eq_false_iff_ne.mpr (by rintro rfl; simp at h)

theorem isNamePart_of_isNameStart {c : Char} (h : isNameStart c = true) :
    isNamePart c = true := by
  unfold isNameStart at h
  unfold isNamePart Text.isAlphanumeric
  cases hc : c == '_' <;> simp_all

theorem isBlank_of_isNamePart {c : Char} (h : isNamePart c = true) :
    Text.isBlank c = false := by
  rw [Bool.eq_false_iff]
  intro hblank
  unfold isNamePart at h
  rw [Text.isAlphanumeric_of_isBlank hblank, Bool.or_false] at h
  rw [beq_iff_eq.mp h] at hblank
  exact absurd hblank (by decide)

theorem toNat_of_isDigit {c : Char} (h : c.isDigit = true) : 48 ≤ c.toNat ∧ c.toNat ≤ 57 := by
  simp only [Char.isDigit, Bool.and_eq_true, decide_eq_true_eq] at h
  exact h

theorem isBlank_of_isDigit {c : Char} (h : c.isDigit = true) : Text.isBlank c = false := by
  obtain ⟨hlow, hhigh⟩ := toNat_of_isDigit h
  unfold Text.isBlank Text.blankRanges
  simp [Text.Ranges.contains]
  omega

end Token

end ComparisonRules
