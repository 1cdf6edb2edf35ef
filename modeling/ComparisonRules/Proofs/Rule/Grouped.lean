import ComparisonRules.Proofs.Rule.Text
import ComparisonRules.Proofs.Token.Moved
import ComparisonRules.Rule.Combine

/-!
# Combined rules as texts

Rules can be combined after compiling, or their texts can be combined and compiled: every text
in parentheses, with the connective between them. Both build the same rule, and both go too
deep at the same place. The reader recomputes the depth of what it has joined so far at every
link, where combining carries it along.
-/

namespace ComparisonRules.Rule

/-! ## Moved tokens -/

theorem Derives.map_movedBy {phrase : Phrase} {tokens : List Token} {rule : Rule}
    (h : Derives phrase tokens rule) (distance : Nat) :
    Derives phrase (tokens.map (Token.movedBy distance)) rule := by
  induction h with
  | chain _ _ ihFirst ihRest =>
      rw [List.map_append]
      exact .chain ihFirst ihRest
  | done => exact .done
  | link hjoint _ _ ihOperand ihRest =>
      rw [List.map_cons, List.map_append]
      exact .link hjoint ihOperand ihRest
  | group hopening hclosing _ ih =>
      rw [List.map_cons, List.map_append]
      exact .group hopening hclosing ih
  | @fieldFirst field _ _ _ _ hfield hoperator hliteral hvalue =>
      exact @Derives.fieldFirst (field.movedBy distance) _ _ _ _ hfield hoperator hliteral hvalue
  | @literalFirst _ _ field _ _ hliteral hvalue hoperator hfield =>
      exact @Derives.literalFirst _ _ (field.movedBy distance) _ _ hliteral hvalue hoperator
        hfield

theorem GroupsWithin.map_movedBy {limit : Int} {tokens : List Token}
    (h : GroupsWithin limit tokens) (distance : Nat) :
    GroupsWithin limit (tokens.map (Token.movedBy distance)) := by
  induction tokens generalizing limit with
  | nil => exact groupsWithin_nil limit
  | cons token tokens ih =>
      rw [groupsWithin_cons] at h
      rw [List.map_cons, groupsWithin_cons]
      exact ⟨h.1, ih h.2⟩

/-! ## A text in parentheses -/

/-- No parenthesis of the text opens inside of as many others as the limit says. -/
def NestsWithin (limit : Nat) (source : String) : Prop :=
  ∀ tokens, Token.scan source = .ok tokens → GroupsWithin limit (inputOf tokens)

def groupChars (source : String) : List Char :=
  '(' :: (source.toList ++ [')'])

theorem nestsWithin_text {rule : Rule} (h : ∀ c ∈ rule.comparisons, c.IsWritable) :
    NestsWithin rule.depth rule.text := by
  intro tokens hscan
  obtain ⟨found, hfound, -, hgroups⟩ := exists_scan_text h
  rw [hfound] at hscan
  cases hscan
  exact hgroups

theorem spelledBy_groupChars {source : String} {rule : Rule} (h : compile source = .ok rule)
    {limit : Nat} (hnests : NestsWithin limit source) :
    SpelledBy .term (limit + 1) (groupChars source) rule := by
  obtain ⟨tokens, hscan, hread⟩ := compile_eq_ok.mp h
  obtain ⟨hderives, -, -⟩ := derives_of_ofTokens hread
  have hgroups := hnests tokens hscan
  refine spelledBy_of_closing fun offset rest => ?_
  obtain ⟨pieces, stop, rfl, hkinds, hpieces⟩ :=
    Token.scansAs_of_scanFrom hscan Token.endsToken_closing offset rest
  rw [inputOf_append_endAt hkinds] at hderives hgroups
  rw [Nat.zero_add] at hpieces
  exact ⟨_, hpieces, hderives.map_movedBy offset, hgroups.map_movedBy offset⟩

/-! ## Links -/

/-- A connective with the operand behind it, a term that is read within the limits. -/
structure Link (connective : Connective) where
  joint : Token
  operand : List Token
  rule : Rule
  joint_kind : joint.kind = .connective connective
  derives : Derives .term operand rule
  groups : GroupsWithin maxDepth operand
  depth_le : rule.depth ≤ maxDepth

section

variable {connective : Connective} {stop : Token}

def Link.tokens (link : Link connective) : List Token :=
  link.joint :: link.operand

theorem closedBy_flatMap_tokens (links : List (Link connective)) :
    (Phrase.operand connective).ClosedBy (links.flatMap Link.tokens) := by
  cases links with
  | nil => exact Phrase.closedBy_nil _
  | cons link links => exact Phrase.closedBy_operand_cons link.joint_kind

theorem operandReader_of_derives {tokens : List Token} {rule : Rule}
    (hderives : Derives .term tokens rule) (hgroups : GroupsWithin maxDepth tokens)
    (hdepth : rule.depth ≤ maxDepth) (links : List (Link connective)) :
    operandReader stop maxDepth connective (tokens ++ links.flatMap Link.tokens)
      = .ok (rule, links.flatMap Link.tokens) :=
  reads_operand.mp ((hderives.operand_of_term connective).reads hgroups hdepth
    (closedBy_flatMap_tokens links))

/-- Reading links is combining their rules: it gives the same rule, or it is refused at the
connective in front of the rule that combining refuses. -/
theorem readLinks_eq_combineOnto (links : List (Link connective)) (left : Rule)
    (index turns : Nat) (hturns : (links.flatMap Link.tokens).length ≤ turns) :
    (∃ rule, combineOnto connective left left.depth index (links.map Link.rule) = .ok rule ∧
      readLinks connective (operandReader stop maxDepth connective) turns left
        (links.flatMap Link.tokens) = .ok (rule, [])) ∨
    ∃ before link after, links = before ++ link :: after ∧
      combineOnto connective left left.depth index (links.map Link.rule)
        = .error (.tooDeep (index + before.length)) ∧
      readLinks connective (operandReader stop maxDepth connective) turns left
        (links.flatMap Link.tokens) = .error (.describing link.joint .fewerJoints) := by
  -- the depth that combining carries is the depth of the rule joined so far
  induction links generalizing left index turns with
  | nil =>
      refine .inl ⟨left, rfl, ?_⟩
      cases turns <;> rfl
  | cons link links ih =>
      rw [List.flatMap_cons, Link.tokens, List.cons_append] at hturns ⊢
      cases turns with
      | zero => simp at hturns
      | succ turns =>
          have hread := @operandReader_of_derives connective stop _ _ link.derives link.groups
            link.depth_le links
          rw [List.map_cons, combineOnto, readLinks]
          dsimp only
          rw [if_pos link.joint_kind, hread, ok_bind]
          dsimp only
          rw [joinAt, depth]
          by_cases hdeep : maxDepth < 1 + max left.depth link.rule.depth
          · refine .inr ⟨[], link, links, rfl, ?_, ?_⟩
            · rw [if_pos hdeep]
              rfl
            · rw [if_pos hdeep]
              rfl
          · rw [if_neg hdeep, if_neg hdeep, ok_bind]
            have hrest : (links.flatMap Link.tokens).length ≤ turns := by
              simp only [List.length_cons, List.length_append] at hturns
              omega
            rcases ih (join left connective link.rule) (index + 1) turns hrest with
              ⟨rule, hcombine, hlinks⟩ | ⟨before, other, after, rfl, hcombine, hlinks⟩
            · exact .inl ⟨rule, hcombine, hlinks⟩
            · refine .inr ⟨link :: before, other, after, rfl, ?_, hlinks⟩
              rw [List.length_cons, Nat.add_comm before.length, ← Nat.add_assoc]
              exact hcombine

theorem readDisjunction_of_readChain {tokens : List Token} {result : Except ParseError Rule}
    (h : readChain connective (operandReader stop maxDepth connective) tokens
      = result.map fun rule => (rule, [])) :
    readDisjunction (readTerm stop maxDepth) tokens = result.map fun rule => (rule, []) := by
  cases connective with
  | or => exact h
  | and =>
      change readChain .and (readTerm stop maxDepth) tokens = _ at h
      rw [readDisjunction, readChain, h]
      cases result <;> rfl

theorem ofTokens_of_readDisjunction {tokens : List Token} {result : Except ParseError Rule}
    (h : readDisjunction (readTerm (stopOf tokens) maxDepth) (inputOf tokens)
      = result.map fun rule => (rule, [])) : ofTokens tokens = result := by
  rw [ofTokens, takeWhile_isWithinInput, h]
  cases result <;> rfl

theorem ofTokens_eq_combineAll {tokens first : List Token} {rule : Rule}
    (hderives : Derives .term first rule) (hgroups : GroupsWithin maxDepth first)
    (hdepth : rule.depth ≤ maxDepth) (links : List (Link connective))
    (hinput : inputOf tokens = first ++ links.flatMap Link.tokens) :
    (∃ result, combineAll connective (rule :: links.map Link.rule) = .ok result ∧
      ofTokens tokens = .ok result) ∨
    ∃ before link after, links = before ++ link :: after ∧
      combineAll connective (rule :: links.map Link.rule)
        = .error (.tooDeep (1 + before.length)) ∧
      ofTokens tokens = .error (.describing link.joint .fewerJoints) := by
  have hread : readChain connective (operandReader (stopOf tokens) maxDepth connective)
      (inputOf tokens) = readLinks connective (operandReader (stopOf tokens) maxDepth connective)
        (links.flatMap Link.tokens).length rule (links.flatMap Link.tokens) := by
    rw [hinput, readChain, operandReader_of_derives hderives hgroups hdepth links]
    rfl
  rcases @readLinks_eq_combineOnto connective (stopOf tokens) links rule 1 _ (Nat.le_refl _) with
    ⟨result, hcombine, hlinks⟩ | ⟨before, link, after, heq, hcombine, hlinks⟩
  · refine .inl ⟨result, hcombine, ofTokens_of_readDisjunction ?_⟩
    exact readDisjunction_of_readChain (hread.trans hlinks)
  · refine .inr ⟨before, link, after, heq, hcombine, ofTokens_of_readDisjunction ?_⟩
    exact readDisjunction_of_readChain (hread.trans hlinks)

end

/-! ## Joined texts -/

/-- The texts in parentheses, with the connective between them. -/
def joinedText (connective : Connective) (sources : List String) : String :=
  (" " ++ connective.text ++ " ").intercalate (sources.map fun source => "(" ++ source ++ ")")

def linkChars (connective : Connective) (source : String) : List Char :=
  ' ' :: (connective.text.toList ++ ' ' :: groupChars source)

theorem joinedText_singleton (connective : Connective) (source : String) :
    joinedText connective [source] = "(" ++ source ++ ")" := by
  simp [joinedText]

theorem joinedText_append (connective : Connective) {front back : List String}
    (hfront : front ≠ []) (hback : back ≠ []) :
    joinedText connective (front ++ back)
      = joinedText connective front ++ " " ++ connective.text ++ " "
        ++ joinedText connective back := by
  unfold joinedText
  rw [List.map_append, String.intercalate_append_of_ne_nil (by simpa) (by simpa)]
  simp only [String.append_assoc]

theorem toList_joinedText (connective : Connective) (first : String) (rest : List String) :
    (joinedText connective (first :: rest)).toList
      = groupChars first ++ rest.flatMap (linkChars connective) := by
  induction rest generalizing first with
  | nil => simp [joinedText_singleton, groupChars]
  | cons source rest ih =>
      rw [← List.singleton_append, joinedText_append connective (by simp) (by simp),
        joinedText_singleton]
      simp [ih, groupChars, linkChars]

theorem endsNumber_flatMap_linkChars (connective : Connective) (sources : List String) :
    Token.EndsNumber (sources.flatMap (linkChars connective)) := by
  cases sources with
  | nil => exact Token.endsNumber_nil
  | cons source sources => exact Token.endsNumber_blank _

theorem exists_link {connective : Connective} {source : String} {rule : Rule}
    (hcompile : compile source = .ok rule) (hnests : NestsWithin 99 source) (offset : Nat)
    {rest : List Char} (hrest : Token.EndsNumber rest) :
    ∃ link : Link connective, link.rule = rule ∧
      link.joint = ⟨.connective connective, connective.text, none, offset + 1⟩ ∧
      Token.ScansAs offset (linkChars connective source) rest link.tokens := by
  obtain ⟨operand, hscan, hderives, hgroups⟩ := spelledBy_groupChars hcompile hnests
    (offset + 1 + Text.byteLength connective.text.toList + 1) rest hrest
  have hblank : Token.ScansAs offset [' ']
      (connective.text.toList ++ ' ' :: groupChars source ++ rest) [] :=
    .blank (by decide)
  have hjoint : Token.ScansAs (offset + 1) connective.text.toList
      (' ' :: (groupChars source ++ rest)) _ := .of_fits (Token.fits_connective connective _)
  rw [String.ofList_toList] at hjoint
  exact ⟨⟨_, operand, rule, rfl, hderives, hgroups, (isRepresentable_of_compile hcompile).depth_le⟩,
    rfl, rfl, hblank.append (hjoint.spaced hscan)⟩

theorem exists_links {connective : Connective} {sources : List (String × Rule)}
    (h : ∀ source ∈ sources, compile source.1 = .ok source.2 ∧ NestsWithin 99 source.1)
    (offset : Nat) :
    ∃ links : List (Link connective), links.map Link.rule = sources.map Prod.snd ∧
      Token.ScansAs offset ((sources.map Prod.fst).flatMap (linkChars connective)) []
        (links.flatMap Link.tokens) ∧
      ∀ before link after, links = before ++ link :: after →
        ∃ front source back, sources.map Prod.fst = front ++ source :: back ∧
          front.length = before.length ∧
          link.joint = ⟨.connective connective, connective.text, none,
            offset + Text.byteLength (front.flatMap (linkChars connective)) + 1⟩ := by
  induction sources generalizing offset with
  | nil =>
      refine ⟨[], rfl, .nil _ _, ?_⟩
      intro before link after heq
      simp at heq
  | cons source sources ih =>
      obtain ⟨hcompile, hnests⟩ := h source List.mem_cons_self
      obtain ⟨links, hrules, hscan, hplaces⟩ :=
        ih (fun other hother => h other (List.mem_cons_of_mem _ hother))
          (offset + Text.byteLength (linkChars connective source.1))
      obtain ⟨link, hrule, hjoint, hlink⟩ := exists_link hcompile hnests offset
        (endsNumber_flatMap_linkChars connective (sources.map Prod.fst))
      refine ⟨link :: links, by rw [List.map_cons, List.map_cons, hrule, hrules], ?_, ?_⟩
      · rw [List.map_cons, List.flatMap_cons, List.flatMap_cons]
        rw [← List.append_nil (List.flatMap _ _)] at hlink
        exact hlink.append hscan
      · intro before other after heq
        cases before with
        | nil =>
            obtain ⟨rfl, -⟩ := List.cons.inj heq
            exact ⟨[], source.1, sources.map Prod.fst, rfl, rfl, hjoint⟩
        | cons first before =>
            obtain ⟨-, hrest⟩ := List.cons.inj heq
            obtain ⟨front, part, back, hsources, hlength, hplace⟩ := hplaces _ _ _ hrest
            refine ⟨source.1 :: front, part, back, ?_, ?_, ?_⟩
            · rw [List.map_cons, hsources, List.cons_append]
            · rw [List.length_cons, List.length_cons, hlength]
            · rw [hplace, List.flatMap_cons, Text.byteLength_append, ← Nat.add_assoc]

theorem compile_eq_parse_error {text : String} {tokens : List Token} {e : ParseError}
    (hscan : Token.scan text = .ok tokens) (hread : ofTokens tokens = .error e) :
    compile text = .error (.parse e) := by
  unfold compile
  rw [hscan]
  dsimp only
  rw [hread]

theorem utf8ByteSize_joinedText (connective : Connective) (first : String)
    (front : List String) :
    (joinedText connective (first :: front) ++ " ").utf8ByteSize
      = Text.byteLength (groupChars first)
        + Text.byteLength (front.flatMap (linkChars connective)) + 1 := by
  rw [String.utf8ByteSize_append, ← Text.byteLength_toList, toList_joinedText,
    Text.byteLength_append]
  rfl

theorem exists_inputOf_joinedText {connective : Connective} {first : String × Rule}
    {rest : List (String × Rule)}
    (h : ∀ source ∈ first :: rest, compile source.1 = .ok source.2 ∧ NestsWithin 99 source.1) :
    ∃ tokens operand, ∃ links : List (Link connective),
      Token.scan (joinedText connective (first.1 :: rest.map Prod.fst)) = .ok tokens ∧
      inputOf tokens = operand ++ links.flatMap Link.tokens ∧
      Derives .term operand first.2 ∧ GroupsWithin maxDepth operand ∧
      links.map Link.rule = rest.map Prod.snd ∧
      ∀ before link after, links = before ++ link :: after →
        ∃ front source back, rest.map Prod.fst = front ++ source :: back ∧
          front.length = before.length ∧
          link.joint = ⟨.connective connective, connective.text, none,
            (joinedText connective (first.1 :: front) ++ " ").utf8ByteSize⟩ := by
  obtain ⟨hcompile, hnests⟩ := h first List.mem_cons_self
  obtain ⟨operand, hoperand, hderives, hgroups⟩ := spelledBy_groupChars hcompile hnests 0 _
    (endsNumber_flatMap_linkChars connective (rest.map Prod.fst))
  obtain ⟨links, hrules, hlinks, hplaces⟩ := @exists_links connective rest
    (fun source hsource => h source (List.mem_cons_of_mem _ hsource))
    (0 + Text.byteLength (groupChars first.1))
  have hscan : Token.ScansAs 0 (joinedText connective (first.1 :: rest.map Prod.fst)).toList []
      (operand ++ links.flatMap Link.tokens) := by
    rw [toList_joinedText]
    rw [← List.append_nil (List.flatMap _ _)] at hoperand
    exact hoperand.append hlinks
  have hkinds : ∀ t ∈ operand ++ links.flatMap Link.tokens, t.kind ≠ .endOfInput := by
    intro t ht
    rcases List.mem_append.mp ht with ht | ht
    · exact hderives.kind_ne t ht
    · obtain ⟨link, -, ht⟩ := List.mem_flatMap.mp ht
      rcases List.mem_cons.mp ht with rfl | ht
      · simp [link.joint_kind]
      · exact link.derives.kind_ne t ht
  refine ⟨_, operand, links, hscan.scan_eq, inputOf_append_endAt hkinds _, hderives, hgroups,
    hrules, ?_⟩
  intro before link after heq
  obtain ⟨front, source, back, hsources, hlength, hplace⟩ := hplaces before link after heq
  rw [Nat.zero_add] at hplace
  exact ⟨front, source, back, hsources, hlength, by rw [utf8ByteSize_joinedText, hplace]⟩

/-- Compiling texts one by one and combining the rules is compiling the joined text: both give
the same rule, or both refuse the same part. The joined text is then refused at the connective
in front of this part. -/
theorem compile_joinedText (connective : Connective) {sources : List (String × Rule)}
    (hne : sources ≠ [])
    (h : ∀ source ∈ sources, compile source.1 = .ok source.2 ∧ NestsWithin 99 source.1) :
    (∀ rule, compile (joinedText connective (sources.map Prod.fst)) = .ok rule ↔
      combineAll connective (sources.map Prod.snd) = .ok rule) ∧
    ∀ index, combineAll connective (sources.map Prod.snd) = .error (.tooDeep index) →
      ∃ front source back, sources.map Prod.fst = front ++ source :: back ∧
        front.length = index ∧
        joinedText connective (front ++ source :: back)
          = joinedText connective front ++ " " ++ connective.text ++ " "
            ++ joinedText connective (source :: back) ∧
        ∃ e, compile (joinedText connective (front ++ source :: back)) = .error (.parse e) ∧
          e.expected.text = "at most 100 nested operators" ∧
          e.position = (joinedText connective front ++ " ").utf8ByteSize ∧
          e.width = connective.text.utf8ByteSize := by
  obtain ⟨first, rest, rfl⟩ := List.exists_cons_of_ne_nil hne
  obtain ⟨tokens, operand, links, hscan, hinput, hderives, hgroups, hrules, hplaces⟩ :=
    @exists_inputOf_joinedText connective first rest h
  have hdepth := (isRepresentable_of_compile (h first List.mem_cons_self).1).depth_le
  have hread := ofTokens_eq_combineAll hderives hgroups hdepth links hinput
  rw [List.map_cons, List.map_cons, ← hrules]
  rcases hread with ⟨result, hcombine, hresult⟩ | ⟨before, link, after, heq, hcombine, herror⟩
  · have hcompile := compile_eq_ok.mpr ⟨tokens, hscan, hresult⟩
    rw [hcombine, hcompile]
    exact ⟨fun rule => by simp only [Except.ok.injEq], fun index hindex => nomatch hindex⟩
  · have hcompile := compile_eq_parse_error hscan herror
    obtain ⟨front, source, back, hsources, hlength, hplace⟩ := hplaces before link after heq
    rw [hcombine, hcompile]
    refine ⟨fun rule => by simp only [reduceCtorEq], ?_⟩
    rintro index ⟨⟩
    rw [hsources] at hcompile ⊢
    refine ⟨first.1 :: front, source, back, rfl, ?_,
      joinedText_append connective (List.cons_ne_nil _ _) (List.cons_ne_nil _ _), _, hcompile,
      ?_, ?_, ?_⟩
    · rw [List.length_cons, hlength, Nat.add_comm]
    · change Expectation.fewerJoints.text = _
      decide
    · rw [hplace]
      rfl
    · rw [hplace]
      exact Text.byteLength_toList connective.text

/-- Two texts are joined as their rules are. Of 102 texts, joined from the left, the last goes too
deep, and its connective is refused. -/
theorem compile_joinedText_last_part :
    compile (joinedText .or ["a == 'x'", "a == 'x'"])
      = .ok (join (leaf ⟨"a", .equal, .string "x"⟩) .or (leaf ⟨"a", .equal, .string "x"⟩)) ∧
    ∃ e, compile (joinedText .and (List.replicate 102 "a == 'x'")) = .error (.parse e) ∧
      e.expected.text = "at most 100 nested operators" ∧ e.position = 1511 ∧ e.width = 3 := by
  have hwritable : ∀ c ∈ comparisons (leaf ⟨"a", .equal, .string "x"⟩), c.IsWritable := by
    intro c hc
    rw [List.mem_singleton.mp hc]
    have hname : Token.IsName "a".toList := .of_all (by decide +kernel)
    exact ⟨hname, by decide, by decide, fun hquotes => absurd hquotes.1 (by decide)⟩
  have htext : (leaf ⟨"a", .equal, .string "x"⟩).text = "a == 'x'" := by decide +kernel
  have hpart : compile "a == 'x'" = .ok (leaf ⟨"a", .equal, .string "x"⟩) ∧
      NestsWithin 99 "a == 'x'" := by
    rw [← htext]
    refine ⟨compile_text ⟨Nat.zero_le _, hwritable⟩, fun tokens hscan => ?_⟩
    exact (nestsWithin_text hwritable tokens hscan).mono (by decide)
  have hparts (n : Nat) : ∀ source ∈ List.replicate n ("a == 'x'", leaf ⟨"a", .equal, .string "x"⟩),
      compile source.1 = .ok source.2 ∧ NestsWithin 99 source.1 := by
    intro source hsource
    rw [List.eq_of_mem_replicate hsource]
    exact hpart
  refine ⟨((compile_joinedText .or (by simp) (hparts 2)).1 _).mpr rfl, ?_⟩
  obtain ⟨front, source, back, hsources, hlength, -, e, he, htext, hposition, hwidth⟩ :=
    (compile_joinedText .and (by simp) (hparts 102)).2 101 rfl
  rw [List.map_replicate] at hsources
  have hfront : front = List.replicate 101 "a == 'x'" := by
    refine List.eq_replicate_iff.mpr ⟨hlength, fun part hmem => ?_⟩
    exact List.eq_of_mem_replicate (hsources ▸ List.mem_append_left _ hmem)
  rw [← hsources] at he
  refine ⟨e, he, htext, ?_, hwidth⟩
  rw [hposition, hfront, List.replicate_succ, utf8ByteSize_joinedText]
  decide +kernel

end ComparisonRules.Rule
