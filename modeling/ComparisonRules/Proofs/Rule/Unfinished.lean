import ComparisonRules.Proofs.Rule.Steps

/-!
# What has been read can be finished

Between two tokens, what waits and what has been read of the term there spell exactly the tokens
taken so far. Every step keeps that up. So the tokens behind which reading still goes on are the
start of some expression: the term is finished, the chains are joined, and the groups are closed.
-/

namespace ComparisonRules.Rule

/-! ## Chains that grow at their end -/

theorem Derives.links_snoc {connective : Connective} {left rule right : Rule}
    {links operand : List Token} {joint : Token}
    (h : Derives (.links connective left) links rule) (hjoint : joint.kind = .connective connective)
    (hright : Derives (.operand connective) operand right) :
    Derives (.links connective left) (links ++ joint :: operand) (join rule connective right) := by
  generalize hphrase : Phrase.links connective left = phrase at h
  induction h generalizing left with
  | done =>
      cases hphrase
      rw [List.nil_append, ← List.append_nil operand]
      exact .link hjoint hright .done
  | link hfirst hoperand _ _ ih =>
      cases hphrase
      rw [List.cons_append, List.append_assoc]
      exact .link hfirst hoperand (ih rfl)
  | _ => cases hphrase

theorem Derives.chain_snoc {connective : Connective} {left right : Rule}
    {first second : List Token} {joint : Token} (h : Derives (.chain connective) first left)
    (hjoint : joint.kind = .connective connective)
    (hright : Derives (.operand connective) second right) :
    Derives (.chain connective) (first ++ joint :: second) (join left connective right) := by
  cases h with
  | chain hfirst hlinks =>
      rw [List.append_assoc]
      exact .chain hfirst (hlinks.links_snoc hjoint hright)

/-! ## What waits -/

/-- The tokens spell what waits for its right operand: a chain and the connective behind it. -/
def SpellsPending (connective : Connective) (tokens : List Token) : Option (Rule × Token) → Prop
  | none => tokens = []
  | some (left, joint) =>
      joint.kind = .connective connective ∧ left.depth ≤ maxDepth ∧
        ∃ first, tokens = first ++ [joint] ∧ Derives (.chain connective) first left

theorem SpellsPending.chain {connective : Connective} {front here : List Token}
    {pending : Option (Rule × Token)} {right : Rule} (h : SpellsPending connective front pending)
    (hright : Derives (.operand connective) here right) :
    ∃ rule, Derives (.chain connective) (front ++ here) rule := by
  cases pending with
  | none =>
      cases h
      exact ⟨right, hright.chain_of_operand⟩
  | some waiting =>
      obtain ⟨left, joint⟩ := waiting
      obtain ⟨hjoint, -, first, rfl, hfirst⟩ := h
      rw [List.append_assoc, List.singleton_append]
      exact ⟨_, hfirst.chain_snoc hjoint hright⟩

theorem SpellsPending.joined {connective : Connective} {front here : List Token}
    {pending : Option (Rule × Token)} {right rule : Rule}
    (h : SpellsPending connective front pending) (hright : Derives (.operand connective) here right)
    (hdepth : right.depth ≤ maxDepth) (hjoin : joinPending connective right pending = .ok rule) :
    Derives (.chain connective) (front ++ here) rule ∧ rule.depth ≤ maxDepth := by
  cases pending with
  | none =>
      cases h
      cases hjoin
      exact ⟨hright.chain_of_operand, hdepth⟩
  | some waiting =>
      obtain ⟨left, joint⟩ := waiting
      obtain ⟨hjoint, -, first, rfl, hfirst⟩ := h
      obtain ⟨rfl, hjoined⟩ := joinAt_eq_ok.mp hjoin
      rw [List.append_assoc, List.singleton_append]
      exact ⟨hfirst.chain_snoc hjoint hright, hjoined⟩

structure SpellsLevel (disjunction conjunction : List Token) (level : Level) : Prop where
  disjunction : SpellsPending .or disjunction level.disjunction
  conjunction : SpellsPending .and conjunction level.conjunction

theorem spellsLevel_fresh : SpellsLevel [] [] .fresh := ⟨rfl, rfl⟩

theorem SpellsLevel.chain {disjunction conjunction here : List Token} {level : Level} {rule : Rule}
    (h : SpellsLevel disjunction conjunction level) (hterm : Derives .term here rule) :
    ∃ joined, Derives (.chain .or) (disjunction ++ (conjunction ++ here)) joined := by
  obtain ⟨conjoined, hconjunction⟩ := h.conjunction.chain hterm
  exact h.disjunction.chain hconjunction

theorem SpellsLevel.joined {disjunction conjunction here : List Token} {level : Level}
    {rule conjoined disjoined : Rule} (h : SpellsLevel disjunction conjunction level)
    (hterm : Derives .term here rule) (hdepth : rule.depth ≤ maxDepth)
    (hconjoined : joinPending .and rule level.conjunction = .ok conjoined)
    (hdisjoined : joinPending .or conjoined level.disjunction = .ok disjoined) :
    Derives (.chain .or) (disjunction ++ (conjunction ++ here)) disjoined ∧
      disjoined.depth ≤ maxDepth := by
  obtain ⟨hconjunction, hconjdepth⟩ := h.conjunction.joined hterm hdepth hconjoined
  exact h.disjunction.joined hconjunction hconjdepth hdisjoined

/-- The tokens spell what waits around the open groups, and open each of them. -/
inductive SpellsOuter : List Token → List Level → Prop where
  | nil : SpellsOuter [] []
  | group {around disjunction conjunction : List Token} {outer : List Level} {level : Level}
      {opening : Token} :
      SpellsOuter around outer → SpellsLevel disjunction conjunction level →
      opening.kind = .leftParen →
      SpellsOuter (around ++ (disjunction ++ (conjunction ++ [opening]))) (level :: outer)

def SpellsPlace (here : List Token) : Place → Prop
  | .operand => here = []
  | .comparator left => here = [left] ∧ (left.kind = .identifier ∨ left.kind.isLiteral = true)
  | .side left comparator =>
      (∃ operator, here = [left, operator] ∧ operator.kind = .comparator comparator) ∧
        (left.kind = .identifier ∨ left.kind.isLiteral = true)
  | .joint rule => Derives .term here rule ∧ rule.depth ≤ maxDepth

def Spells (tokens : List Token) (progress : Progress) : Prop :=
  ∃ around disjunction conjunction here,
    tokens = around ++ (disjunction ++ (conjunction ++ here)) ∧
      SpellsOuter around progress.outer ∧
      SpellsLevel disjunction conjunction progress.level ∧ SpellsPlace here progress.place

/-! ## Every step keeps it up -/

theorem spells_step {tokens : List Token} {progress next : Progress} {token : Token}
    (h : Spells tokens progress) (hstep : progress.step token = .ok next)
    (hkind : token.kind ≠ .endOfInput) : Spells (tokens ++ [token]) next := by
  obtain ⟨around, disjunction, conjunction, here, rfl, houter, hlevel, hplace⟩ := h
  -- only the moves behind a term depend on what waits
  cases Progress.moves_of_step hstep with
  | opening hopening _ =>
      cases hplace
      exact ⟨_, [], [], [], by simp, .group houter hlevel hopening, spellsLevel_fresh, rfl⟩
  | left hleft =>
      cases hplace
      exact ⟨around, disjunction, conjunction, [token], by simp, houter, hlevel, rfl, hleft⟩
  | @comparator _ _ left _ _ hoperator =>
      obtain ⟨rfl, hleft⟩ := hplace
      exact ⟨around, disjunction, conjunction, [left, token], by simp, houter, hlevel,
        ⟨token, rfl, hoperator⟩, hleft⟩
  | @literal _ _ left _ _ hfield hliteral =>
      obtain ⟨⟨operator, rfl, hoperator⟩, -⟩ := hplace
      exact ⟨around, disjunction, conjunction, [left, operator, token], by simp, houter, hlevel,
        .fieldFirst hfield hoperator (Token.Kind.isLiteral_iff.mp hliteral) (denotes_iff.mpr rfl),
        Nat.zero_le _⟩
  | @field _ _ left _ _ hname hfield =>
      obtain ⟨⟨operator, rfl, hoperator⟩, hleft⟩ := hplace
      have hliteral := Token.Kind.isLiteral_iff.mp (hleft.resolve_left hname)
      exact ⟨around, disjunction, conjunction, [left, operator, token], by simp, houter, hlevel,
        .literalFirst hliteral (denotes_iff.mpr rfl) hoperator hfield, Nat.zero_le _⟩
  | and hand hconjoined =>
      obtain ⟨hchain, hdepth⟩ := hlevel.conjunction.joined hplace.1 hplace.2 hconjoined
      exact ⟨around, disjunction, conjunction ++ here ++ [token], [], by simp, houter,
        ⟨hlevel.disjunction, hand, hdepth, conjunction ++ here, rfl, hchain⟩, rfl⟩
  | or hor hconjoined hdisjoined =>
      obtain ⟨hchain, hdepth⟩ := hlevel.joined hplace.1 hplace.2 hconjoined hdisjoined
      exact ⟨around, disjunction ++ (conjunction ++ here) ++ [token], [], [], by simp, houter,
        ⟨⟨hor, hdepth, _, rfl, hchain⟩, rfl⟩, rfl⟩
  | closing hclosing hconjoined hdisjoined =>
      obtain ⟨hchain, hdepth⟩ := hlevel.joined hplace.1 hplace.2 hconjoined hdisjoined
      cases houter with
      | @group around disjunction' conjunction' _ _ opening houter' hlevel' hopening =>
          exact ⟨around, disjunction', conjunction',
            opening :: (disjunction ++ (conjunction ++ here) ++ [token]), by simp, houter', hlevel',
            .group hopening hclosing hchain, hdepth⟩
  | ending hend _ _ => exact absurd hend hkind

theorem spells_run {front tokens : List Token} {progress next : Progress}
    (h : Spells front progress) (hrun : progress.run tokens = .ok next)
    (hkind : ∀ token ∈ tokens, token.kind ≠ .endOfInput) : Spells (front ++ tokens) next := by
  induction tokens generalizing front progress with
  | nil =>
      cases hrun
      rwa [List.append_nil]
  | cons token tokens ih =>
      obtain ⟨middle, hstep, hrest⟩ := bind_eq_ok.mp hrun
      have hmiddle := spells_step h hstep (hkind token (by simp))
      have hnext := ih hmiddle hrest fun later hlater => hkind later (by simp [hlater])
      rwa [List.append_assoc, List.singleton_append] at hnext

theorem spells_start : Spells [] .start :=
  ⟨[], [], [], [], rfl, .nil, spellsLevel_fresh, rfl⟩

/-! ## Ways to finish -/

theorem SpellsPlace.finish {here : List Token} {place : Place} (h : SpellsPlace here place) :
    ∃ more rule, Derives .term (here ++ more) rule := by
  have hfield : (⟨.identifier, "x", none, 0⟩ : Token).kind = .identifier := rfl
  have hoperator : (⟨.comparator .equal, "==", none, 0⟩ : Token).kind = .comparator .equal :=
    rfl
  have hnumber : (⟨.number, "0", none, 0⟩ : Token).kind = .number := rfl
  cases place with
  | operand =>
      cases h
      exact ⟨_, _, .fieldFirst hfield hoperator (.inl hnumber) (denotes_iff.mpr rfl)⟩
  | comparator left =>
      obtain ⟨rfl, hname | hliteral⟩ := h
      · exact ⟨_, _, .fieldFirst hname hoperator (.inl hnumber) (denotes_iff.mpr rfl)⟩
      · exact ⟨_, _, .literalFirst (Token.Kind.isLiteral_iff.mp hliteral) (denotes_iff.mpr rfl)
          hoperator hfield⟩
  | side left comparator =>
      obtain ⟨⟨operator, rfl, hsymbol⟩, hname | hliteral⟩ := h
      · exact ⟨_, _, .fieldFirst hname hsymbol (.inl hnumber) (denotes_iff.mpr rfl)⟩
      · exact ⟨_, _, .literalFirst (Token.Kind.isLiteral_iff.mp hliteral) (denotes_iff.mpr rfl)
          hsymbol hfield⟩
  | joint rule =>
      refine ⟨[], rule, ?_⟩
      rw [List.append_nil]
      exact h.1

theorem SpellsOuter.finish {around inner : List Token} {outer : List Level} {rule : Rule}
    (h : SpellsOuter around outer) (hinner : Derives (.chain .or) inner rule) :
    ∃ more whole, Derives (.chain .or) (around ++ (inner ++ more)) whole := by
  induction h generalizing inner rule with
  | nil =>
      refine ⟨[], rule, ?_⟩
      rw [List.nil_append, List.append_nil]
      exact hinner
  | @group around disjunction conjunction outer level opening houter hlevel hopening ih =>
      have hclosing : (⟨.rightParen, ")", none, 0⟩ : Token).kind = .rightParen := rfl
      obtain ⟨joined, hjoined⟩ := hlevel.chain (.group hopening hclosing hinner)
      obtain ⟨more, whole, hwhole⟩ := ih hjoined
      exact ⟨⟨.rightParen, ")", none, 0⟩ :: more, whole, by simpa using hwhole⟩

theorem Spells.finish {tokens : List Token} {progress : Progress} (h : Spells tokens progress) :
    ∃ more rule, Derives (.chain .or) (tokens ++ more) rule := by
  obtain ⟨around, disjunction, conjunction, here, rfl, houter, hlevel, hplace⟩ := h
  obtain ⟨more, rule, hterm⟩ := hplace.finish
  obtain ⟨joined, hjoined⟩ := hlevel.chain hterm
  obtain ⟨behind, whole, hwhole⟩ := houter.finish hjoined
  exact ⟨more ++ behind, whole, by simpa using hwhole⟩

end ComparisonRules.Rule
