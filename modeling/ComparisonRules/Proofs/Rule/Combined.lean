import ComparisonRules.Proofs.Rule.Evaluation
import ComparisonRules.Rule.Combine

/-!
# Evaluating combined rules

A combined rule is evaluated as its parts are one after the other, up to the first that fails
or settles the result. Only the order of the parts counts: every bracketing has the outcome
and the trace of the fold from the left.
-/

namespace ComparisonRules

namespace Connective

theorem eq_of_not_settledBy {connective : Connective} {a b : Bool}
    (ha : connective.settledBy a = false) (hb : connective.settledBy b = false) : a = b := by
  cases connective <;> cases a <;> cases b <;> simp_all [settledBy]

end Connective

namespace Rule

/-- The rule joins the listed rules in their order by one connective, in some bracketing. -/
inductive Brackets (connective : Connective) : List Rule → Rule → Prop where
  | single {rule : Rule} : Brackets connective [rule] rule
  | joined {front back : List Rule} {left right : Rule} :
      Brackets connective front left → Brackets connective back right →
      Brackets connective (front ++ back) (join left connective right)

theorem Brackets.ne_nil {connective : Connective} {rules : List Rule} {rule : Rule}
    (h : Brackets connective rules rule) : rules ≠ [] := by
  induction h with
  | single => simp
  | joined _ _ ihFront _ => simp [ihFront]

theorem brackets_of_combineOnto {connective : Connective} {combined result : Rule}
    {depth index : Nat} {front back : List Rule} (hfront : Brackets connective front combined)
    (h : combineOnto connective combined depth index back = .ok result) :
    Brackets connective (front ++ back) result := by
  induction back generalizing front combined depth index with
  | nil =>
      cases h
      rwa [List.append_nil]
  | cons rule back ih =>
      rw [combineOnto] at h
      split at h
      · cases h
      · have hbrackets := ih (hfront.joined .single) h
        rwa [List.append_assoc] at hbrackets

theorem brackets_of_combineAll {connective : Connective} {rules : List Rule} {combined : Rule}
    (h : combineAll connective rules = .ok combined) : Brackets connective rules combined := by
  cases rules with
  | nil => cases h
  | cons first rest => exact brackets_of_combineOnto .single h

/-! ## One rule after the other -/

section

variable (connective : Connective) (record : Record) (traced : Bool)

/-- A rule that has a result on the record which does not settle that of a joint. -/
def Passes (rule : Rule) : Prop :=
  ∃ evaluation, rule.evaluate record traced = .ok evaluation ∧
    connective.settledBy evaluation.matched = false

/-- Of the rules `front ++ stop :: back`, the evaluation of one after the other ends at `stop`:
those in front pass, and `stop` does not, or is the last. -/
structure StopsAt (front : List Rule) (stop : Rule) (back : List Rule) : Prop where
  passed : ∀ rule ∈ front, Passes connective record traced rule
  stopped : back = [] ∨ ¬ Passes connective record traced stop

/-- The trace of a rule on its own. -/
def traceOf (rule : Rule) : List String :=
  match rule.evaluate record traced with
  | .ok evaluation => evaluation.trace
  | .error _ => []

/-- The outcome of a rule, with the traces of the rules in front of it before its own. -/
def evaluateBehind (front : List Rule) (stop : Rule) : Except EvalError Evaluation := do
  let evaluation ← stop.evaluate record traced
  return ⟨evaluation.matched, front.flatMap (traceOf record traced) ++ evaluation.trace⟩

end

section

variable {connective : Connective} {record : Record} {traced : Bool}

theorem traceOf_of_evaluate {rule : Rule} {evaluation : Evaluation}
    (h : rule.evaluate record traced = .ok evaluation) :
    traceOf record traced rule = evaluation.trace := by
  rw [traceOf, h]

theorem exists_stopsAt {rules : List Rule} (h : rules ≠ []) :
    ∃ front stop back, rules = front ++ stop :: back ∧
      StopsAt connective record traced front stop back := by
  induction rules with
  | nil => exact absurd rfl h
  | cons rule rest ih =>
      by_cases hlast : rest = []
      · exact ⟨[], rule, rest, rfl, by simp, .inl hlast⟩
      · by_cases hpasses : Passes connective record traced rule
        · obtain ⟨front, stop, back, rfl, hstops⟩ := ih hlast
          refine ⟨rule :: front, stop, back, rfl, ?_, hstops.stopped⟩
          intro other hother
          rcases List.mem_cons.mp hother with rfl | hother
          · exact hpasses
          · exact hstops.passed other hother
        · exact ⟨[], rule, rest, rfl, by simp, .inr hpasses⟩

theorem evaluate_join_of_not_passes {left right : Rule}
    (h : ¬ Passes connective record traced left) :
    (join left connective right).evaluate record traced = left.evaluate record traced := by
  rw [evaluate_join]
  cases hleft : left.evaluate record traced with
  | error e => rfl
  | ok first =>
      cases hsettled : connective.settledBy first.matched with
      | true => simp [hsettled]
      | false => exact absurd ⟨first, hleft, hsettled⟩ h

theorem evaluate_join_of_passes {left right : Rule} {first : Evaluation}
    (h : left.evaluate record traced = .ok first)
    (hsettled : connective.settledBy first.matched = false) :
    (join left connective right).evaluate record traced = (do
      let second ← right.evaluate record traced
      return ⟨second.matched, first.trace ++ second.trace⟩) := by
  rw [evaluate_join, h, ok_bind, hsettled]
  rfl

@[simp] theorem evaluateBehind_nil (stop : Rule) :
    evaluateBehind record traced [] stop = stop.evaluate record traced := by
  unfold evaluateBehind
  cases stop.evaluate record traced <;> rfl

theorem evaluateBehind_append (front middle : List Rule) (stop : Rule) :
    evaluateBehind record traced (front ++ middle) stop = (do
      let evaluation ← evaluateBehind record traced middle stop
      return ⟨evaluation.matched, front.flatMap (traceOf record traced) ++ evaluation.trace⟩) := by
  unfold evaluateBehind
  cases stop.evaluate record traced with
  | error e => rfl
  | ok evaluation => simp

theorem map_matched_evaluateBehind (front : List Rule) (stop : Rule) :
    (evaluateBehind record traced front stop).map Evaluation.matched
      = (stop.evaluate record traced).map Evaluation.matched := by
  unfold evaluateBehind
  cases stop.evaluate record traced <;> rfl

theorem passes_of_evaluateBehind {rule stop : Rule} {front : List Rule}
    (h : rule.evaluate record traced = evaluateBehind record traced front stop)
    (hpasses : Passes connective record traced rule) :
    Passes connective record traced stop := by
  obtain ⟨evaluation, hrule, hsettled⟩ := hpasses
  rw [h] at hrule
  obtain ⟨own, hstop, heq⟩ := bind_eq_ok.mp hrule
  cases heq
  exact ⟨own, hstop, hsettled⟩

theorem Brackets.evaluate_of_forall_passes {rules : List Rule} {rule : Rule}
    (h : Brackets connective rules rule)
    (hpasses : ∀ part ∈ rules, Passes connective record traced part) :
    ∃ result, rule.evaluate record traced
        = .ok ⟨result, rules.flatMap (traceOf record traced)⟩ ∧
      connective.settledBy result = false := by
  induction h with
  | @single rule =>
      obtain ⟨evaluation, hrule, hsettled⟩ := hpasses rule (List.mem_singleton_self _)
      refine ⟨evaluation.matched, ?_, hsettled⟩
      rw [hrule, List.flatMap_singleton, traceOf_of_evaluate hrule]
  | joined _ _ ihFront ihBack =>
      obtain ⟨first, hleft, hfirst⟩ := ihFront fun part hpart =>
        hpasses part (List.mem_append_left _ hpart)
      obtain ⟨second, hright, hsecond⟩ := ihBack fun part hpart =>
        hpasses part (List.mem_append_right _ hpart)
      refine ⟨second, ?_, hsecond⟩
      rw [evaluate_join_of_passes hleft hfirst, hright, List.flatMap_append]
      rfl

/-- Any bracketing has the outcome of the rule at which the evaluation of one rule after the
other ends. -/
theorem Brackets.evaluate_eq {rules : List Rule} {rule : Rule}
    (h : Brackets connective rules rule) {front back : List Rule} {stop : Rule}
    (hrules : rules = front ++ stop :: back)
    (hstops : StopsAt connective record traced front stop back) :
    rule.evaluate record traced = evaluateBehind record traced front stop := by
  induction h generalizing front back stop with
  | single =>
      obtain ⟨rfl, hcons⟩ | ⟨_, _⟩ := List.append_eq_singleton_iff.mp hrules.symm
      · obtain ⟨rfl, -⟩ := List.cons.inj hcons
        rw [evaluateBehind_nil]
      · simp_all
  | @joined before after left right hleft hright ihLeft ihRight =>
      -- the end lies on the left side, which then does not pass, or on the right side, and then
      -- the left side passes because all of its rules do
      have hside : (∃ between, before = front ++ stop :: between ∧ back = between ++ after) ∨
          ∃ middle, front = before ++ middle ∧ after = middle ++ stop :: back := by
        rcases List.append_eq_append_iff.mp hrules with h | ⟨past, hbefore, hpast⟩
        · exact .inr h
        · cases past with
          | nil =>
              exact .inr ⟨[], by simpa using hbefore.symm, by simpa using hpast.symm⟩
          | cons other between =>
              obtain ⟨rfl, hback⟩ := List.cons.inj hpast
              exact .inl ⟨between, hbefore, hback⟩
      rcases hside with ⟨between, hbefore, hback⟩ | ⟨middle, hfront, hafter⟩
      · have hstop : ¬ Passes connective record traced stop := by
          refine hstops.stopped.resolve_left ?_
          rw [hback]
          simp [hright.ne_nil]
        have hevaluate := ihLeft hbefore ⟨hstops.passed, .inr hstop⟩
        have hnot : ¬ Passes connective record traced left :=
          fun hpasses => hstop (passes_of_evaluateBehind hevaluate hpasses)
        rw [evaluate_join_of_not_passes hnot, hevaluate]
      · have hpassed := hstops.passed
        rw [hfront] at hpassed
        obtain ⟨first, hfirst, hsettled⟩ := hleft.evaluate_of_forall_passes fun part hpart =>
          hpassed part (List.mem_append_left _ hpart)
        have hevaluate := ihRight hafter
          ⟨fun part hpart => hpassed part (List.mem_append_right _ hpart), hstops.stopped⟩
        rw [evaluate_join_of_passes hfirst hsettled, hevaluate, hfront, evaluateBehind_append]

theorem Brackets.matched_of_append_copy {rules : List Rule} {rule longer copy : Rule}
    (h : Brackets connective rules rule) (hlonger : Brackets connective (rules ++ [copy]) longer)
    (hcopy : copy ∈ rules) :
    (longer.evaluate record traced).map Evaluation.matched
      = (rule.evaluate record traced).map Evaluation.matched := by
  obtain ⟨front, stop, back, hrules, hstops⟩ :=
    @exists_stopsAt connective record traced rules h.ne_nil
  rw [h.evaluate_eq hrules hstops, map_matched_evaluateBehind]
  by_cases hpasses : Passes connective record traced stop
  · obtain rfl : back = [] := hstops.stopped.resolve_right (absurd hpasses)
    have hall : ∀ part ∈ rules, Passes connective record traced part := by
      intro part hpart
      rw [hrules] at hpart
      rcases List.mem_append.mp hpart with hpart | hpart
      · exact hstops.passed part hpart
      · rwa [List.mem_singleton.mp hpart]
    obtain ⟨evaluation, hevaluate, hsettled⟩ := hall copy hcopy
    obtain ⟨evaluation', hevaluate', hsettled'⟩ := hpasses
    rw [hlonger.evaluate_eq rfl ⟨hall, .inl rfl⟩, map_matched_evaluateBehind, hevaluate,
      hevaluate']
    exact congrArg Except.ok (Connective.eq_of_not_settledBy hsettled hsettled')
  · have heq : rules ++ [copy] = front ++ stop :: (back ++ [copy]) := by
      rw [hrules, List.append_assoc, List.cons_append]
    rw [hlonger.evaluate_eq heq ⟨hstops.passed, .inr hpasses⟩, map_matched_evaluateBehind]

end

/-- Combined rules are evaluated one after the other, up to the first that fails or settles the
result or else up to the last, and have the outcome of that one with the traces of all up to
it. Every other bracketing has the same outcome and trace. One more copy of a rule changes
neither result nor failure. -/
theorem evaluate_combineAll {connective : Connective} {rules : List Rule} {combined : Rule}
    (h : combineAll connective rules = .ok combined) (record : Record) (traced : Bool) :
    (∃ front stop back, rules = front ++ stop :: back ∧
      StopsAt connective record traced front stop back) ∧
    (∀ front stop back, rules = front ++ stop :: back →
      StopsAt connective record traced front stop back →
      combined.evaluate record traced = evaluateBehind record traced front stop) ∧
    (∀ bracketed, Brackets connective rules bracketed →
      bracketed.evaluate record traced = combined.evaluate record traced) ∧
    ∀ copy ∈ rules, ∀ longer, combineAll connective (rules ++ [copy]) = .ok longer →
      (longer.evaluate record traced).map Evaluation.matched
        = (combined.evaluate record traced).map Evaluation.matched := by
  have hcombined := brackets_of_combineAll h
  obtain ⟨front, stop, back, hrules, hstops⟩ :=
    @exists_stopsAt connective record traced rules hcombined.ne_nil
  refine ⟨⟨front, stop, back, hrules, hstops⟩, ?_, ?_, ?_⟩
  · intro front stop back hrules hstops
    exact hcombined.evaluate_eq hrules hstops
  · intro bracketed hbracketed
    rw [hbracketed.evaluate_eq hrules hstops, hcombined.evaluate_eq hrules hstops]
  · intro copy hcopy longer hlonger
    exact hcombined.matched_of_append_copy (brackets_of_combineAll hlonger) hcopy

/-- The second of three rules settles the result. The third one, which would fail, is not
looked at in either bracketing, and no more is a copy of it. -/
theorem evaluate_combineAll_settled :
    evaluate (join (join (leaf ⟨"team", .equal, .string "a"⟩) .and
        (leaf ⟨"team", .equal, .string "b"⟩)) .and (leaf ⟨"age", .equal, .string "a"⟩))
        (Record.ofList [("team", .string "a")]) true
      = .ok ⟨false, ["team == 'a' => true", "team == 'b' => false"]⟩ ∧
    evaluate (join (leaf ⟨"team", .equal, .string "a"⟩) .and
        (join (leaf ⟨"team", .equal, .string "b"⟩) .and (leaf ⟨"age", .equal, .string "a"⟩)))
        (Record.ofList [("team", .string "a")]) true
      = .ok ⟨false, ["team == 'a' => true", "team == 'b' => false"]⟩ ∧
    (evaluate (join (join (join (leaf ⟨"team", .equal, .string "a"⟩) .and
        (leaf ⟨"team", .equal, .string "b"⟩)) .and (leaf ⟨"age", .equal, .string "a"⟩)) .and
        (leaf ⟨"age", .equal, .string "a"⟩))
        (Record.ofList [("team", .string "a")]) true).map Evaluation.matched = .ok false := by
  have hcombined : combineAll .and [leaf ⟨"team", .equal, .string "a"⟩,
      leaf ⟨"team", .equal, .string "b"⟩, leaf ⟨"age", .equal, .string "a"⟩]
      = .ok (join (join (leaf ⟨"team", .equal, .string "a"⟩) .and
        (leaf ⟨"team", .equal, .string "b"⟩)) .and (leaf ⟨"age", .equal, .string "a"⟩)) := rfl
  have hfirst : evaluate (leaf ⟨"team", .equal, .string "a"⟩)
      (Record.ofList [("team", .string "a")]) true = .ok ⟨true, ["team == 'a' => true"]⟩ :=
    evaluate_leaf_eq_ok.mpr ⟨true, rfl, by decide +kernel⟩
  have hsecond : evaluate (leaf ⟨"team", .equal, .string "b"⟩)
      (Record.ofList [("team", .string "a")]) true = .ok ⟨false, ["team == 'b' => false"]⟩ :=
    evaluate_leaf_eq_ok.mpr ⟨false, rfl, by decide +kernel⟩
  have hstops : StopsAt .and (Record.ofList [("team", .string "a")]) true
      [leaf ⟨"team", .equal, .string "a"⟩] (leaf ⟨"team", .equal, .string "b"⟩)
      [leaf ⟨"age", .equal, .string "a"⟩] := by
    refine ⟨?_, .inr ?_⟩
    · intro rule hrule
      rw [List.mem_singleton.mp hrule]
      exact ⟨_, hfirst, rfl⟩
    · rintro ⟨evaluation, hevaluation, hsettled⟩
      rw [hsecond] at hevaluation
      cases hevaluation
      cases hsettled
  obtain ⟨-, hstop, hbracketed, hcopy⟩ :=
    evaluate_combineAll hcombined (Record.ofList [("team", .string "a")]) true
  have hevaluate := hstop _ _ _ rfl hstops
  rw [evaluateBehind, hsecond, ok_bind, List.flatMap_singleton, traceOf_of_evaluate hfirst]
    at hevaluate
  refine ⟨hevaluate, ?_, ?_⟩
  · have hother := hbracketed _ (Brackets.single.joined (Brackets.single.joined .single))
    rw [hother, hevaluate]
    rfl
  · rw [hcopy (leaf ⟨"age", .equal, .string "a"⟩) (by simp) _ rfl, hevaluate]
    rfl

end Rule

end ComparisonRules
