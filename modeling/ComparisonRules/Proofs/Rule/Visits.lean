import Mathlib.Data.List.Forall2
import ComparisonRules.Proofs.Rule.Combined

/-!
# Visited leaves

A leaf is found by the sides that lead to it from the root. Evaluation visits a leaf if, at every
joint of which it lies on the right side, the left side has a result that does not settle that of
the joint. The outcome is that of the last leaf visited, the ones before it have results, and the
trace has a line for each of them.
-/

namespace ComparisonRules

/-- A line of a trace: the comparison has a result on the record, and the line says so. -/
def Comparison.Logs (record : Record) (c : Comparison) (line : String) : Prop :=
  ∃ result, c.holds record = .ok result ∧
    line = c.text ++ " => " ++ if result then "true" else "false"

namespace Rule

inductive Side where
  | left
  | right
deriving DecidableEq

/-- The part of a rule at the end of a path from its root. -/
def part? : Rule → List Side → Option Rule
  | rule, [] => some rule
  | join left _ _, .left :: path => left.part? path
  | join _ _ right, .right :: path => right.part? path
  | leaf _, _ :: _ => none

/-- A comparison with the path that leads to it. -/
structure LeafAt where
  path : List Side
  comparison : Comparison

/-- A leaf of one side of a joint as a leaf of the joint. -/
def LeafAt.onSide (side : Side) (found : LeafAt) : LeafAt :=
  ⟨side :: found.path, found.comparison⟩

/-- The leaves from left to right. -/
def leaves : Rule → List LeafAt
  | leaf c => [⟨[], c⟩]
  | join left _ right => left.leaves.map (.onSide .left) ++ right.leaves.map (.onSide .right)

/-- Every joint of which the path takes the right side has a left side with a result that leaves
the joint open: true under AND, and false under OR. -/
def Visited (record : Record) (rule : Rule) (path : List Side) : Prop :=
  ∀ above beneath left connective right, path = above ++ .right :: beneath →
    rule.part? above = some (join left connective right) → Passes connective record false left

/-! ## Paths -/

theorem mem_leaves {rule : Rule} {path : List Side} {c : Comparison} :
    ⟨path, c⟩ ∈ rule.leaves ↔ rule.part? path = some (leaf c) := by
  induction rule generalizing path with
  | leaf d => cases path <;> simp [leaves, part?, eq_comm]
  | join left connective right ihLeft ihRight =>
      have hside (side other : Side) (found : LeafAt) (more : List Side) :
          found.onSide side = ⟨other :: more, c⟩ ↔ side = other ∧ found = ⟨more, c⟩ := by
        obtain ⟨path, d⟩ := found
        simp [LeafAt.onSide, and_assoc]
      cases path with
      | nil => simp [leaves, part?, LeafAt.onSide]
      | cons side path => cases side <;> simp [leaves, part?, hside, ihLeft, ihRight]

section

variable {record : Record}

theorem visited_nil (rule : Rule) : Visited record rule [] := by
  intro above beneath left connective right hpath
  exact absurd hpath (by simp)

theorem visited_leaf (c : Comparison) (path : List Side) : Visited record (leaf c) path := by
  intro above beneath left connective right _ hpart
  cases above <;> simp [part?] at hpart

theorem visited_left {left right : Rule} {connective : Connective} {path : List Side} :
    Visited record (join left connective right) (.left :: path) ↔ Visited record left path := by
  constructor
  · intro h above beneath l c r hpath hpart
    exact h (.left :: above) beneath l c r (by rw [hpath]; rfl) hpart
  · intro h above beneath l c r hpath hpart
    cases above with
    | nil => cases hpath
    | cons side above =>
        obtain ⟨rfl, hrest⟩ := List.cons.inj hpath
        exact h above beneath l c r hrest hpart

theorem visited_right {left right : Rule} {connective : Connective} {path : List Side} :
    Visited record (join left connective right) (.right :: path) ↔
      Passes connective record false left ∧ Visited record right path := by
  constructor
  · intro h
    refine ⟨h [] path left connective right rfl rfl, ?_⟩
    intro above beneath l c r hpath hpart
    exact h (.right :: above) beneath l c r (by rw [hpath]; rfl) hpart
  · rintro ⟨hpasses, h⟩ above beneath l c r hpath hpart
    cases above with
    | nil =>
        cases hpart
        exact hpasses
    | cons side above =>
        obtain ⟨rfl, hrest⟩ := List.cons.inj hpath
        exact h above beneath l c r hrest hpart

end

instance decidablePasses (connective : Connective) (record : Record) (traced : Bool)
    (rule : Rule) : Decidable (Passes connective record traced rule) :=
  match h : rule.evaluate record traced with
  | .ok evaluation =>
      decidable_of_iff (connective.settledBy evaluation.matched = false) (by simp [Passes, h])
  | .error _ => .isFalse (by simp [Passes, h])

instance decidableVisited (record : Record) :
    (rule : Rule) → (path : List Side) → Decidable (Visited record rule path)
  | rule, [] => .isTrue (visited_nil rule)
  | leaf c, side :: path => .isTrue (visited_leaf c (side :: path))
  | join left _ _, .left :: path =>
      have := decidableVisited record left path
      decidable_of_iff _ visited_left.symm
  | join _ _ right, .right :: path =>
      have := decidableVisited record right path
      decidable_of_iff _ visited_right.symm

/-- The leaves that evaluation visits, from left to right. -/
def visitedLeaves (record : Record) (rule : Rule) : List LeafAt :=
  rule.leaves.filter fun found => Visited record rule found.path

section

variable {record : Record} {traced : Bool}

theorem mem_visitedLeaves {rule : Rule} {path : List Side} {c : Comparison} :
    ⟨path, c⟩ ∈ rule.visitedLeaves record ↔
      rule.part? path = some (leaf c) ∧ Visited record rule path := by
  rw [visitedLeaves, List.mem_filter, mem_leaves, decide_eq_true_iff]

@[simp] theorem visitedLeaves_leaf (c : Comparison) :
    (leaf c).visitedLeaves record = [⟨[], c⟩] := by
  simp [visitedLeaves, leaves, visited_leaf]

theorem visitedLeaves_join (left right : Rule) (connective : Connective) :
    (join left connective right).visitedLeaves record
      = (left.visitedLeaves record).map (.onSide .left)
        ++ if Passes connective record false left then
            (right.visitedLeaves record).map (.onSide .right)
          else [] := by
  rw [visitedLeaves, leaves, List.filter_append, List.filter_map, List.filter_map]
  congr 1
  · refine congrArg _ (List.filter_congr fun found _ => ?_)
    simp [LeafAt.onSide, visited_left]
  · split
    · rename_i hpasses
      refine congrArg _ (List.filter_congr fun found _ => ?_)
      simp [LeafAt.onSide, visited_right, hpasses]
    · rename_i hpasses
      simp [LeafAt.onSide, visited_right, hpasses]

/-! ## The walk -/

theorem map_matched_evaluate (rule : Rule) (record : Record) (traced : Bool) :
    (rule.evaluate record traced).map Evaluation.matched
      = (rule.evaluateTraced record).map Evaluation.matched := by
  unfold evaluate
  cases rule.evaluateTraced record <;> rfl

theorem passes_iff {connective : Connective} {rule : Rule} :
    Passes connective record traced rule ↔ Passes connective record false rule := by
  have hmatched := (map_matched_evaluate rule record traced).trans
    (map_matched_evaluate rule record false).symm
  unfold Passes
  cases htraced : rule.evaluate record traced <;> cases hplain : rule.evaluate record false <;>
    simp_all [Except.map]

theorem traceOf_leaf {c : Comparison} {result : Bool} (h : c.holds record = .ok result) :
    traceOf record traced (leaf c) = if traced then [c.traceLine result] else [] :=
  traceOf_of_evaluate (evaluate_leaf_eq_ok.mpr ⟨result, h, rfl⟩)

theorem evaluateBehind_eq_ok {front : List Rule} {stop : Rule} {evaluation : Evaluation}
    (h : evaluateBehind record traced front stop = .ok evaluation) :
    (∃ own, stop.evaluate record traced = .ok own ∧ own.matched = evaluation.matched) ∧
      evaluation.trace = (front ++ [stop]).flatMap (traceOf record traced) := by
  obtain ⟨own, hown, heq⟩ := bind_eq_ok.mp h
  cases heq
  refine ⟨⟨own, hown, rfl⟩, ?_⟩
  rw [List.flatMap_append, List.flatMap_singleton, traceOf_of_evaluate hown]

theorem evaluateBehind_eq_error {front : List Rule} {stop : Rule} {e : EvalError} :
    evaluateBehind record traced front stop = .error e ↔
      stop.evaluate record traced = .error e := by
  unfold evaluateBehind
  cases stop.evaluate record traced <;> simp

/-- The comparisons of some leaves as rules of their own. -/
def ownRules (found : List LeafAt) : List Rule :=
  found.map fun found => leaf found.comparison

@[simp] theorem ownRules_onSide (side : Side) (found : List LeafAt) :
    ownRules (found.map (.onSide side)) = ownRules found := by
  simp [ownRules, LeafAt.onSide]

@[simp] theorem ownRules_append (front back : List LeafAt) :
    ownRules (front ++ back) = ownRules front ++ ownRules back :=
  List.map_append

/-- All the comparisons of some leaves have results. -/
def HaveResults (record : Record) (found : List LeafAt) : Prop :=
  ∀ leafAt ∈ found, ∃ result, leafAt.comparison.holds record = .ok result

theorem haveResults_append {front back : List LeafAt} :
    HaveResults record (front ++ back) ↔ HaveResults record front ∧ HaveResults record back :=
  List.forall_mem_append

theorem haveResults_onSide {side : Side} {found : List LeafAt} :
    HaveResults record (found.map (.onSide side)) ↔ HaveResults record found :=
  List.forall_mem_map

/-- Evaluation is that of the visited leaves one after the other: all have results but perhaps
the last, whose outcome is that of the rule. -/
theorem exists_walk (rule : Rule) (record : Record) (traced : Bool) :
    ∃ front last, rule.visitedLeaves record = front ++ [last] ∧ HaveResults record front ∧
      rule.evaluate record traced
        = evaluateBehind record traced (ownRules front) (leaf last.comparison) := by
  induction rule with
  | leaf c =>
      exact ⟨[], ⟨[], c⟩, visitedLeaves_leaf c, by simp [HaveResults],
        (evaluateBehind_nil _).symm⟩
  | join left connective right ihLeft ihRight =>
      obtain ⟨front, last, hvisited, hfront, hleft⟩ := ihLeft
      rw [visitedLeaves_join, hvisited]
      by_cases hpasses : Passes connective record false left
      · obtain ⟨front', last', hvisited', hfront', hright⟩ := ihRight
        obtain ⟨first, hfirst, hsettled⟩ := passes_iff.mpr hpasses
        obtain ⟨⟨own, hown, -⟩, htrace⟩ := evaluateBehind_eq_ok (hleft.symm.trans hfirst)
        obtain ⟨result, hresult, -⟩ := evaluate_leaf_eq_ok.mp hown
        have hlast : HaveResults record [last] :=
          List.forall_mem_singleton.mpr ⟨result, hresult⟩
        refine ⟨(front ++ [last]).map (.onSide .left) ++ front'.map (.onSide .right),
          last'.onSide .right, ?_, ?_, ?_⟩
        · rw [if_pos hpasses, hvisited', @List.map_append _ _ _ front', List.append_assoc]
          rfl
        · rw [haveResults_append, haveResults_onSide, haveResults_onSide, haveResults_append]
          exact ⟨⟨hfront, hlast⟩, hfront'⟩
        · rw [evaluate_join_of_passes hfirst hsettled, hright, htrace, ownRules_append,
            ownRules_onSide, ownRules_onSide, ownRules_append, evaluateBehind_append]
          rfl
      · refine ⟨front.map (.onSide .left), last.onSide .left, ?_, haveResults_onSide.mpr hfront,
          ?_⟩
        · rw [if_neg hpasses, List.append_nil, List.map_append, List.map_singleton]
        · rw [evaluate_join_of_not_passes (mt passes_iff.mp hpasses), hleft, ownRules_onSide]
          rfl

theorem exists_visitedLeaves_eq_cons (rule : Rule) (record : Record) :
    ∃ first more others, rule.visitedLeaves record = first :: more ∧
      rule.leaves = first :: others := by
  induction rule with
  | leaf c => exact ⟨⟨[], c⟩, [], [], visitedLeaves_leaf c, rfl⟩
  | join left connective right ihLeft ihRight =>
      obtain ⟨first, more, others, hvisited, hleaves⟩ := ihLeft
      rw [visitedLeaves_join, hvisited, leaves, hleaves]
      exact ⟨_, _, _, rfl, rfl⟩

theorem forall₂_logs {found : List LeafAt} (h : HaveResults record found) :
    List.Forall₂ (fun leafAt line => leafAt.comparison.Logs record line) found
      ((ownRules found).flatMap (traceOf record true)) := by
  induction found with
  | nil => exact .nil
  | cons leafAt found ih =>
      obtain ⟨hfirst, hrest⟩ := List.forall_mem_cons.mp h
      obtain ⟨result, hresult⟩ := hfirst
      have hlines : (ownRules (leafAt :: found)).flatMap (traceOf record true)
          = leafAt.comparison.traceLine result
            :: (ownRules found).flatMap (traceOf record true) := by
        rw [ownRules, List.map_cons, List.flatMap_cons, traceOf_leaf hresult]
        rfl
      rw [hlines]
      exact .cons ⟨result, hresult, rfl⟩ (ih hrest)

theorem exists_walk_eq_error (rule : Rule) (record : Record) (traced : Bool) :
    ∃ front last, rule.visitedLeaves record = front ++ [last] ∧ HaveResults record front ∧
      ∀ e, rule.evaluate record traced = .error e ↔ last.comparison.holds record = .error e := by
  obtain ⟨front, last, hvisited, hfront, hwalk⟩ := exists_walk rule record traced
  refine ⟨front, last, hvisited, hfront, fun e => ?_⟩
  rw [hwalk, evaluateBehind_eq_error, evaluate_leaf_eq_error]

theorem exists_walk_of_ok {rule : Rule} {evaluation : Evaluation}
    (h : rule.evaluate record traced = .ok evaluation) :
    ∃ front last, rule.visitedLeaves record = front ++ [last] ∧
      HaveResults record (front ++ [last]) ∧
      last.comparison.holds record = .ok evaluation.matched ∧
      evaluation.trace = (ownRules (front ++ [last])).flatMap (traceOf record traced) := by
  obtain ⟨front, last, hvisited, hfront, hwalk⟩ := exists_walk rule record traced
  obtain ⟨⟨own, hown, hmatched⟩, htrace⟩ := evaluateBehind_eq_ok (hwalk.symm.trans h)
  obtain ⟨result, hresult, rfl⟩ := evaluate_leaf_eq_ok.mp hown
  have hlast : HaveResults record [last] := List.forall_mem_singleton.mpr ⟨result, hresult⟩
  refine ⟨front, last, hvisited, haveResults_append.mpr ⟨hfront, hlast⟩, ?_, ?_⟩
  · rw [hresult, ← hmatched]
  · rw [htrace, ownRules_append]
    rfl

theorem trace_of_evaluate_false {rule : Rule} {evaluation : Evaluation}
    (h : rule.evaluate record false = .ok evaluation) : evaluation.trace = [] := by
  obtain ⟨full, -, heq⟩ := bind_eq_ok.mp h
  cases heq
  rfl

end

/-- The outcome and the trace are those of the visited leaves: a leaf is visited if, wherever it
lies on the right side of a joint, the left side has a result that leaves the joint open. The
first leaf is visited. Evaluation fails if and only if a visited leaf does; that one is then the
last, all others have results, and its failure is the outcome. A result is that of the last
visited leaf. The trace has one line for each visited leaf in order if it is asked for and is
empty otherwise, and asking for it changes no outcome. -/
theorem evaluate_visitedLeaves (rule : Rule) (record : Record) :
    (∀ path c, ⟨path, c⟩ ∈ rule.visitedLeaves record ↔
      rule.part? path = some (leaf c) ∧ Visited record rule path) ∧
    (∃ first more others, rule.visitedLeaves record = first :: more ∧
      rule.leaves = first :: others) ∧
    (∀ traced, (∃ e, rule.evaluate record traced = .error e) ↔
      ∃ found ∈ rule.visitedLeaves record, ∃ e, found.comparison.holds record = .error e) ∧
    (∀ traced e, rule.evaluate record traced = .error e → ∃ front last,
      rule.visitedLeaves record = front ++ [last] ∧ last.comparison.holds record = .error e ∧
      HaveResults record front) ∧
    (∀ traced evaluation, rule.evaluate record traced = .ok evaluation → ∃ front last,
      rule.visitedLeaves record = front ++ [last] ∧
      last.comparison.holds record = .ok evaluation.matched) ∧
    (∀ evaluation, rule.evaluate record true = .ok evaluation →
      List.Forall₂ (fun found line => found.comparison.Logs record line)
        (rule.visitedLeaves record) evaluation.trace) ∧
    (rule.evaluate record true).map Evaluation.matched
      = (rule.evaluate record false).map Evaluation.matched ∧
    ∀ evaluation, rule.evaluate record false = .ok evaluation → evaluation.trace = [] := by
  refine ⟨fun path c => mem_visitedLeaves, exists_visitedLeaves_eq_cons rule record, ?_, ?_, ?_,
    ?_, ?_, fun evaluation h => trace_of_evaluate_false h⟩
  · intro traced
    obtain ⟨front, last, hvisited, hfront, hfails⟩ := exists_walk_eq_error rule record traced
    rw [hvisited]
    constructor
    · rintro ⟨e, he⟩
      exact ⟨last, by simp, e, (hfails e).mp he⟩
    · rintro ⟨found, hfound, e, he⟩
      rcases List.mem_append.mp hfound with hmem | hmem
      · obtain ⟨result, hresult⟩ := hfront found hmem
        rw [hresult] at he
        cases he
      · rw [List.mem_singleton.mp hmem] at he
        exact ⟨e, (hfails e).mpr he⟩
  · intro traced e h
    obtain ⟨front, last, hvisited, hfront, hfails⟩ := exists_walk_eq_error rule record traced
    exact ⟨front, last, hvisited, (hfails e).mp h, hfront⟩
  · intro traced evaluation h
    obtain ⟨front, last, hvisited, -, hlast, -⟩ := exists_walk_of_ok h
    exact ⟨front, last, hvisited, hlast⟩
  · intro evaluation h
    obtain ⟨front, last, hvisited, hresults, -, htrace⟩ := exists_walk_of_ok h
    rw [hvisited, htrace]
    exact forall₂_logs hresults
  · rw [map_matched_evaluate, map_matched_evaluate]

/-- The right side of OR is left out where the left one holds, and fails where it does not. -/
theorem evaluate_visitedLeaves_or :
    List.Forall₂ (fun found line =>
        found.comparison.Logs (Record.ofList [("a", .string "x"), ("c", .string "y")]) line)
      (visitedLeaves (Record.ofList [("a", .string "x"), ("c", .string "y")])
        (join (join (leaf ⟨"a", .equal, .string "x"⟩) .or (leaf ⟨"b", .equal, .string "x"⟩)) .and
          (leaf ⟨"c", .equal, .string "x"⟩)))
      ["a == 'x' => true", "c == 'x' => false"] ∧
    ∃ front last, visitedLeaves (Record.ofList [("a", .string "y"), ("c", .string "y")])
        (join (join (leaf ⟨"a", .equal, .string "x"⟩) .or (leaf ⟨"b", .equal, .string "x"⟩)) .and
          (leaf ⟨"c", .equal, .string "x"⟩)) = front ++ [last] ∧
      last.comparison.holds (Record.ofList [("a", .string "y"), ("c", .string "y")])
        = .error (.unknownField "b") ∧
      HaveResults (Record.ofList [("a", .string "y"), ("c", .string "y")]) front := by
  obtain ⟨-, -, -, -, -, hlines, -⟩ := evaluate_visitedLeaves
    (join (join (leaf ⟨"a", .equal, .string "x"⟩) .or (leaf ⟨"b", .equal, .string "x"⟩)) .and
      (leaf ⟨"c", .equal, .string "x"⟩))
    (Record.ofList [("a", .string "x"), ("c", .string "y")])
  obtain ⟨-, -, -, hfails, -⟩ := evaluate_visitedLeaves
    (join (join (leaf ⟨"a", .equal, .string "x"⟩) .or (leaf ⟨"b", .equal, .string "x"⟩)) .and
      (leaf ⟨"c", .equal, .string "x"⟩))
    (Record.ofList [("a", .string "y"), ("c", .string "y")])
  exact ⟨hlines ⟨false, ["a == 'x' => true", "c == 'x' => false"]⟩ (by decide),
    hfails true (.unknownField "b") (by decide)⟩

end Rule

end ComparisonRules
