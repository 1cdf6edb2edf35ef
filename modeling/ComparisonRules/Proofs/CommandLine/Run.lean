import ComparisonRules.CommandLine.Run
import ComparisonRules.Proofs.Service.Forms

/-!
# Commands and the service

The command line answers as the service does, and takes what it prints. An argument is guessed to
be a tree or a text by its first character, and the guess is never wrong for a text that compiles
or for a stored tree. So a rule may be given in either way, with the same outcome.
-/

namespace ComparisonRules.CommandLine

/-! ## Arguments -/

theorem looksLikeTree_of_compile {text : String} {rule : Rule}
    (h : Rule.compile text = .ok rule) : looksLikeTree text = false := by
  obtain ⟨c, cs, hdrop, hstarts⟩ := Rule.exists_head_of_compile h
  rw [looksLikeTree, hdrop, List.head?_cons, decide_eq_false_iff_not]
  rintro ⟨⟩
  revert hstarts
  unfold Rule.StartsOperand
  decide

theorem looksLikeTree_storedText (rule : Rule) : looksLikeTree rule.storedText = true := by
  obtain ⟨cs, htext⟩ : ∃ cs, rule.storedText.toList = '\x7b' :: cs := by
    rw [Rule.storedText, Json.Data.compactText, String.toList_ofList]
    cases hnode : Node.ofRule rule with
    | mk kind value left right field literal =>
        rw [Node.toData_eq, Json.write_object_cons]
        exact ⟨_, rfl⟩
  rw [looksLikeTree, htext, List.dropWhile_cons_of_neg (by decide)]
  rfl

theorem sourceOf_of_compile {text : String} {rule : Rule} (h : Rule.compile text = .ok rule) :
    sourceOf text = .ok (.text text) := by
  rw [sourceOf, looksLikeTree_of_compile h]
  rfl

theorem ruleOf_of_compile {text : String} {rule : Rule} (h : Rule.compile text = .ok rule)
    (index : Nat) : ruleOf index text = .ok rule := by
  rw [ruleOf, sourceOf_of_compile h, ok_bind]
  exact Service.RuleSource.toRule_text_of_compile h index

theorem ruleOf_of_looksLikeTree {argument : String} (h : looksLikeTree argument = true)
    (index : Nat) : ruleOf index argument = Rule.ofStoredText argument := by
  rw [ruleOf, sourceOf, if_pos h, Rule.ofStoredText]
  cases liftError RuleError.json (Json.readText Node.read argument) <;> rfl

theorem ruleOf_storedText {rule : Rule} (h : rule.IsStorable) (index : Nat) :
    ruleOf index rule.storedText = .ok rule := by
  rw [ruleOf_of_looksLikeTree (looksLikeTree_storedText rule), Rule.ofStoredText_of_isStorable h]

theorem isStorable_of_ruleOf {index : Nat} {argument : String} {rule : Rule}
    (h : ruleOf index argument = .ok rule) : rule.IsStorable := by
  by_cases htree : looksLikeTree argument = true
  · rw [ruleOf_of_looksLikeTree htree] at h
    exact Rule.isStorable_of_ofStoredText h
  · obtain ⟨source, hsource, hrule⟩ := bind_eq_ok.mp h
    rw [sourceOf, if_neg htree] at hsource
    cases hsource
    have hfinite : (Service.RuleSource.text argument).FiniteLiterals := trivial
    exact Service.RuleSource.isStorable_of_toRule hfinite hrule

/-- The argument stays, or it is a rule text and comes as its stored tree. -/
def ReplacedBy (argument other : String) : Prop :=
  other = argument ∨ ∃ rule, Rule.compile argument = .ok rule ∧ other = rule.storedText

theorem ReplacedBy.ruleOf_eq {argument other : String} (h : ReplacedBy argument other)
    (index : Nat) : ruleOf index other = ruleOf index argument := by
  obtain rfl | ⟨rule, hcompile, rfl⟩ := h
  · rfl
  · rw [ruleOf_of_compile hcompile, ruleOf_storedText (Rule.isStorable_of_compile hcompile)]

theorem ReplacedBy.inText_eq {argument other : String} (h : ReplacedBy argument other)
    (index : Nat) :
    inText other (ruleOf index other) = inText argument (ruleOf index argument) := by
  rw [h.ruleOf_eq]
  obtain rfl | ⟨rule, hcompile, rfl⟩ := h
  · rfl
  · rw [ruleOf_of_compile hcompile]
    rfl

/-! ## Lists of arguments -/

theorem inText_eq_ok {α : Type} {source : String} {result : Except RuleError α} {value : α} :
    inText source result = .ok value ↔ result = .ok value := by
  cases result with
  | error e => simp [inText, Except.mapError]
  | ok v => simp [inText, Except.mapError]

theorem rulesOf_of_replacedBy {arguments others : List String}
    (h : List.Forall₂ ReplacedBy arguments others) (index : Nat) :
    rulesOf index others = rulesOf index arguments := by
  induction h generalizing index with
  | nil => rfl
  | cons hfirst _ ih => rw [rulesOf, rulesOf, hfirst.inText_eq, ih]

theorem isStorable_of_rulesOf {index : Nat} {arguments : List String} {rules : List Rule}
    (h : rulesOf index arguments = .ok rules) : ∀ rule ∈ rules, rule.IsStorable := by
  induction arguments generalizing index rules with
  | nil =>
      cases h
      simp
  | cons argument rest ih =>
      obtain ⟨rule, hrule, h⟩ := bind_eq_ok.mp h
      obtain ⟨others, hothers, h⟩ := bind_eq_ok.mp h
      cases h
      exact List.forall_mem_cons.mpr ⟨isStorable_of_ruleOf (inText_eq_ok.mp hrule), ih hothers⟩

theorem exists_sources {arguments : List String}
    (h : ∀ argument ∈ arguments, looksLikeTree argument = true →
      ∃ node, Json.readText Node.read argument = .ok node) :
    ∃ sources, List.Forall₂ (fun argument source => sourceOf argument = .ok source)
      arguments sources := by
  induction arguments with
  | nil => exact ⟨[], .nil⟩
  | cons argument rest ih =>
      obtain ⟨hfirst, hrest⟩ := List.forall_mem_cons.mp h
      obtain ⟨sources, hsources⟩ := ih hrest
      by_cases htree : looksLikeTree argument = true
      · obtain ⟨node, hnode⟩ := hfirst htree
        refine ⟨.tree node :: sources, .cons ?_ hsources⟩
        rw [sourceOf, if_pos htree, hnode]
        rfl
      · exact ⟨.text argument :: sources, .cons (if_neg htree) hsources⟩

theorem mapError_rulesOf {arguments : List String} {sources : List Service.RuleSource}
    (h : List.Forall₂ (fun argument source => sourceOf argument = .ok source) arguments sources)
    (index : Nat) :
    (rulesOf index arguments).mapError Failure.error = Service.rulesOf index sources := by
  induction h generalizing index with
  | nil => rfl
  | @cons argument source rest others hfirst _ ih =>
      have hrule : ruleOf index argument = source.toRule index := by
        rw [ruleOf, hfirst, ok_bind]
      rw [rulesOf, Service.rulesOf, hrule, ← ih (index + 1)]
      cases source.toRule index with
      | error e => rfl
      | ok rule => cases rulesOf (index + 1) rest <;> rfl

/-! ## Commands -/

theorem evaluate_of_toRule_eq {node other : Node} (h : other.toRule = node.toRule)
    (data : Record) (traced : Bool) :
    Service.evaluate ⟨other, data, traced⟩ = Service.evaluate ⟨node, data, traced⟩ := by
  rw [Service.evaluate, Service.evaluate, h]

theorem execute_parse (text : String) :
    execute (.parse text) = (inText text (Service.create ⟨text⟩)).map fun response =>
      response.toData.prettyText := by
  rw [execute]
  cases inText text (Service.create ⟨text⟩) <;> rfl

theorem mapError_execute_combine {arguments : List String}
    {sources : List Service.RuleSource}
    (h : List.Forall₂ (fun argument source => sourceOf argument = .ok source) arguments sources)
    (connective : Connective) :
    (execute (.combine connective arguments)).mapError Failure.error
      = (Service.combine ⟨sources, connective⟩).map fun response =>
          response.toData.prettyText := by
  rw [execute, Service.combine]
  dsimp only
  rw [← mapError_rulesOf h]
  cases rulesOf 0 arguments with
  | error failure => rfl
  | ok rules =>
      show (inText "" (liftError .combine (Rule.combineAll connective rules)) >>= _).mapError _
        = (liftError .combine (Rule.combineAll connective rules) >>= _).map _
      cases Rule.combineAll connective rules <;> rfl

theorem execute_combine_eq_ok {connective : Connective} {arguments : List String}
    {output : String} (h : execute (.combine connective arguments) = .ok output) :
    ∃ rules combined, rulesOf 0 arguments = .ok rules ∧
      Rule.combineAll connective rules = .ok combined ∧ combined.IsStorable ∧
      output = (Service.CombineResponse.toData ⟨.ofRule combined⟩).prettyText := by
  obtain ⟨rules, hrules, h⟩ := bind_eq_ok.mp h
  obtain ⟨combined, hcombined, h⟩ := bind_eq_ok.mp h
  cases h
  have hcombine := liftError_eq_ok (inText_eq_ok.mp hcombined)
  exact ⟨rules, combined, hrules, hcombine,
    Rule.isStorable_of_combineAll (isStorable_of_rulesOf hrules) hcombine, rfl⟩

theorem execute_combine_storedText {rule : Rule} (h : rule.IsStorable)
    (connective : Connective) :
    execute (.combine connective [rule.storedText])
      = .ok (Service.CombineResponse.toData ⟨.ofRule rule⟩).prettyText := by
  rw [execute, rulesOf, ruleOf_storedText h]
  rfl

theorem execute_evaluate_storedText {text : String} {rule : Rule}
    (h : Rule.compile text = .ok rule) (data : String) (traced : Bool) :
    execute (.evaluate (.tree rule.storedText) data traced)
      = execute (.evaluate (.rule text) data traced) := by
  have hstorable := Rule.isStorable_of_compile h
  obtain ⟨node, hnode, hrule⟩ := bind_eq_ok.mp (Rule.ofStoredText_of_isStorable hstorable)
  have hread := liftError_eq_ok hnode
  have hsame : node.toRule = (Node.ofRule rule).toRule := by
    rw [liftError_eq_ok hrule, (Node.represents_ofRule rule).toRule_eq hstorable.isDecodable]
  rw [execute, execute, EvaluationSource.toNode, EvaluationSource.toNode, hread, h]
  show (inText data _ >>= fun record => inText "" (Service.evaluate ⟨node, record, traced⟩) >>= _)
    = (inText data _ >>= fun record =>
        inText "" (Service.evaluate ⟨.ofRule rule, record, traced⟩) >>= _)
  simp only [evaluate_of_toRule_eq hsame]

/-- Commands answer as the service does: a rule is parsed to the response or the error of the
service, and arguments whose trees can be read are combined to the same tree, or fail with the
same error, as their sources. No text that compiles is taken for a tree. A rule text may be
replaced by its stored tree in any arguments: the same is printed, or the same argument fails with
the same error. What is printed for combined rules is also printed for their stored tree alone. A
rule text is evaluated as its stored tree. -/
theorem commands_agree_with_service :
    (∀ text, execute (.parse text) = (inText text (Service.create ⟨text⟩)).map fun response =>
      response.toData.prettyText) ∧
    (∀ connective arguments,
      (∀ argument ∈ arguments, looksLikeTree argument = true →
        ∃ node, Json.readText Node.read argument = .ok node) →
      ∃ sources, List.Forall₂ (fun argument source => sourceOf argument = .ok source)
          arguments sources ∧
        (execute (.combine connective arguments)).mapError Failure.error
          = (Service.combine ⟨sources, connective⟩).map fun response =>
              response.toData.prettyText) ∧
    (∀ text rule, Rule.compile text = .ok rule → sourceOf text = .ok (.text text)) ∧
    (∀ connective arguments others, List.Forall₂ ReplacedBy arguments others →
      execute (.combine connective others) = execute (.combine connective arguments) ∧
      others.mapIdx ruleOf = arguments.mapIdx ruleOf) ∧
    (∀ connective arguments output, execute (.combine connective arguments) = .ok output →
      ∃ rules combined, rulesOf 0 arguments = .ok rules ∧
        Rule.combineAll connective rules = .ok combined ∧
        output = (Service.CombineResponse.toData ⟨.ofRule combined⟩).prettyText ∧
        ∀ other, execute (.combine other [combined.storedText]) = .ok output) ∧
    ∀ text rule data traced, Rule.compile text = .ok rule →
      execute (.evaluate (.rule text) data traced)
        = execute (.evaluate (.tree rule.storedText) data traced) := by
  refine ⟨execute_parse, ?_, fun text rule => sourceOf_of_compile, ?_, ?_, ?_⟩
  · intro connective arguments h
    obtain ⟨sources, hsources⟩ := exists_sources h
    exact ⟨sources, hsources, mapError_execute_combine hsources connective⟩
  · intro connective arguments others h
    refine ⟨by rw [execute, execute, rulesOf_of_replacedBy h], ?_⟩
    exact Service.mapIdx_eq_of_forall₂ (fun _ _ hreplaced => hreplaced.ruleOf_eq) h
  · intro connective arguments output h
    obtain ⟨rules, combined, hrules, hcombined, hstorable, rfl⟩ := execute_combine_eq_ok h
    exact ⟨rules, combined, hrules, hcombined, rfl, execute_combine_storedText hstorable⟩
  · intro text rule data traced h
    exact (execute_evaluate_storedText h data traced).symm

/-- A stored tree in the place of its text, in front of an argument that fails, alone under the
other connective, and evaluated on a record without its field. -/
theorem commands_agree_with_service_stored :
    execute (.combine .and [(Rule.leaf ⟨"a", .equal, .string "x"⟩).storedText, "(b"])
      = .error ⟨"(b", .compile (.parse ⟨.comparator, "end of input", 2, 0⟩)⟩ ∧
    execute (.combine .and [(Rule.leaf ⟨"a", .equal, .string "x"⟩).storedText])
      = execute (.combine .or ["a == 'x'"]) ∧
    execute (.evaluate (.tree (Rule.leaf ⟨"a", .equal, .string "x"⟩).storedText) "\x7b\x7d" true)
      = .error ⟨"", .eval (.unknownField "a")⟩ := by
  have hcompile : Rule.compile "a == 'x'" = .ok (.leaf ⟨"a", .equal, .string "x"⟩) := by
    decide +kernel
  obtain ⟨-, -, -, hcombine, hprinted, hevaluate⟩ := commands_agree_with_service
  refine ⟨?_, ?_, ?_⟩
  · have hreplaced : List.Forall₂ ReplacedBy ["a == 'x'", "(b"]
        [(Rule.leaf ⟨"a", .equal, .string "x"⟩).storedText, "(b"] :=
      .cons (.inr ⟨_, hcompile, rfl⟩) (.cons (.inl rfl) .nil)
    rw [(hcombine .and _ _ hreplaced).1]
    decide +kernel
  · have hrules : rulesOf 0 ["a == 'x'"] = .ok [.leaf ⟨"a", .equal, .string "x"⟩] := by
      rw [rulesOf, ruleOf_of_compile hcompile]
      rfl
    obtain ⟨output, houtput⟩ : ∃ output, execute (.combine .or ["a == 'x'"]) = .ok output := by
      rw [execute, hrules]
      exact ⟨_, rfl⟩
    obtain ⟨rules, combined, hfound, hcombined, -, hsame⟩ := hprinted _ _ _ houtput
    cases hfound.symm.trans hrules
    cases hcombined
    rw [hsame, houtput]
  · rw [← hevaluate _ _ _ _ hcompile]
    decide +kernel

end ComparisonRules.CommandLine
