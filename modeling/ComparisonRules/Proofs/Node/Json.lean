import ComparisonRules.Node.Json
import ComparisonRules.Proofs.Json.Within

/-!
# Nodes as JSON

A node that is read has no literal but finite numbers and strings. A node that was written is
read as itself, without the literals that are not finite, as long as it is not nested too deep.
-/

namespace ComparisonRules

/-- JSON has a number for every number but infinity and what is not a number. -/
def Value.isFinite : Value → Bool
  | number n => n.isFinite
  | string _ => true

theorem Value.isFinite_of_read {levels : Nat} {document : Json.Document} {value : Value}
    (h : Value.read levels document = .ok value) : value.isFinite = true := by
  obtain ⟨_, hcheck, hvalue⟩ := bind_eq_ok.mp h
  cases document with
  | number n =>
      cases hvalue
      rw [Json.checkWhole.eq_def] at hcheck
      by_cases hfinite : n.number.isFinite = true
      · exact hfinite
      · dsimp only at hcheck
        rw [if_neg hfinite] at hcheck
        cases hcheck
  | string q =>
      obtain ⟨s, -, hs⟩ := bind_eq_ok.mp hvalue
      cases hs
      rfl
  | _ => cases hvalue

theorem Value.read_number {levels : Nat} {n : Json.Numeral} (h : n.number.isFinite = true) :
    Value.read levels (.number n) = .ok (.number n.number) := by
  have hcheck : Json.checkWhole levels (.number n) = .ok () := by
    rw [Json.checkWhole.eq_def]
    exact if_pos h
  rw [Value.read, hcheck, ok_bind]

theorem Value.read_string {levels : Nat} (s : String) :
    Value.read levels (.string (.ofString s)) = .ok (.string s) := by
  have hcheck : Json.checkWhole levels (.string (.ofString s)) = .ok () := by
    rw [Json.checkWhole.eq_def]
    dsimp only
    rw [Json.readQuotation_ofString]
    rfl
  rw [Value.read, hcheck, ok_bind, Json.readQuotation_ofString]
  rfl

theorem Value.read_document {levels : Nat} {value : Value} (h : value.toData.Within levels) :
    Value.read levels value.toData.document = .ok value := by
  cases value with
  | number n =>
      cases h with
      | number hfinite =>
          obtain ⟨numeral, hdocument, hnumber⟩ := Json.document_number hfinite
          rw [toData, hdocument, Value.read_number (hnumber ▸ hfinite), hnumber]
  | string s => exact Value.read_string s

theorem Json.readOptional_eq_some {α : Type} {shape : Json.Shape α} {document : Json.Document}
    {value : α} (h : Json.readOptional shape document = .ok (some value)) :
    shape document = .ok value := by
  unfold Json.readOptional at h
  split at h
  · cases h
  · obtain ⟨found, hfound, hsome⟩ := bind_eq_ok.mp h
    cases hsome
    exact hfound

namespace Node

/-! ## Nodes that are read -/

/-- All number literals in the tree are finite. -/
inductive FiniteLiterals : Node → Prop where
  | node {kind : Kind} {value : Option String} {left right : Option Node}
      {field : Option String} {literal : Option Value} :
      (∀ child, left = some child → FiniteLiterals child) →
      (∀ child, right = some child → FiniteLiterals child) →
      (∀ v, literal = some v → v.isFinite = true) →
      FiniteLiterals ⟨kind, value, left, right, field, literal⟩

/-- The same of the part of a node that has been read. -/
structure Draft.FiniteLiterals (draft : Draft) : Prop where
  left : ∀ child, draft.left = some (some child) → child.FiniteLiterals
  right : ∀ child, draft.right = some (some child) → child.FiniteLiterals
  literal : ∀ v, draft.literal = some (some v) → v.isFinite = true

theorem Draft.finiteLiterals_empty : Draft.empty.FiniteLiterals :=
  ⟨by simp [Draft.empty], by simp [Draft.empty], by simp [Draft.empty]⟩

theorem Draft.finiteLiterals_of_finish {draft : Draft} {node : Node}
    (hdraft : draft.FiniteLiterals) (h : draft.finish = .ok node) : node.FiniteLiterals := by
  obtain ⟨kind, -, hnode⟩ := bind_eq_ok.mp h
  cases hnode
  refine .node ?_ ?_ ?_
  · intro child hchild
    exact hdraft.left child (Option.join_eq_some_iff.mp hchild)
  · intro child hchild
    exact hdraft.right child (Option.join_eq_some_iff.mp hchild)
  · intro v hv
    exact hdraft.literal v (Option.join_eq_some_iff.mp hv)

theorem Draft.finiteLiterals_of_jsonFields {levels : Nat} {child : Json.Shape Node}
    (hchild : ∀ document node, child document = .ok node → node.FiniteLiterals)
    (field : Json.Field Draft) (hfield : field ∈ jsonFields levels child)
    (document : Json.Document) (draft more : Draft) (hdraft : draft.FiniteLiterals)
    (h : field.read document draft = .ok more) : more.FiniteLiterals := by
  simp only [jsonFields, List.mem_cons, List.not_mem_nil, or_false] at hfield
  rcases hfield with rfl | rfl | rfl | rfl | rfl | rfl
  all_goals
    obtain ⟨found, hfound, hmore⟩ := bind_eq_ok.mp h
    cases hmore
  · exact ⟨hdraft.left, hdraft.right, hdraft.literal⟩
  · exact ⟨hdraft.left, hdraft.right, hdraft.literal⟩
  · refine ⟨?_, hdraft.right, hdraft.literal⟩
    intro node hnode
    cases hnode
    exact hchild document node (Json.readOptional_eq_some hfound)
  · refine ⟨hdraft.left, ?_, hdraft.literal⟩
    intro node hnode
    cases hnode
    exact hchild document node (Json.readOptional_eq_some hfound)
  · exact ⟨hdraft.left, hdraft.right, hdraft.literal⟩
  · refine ⟨hdraft.left, hdraft.right, ?_⟩
    intro v hv
    cases hv
    exact Value.isFinite_of_read (Json.readOptional_eq_some hfound)

theorem finiteLiterals_of_read {levels : Nat} {document : Json.Document} {node : Node}
    (h : Node.read levels document = .ok node) : node.FiniteLiterals := by
  induction levels generalizing document node with
  | zero => exact absurd h Json.refuseDeep_ne_ok
  | succ levels ih =>
      obtain ⟨draft, hdraft, hfinish⟩ := Json.readStructure_invariant
        (Draft.finiteLiterals_of_jsonFields fun document node hread => ih hread) h
        Draft.finiteLiterals_empty
      exact Draft.finiteLiterals_of_finish hdraft hfinish

/-! ## Nodes that were written -/

/-- How many nodes lie above one another. -/
def levels : Node → Nat
  | ⟨_, _, left, right, _, _⟩ =>
      1 + max (match left with | none => 0 | some child => child.levels)
        (match right with | none => 0 | some child => child.levels)

/-- The node that is read back: literals that are not finite are lost. -/
def stored : Node → Node
  | ⟨kind, value, left, right, field, literal⟩ =>
      ⟨kind, value, match left with | none => none | some child => some child.stored,
        match right with | none => none | some child => some child.stored,
        field, literal.filter Value.isFinite⟩

def childLevels (child : Option Node) : Nat :=
  (child.map levels).getD 0

theorem levels_eq (kind : Kind) (value : Option String) (left right : Option Node)
    (field : Option String) (literal : Option Value) :
    levels ⟨kind, value, left, right, field, literal⟩
      = 1 + max (childLevels left) (childLevels right) := by
  cases left <;> cases right <;> rw [levels] <;> rfl

theorem stored_eq (kind : Kind) (value : Option String) (left right : Option Node)
    (field : Option String) (literal : Option Value) :
    stored ⟨kind, value, left, right, field, literal⟩
      = ⟨kind, value, left.map stored, right.map stored, field,
        literal.filter Value.isFinite⟩ := by
  cases left <;> cases right <;> rw [stored] <;> rfl

def childData (child : Option Node) : Json.Data :=
  (child.map toData).getD .null

theorem toData_eq (kind : Kind) (value : Option String) (left right : Option Node)
    (field : Option String) (literal : Option Value) :
    toData ⟨kind, value, left, right, field, literal⟩ = .object (
      ("type", kind.toData) :: ("value", (value.map Json.Data.string).getD .null) ::
        ("left", childData left) :: ("right", childData right) ::
        (optionalMember "field" (field.map .string)
          ++ optionalMember "literal" (literal.map Value.toData))) := by
  cases value <;> cases left <;> cases right <;> rw [toData] <;> rfl

theorem document_toData (node : Node) : ∃ members, node.toData.document = .object members := by
  obtain ⟨kind, value, left, right, field, literal⟩ := node
  exact ⟨_, by rw [toData_eq, Json.Data.document]⟩

theorem readOptional_childData {levels : Nat} {child : Option Node}
    (h : ∀ node, child = some node → Node.read levels node.toData.document
      = if node.levels ≤ levels then .ok node.stored else .error .malformed) :
    Json.readOptional (Node.read levels) (childData child).document
      = if childLevels child ≤ levels then .ok (child.map stored) else .error .malformed := by
  cases child with
  | none =>
      rw [if_pos (show childLevels none ≤ levels from Nat.zero_le _)]
      rfl
  | some node =>
      obtain ⟨members, hmembers⟩ := node.document_toData
      have hread := h node rfl
      change Json.readOptional (Node.read levels) node.toData.document = _
      rw [hmembers] at hread ⊢
      change (do
        let value ← Node.read levels (.object members)
        return some value) = _
      rw [hread]
      change _ = if node.levels ≤ levels then _ else _
      by_cases hle : node.levels ≤ levels
      · rw [if_pos hle, if_pos hle]
        rfl
      · rw [if_neg hle, if_neg hle]
        rfl

theorem read_kind (levels : Nat) (kind : Kind) :
    Kind.read levels kind.toData.document = .ok kind := by
  change (do
    let name ← Json.readQuotation (.ofString kind.text)
    Json.chooseVariant _ name) = _
  rw [Json.readQuotation_ofString, ok_bind]
  cases kind <;> rfl

theorem readOptional_string (value : Option String) :
    Json.readOptional Json.readString ((value.map Json.Data.string).getD .null).document
      = .ok value := by
  cases value with
  | none => rfl
  | some s =>
      change (do
        let found ← Json.readQuotation (.ofString s)
        return some found) = _
      rw [Json.readQuotation_ofString, ok_bind]
      rfl

theorem readOptional_value (levels : Nat) (v : Value) :
    Json.readOptional (Value.read levels) v.toData.document
      = .ok ((some v).filter Value.isFinite) := by
  cases v with
  | number n =>
      cases n with
      | nan => rfl
      | signed negative m =>
          change Json.readOptional _ (if m.isFinite then _ else _)
            = .ok (if m.isFinite then some _ else none)
          by_cases hfinite : m.isFinite = true
          · have hnumber := (Json.ofDecimal_spec negative hfinite).1
            have hread := @Value.read_number levels (.ofDecimal negative (m.shortest .even))
              (by rw [hnumber]; exact hfinite)
            rw [if_pos hfinite, if_pos hfinite]
            change (do
              let value ← Value.read levels (.number _)
              return some value) = _
            rw [hread, ok_bind, hnumber]
            rfl
          · rw [if_neg hfinite, if_neg hfinite]
            rfl
  | string s =>
      change (do
        let value ← Value.read levels (.string (.ofString s))
        return some value) = _
      rw [Value.read_string, ok_bind]
      rfl

/-! Draft by draft: first the members that are always written, then those that may be left out. -/

section

variable {levels : Nat} {child : Json.Shape Node}

theorem readMembers_requiredMembers (kind : Kind) (value : Option String)
    (left right : Json.Data) (rest : List (String × Json.Data)) :
    Json.readMembers (jsonFields levels child)
        (Json.Data.membersOf (("type", kind.toData) ::
          ("value", (value.map Json.Data.string).getD .null) :: ("left", left) ::
          ("right", right) :: rest)) .empty
      = (do
        let leftChild ← Json.readOptional child left.document
        let rightChild ← Json.readOptional child right.document
        Json.readMembers (jsonFields levels child) (Json.Data.membersOf rest)
          ⟨some kind, some value, some leftChild, some rightChild, none, none⟩) := by
  change Json.readMembers (jsonFields levels child)
    (.member (.written (.ofString "type")) kind.toData.document
      (.member (.written (.ofString "value")) _
        (.member (.written (.ofString "left")) left.document
          (.member (.written (.ofString "right")) right.document
            (Json.Data.membersOf rest))))) .empty = _
  rw [Json.readMembers_member rfl rfl]
  dsimp only
  rw [read_kind, ok_bind, pure_eq_ok, ok_bind, Json.readMembers_member rfl rfl]
  dsimp only
  rw [readOptional_string, ok_bind, pure_eq_ok, ok_bind, Json.readMembers_member rfl rfl]
  dsimp only
  cases Json.readOptional child left.document with
  | error fault => rfl
  | ok leftChild =>
      rw [ok_bind, pure_eq_ok, ok_bind, ok_bind, Json.readMembers_member rfl rfl]
      dsimp only
      cases Json.readOptional child right.document with
      | error fault => rfl
      | ok rightChild => rfl

theorem readMembers_optionalLiteral (literal : Option Value) {draft : Draft}
    (hdraft : draft.literal = none) :
    Json.readMembers (jsonFields levels child)
        (Json.Data.membersOf (optionalMember "literal" (literal.map Value.toData))) draft
      = .ok { draft with literal := literal.map fun v => (some v).filter Value.isFinite } := by
  cases literal with
  | none =>
      cases draft
      cases hdraft
      rfl
  | some v =>
      have hgiven : draft.literal.isSome = false := by
        rw [hdraft]
        rfl
      change Json.readMembers (jsonFields levels child)
        (.member (.written (.ofString "literal")) v.toData.document .closed) draft = _
      rw [Json.readMembers_member rfl hgiven]
      dsimp only
      rw [readOptional_value]
      rfl

theorem readMembers_optionalMembers (kind : Option Kind) (value : Option (Option String))
    (left right : Option (Option Node)) (field : Option String) (literal : Option Value) :
    Json.readMembers (jsonFields levels child)
        (Json.Data.membersOf (optionalMember "field" (field.map .string)
          ++ optionalMember "literal" (literal.map Value.toData)))
        ⟨kind, value, left, right, none, none⟩
      = .ok ⟨kind, value, left, right, field.map some,
          literal.map fun v => (some v).filter Value.isFinite⟩ := by
  cases field with
  | none => exact readMembers_optionalLiteral literal rfl
  | some s =>
      have hread := readOptional_string (some s)
      change Json.readOptional Json.readString (Json.Data.string s).document = _ at hread
      change Json.readMembers (jsonFields levels child)
        (.member (.written (.ofString "field")) (Json.Data.string s).document
          (Json.Data.membersOf (optionalMember "literal" (literal.map Value.toData)))) _ = _
      rw [Json.readMembers_member rfl rfl]
      dsimp only
      rw [hread]
      exact readMembers_optionalLiteral literal rfl

end

/-- A written node is read back as far as the levels go. -/
theorem read_document (levels : Nat) (node : Node) :
    Node.read levels node.toData.document
      = if node.levels ≤ levels then .ok node.stored else .error .malformed := by
  induction levels generalizing node with
  | zero =>
      obtain ⟨kind, value, left, right, field, literal⟩ := node
      rw [toData_eq, levels_eq, if_neg (by omega)]
      rfl
  | succ levels ih =>
      obtain ⟨kind, value, left, right, field, literal⟩ := node
      rw [toData_eq, levels_eq, stored_eq]
      have hleft := @readOptional_childData levels left fun node _ => ih node
      have hright := @readOptional_childData levels right fun node _ => ih node
      change (do
        let part ← Json.readMembers (jsonFields levels (read levels))
          (Json.Data.membersOf _) .empty
        part.finish) = _
      rw [readMembers_requiredMembers, hleft, hright]
      by_cases hl : childLevels left ≤ levels
      · by_cases hr : childLevels right ≤ levels
        · rw [if_pos hl, if_pos hr, if_pos (by omega), ok_bind, ok_bind,
            readMembers_optionalMembers, ok_bind]
          cases field <;> cases literal <;> rfl
        · rw [if_pos hl, if_neg hr, ok_bind, error_bind, error_bind, if_neg (by omega)]
      · rw [if_neg hl, error_bind, error_bind, if_neg (by omega)]

/-! ## Nodes within the levels -/

theorem FiniteLiterals.stored_eq {node : Node} (h : node.FiniteLiterals) : node.stored = node := by
  induction h with
  | @node kind value left right field literal _ _ hliteral ihLeft ihRight =>
      have hkept : literal.filter Value.isFinite = literal := by
        cases literal with
        | none => rfl
        | some v => exact if_pos (hliteral v rfl)
      have hleft : left.map stored = left := by
        cases left with
        | none => rfl
        | some child => exact congrArg some (ihLeft child rfl)
      have hright : right.map stored = right := by
        cases right with
        | none => rfl
        | some child => exact congrArg some (ihRight child rfl)
      rw [Node.stored_eq, hkept, hleft, hright]

theorem of_within_childData {levels : Nat} {child : Option Node}
    (h : (childData child).Within levels)
    (hnode : ∀ node : Node, node.toData.Within levels →
      node.levels ≤ levels ∧ node.FiniteLiterals) :
    childLevels child ≤ levels ∧ ∀ node, child = some node → node.FiniteLiterals := by
  cases child with
  | none => exact ⟨Nat.zero_le _, by simp⟩
  | some node =>
      obtain ⟨hlevels, hfinite⟩ := hnode node h
      refine ⟨hlevels, ?_⟩
      rintro other ⟨⟩
      exact hfinite

theorem of_within {levels : Nat} {node : Node} (h : node.toData.Within levels) :
    node.levels ≤ levels ∧ node.FiniteLiterals := by
  induction levels generalizing node with
  | zero =>
      obtain ⟨kind, value, left, right, field, literal⟩ := node
      rw [toData_eq] at h
      cases h
  | succ levels ih =>
      obtain ⟨kind, value, left, right, field, literal⟩ := node
      rw [toData_eq] at h
      cases h with
      | object hmembers =>
          obtain ⟨hleft, hleftFinite⟩ :=
            of_within_childData (hmembers ("left", childData left) (by simp)) fun _ => ih
          obtain ⟨hright, hrightFinite⟩ :=
            of_within_childData (hmembers ("right", childData right) (by simp)) fun _ => ih
          rw [levels_eq]
          refine ⟨by omega, .node hleftFinite hrightFinite ?_⟩
          rintro v rfl
          have hliteral := hmembers ("literal", v.toData) (by simp [optionalMember])
          cases v with
          | number n =>
              cases hliteral with
              | number hfinite => exact hfinite
          | string s => rfl

theorem read_of_within {levels : Nat} {node : Node} (h : node.toData.Within levels) :
    Node.read levels node.toData.document = .ok node := by
  obtain ⟨hlevels, hfinite⟩ := of_within h
  rw [read_document, if_pos hlevels, hfinite.stored_eq]

end Node

end ComparisonRules
