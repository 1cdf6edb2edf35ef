import ComparisonRules.Proofs.Record
import ComparisonRules.Service.Json

/-!
# Requests and responses read back

Everything that the service writes as JSON is read back as itself: nodes of any shape, sources,
records, requests and responses. Parts that are absent stay absent, an empty trace stays a trace,
and a text is never taken for a tree.
-/

namespace ComparisonRules

theorem Connective.read_document (levels : Nat) (connective : Connective) :
    Connective.read levels connective.toData.document = .ok connective :=
  Json.readVariant_string (by cases connective <;> rfl) levels

namespace Service

/-! ## Parts -/

theorem RuleSource.read_of_within {levels : Nat} {source : RuleSource}
    (h : source.toData.Within levels) :
    RuleSource.read levels source.toData.document = .ok source := by
  have hcheck := Json.checkWhole_document h
  unfold RuleSource.read
  rw [hcheck, ok_bind]
  cases source with
  | text s =>
      show (Json.readQuotation (.ofString s) >>= fun s => Except.ok (RuleSource.text s)) = _
      rw [Json.readQuotation_ofString, ok_bind]
  | tree node =>
      obtain ⟨members, hmembers⟩ := node.document_toData
      have hread := Node.read_of_within h
      rw [hmembers] at hread
      rw [RuleSource.toData, hmembers]
      dsimp only
      rw [hread]

section

variable {α β γ : Type} {levels : Nat} {shape : Nat → Json.Shape α}
  {other : Nat → Json.Shape β} {data more : Json.Data} {a : α} {b : β}

theorem readSingle_document (expected name : String) (make : α → γ)
    (h : shape levels data.document = .ok a) :
    readSingle (levels + 1) expected name shape make (Json.Data.object [(name, data)]).document
      = .ok (make a) := by
  show (Json.readMembers _ (.member (.written (.ofString name)) data.document .closed) none
    >>= _) = _
  rw [Json.readMembers_member (List.find?_cons_of_pos (beq_self_eq_true name)) rfl]
  dsimp only
  rw [h]
  rfl

theorem readPair_document (expected : String) {first second : String} (hne : first ≠ second)
    (make : α → β → γ) (h : shape levels data.document = .ok a)
    (hmore : other levels more.document = .ok b) :
    readPair (levels + 1) expected first second shape other make
      (Json.Data.object [(first, data), (second, more)]).document = .ok (make a b) := by
  have hother : (first == second) = false := beq_eq_false_iff_ne.mpr hne
  show (Json.readMembers _ (.member (.written (.ofString first)) data.document
    (.member (.written (.ofString second)) more.document .closed)) (none, none) >>= _) = _
  rw [Json.readMembers_member (List.find?_cons_of_pos (beq_self_eq_true first)) rfl]
  dsimp only
  rw [h, ok_bind, pure_eq_ok, ok_bind, Json.readMembers_member
    ((List.find?_cons_of_neg (by simp [hother])).trans
      (List.find?_cons_of_pos (beq_self_eq_true second))) rfl]
  dsimp only
  rw [hmore]
  rfl

end

/-! ## Requests and responses -/

theorem CreateRequest.read_of_within {levels : Nat} {request : CreateRequest}
    (h : request.toData.Within levels) :
    CreateRequest.read levels request.toData.document = .ok request := by
  cases h with
  | object _ => exact readSingle_document _ _ _ (Json.readQuotation_ofString request.rule)

theorem CreateResponse.read_of_within {levels : Nat} {response : CreateResponse}
    (h : response.toData.Within levels) :
    CreateResponse.read levels response.toData.document = .ok response := by
  cases h with
  | object hmembers =>
      have hast := Node.read_of_within (hmembers ("ast", response.ast.toData) (by simp))
      exact readPair_document _ (by decide) _ (Json.readQuotation_ofString response.rule) hast

theorem CombineRequest.read_of_within {levels : Nat} {request : CombineRequest}
    (h : request.toData.Within levels) :
    CombineRequest.read levels request.toData.document = .ok request := by
  cases h with
  | @object levels _ hmembers =>
      have hrules := hmembers ("rules", .array (request.rules.map RuleSource.toData)) (by simp)
      cases hrules with
      | array hsources =>
          have hread := Json.readList_document fun source hsource =>
            RuleSource.read_of_within (hsources _ (List.mem_map_of_mem hsource))
          exact readPair_document _ (by decide) _ hread (Connective.read_document _ _)

theorem CombineResponse.read_of_within {levels : Nat} {response : CombineResponse}
    (h : response.toData.Within levels) :
    CombineResponse.read levels response.toData.document = .ok response := by
  cases h with
  | object hmembers =>
      have hmember := hmembers ("combinedAST", response.combined.toData) (by simp)
      exact readSingle_document _ _ _ (Node.read_of_within hmember)

theorem EvaluateRequest.read_of_within {levels : Nat} {request : EvaluateRequest}
    (h : request.toData.Within levels) :
    EvaluateRequest.read levels request.toData.document = .ok request := by
  cases h with
  | @object levels _ hmembers =>
      have hast := Node.read_of_within (hmembers ("ast", request.ast.toData) (by simp))
      have hdata := Record.read_of_within (hmembers ("data", request.data.toData) (by simp))
      show (Json.readMembers (EvaluateRequest.jsonFields levels)
        (.member (.written (.ofString "ast")) request.ast.toData.document
          (.member (.written (.ofString "data")) request.data.toData.document
            (.member (.written (.ofString "trace")) (.bool request.traced) .closed)))
          ⟨none, none, none⟩ >>= EvaluateRequest.Draft.finish) = _
      rw [Json.readMembers_member rfl rfl]
      dsimp only
      rw [hast, ok_bind, pure_eq_ok, ok_bind, Json.readMembers_member rfl rfl]
      dsimp only
      rw [hdata, ok_bind, pure_eq_ok, ok_bind, Json.readMembers_member rfl rfl]
      rfl

theorem EvaluateResponse.read_of_within {levels : Nat} {response : EvaluateResponse}
    (h : response.toData.Within levels) :
    EvaluateResponse.read levels response.toData.document = .ok response := by
  obtain ⟨result, trace⟩ := response
  cases h with
  | @object levels _ hmembers =>
      cases trace with
      | none =>
          show (Json.readMembers (EvaluateResponse.jsonFields levels)
            (.member (.written (.ofString "result")) (.bool result) .closed) ⟨none, none⟩
              >>= EvaluateResponse.Draft.finish) = _
          rw [Json.readMembers_member rfl rfl]
          rfl
      | some lines =>
          have hmember := hmembers ("trace", .array (lines.map .string))
            (by simp [Node.optionalMember])
          cases hmember with
          | @array levels _ hitems =>
              have hread : Json.readList (levels + 1) (fun _ => Json.readString)
                  (Json.Data.array (lines.map .string)).document = .ok lines :=
                Json.readList_document fun line _ => Json.readQuotation_ofString line
              show (Json.readMembers (EvaluateResponse.jsonFields (levels + 1))
                (.member (.written (.ofString "result")) (.bool result)
                  (.member (.written (.ofString "trace"))
                    (Json.Data.array (lines.map .string)).document .closed)) ⟨none, none⟩
                >>= EvaluateResponse.Draft.finish) = _
              rw [Json.readMembers_member rfl rfl]
              dsimp only
              rw [show Json.readBool (.bool result) = .ok result from rfl, ok_bind, pure_eq_ok,
                ok_bind, Json.readMembers_member rfl rfl]
              show ((do
                let trace ← (do
                  let value ← Json.readList (levels + 1) (fun _ => Json.readString)
                    (Json.Data.array (lines.map .string)).document
                  return some value)
                return _) >>= _ >>= _) = _
              rw [hread]
              rfl

/-! ## Texts -/

/-- Both texts of a value are read as that value, if its numbers are finite and its text does not
open more arrays and objects at once than may be open. -/
def ReadsBack {α : Type} (toData : α → Json.Data) (read : Nat → Json.Shape α) : Prop :=
  ∀ x, (toData x).Within Json.maxLevels →
    Json.readText read (toData x).compactText = .ok x ∧
    Json.readText read (toData x).prettyText = .ok x

theorem readsBack_of_read {α : Type} {toData : α → Json.Data} {read : Nat → Json.Shape α}
    (h : ∀ {levels x}, (toData x).Within levels → read levels (toData x).document = .ok x) :
    ReadsBack toData read := by
  intro x hx
  rw [Json.readText_compactText, Json.readText_prettyText]
  exact ⟨h hx, h hx⟩

/-- Everything that is written is read back: nodes, of whatever parts they have, sources of rules,
records, and all requests and responses. -/
theorem read_as_written :
    ReadsBack Node.toData Node.read ∧
    ReadsBack RuleSource.toData RuleSource.read ∧
    ReadsBack Record.toData Record.read ∧
    ReadsBack CreateRequest.toData CreateRequest.read ∧
    ReadsBack CreateResponse.toData CreateResponse.read ∧
    ReadsBack CombineRequest.toData CombineRequest.read ∧
    ReadsBack CombineResponse.toData CombineResponse.read ∧
    ReadsBack EvaluateRequest.toData EvaluateRequest.read ∧
    ReadsBack EvaluateResponse.toData EvaluateResponse.read :=
  ⟨readsBack_of_read Node.read_of_within, readsBack_of_read RuleSource.read_of_within,
    readsBack_of_read Record.read_of_within, readsBack_of_read CreateRequest.read_of_within,
    readsBack_of_read CreateResponse.read_of_within,
    readsBack_of_read CombineRequest.read_of_within,
    readsBack_of_read CombineResponse.read_of_within,
    readsBack_of_read EvaluateRequest.read_of_within,
    readsBack_of_read EvaluateResponse.read_of_within⟩

/-- A text that looks like a tree, a tree that is no rule, with a string that looks like a number,
and a trace that is there but empty. -/
theorem read_as_written_odd :
    Json.readText CombineRequest.read (CombineRequest.toData ⟨[.text "\x7b\x7d",
        .tree ⟨.operator, none, none, some ⟨.operand, some "1", none, none, none,
          some (.string "1")⟩, some "", none⟩], .or⟩).compactText
      = .ok ⟨[.text "\x7b\x7d",
        .tree ⟨.operator, none, none, some ⟨.operand, some "1", none, none, none,
          some (.string "1")⟩, some "", none⟩], .or⟩ ∧
    Json.readText EvaluateResponse.read
        (EvaluateResponse.toData ⟨true, some []⟩).prettyText = .ok ⟨true, some []⟩ ∧
    Json.readText EvaluateResponse.read (EvaluateResponse.toData ⟨true, none⟩).prettyText
      = .ok ⟨true, none⟩ := by
  have hnil : ∀ {levels : Nat}, ∀ member ∈ ([] : List (String × Json.Data)),
      member.2.Within levels := by simp
  have hchild : (Node.toData ⟨.operand, some "1", none, none, none,
      some (.string "1")⟩).Within 124 := by
    refine .object (List.forall_mem_cons.mpr ⟨.string, List.forall_mem_cons.mpr ⟨.string, ?_⟩⟩)
    refine List.forall_mem_cons.mpr ⟨.null, List.forall_mem_cons.mpr ⟨.null, ?_⟩⟩
    exact List.forall_mem_cons.mpr ⟨.string, hnil⟩
  have hnode : (Node.toData ⟨.operator, none, none, some ⟨.operand, some "1", none, none, none,
      some (.string "1")⟩, some "", none⟩).Within 125 := by
    refine .object (List.forall_mem_cons.mpr ⟨.string, List.forall_mem_cons.mpr ⟨.null, ?_⟩⟩)
    refine List.forall_mem_cons.mpr ⟨.null, List.forall_mem_cons.mpr ⟨hchild, ?_⟩⟩
    exact List.forall_mem_cons.mpr ⟨.string, hnil⟩
  have hrequest : (CombineRequest.toData ⟨[.text "\x7b\x7d",
      .tree ⟨.operator, none, none, some ⟨.operand, some "1", none, none, none,
        some (.string "1")⟩, some "", none⟩], .or⟩).Within Json.maxLevels := by
    refine .object (List.forall_mem_cons.mpr ⟨.array ?_, List.forall_mem_cons.mpr ⟨.string, hnil⟩⟩)
    exact List.forall_mem_cons.mpr ⟨.string, List.forall_mem_cons.mpr ⟨hnode, by simp⟩⟩
  have hempty : (EvaluateResponse.toData ⟨true, some []⟩).Within Json.maxLevels :=
    .object (List.forall_mem_cons.mpr ⟨.bool, List.forall_mem_cons.mpr ⟨.array (by simp), hnil⟩⟩)
  have hnone : (EvaluateResponse.toData ⟨true, none⟩).Within Json.maxLevels :=
    .object (List.forall_mem_cons.mpr ⟨.bool, hnil⟩)
  refine ⟨?_, ?_, ?_⟩
  · exact (read_as_written.2.2.2.2.2.1 _ hrequest).1
  · exact (read_as_written.2.2.2.2.2.2.2.2 _ hempty).2
  · exact (read_as_written.2.2.2.2.2.2.2.2 _ hnone).2

end Service

end ComparisonRules
