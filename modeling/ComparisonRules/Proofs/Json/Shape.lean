import ComparisonRules.Json.Shape
import ComparisonRules.Proofs.Json.Document

/-!
# Reading structures

A refusal never gives a value. What every field keeps true of the part that has been read is
true of the whole structure, in whatever order the document gives its fields. A member that was
written is read by the field of its name.
-/

namespace ComparisonRules.Json

theorem refuse_ne_ok {α : Type} {expected : String} {document : Document} {value : α} :
    refuse expected document ≠ .ok value := by
  intro h
  obtain ⟨found, -, herror⟩ := bind_eq_ok.mp h
  cases herror

theorem refuseDeep_ne_ok {α : Type} {expected : String} {document : Document} {value : α} :
    refuseDeep expected document ≠ .ok value := by
  intro h
  cases document with
  | array _ => cases h
  | object _ => cases h
  | _ => exact refuse_ne_ok h

/-! ## Invariants -/

section

variable {σ α : Type} {fields : List (Field σ)} {Inv : σ → Prop}

theorem readMembers_invariant {members : Members} {part result : σ}
    (hfields : ∀ field ∈ fields, ∀ document part more, Inv part →
      field.read document part = .ok more → Inv more)
    (h : readMembers fields members part = .ok result) (hpart : Inv part) : Inv result := by
  fun_induction readMembers fields members part with
  | case1 part =>
      cases h
      exact hpart
  | case2 b part => cases h
  | case3 name document rest part ihSkip ihRead =>
      obtain ⟨found, -, hmember⟩ := bind_eq_ok.mp h
      cases hfind : fields.find? fun f => f.name == found with
      | none =>
          rw [hfind] at hmember
          obtain ⟨_, -, hrest⟩ := bind_eq_ok.mp hmember
          exact ihSkip hrest hpart
      | some field =>
          rw [hfind] at hmember
          dsimp only at hmember
          by_cases hgiven : field.isGiven part = true
          · rw [if_pos hgiven] at hmember
            cases hmember
          · rw [if_neg hgiven] at hmember
            obtain ⟨more, hread, hrest⟩ := bind_eq_ok.mp hmember
            have hmem := List.mem_of_find?_eq_some hfind
            exact ihRead more hrest (hfields field hmem document part more hpart hread)

theorem readFields_invariant {expected : String} {index : Nat} {items : Items} {part result : σ}
    (hfields : ∀ field ∈ fields, ∀ document part more, Inv part →
      field.read document part = .ok more → Inv more)
    (h : readFields expected fields index items part = .ok result) (hpart : Inv part) :
    Inv result := by
  fun_induction readFields expected fields index items part with
  | case1 index items part =>
      obtain ⟨_, -, hdone⟩ := bind_eq_ok.mp h
      cases hdone
      exact hpart
  | case2 field fields index document rest part ih =>
      obtain ⟨more, hread, hrest⟩ := bind_eq_ok.mp h
      have hmore := hfields field List.mem_cons_self document part more hpart hread
      exact ih more (fun other hother => hfields other (List.mem_cons_of_mem _ hother)) hrest hmore
  | case3 field fields index part hmissing ih =>
      exact ih (fun other hother => hfields other (List.mem_cons_of_mem _ hother)) h hpart
  | case4 field fields index part hmissing => cases h
  | case5 field fields index b part => cases h

theorem readStructure_invariant {expected : String} {empty : σ} {finish : σ → Except Fault α}
    {document : Document} {value : α}
    (hfields : ∀ field ∈ fields, ∀ document part more, Inv part →
      field.read document part = .ok more → Inv more)
    (h : readStructure expected fields empty finish document = .ok value) (hempty : Inv empty) :
    ∃ part, Inv part ∧ finish part = .ok value := by
  unfold readStructure at h
  cases document with
  | object members =>
      obtain ⟨part, hread, hfinish⟩ := bind_eq_ok.mp h
      exact ⟨part, readMembers_invariant hfields hread hempty, hfinish⟩
  | array items =>
      obtain ⟨part, hread, hfinish⟩ := bind_eq_ok.mp h
      exact ⟨part, readFields_invariant hfields hread hempty, hfinish⟩
  | _ => exact absurd h refuse_ne_ok

end

/-! ## Written members -/

section

variable {σ : Type} {fields : List (Field σ)} {field : Field σ} {name : String}
  {document : Document} {rest : Members} {part : σ}

@[simp] theorem readQuotation_ofString (s : String) :
    readQuotation (.ofString s) = .ok s := by
  rw [readQuotation, text_ofString]

theorem readName_written (name : String) :
    readName (.written (.ofString name)) = .ok name :=
  readQuotation_ofString name

theorem readMembers_member (hfind : (fields.find? fun f => f.name == name) = some field)
    (hgiven : field.isGiven part = false) :
    readMembers fields (.member (.written (.ofString name)) document rest) part = (do
      let more ← field.read document part
      readMembers fields rest more) := by
  rw [readMembers, readName_written, ok_bind, hfind]
  dsimp only
  rw [hgiven]
  rfl

end

/-! ## Texts -/

theorem readText_eq_ok {α : Type} {shape : Nat → Shape α} {text : String} {value : α} :
    readText shape text = .ok value ↔ ∃ document,
      Document.ofText text = (document, []) ∧ shape maxLevels document = .ok value := by
  cases hread : Document.ofText text with
  | mk document rest =>
      rw [readText, hread, bind_eq_ok]
      cases rest <;> simp

theorem of_readText {α : Type} {shape : Nat → Shape α} {text : String} {value : α}
    (h : readText shape text = .ok value) :
    ∃ document, shape maxLevels document = .ok value := by
  obtain ⟨document, -, hvalue⟩ := readText_eq_ok.mp h
  exact ⟨document, hvalue⟩

theorem readText_write {style : Style} (hstyle : style.IsSpaced) {α : Type}
    (shape : Nat → Shape α) (data : Data) :
    readText shape (String.ofList (data.write style 0)) = shape maxLevels data.document := by
  rw [readText, ofText_write hstyle]
  dsimp only
  cases shape maxLevels data.document <;> rfl

theorem readText_compactText {α : Type} (shape : Nat → Shape α) (data : Data) :
    readText shape data.compactText = shape maxLevels data.document :=
  readText_write isSpaced_compact shape data

theorem readText_prettyText {α : Type} (shape : Nat → Shape α) (data : Data) :
    readText shape data.prettyText = shape maxLevels data.document :=
  readText_write isSpaced_pretty shape data

end ComparisonRules.Json
