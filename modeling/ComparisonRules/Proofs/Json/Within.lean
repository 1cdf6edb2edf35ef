import ComparisonRules.Proofs.Json.Shape

/-!
# Written data within the levels

Data comes back as it was written if its numbers are finite and no more arrays and objects are
open in it at once than there are levels. A list or map of it is read item by item, and it passes
every check that it can be read in full.
-/

namespace ComparisonRules.Json

/-- All numbers of the data are finite, and at most so many arrays and objects are open in it at
once. -/
inductive Data.Within : Nat → Data → Prop where
  | null {levels : Nat} : Within levels .null
  | bool {levels : Nat} {b : Bool} : Within levels (.bool b)
  | number {levels : Nat} {n : Number} : n.isFinite = true → Within levels (.number n)
  | string {levels : Nat} {s : String} : Within levels (.string s)
  | array {levels : Nat} {items : List Data} :
      (∀ item ∈ items, Within levels item) → Within (levels + 1) (.array items)
  | object {levels : Nat} {members : List (String × Data)} :
      (∀ member ∈ members, Within levels member.2) → Within (levels + 1) (.object members)

/-! ## Items and members -/

section

variable {α β : Type}

theorem readItems_itemsOf {shape : Shape α} {toData : β → Data} {make : β → α} {values : List β}
    (h : ∀ value ∈ values, shape (toData value).document = .ok (make value)) :
    readItems shape (Data.itemsOf (values.map toData)) = .ok (values.map make) := by
  induction values with
  | nil => rfl
  | cons value values ih =>
      obtain ⟨hvalue, hvalues⟩ := List.forall_mem_cons.mp h
      rw [List.map_cons, Data.itemsOf, readItems, hvalue, ok_bind, ih hvalues]
      rfl

theorem readPairs_membersOf {shape : Shape α} {toData : β → Data} {make : β → α}
    {pairs : List (String × β)}
    (h : ∀ pair ∈ pairs, shape (toData pair.2).document = .ok (make pair.2)) :
    readPairs shape (Data.membersOf (pairs.map fun pair => (pair.1, toData pair.2)))
      = .ok (pairs.map fun pair => (pair.1, make pair.2)) := by
  induction pairs with
  | nil => rfl
  | cons pair pairs ih =>
      obtain ⟨hpair, hpairs⟩ := List.forall_mem_cons.mp h
      rw [List.map_cons, Data.membersOf, readPairs, readName_written, ok_bind, hpair, ok_bind,
        ih hpairs]
      rfl

theorem readList_document {shape : Nat → Shape α} {toData : α → Data} {levels : Nat}
    {values : List α}
    (h : ∀ value ∈ values, shape levels (toData value).document = .ok value) :
    readList (levels + 1) shape (Data.array (values.map toData)).document = .ok values := by
  have hitems := @readItems_itemsOf α α (shape levels) toData id values h
  rw [List.map_id] at hitems
  exact hitems

theorem readVariant_string {variants : List (String × α)} {name : String} {value : α}
    (h : variants.lookup name = some value) (levels : Nat) :
    readVariant variants levels (Data.string name).document = .ok value := by
  show (readQuotation (.ofString name) >>= fun name => chooseVariant variants name) = _
  rw [readQuotation_ofString, ok_bind, chooseVariant, h]

end

/-! ## Values read in full -/

theorem document_number {n : Number} (h : n.isFinite = true) :
    ∃ numeral, (Data.number n).document = .number numeral ∧ numeral.number = n := by
  cases n with
  | nan => cases h
  | signed negative m => exact ⟨_, if_pos h, (ofDecimal_spec negative h).1⟩

theorem checkWhole_document {levels : Nat} {data : Data} (h : data.Within levels) :
    checkWhole levels data.document = .ok () := by
  induction h with
  | null => rw [Data.document, checkWhole.eq_def]
  | bool => rw [Data.document, checkWhole.eq_def]
  | @number levels n hfinite =>
      obtain ⟨numeral, hdocument, hnumber⟩ := document_number hfinite
      rw [hdocument, checkWhole.eq_def]
      exact if_pos (hnumber ▸ hfinite)
  | @string levels s =>
      rw [Data.document, checkWhole.eq_def]
      dsimp only
      rw [readQuotation_ofString]
      rfl
  | @array levels items _ ih =>
      have hitems := @readItems_itemsOf Unit Data (checkWhole levels) id (fun _ => ()) items ih
      rw [List.map_id] at hitems
      rw [Data.document, checkWhole.eq_def]
      dsimp only
      rw [hitems]
      rfl
  | @object levels members _ ih =>
      have hmembers :=
        @readPairs_membersOf Unit Data (checkWhole levels) id (fun _ => ()) members ih
      rw [show (members.map fun member => (member.1, id member.2)) = members from
        List.map_id members] at hmembers
      rw [Data.document, checkWhole.eq_def]
      dsimp only
      rw [hmembers]
      rfl

end ComparisonRules.Json
