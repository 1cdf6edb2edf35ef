import ComparisonRules.Value

/-!
# Records

A record gives each of its fields one value. The entries stand in ascending order of their
names, by code points, which is also the order of their UTF-8 bytes. Two records with the
same values are therefore equal.
-/

namespace ComparisonRules

namespace Record

/-- Puts an entry into its place in an ascending list, where it takes the place of an entry
with the same name. -/
def insertEntry (field : String) (value : Value) :
    List (String × Value) → List (String × Value)
  | [] => [(field, value)]
  | entry :: rest =>
      if field < entry.1 then (field, value) :: entry :: rest
      else if field = entry.1 then (field, value) :: rest
      else entry :: insertEntry field value rest

/-- Names ascend strictly along the entries. -/
abbrev Ascending (entries : List (String × Value)) : Prop :=
  entries.Pairwise fun a b => a.1 < b.1

theorem mem_insertEntry {field : String} {value : Value} {entries : List (String × Value)}
    {e : String × Value} (h : e ∈ insertEntry field value entries) :
    e = (field, value) ∨ e ∈ entries := by
  induction entries with
  | nil => exact Or.inl (List.mem_singleton.mp h)
  | cons entry rest ih =>
      unfold insertEntry at h
      split at h
      · exact List.mem_cons.mp h
      · split at h
        · rcases List.mem_cons.mp h with heq | hmem
          · exact Or.inl heq
          · exact Or.inr (List.mem_cons_of_mem _ hmem)
        · rcases List.mem_cons.mp h with heq | hmem
          · exact Or.inr (heq ▸ List.mem_cons_self)
          · exact (ih hmem).imp_right (List.mem_cons_of_mem _)

theorem ascending_insertEntry (field : String) (value : Value)
    {entries : List (String × Value)} (h : Ascending entries) :
    Ascending (insertEntry field value entries) := by
  induction entries with
  | nil => exact List.pairwise_singleton _ _
  | cons entry rest ih =>
      have hrest := List.pairwise_cons.mp h
      unfold insertEntry
      split
      · rename_i hlt
        refine List.pairwise_cons.mpr ⟨fun e he => ?_, h⟩
        rcases List.mem_cons.mp he with heq | hmem
        · exact heq ▸ hlt
        · exact String.lt_trans hlt (hrest.1 e hmem)
      · split
        · rename_i heq
          exact List.pairwise_cons.mpr ⟨fun e he => heq ▸ hrest.1 e he, hrest.2⟩
        · rename_i hnlt hne
          refine List.pairwise_cons.mpr ⟨fun e he => ?_, ih hrest.2⟩
          rcases mem_insertEntry he with heq | hmem
          · rw [heq]
            exact Std.lt_of_le_of_ne (String.not_lt.mp hnlt) (Ne.symm hne)
          · exact hrest.1 e hmem

end Record

/-- Fields with their values, in ascending order of the names. -/
structure Record where
  entries : List (String × Value)
  ascending : Record.Ascending entries

namespace Record

def empty : Record := ⟨[], List.Pairwise.nil⟩

def insert (record : Record) (field : String) (value : Value) : Record :=
  ⟨insertEntry field value record.entries, ascending_insertEntry field value record.ascending⟩

/-- The value of a field, if the record has it. -/
def get? (record : Record) (field : String) : Option Value :=
  record.entries.lookup field

/-- The record of the given pairs. Of pairs with the same name the last one counts. -/
def ofList (pairs : List (String × Value)) : Record :=
  pairs.foldl (fun record pair => record.insert pair.1 pair.2) empty

def size (record : Record) : Nat :=
  record.entries.length

def isEmpty (record : Record) : Bool :=
  record.entries.isEmpty

end Record

end ComparisonRules
