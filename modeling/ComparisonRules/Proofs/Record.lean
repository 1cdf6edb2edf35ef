import ComparisonRules.Proofs.Node.Json

/-!
# Records read back

The entries of a record ascend, so putting them into a record one by one puts each behind the
others. A record that was written is therefore read as itself.
-/

namespace ComparisonRules.Record

theorem insertEntry_of_forall_lt {field : String} {entries : List (String × Value)}
    (h : ∀ e ∈ entries, e.1 < field) (value : Value) :
    insertEntry field value entries = entries ++ [(field, value)] := by
  induction entries with
  | nil => rfl
  | cons entry rest ih =>
      obtain ⟨hentry, hrest⟩ := List.forall_mem_cons.mp h
      have hnlt : ¬ field < entry.1 := String.lt_asymm hentry
      have hne : field ≠ entry.1 := by
        rintro rfl
        exact String.lt_irrefl _ hentry
      rw [insertEntry, if_neg hnlt, if_neg hne, ih hrest, List.cons_append]

theorem entries_foldl_insert {record : Record} {pairs : List (String × Value)}
    (h : Ascending (record.entries ++ pairs)) :
    (pairs.foldl (fun record pair => record.insert pair.1 pair.2) record).entries
      = record.entries ++ pairs := by
  induction pairs generalizing record with
  | nil => simp
  | cons pair pairs ih =>
      have hlt : ∀ e ∈ record.entries, e.1 < pair.1 :=
        fun e he => (List.pairwise_append.mp h).2.2 e he pair List.mem_cons_self
      have hinsert : (record.insert pair.1 pair.2).entries = record.entries ++ [pair] :=
        insertEntry_of_forall_lt hlt pair.2
      have hnext : Ascending ((record.insert pair.1 pair.2).entries ++ pairs) := by
        rw [hinsert, List.append_assoc]
        exact h
      rw [List.foldl_cons, ih hnext, hinsert, List.append_assoc, List.singleton_append]

theorem ofList_entries (record : Record) : ofList record.entries = record := by
  obtain ⟨entries, hascending⟩ := record
  have hentries : (ofList entries).entries = entries := entries_foldl_insert hascending
  show ofList entries = ⟨entries, hascending⟩
  generalize ofList entries = found at hentries
  obtain ⟨others, hothers⟩ := found
  cases hentries
  rfl

theorem read_of_within {levels : Nat} {record : Record} (h : record.toData.Within levels) :
    Record.read levels record.toData.document = .ok record := by
  cases h with
  | @object levels _ hmembers =>
      have hpairs := @Json.readPairs_membersOf Value Value (Value.read levels) Value.toData id
        record.entries fun pair hpair =>
          Value.read_document (hmembers (pair.1, pair.2.toData) (List.mem_map_of_mem hpair))
      rw [show (record.entries.map fun pair => (pair.1, id pair.2)) = record.entries from
        List.map_id record.entries] at hpairs
      show (Json.readPairs (Value.read levels) _ >>= fun pairs => Except.ok (ofList pairs)) = _
      rw [hpairs, ok_bind, ofList_entries]

end ComparisonRules.Record
