import Mathlib.Data.List.Dedup
import Mathlib.Data.List.Induction
import Mathlib.Data.List.Forall2
import ComparisonRules.Proofs.Record
import ComparisonRules.Proofs.Rule.Comparators
import ComparisonRules.Proofs.Rule.Dependence
import ComparisonRules.Proofs.Text.Order
import ComparisonRules.Workspace

/-!
# The last write wins

A record is built from pairs by inserting them one by one, by sorting them and leaving out those
that are written over, or by reading a JSON object with them as its members. In each way a field
has the value of the last pair with its name. Entries in ascending order are determined by the
values of the fields, so the record is the same, and the order of pairs with different names does
not matter.
-/

namespace ComparisonRules

namespace Record

/-! ## Values of fields -/

theorem lookup_cons (field : String) (entry : String × Value) (rest : List (String × Value)) :
    (entry :: rest).lookup field = if field = entry.1 then some entry.2 else rest.lookup field := by
  rw [List.lookup_cons]
  by_cases h : field = entry.1
  · rw [if_pos h, beq_iff_eq.mpr h]
  · rw [if_neg h, beq_eq_false_iff_ne.mpr h]

theorem lookup_insertEntry (field : String) (value : Value) (entries : List (String × Value))
    (other : String) :
    (insertEntry field value entries).lookup other
      = if other = field then some value else entries.lookup other := by
  induction entries with
  | nil => rw [insertEntry, lookup_cons]
  | cons entry rest ih =>
      unfold insertEntry
      split
      · rw [lookup_cons]
      split
      · rename_i hfield
        rw [lookup_cons, lookup_cons, ← hfield]
        split <;> rfl
      · rename_i hfield
        rw [lookup_cons, lookup_cons, ih]
        split
        · rename_i hother
          rw [if_neg fun heq => hfield (heq.symm.trans hother)]
        · rfl

theorem get?_insert (record : Record) (field : String) (value : Value) (other : String) :
    (record.insert field value).get? other
      = if other = field then some value else record.get? other :=
  lookup_insertEntry field value record.entries other

/-- The value of the last pair with the given name. -/
def lastValue? (pairs : List (String × Value)) (field : String) : Option Value :=
  (pairs.filter fun pair => pair.1 == field).getLast?.map Prod.snd

section

variable {pairs : List (String × Value)} {field : String}

theorem lastValue?_append (pairs others : List (String × Value)) (field : String) :
    lastValue? (pairs ++ others) field = (lastValue? others field).or (lastValue? pairs field) := by
  unfold lastValue?
  rw [List.filter_append, List.getLast?_append, Option.map_or]

theorem lastValue?_singleton (pair : String × Value) (field : String) :
    lastValue? [pair] field = if field = pair.1 then some pair.2 else none := by
  unfold lastValue?
  by_cases h : field = pair.1
  · simp [h]
  · simp [h, Ne.symm h]

theorem lastValue?_cons (pair : String × Value) (rest : List (String × Value))
    (field : String) :
    lastValue? (pair :: rest) field
      = (lastValue? rest field).or (if field = pair.1 then some pair.2 else none) := by
  rw [← List.singleton_append, lastValue?_append, lastValue?_singleton]

theorem lastValue?_eq_none_iff :
    lastValue? pairs field = none ↔ ∀ pair ∈ pairs, pair.1 ≠ field := by
  simp [lastValue?]

theorem get?_ofList (pairs : List (String × Value)) (field : String) :
    (ofList pairs).get? field = lastValue? pairs field := by
  induction pairs using List.reverseRecOn with
  | nil => rfl
  | append_singleton pairs pair ih =>
      have hinsert : ofList (pairs ++ [pair]) = (ofList pairs).insert pair.1 pair.2 := by
        rw [ofList, List.foldl_append]
        rfl
      rw [hinsert, get?_insert, ih, lastValue?_append, lastValue?_singleton]
      split <;> rfl

end

/-! ## Records as their values -/

/-- Two entries have one name, and values that are related. -/
def SameName (R : Value → Value → Prop) (entry other : String × Value) : Prop :=
  entry.1 = other.1 ∧ R entry.2 other.2

section

variable {R : Value → Value → Prop} {entries others : List (String × Value)}

theorem lookup_eq_none_of_forall_lt {field : String} (h : ∀ entry ∈ entries, field < entry.1) :
    entries.lookup field = none := by
  rw [List.lookup_eq_none_iff]
  intro entry hentry
  have hlt := h entry hentry
  rw [bne_iff_ne]
  rintro rfl
  exact String.lt_irrefl _ hlt

theorem rel_lookup_of_forall₂ (h : List.Forall₂ (SameName R) entries others) (field : String) :
    Option.Rel R (entries.lookup field) (others.lookup field) := by
  induction h with
  | nil => exact .none
  | cons hentry _ ih =>
      rw [lookup_cons, lookup_cons, ← hentry.1]
      split
      · exact .some hentry.2
      · exact ih

theorem forall₂_of_rel_lookup (h : Ascending entries) (h' : Ascending others)
    (hrel : ∀ field, Option.Rel R (entries.lookup field) (others.lookup field)) :
    List.Forall₂ (SameName R) entries others := by
  induction entries generalizing others with
  | nil =>
      cases others with
      | nil => exact .nil
      | cons other others =>
          have hfirst := hrel other.1
          rw [lookup_cons, if_pos rfl] at hfirst
          cases hfirst
  | cons entry entries ih =>
      cases others with
      | nil =>
          have hfirst := hrel entry.1
          rw [lookup_cons, if_pos rfl] at hfirst
          cases hfirst
      | cons other others =>
          obtain ⟨hentry, hentries⟩ := List.pairwise_cons.mp h
          obtain ⟨hother, hothers⟩ := List.pairwise_cons.mp h'
          have hfirst := hrel entry.1
          have hsecond := hrel other.1
          -- of two first names, the smaller one would be missing on the other side
          have hname : entry.1 = other.1 := by
            by_contra hne
            by_cases hlt : entry.1 < other.1
            · have hmissing := @lookup_eq_none_of_forall_lt (other :: others) entry.1
                (List.forall_mem_cons.mpr ⟨hlt, fun e he => String.lt_trans hlt (hother e he)⟩)
              rw [hmissing, lookup_cons, if_pos rfl] at hfirst
              cases hfirst
            · have hgt : other.1 < entry.1 :=
                Std.lt_of_le_of_ne (String.not_lt.mp hlt) (Ne.symm hne)
              have hmissing := @lookup_eq_none_of_forall_lt (entry :: entries) other.1
                (List.forall_mem_cons.mpr ⟨hgt, fun e he => String.lt_trans hgt (hentry e he)⟩)
              rw [hmissing, lookup_cons, if_pos rfl] at hsecond
              cases hsecond
          rw [lookup_cons, lookup_cons, if_pos rfl, if_pos hname, Option.rel_some_some] at hfirst
          refine .cons ⟨hname, hfirst⟩ (ih hentries hothers fun field => ?_)
          by_cases hfield : field = entry.1
          · rw [hfield, lookup_eq_none_of_forall_lt hentry, hname,
              lookup_eq_none_of_forall_lt hother]
            exact .none
          · have hrest := hrel field
            rwa [lookup_cons, lookup_cons, if_neg hfield,
              if_neg fun heq => hfield (heq.trans hname.symm)] at hrest

end

theorem eq_of_get? {record other : Record} (h : ∀ field, record.get? field = other.get? field) :
    record = other := by
  obtain ⟨entries, hentries⟩ := record
  obtain ⟨others, hothers⟩ := other
  have hsame : List.Forall₂ (SameName Eq) entries others := by
    refine forall₂_of_rel_lookup hentries hothers fun field => ?_
    rw [show entries.lookup field = others.lookup field from h field]
    cases others.lookup field with
    | none => exact .none
    | some value => exact .some rfl
  have heq : List.Forall₂ Eq entries others :=
    hsame.imp fun entry other hentry => Prod.ext hentry.1 hentry.2
  rw [List.forall₂_eq_eq_eq] at heq
  cases heq
  rfl

/-- Equality as comparisons see it: the same names, and values that are equal. -/
def equals (record other : Record) : Bool :=
  record.entries.length == other.entries.length &&
    (record.entries.zip other.entries).all fun pair =>
      pair.1.1 == pair.2.1 && pair.1.2.equals pair.2.2

theorem equals_iff {record other : Record} :
    record.equals other = true ↔ ∀ field, Option.Rel (fun value found => value.equals found = true)
      (record.get? field) (other.get? field) := by
  have hforall : record.equals other = true ↔ List.Forall₂
      (SameName fun value found => value.equals found = true) record.entries other.entries := by
    rw [List.forall₂_iff_zip]
    simp [equals, SameName, List.all_eq_true]
  rw [hforall]
  exact ⟨rel_lookup_of_forall₂, forall₂_of_rel_lookup record.ascending other.ascending⟩

theorem mem_entries_iff {record : Record} {field : String} {value : Value} :
    (field, value) ∈ record.entries ↔ record.get? field = some value := by
  obtain ⟨entries, hascending⟩ := record
  show (field, value) ∈ entries ↔ entries.lookup field = some value
  induction entries with
  | nil => simp
  | cons entry rest ih =>
      obtain ⟨hentry, hrest⟩ := List.pairwise_cons.mp hascending
      rw [List.mem_cons, ih hrest, lookup_cons]
      split
      · rename_i hfield
        have hmissing := lookup_eq_none_of_forall_lt (hfield ▸ hentry)
        rw [hmissing, Option.some.injEq]
        constructor
        · rintro (rfl | hnone)
          · rfl
          · cases hnone
        · rintro rfl
          exact .inl (Prod.ext hfield rfl)
      · rename_i hfield
        refine or_iff_right ?_
        rintro rfl
        exact hfield rfl

theorem nodup_names (record : Record) : (record.entries.map Prod.fst).Nodup := by
  rw [List.Nodup, List.pairwise_map]
  refine record.ascending.imp fun {entry later} hlt heq => ?_
  rw [heq] at hlt
  exact String.lt_irrefl _ hlt

theorem size_ofList (pairs : List (String × Value)) :
    (ofList pairs).size = (pairs.map Prod.fst).dedup.length := by
  have hperm : ((ofList pairs).entries.map Prod.fst).Perm (pairs.map Prod.fst).dedup := by
    rw [List.perm_ext_iff_of_nodup (nodup_names _) (List.nodup_dedup _)]
    intro field
    have hentry : field ∈ (ofList pairs).entries.map Prod.fst ↔ lastValue? pairs field ≠ none := by
      rw [Option.ne_none_iff_exists', ← get?_ofList]
      simp only [← mem_entries_iff, List.mem_map, Prod.exists, exists_and_right, exists_eq_right]
    rw [hentry, List.mem_dedup, List.mem_map, ne_eq, lastValue?_eq_none_iff]
    push Not
    exact Iff.rfl
  have hlength := hperm.length_eq
  rwa [List.length_map] at hlength

/-! ## Pairs sorted by name -/

/-- Of neighbours with one name, the last is kept. -/
def keepLast : List (String × Value) → List (String × Value)
  | [] => []
  | [pair] => [pair]
  | pair :: next :: rest =>
      if pair.1 = next.1 then keepLast (next :: rest) else pair :: keepLast (next :: rest)

abbrev Sorted (pairs : List (String × Value)) : Prop :=
  pairs.Pairwise fun pair later => pair.1 ≤ later.1

theorem keepLast_sublist (pairs : List (String × Value)) : (keepLast pairs).Sublist pairs := by
  fun_induction keepLast pairs with
  | case1 => exact .refl _
  | case2 pair => exact .refl _
  | case3 pair next rest _ ih => exact ih.cons pair
  | case4 pair next rest _ ih => exact ih.cons_cons pair

theorem forall_lt_of_sorted {pair next : String × Value} {rest : List (String × Value)}
    (h : Sorted (pair :: next :: rest)) (hne : pair.1 ≠ next.1) :
    ∀ later ∈ next :: rest, pair.1 < later.1 := by
  obtain ⟨hpair, hrest⟩ := List.pairwise_cons.mp h
  have hlt : pair.1 < next.1 := Std.lt_of_le_of_ne (hpair next List.mem_cons_self) hne
  refine List.forall_mem_cons.mpr ⟨hlt, fun later hlater => ?_⟩
  exact Std.lt_of_lt_of_le hlt ((List.pairwise_cons.mp hrest).1 later hlater)

theorem ascending_keepLast {pairs : List (String × Value)} (h : Sorted pairs) :
    Ascending (keepLast pairs) := by
  fun_induction keepLast pairs with
  | case1 => exact .nil
  | case2 pair => exact List.pairwise_singleton _ _
  | case3 pair next rest _ ih => exact ih (List.pairwise_cons.mp h).2
  | case4 pair next rest hne ih =>
      refine List.pairwise_cons.mpr ⟨fun entry hentry => ?_, ih (List.pairwise_cons.mp h).2⟩
      exact forall_lt_of_sorted h hne entry ((keepLast_sublist _).mem hentry)

theorem lookup_keepLast {pairs : List (String × Value)} (h : Sorted pairs) (field : String) :
    (keepLast pairs).lookup field = lastValue? pairs field := by
  fun_induction keepLast pairs with
  | case1 => rfl
  | case2 pair =>
      rw [lookup_cons, lastValue?_singleton]
      rfl
  | case3 pair next rest heq ih =>
      rw [ih (List.pairwise_cons.mp h).2, lastValue?_cons pair]
      by_cases hfield : field = pair.1
      · have hfound : lastValue? (next :: rest) field ≠ none := fun hnone =>
          lastValue?_eq_none_iff.mp hnone next List.mem_cons_self (heq.symm.trans hfield.symm)
        obtain ⟨value, hvalue⟩ := Option.ne_none_iff_exists'.mp hfound
        rw [hvalue, Option.some_or]
      · rw [if_neg hfield, Option.or_none]
  | case4 pair next rest hne ih =>
      rw [lookup_cons, ih (List.pairwise_cons.mp h).2, lastValue?_cons pair]
      by_cases hfield : field = pair.1
      · have hnone : lastValue? (next :: rest) field = none := by
          rw [lastValue?_eq_none_iff, hfield]
          rintro later hlater heq
          have hlt := forall_lt_of_sorted h hne later hlater
          rw [heq] at hlt
          exact String.lt_irrefl _ hlt
        rw [if_pos hfield, if_pos hfield, hnone, Option.none_or]
      · rw [if_neg hfield, if_neg hfield, Option.or_none]

def sortByName (pairs : List (String × Value)) : List (String × Value) :=
  pairs.mergeSort fun pair later => decide (pair.1 ≤ later.1)

section

theorem name_le_trans (a b c : String × Value) (h : decide (a.1 ≤ b.1) = true)
    (h' : decide (b.1 ≤ c.1) = true) : decide (a.1 ≤ c.1) = true := by
  rw [decide_eq_true_iff] at h h' ⊢
  exact String.le_trans h h'

theorem name_le_total (a b : String × Value) :
    (decide (a.1 ≤ b.1) || decide (b.1 ≤ a.1)) = true := by
  rw [Bool.or_eq_true, decide_eq_true_iff, decide_eq_true_iff]
  exact String.le_total a.1 b.1

theorem sorted_sortByName (pairs : List (String × Value)) : Sorted (sortByName pairs) := by
  have hsorted := List.pairwise_mergeSort name_le_trans name_le_total pairs
  exact hsorted.imp fun hle => of_decide_eq_true hle

theorem lastValue?_sortByName (pairs : List (String × Value)) (field : String) :
    lastValue? (sortByName pairs) field = lastValue? pairs field := by
  have hsame : (pairs.filter fun pair => pair.1 == field).Pairwise
      fun pair later => decide (pair.1 ≤ later.1) = true := by
    rw [List.pairwise_filter]
    refine List.pairwise_of_forall fun pair later hpair hlater => ?_
    rw [beq_iff_eq.mp hpair, beq_iff_eq.mp hlater]
    exact decide_eq_true (String.le_refl field)
  have hsublist := (List.sublist_mergeSort name_le_trans name_le_total hsame
    List.filter_sublist).filter fun pair => pair.1 == field
  have hlength := ((List.mergeSort_perm pairs fun pair later => decide (pair.1 ≤ later.1)).filter
    fun pair => pair.1 == field).length_eq
  simp only [List.filter_filter, Bool.and_self] at hsublist
  unfold lastValue? sortByName
  rw [hsublist.eq_of_length hlength.symm]

end

/-- The record of the given pairs, put together from the sorted pairs. -/
def collect (pairs : List (String × Value)) : Record :=
  ⟨keepLast (sortByName pairs), ascending_keepLast (sorted_sortByName pairs)⟩

theorem collect_eq_ofList (pairs : List (String × Value)) : collect pairs = ofList pairs := by
  refine eq_of_get? fun field => ?_
  have hlookup := lookup_keepLast (sorted_sortByName pairs) field
  rw [lastValue?_sortByName] at hlookup
  rw [get?_ofList]
  exact hlookup

/-! ## One insertion -/

/-- Puts an entry into its place, and gives the value that stood there. -/
def replaceEntry (field : String) (value : Value) :
    List (String × Value) → Option Value × List (String × Value)
  | [] => (none, [(field, value)])
  | entry :: rest =>
      if field < entry.1 then (none, (field, value) :: entry :: rest)
      else if field = entry.1 then (some entry.2, (field, value) :: rest)
      else
        let (old, behind) := replaceEntry field value rest
        (old, entry :: behind)

theorem replaceEntry_eq {entries : List (String × Value)} (h : Ascending entries) (field : String)
    (value : Value) :
    replaceEntry field value entries
      = (entries.lookup field, insertEntry field value entries) := by
  induction entries with
  | nil => rfl
  | cons entry rest ih =>
      obtain ⟨hentry, hrest⟩ := List.pairwise_cons.mp h
      rw [replaceEntry, insertEntry, lookup_cons]
      split
      · rename_i hlt
        -- the entries ascend, so the name is not behind its place either
        have hmissing := @lookup_eq_none_of_forall_lt (entry :: rest) field
          (List.forall_mem_cons.mpr ⟨hlt, fun e he => String.lt_trans hlt (hentry e he)⟩)
        rw [lookup_cons] at hmissing
        rw [hmissing]
      split
      · rfl
      · rw [ih hrest]

/-! ## Reading members in their order -/

end Record

/-- The document holds the value: a number that is finite, or a string. -/
inductive Value.HeldBy : Value → Json.Document → Prop where
  | number {n : Json.Numeral} : n.number.isFinite = true → HeldBy (.number n.number) (.number n)
  | string {q : Json.Quotation} {s : String} :
      Json.readQuotation q = .ok s → HeldBy (.string s) (.string q)

theorem Value.read_eq_ok {levels : Nat} {document : Json.Document} {value : Value} :
    Value.read levels document = .ok value ↔ value.HeldBy document := by
  constructor
  · intro h
    have hfinite := Value.isFinite_of_read h
    obtain ⟨_, -, hvalue⟩ := bind_eq_ok.mp h
    cases document with
    | number n =>
        cases hvalue
        exact .number hfinite
    | string q =>
        obtain ⟨s, hread, hs⟩ := bind_eq_ok.mp hvalue
        cases hs
        exact .string hread
    | _ => cases hvalue
  · intro h
    cases h with
    | number hfinite => exact Value.read_number hfinite
    | @string q s hread =>
        have hcheck : Json.checkWhole levels (.string q) = .ok () := by
          rw [Json.checkWhole.eq_def]
          dsimp only
          rw [hread]
          rfl
        rw [Value.read, hcheck, ok_bind, hread]
        rfl

namespace Record

/-- The members of a JSON object are the pairs, in their order. -/
inductive GivenBy : List (String × Value) → Json.Members → Prop where
  | closed : GivenBy [] .closed
  | member {name : Json.Name} {document : Json.Document} {rest : Json.Members} {field : String}
      {value : Value} {pairs : List (String × Value)} :
      Json.readName name = .ok field → value.HeldBy document → GivenBy pairs rest →
      GivenBy ((field, value) :: pairs) (.member name document rest)

theorem readPairs_eq_ok {levels : Nat} {members : Json.Members} {pairs : List (String × Value)} :
    Json.readPairs (Value.read levels) members = .ok pairs ↔ GivenBy pairs members := by
  constructor
  · intro h
    fun_induction Json.readPairs (Value.read levels) members generalizing pairs with
    | case1 =>
        cases h
        exact .closed
    | case2 b => cases h
    | case3 name document rest ih =>
        obtain ⟨field, hname, h⟩ := bind_eq_ok.mp h
        obtain ⟨value, hvalue, h⟩ := bind_eq_ok.mp h
        obtain ⟨others, hothers, h⟩ := bind_eq_ok.mp h
        cases h
        exact .member hname (Value.read_eq_ok.mp hvalue) (ih hothers)
  · intro h
    induction h with
    | closed => rfl
    | member hname hvalue _ ih =>
        rw [Json.readPairs, hname, ok_bind, Value.read_eq_ok.mpr hvalue, ok_bind, ih]
        rfl

theorem read_eq_ok {levels : Nat} {document : Json.Document} {record : Record} :
    read (levels + 1) document = .ok record ↔ ∃ pairs members,
      document = .object members ∧ GivenBy pairs members ∧ record = ofList pairs := by
  constructor
  · intro h
    obtain ⟨pairs, hpairs, hrecord⟩ := bind_eq_ok.mp h
    cases hrecord
    cases document with
    | object members => exact ⟨pairs, members, rfl, readPairs_eq_ok.mp hpairs, rfl⟩
    | _ => exact absurd hpairs Json.refuse_ne_ok
  · rintro ⟨pairs, members, rfl, hgiven, rfl⟩
    show (Json.readPairs (Value.read levels) members >>= fun pairs => .ok (ofList pairs)) = _
    rw [readPairs_eq_ok.mpr hgiven, ok_bind]

theorem readText_read_eq_ok {text : String} {record : Record} :
    Json.readText read text = .ok record ↔ ∃ pairs members,
      Json.Document.ofText text = (.object members, []) ∧ GivenBy pairs members ∧
        record = ofList pairs := by
  rw [Json.readText_eq_ok]
  constructor
  · rintro ⟨document, htext, hread⟩
    obtain ⟨pairs, members, rfl, hgiven, rfl⟩ := read_eq_ok.mp hread
    exact ⟨pairs, members, htext, hgiven, rfl⟩
  · rintro ⟨pairs, members, htext, hgiven, rfl⟩
    exact ⟨_, htext, read_eq_ok.mpr ⟨pairs, members, rfl, hgiven, rfl⟩⟩

theorem givenBy_membersOf {pairs : List (String × Value)}
    (h : ∀ pair ∈ pairs, pair.2.isFinite = true) :
    GivenBy pairs (Json.Data.membersOf (pairs.map fun pair => (pair.1, pair.2.toData))) := by
  induction pairs with
  | nil => exact .closed
  | cons pair pairs ih =>
      obtain ⟨hpair, hpairs⟩ := List.forall_mem_cons.mp h
      rw [List.map_cons, Json.Data.membersOf]
      refine .member (Json.readName_written pair.1) ?_ (ih hpairs)
      generalize pair.2 = value at hpair
      cases value with
      | number n =>
          obtain ⟨numeral, hdocument, hnumber⟩ := Json.document_number hpair
          rw [Value.toData, hdocument, ← hnumber]
          exact .number (hnumber ▸ hpair)
      | string s => exact .string (Json.readQuotation_ofString s)

/-! ## The order of pairs -/

/-- Neighbours with different names have changed places, any number of times. -/
inductive Reordered : List (String × Value) → List (String × Value) → Prop where
  | refl {pairs : List (String × Value)} : Reordered pairs pairs
  | swap {front back pairs : List (String × Value)} {pair other : String × Value} :
      pair.1 ≠ other.1 → Reordered (front ++ other :: pair :: back) pairs →
      Reordered (front ++ pair :: other :: back) pairs

theorem Reordered.lastValue?_eq {pairs others : List (String × Value)} (h : Reordered pairs others)
    (field : String) : lastValue? others field = lastValue? pairs field := by
  induction h with
  | refl => rfl
  | @swap front back pairs pair other hne _ ih =>
      rw [ih, lastValue?_append, lastValue?_append, lastValue?_cons pair, lastValue?_cons other,
        lastValue?_cons other, lastValue?_cons pair]
      by_cases hfield : field = pair.1
      · have hother : field ≠ other.1 := fun heq => hne (hfield.symm.trans heq)
        rw [if_neg hother, Option.or_none, Option.or_none]
      · rw [if_neg hfield, Option.or_none, Option.or_none]

theorem ofList_eq_iff {pairs others : List (String × Value)} :
    ofList pairs = ofList others ↔ ∀ field, lastValue? pairs field = lastValue? others field := by
  constructor
  · intro h field
    rw [← get?_ofList, ← get?_ofList, h]
  · intro h
    refine eq_of_get? fun field => ?_
    rw [get?_ofList, get?_ofList, h]

theorem evaluate_of_equals {record other : Record} (h : record.equals other = true) (rule : Rule)
    (traced : Bool) : rule.evaluate record traced = rule.evaluate other traced := by
  refine Rule.evaluate_of_agreeOn (fun field _ => ?_) traced
  have hvalues := equals_iff.mp h field
  generalize record.get? field = value at hvalues
  generalize other.get? field = found at hvalues
  cases hvalues with
  | none => exact .none
  | some hequals => exact .some (.inr hequals)

theorem record_foldl_insert (pairs : List (String × Value)) (workspace : Workspace) :
    (pairs.foldl (fun workspace pair => (workspace.insert pair.1 pair.2).2) workspace).record
      = pairs.foldl (fun record pair => record.insert pair.1 pair.2) workspace.record := by
  induction pairs generalizing workspace with
  | nil => rfl
  | cons pair pairs ih =>
      rw [List.foldl_cons, List.foldl_cons, ih]
      rfl

theorem equals_self {record : Record}
    (h : ∀ field, record.get? field ≠ some (.number .nan)) : record.equals record = true := by
  rw [equals_iff]
  intro field
  have hvalue := h field
  cases hget : record.get? field with
  | none => exact .none
  | some value =>
      rw [hget] at hvalue
      refine .some ?_
      cases value with
      | string s => exact beq_self_eq_true s
      | number n =>
          have hn : n ≠ .nan := by
            rintro rfl
            exact hvalue rfl
          obtain ⟨p, hp⟩ := Number.exists_position hn
          simp [Value.equals, Number.equals, Number.compare?, hp]

theorem isEmpty_iff {record : Record} : record.isEmpty = true ↔ record.size = 0 := by
  rw [isEmpty, size, List.isEmpty_iff, List.length_eq_zero_iff]

theorem mem_of_lastValue? {pairs : List (String × Value)} {field : String} {value : Value}
    (h : lastValue? pairs field = some value) : (field, value) ∈ pairs := by
  obtain ⟨pair, hlast, rfl⟩ := Option.map_eq_some_iff.mp h
  obtain ⟨hmem, hname⟩ := List.mem_filter.mp (List.mem_of_getLast? hlast)
  rwa [← beq_iff_eq.mp hname]

/-- However it is built from pairs, a record gives every field the value of the last pair with its
name. Inserting gives the value from before and changes no other field. There is one entry for
each name, in the order of the bytes of the names. So two records are equal if the last values
are, and then no evaluation tells them apart; the order of pairs with different names is one thing
that does not matter. -/
theorem last_write_wins (pairs : List (String × Value)) :
    (collect pairs = ofList pairs ∧
      (pairs.foldl (fun workspace pair => (workspace.insert pair.1 pair.2).2)
        Workspace.empty).record = ofList pairs ∧
      (∀ text members, Json.Document.ofText text = (.object members, []) →
        GivenBy pairs members → Json.readText read text = .ok (ofList pairs)) ∧
      ∀ style : Json.Style, style.IsSpaced → (∀ pair ∈ pairs, pair.2.isFinite = true) →
        Json.readText read (String.ofList ((Json.Data.object (pairs.map fun pair =>
          (pair.1, pair.2.toData))).write style 0)) = .ok (ofList pairs)) ∧
    (∀ field, (ofList pairs).get? field = lastValue? pairs field) ∧
    (∀ (workspace : Workspace) field value,
      (workspace.insert field value).1 = workspace.record.get? field ∧
      ((workspace.insert field value).1, (workspace.insert field value).2.record.entries)
        = replaceEntry field value workspace.record.entries ∧
      (workspace.insert field value).2.record.get? field = some value ∧
      ∀ other, other ≠ field →
        (workspace.insert field value).2.record.get? other = workspace.record.get? other) ∧
    ((ofList pairs).size = (pairs.map Prod.fst).dedup.length ∧
      ((ofList pairs).isEmpty = true ↔ (ofList pairs).size = 0)) ∧
    ((ofList pairs).entries.Pairwise
        (fun entry later => Text.bytes entry.1 < Text.bytes later.1) ∧
      ∀ field value, (field, value) ∈ (ofList pairs).entries ↔
        (ofList pairs).get? field = some value) ∧
    (∀ others,
      (ofList pairs = ofList others ↔
        ∀ field, lastValue? pairs field = lastValue? others field) ∧
      ((ofList pairs).equals (ofList others) = true ↔
        ∀ field, Option.Rel (fun value found => value.equals found = true)
          (lastValue? pairs field) (lastValue? others field)) ∧
      ((ofList pairs).equals (ofList others) = true → ∀ rule traced,
        Rule.evaluate rule (ofList pairs) traced = rule.evaluate (ofList others) traced)) ∧
    ((∀ pair ∈ pairs, pair.2 ≠ .number .nan) → (ofList pairs).equals (ofList pairs) = true) ∧
    ∀ others, Reordered pairs others → ofList others = ofList pairs ∧ ∀ rule traced,
      Rule.evaluate rule (ofList others) traced = rule.evaluate (ofList pairs) traced := by
  refine ⟨⟨collect_eq_ofList pairs, record_foldl_insert pairs .empty, ?_, ?_⟩, get?_ofList pairs,
    ?_, ⟨size_ofList pairs, isEmpty_iff⟩, ⟨?_, fun _ _ => mem_entries_iff⟩, ?_, ?_, ?_⟩
  · intro text members htext hgiven
    exact readText_read_eq_ok.mpr ⟨pairs, members, htext, hgiven, rfl⟩
  · intro style hstyle hfinite
    refine readText_read_eq_ok.mpr ⟨pairs, _, ?_, givenBy_membersOf hfinite, rfl⟩
    exact Json.ofText_write hstyle _
  · intro workspace field value
    refine ⟨rfl, (replaceEntry_eq workspace.record.ascending field value).symm, ?_, ?_⟩
    · exact (get?_insert _ _ _ _).trans (if_pos rfl)
    · intro other hother
      exact (get?_insert _ _ _ _).trans (if_neg hother)
  · exact (ofList pairs).ascending.imp Text.bytes_lt_iff.mpr
  · intro others
    refine ⟨ofList_eq_iff, ?_, fun hequals rule traced => evaluate_of_equals hequals rule traced⟩
    rw [equals_iff]
    simp only [get?_ofList]
  · intro hvalues
    refine equals_self fun field hnan => ?_
    rw [get?_ofList] at hnan
    exact hvalues _ (mem_of_lastValue? hnan) rfl
  · intro others hreordered
    have hsame : ofList others = ofList pairs := ofList_eq_iff.mpr hreordered.lastValue?_eq
    exact ⟨hsame, fun rule traced => by rw [hsame]⟩

/-- A field that is written twice, in a text with white space and an escape and in compact text,
and with another field between the two or before them. The zeros are equal. -/
theorem last_write_wins_twice_written :
    Json.readText read " \x7b\"b\" : -0e1, \"\\u00e9\":\"x\",\"b\":\"y\" \x7d"
      = .ok (ofList [("b", .number (.signed true .zero)), ("é", .string "x"),
          ("b", .string "y")]) ∧
    Json.readText read (Json.Data.object [("b", .number (.signed true .zero)),
        ("é", .string "x"), ("b", .string "y")]).compactText
      = .ok (ofList [("b", .number (.signed true .zero)), ("é", .string "x"),
          ("b", .string "y")]) ∧
    (ofList [("b", .number (.signed true .zero)), ("é", .string "x"),
      ("b", .string "y")]).get? "b" = some (.string "y") ∧
    ofList [("é", .string "x"), ("b", .number (.signed true .zero)), ("b", .string "y")]
      = ofList [("b", .number (.signed true .zero)), ("é", .string "x"), ("b", .string "y")] ∧
    (ofList [("b", .number (.signed true .zero)), ("é", .string "x"),
      ("b", .string "y")]).equals (ofList [("b", .number (.signed true .zero)),
        ("é", .string "x"), ("b", .string "y")]) = true ∧
    Rule.evaluate (.leaf ⟨"b", .less, .string "x"⟩)
        (ofList [("b", .number (.signed true .zero))]) true
      = Rule.evaluate (.leaf ⟨"b", .less, .string "x"⟩)
        (ofList [("b", .number (.signed false .zero))]) true := by
  obtain ⟨⟨-, -, htext, hwritten⟩, hget, -, -, -, -, hself, hreordered⟩ := last_write_wins
    [("b", .number (.signed true .zero)), ("é", .string "x"), ("b", .string "y")]
  have hlexemes : Json.lexemes " \x7b\"b\" : -0e1, \"\\u00e9\":\"x\",\"b\":\"y\" \x7d"
      = [.openObject, .string ⟨[.char 'b'], none⟩, .colon, .number ⟨true, ['0'], [], 1, false⟩,
        .comma, .string ⟨[.code 233], none⟩, .colon, .string ⟨[.char 'x'], none⟩,
        .comma, .string ⟨[.char 'b'], none⟩, .colon, .string ⟨[.char 'y'], none⟩,
        .closeObject] := by
    have hcode : Json.hexCode? '0' '0' 'e' '9' = some 233 := by decide
    have hpower : Decimal.ofDigits ['1'] = 1 := by decide
    simp [Json.lexemes, Json.lexemesFrom, Json.isBlank, Json.cutLexeme, Json.cutString,
      Text.doubleQuote, Text.backslash, Json.Quotation.cons, hcode, Json.cutNumber,
      Json.cutNumeral, Json.cutWhole, Json.cutDigits, Json.cutFraction, Json.cutExponent,
      Decimal.splitDigits, hpower]
  refine ⟨?_, ?_, ?_, ?_, ?_, ?_⟩
  · have hzero : Json.Numeral.number ⟨true, ['0'], [], 1, false⟩ = .signed true .zero := by decide
    have hnumber := @Value.HeldBy.number ⟨true, ['0'], [], 1, false⟩ (by decide)
    rw [hzero] at hnumber
    apply htext _ (.member (.written ⟨[.char 'b'], none⟩) (.number ⟨true, ['0'], [], 1, false⟩)
      (.member (.written ⟨[.code 233], none⟩) (.string ⟨[.char 'x'], none⟩)
        (.member (.written ⟨[.char 'b'], none⟩) (.string ⟨[.char 'y'], none⟩) .closed)))
    · rw [Json.Document.ofText, hlexemes]
      rfl
    · exact .member rfl hnumber (.member rfl (.string rfl) (.member rfl (.string rfl) .closed))
  · have hzero : (Value.number (.signed true .zero)).isFinite = true := by decide
    exact hwritten .compact Json.isSpaced_compact (by simpa [Value.isFinite] using hzero)
  · exact (hget "b").trans (by decide)
  · have hswapped := @Reordered.swap [] [("b", .string "y")] _
      ("b", .number (.signed true .zero)) ("é", .string "x") (by decide) .refl
    exact (hreordered _ hswapped).1
  · exact hself (by simp)
  · have hequals : (ofList [("b", .number (.signed true .zero))]).equals
        (ofList [("b", .number (.signed false .zero))]) = true := by decide
    exact ((last_write_wins [("b", .number (.signed true .zero))]).2.2.2.2.2.1
      [("b", .number (.signed false .zero))]).2.2 hequals _ true

end Record

end ComparisonRules
