import Mathlib.Data.List.Induction
import Mathlib.Data.List.Nodup
import Statechart.Table

set_option autoImplicit false

namespace Statechart.Table

variable {β : Type}

theorem mem_of_findEntry {name : String} {value : β} {entries : List (String × β)}
    (found : findEntry name entries = some value) : (name, value) ∈ entries := by
  induction entries with
  | nil => cases found
  | cons head rest ih =>
    obtain ⟨other, kept⟩ := head
    rw [findEntry] at found
    split at found
    · rename_i same
      cases found
      exact same ▸ List.mem_cons_self
    · exact List.mem_cons_of_mem _ (ih found)

theorem findEntry_of_mem {name : String} {value : β} {entries : List (String × β)}
    (ascending : entries.Pairwise (fun a b => a.1 < b.1)) (member : (name, value) ∈ entries) :
    findEntry name entries = some value := by
  induction entries with
  | nil => cases member
  | cons head rest ih =>
    obtain ⟨other, kept⟩ := head
    have above := (List.pairwise_cons.mp ascending).1
    rw [findEntry]
    rcases List.mem_cons.mp member with here | later
    · cases here
      exact if_pos rfl
    · have less : other < name := above _ later
      have distinct : name ≠ other := by
        rintro rfl
        exact String.lt_irrefl name less
      rw [if_neg distinct]
      exact ih ascending.of_cons later

/-- A table holds exactly the bindings that its look-ups find. -/
theorem mem_entries_iff (table : Table β) (name : String) (value : β) :
    (name, value) ∈ table.entries ↔ table.find? name = some value :=
  ⟨findEntry_of_mem table.ascending, mem_of_findEntry⟩

theorem mem_keys_iff (table : Table β) (name : String) :
    name ∈ table.keys ↔ ∃ value, table.find? name = some value := by
  constructor
  · intro member
    obtain ⟨entry, inside, rfl⟩ := List.mem_map.mp member
    exact ⟨entry.2, (table.mem_entries_iff entry.1 entry.2).mp inside⟩
  · rintro ⟨value, found⟩
    exact List.mem_map.mpr ⟨(name, value), (table.mem_entries_iff name value).mpr found, rfl⟩

theorem keys_nodup (table : Table β) : table.keys.Nodup := by
  rw [keys, List.Nodup, List.pairwise_map]
  apply table.ascending.imp
  intro first second less same
  exact String.lt_irrefl _ (same ▸ less)

theorem entry_unique {table : Table β} {entry other : String × β} (member : entry ∈ table.entries)
    (otherMember : other ∈ table.entries) (same : entry.1 = other.1) : entry = other :=
  List.inj_on_of_nodup_map table.keys_nodup member otherMember same

theorem one_lt_size {table : Table β} {first second : String} {value other : β}
    (firstBound : table.find? first = some value) (secondBound : table.find? second = some other)
    (distinct : first ≠ second) : 1 < table.size := by
  have member := (table.mem_entries_iff first value).mpr firstBound
  have otherMember := (table.mem_entries_iff second other).mpr secondBound
  unfold size
  match entries : table.entries with
  | [] =>
    rw [entries] at member
    cases member
  | [single] =>
    rw [entries] at member otherMember
    have same := (List.mem_singleton.mp member).trans (List.mem_singleton.mp otherMember).symm
    exact absurd (congrArg Prod.fst same) distinct
  | _ :: _ :: _ => simp

theorem exists_key_ne {table : Table β} (several : 1 < table.size) (name : String) :
    ∃ other ∈ table.keys, other ≠ name := by
  unfold size at several
  match entries : table.entries with
  | [] =>
    rw [entries] at several
    cases several
  | [_] =>
    rw [entries] at several
    exact absurd several (Nat.lt_irrefl 1)
  | first :: second :: rest =>
    have ordered : first.1 < second.1 := by
      have ascending := table.ascending
      rw [entries] at ascending
      exact (List.pairwise_cons.mp ascending).1 second List.mem_cons_self
    by_cases same : first.1 = name
    · refine ⟨second.1, ?_, ?_⟩
      · rw [keys, entries]
        simp
      · rintro rfl
        exact String.lt_irrefl _ (same ▸ ordered)
    · refine ⟨first.1, ?_, same⟩
      rw [keys, entries]
      simp

theorem ofList_concat (bindings : List (String × β)) (binding : String × β) :
    ofList (bindings ++ [binding]) = (ofList bindings).insert binding.1 binding.2 := by
  simp only [ofList, List.foldl_append, List.foldl_cons, List.foldl_nil]

/-- Of several bindings listed for a name the last one counts. -/
theorem find?_ofList (bindings : List (String × β)) (name : String) :
    (ofList bindings).find? name
      = (bindings.reverse.find? (fun binding => binding.1 = name)).map Prod.snd := by
  induction bindings using List.reverseRecOn with
  | nil => rfl
  | append_singleton earlier binding ih =>
    rw [ofList_concat, find?_insert, List.reverse_concat, List.find?_cons]
    by_cases same : binding.1 = name
    · simp [same]
    · simp [same, Ne.symm same, ih]

theorem mem_of_find?_ofList {bindings : List (String × β)} {name : String} {value : β}
    (found : (ofList bindings).find? name = some value) : (name, value) ∈ bindings := by
  rw [find?_ofList] at found
  obtain ⟨binding, last, rfl⟩ := Option.map_eq_some_iff.mp found
  have same : binding.1 = name := by simpa using List.find?_some last
  have member := List.mem_reverse.mp (List.mem_of_find?_eq_some last)
  exact same ▸ member

theorem contains_ofList (bindings : List (String × β)) (name : String) :
    (ofList bindings).contains name = true ↔ ∃ value, (name, value) ∈ bindings := by
  rw [contains, Option.isSome_iff_exists]
  constructor
  · rintro ⟨value, found⟩
    exact ⟨value, mem_of_find?_ofList found⟩
  · rintro ⟨value, member⟩
    have hit : (bindings.reverse.find? (fun binding => binding.1 = name)).isSome = true :=
      List.find?_isSome.mpr ⟨(name, value), List.mem_reverse.mpr member, by simp⟩
    obtain ⟨binding, last⟩ := Option.isSome_iff_exists.mp hit
    exact ⟨binding.2, by rw [find?_ofList, last]; rfl⟩

/-- Where no name is listed with two values, a look-up finds exactly what is listed. -/
theorem find?_ofList_iff {bindings : List (String × β)}
    (functional : ∀ first ∈ bindings, ∀ second ∈ bindings, first.1 = second.1 → first.2 = second.2)
    (name : String) (value : β) :
    (ofList bindings).find? name = some value ↔ (name, value) ∈ bindings := by
  constructor
  · exact mem_of_find?_ofList
  · intro member
    obtain ⟨other, found⟩ :=
      Option.isSome_iff_exists.mp ((contains_ofList bindings name).mpr ⟨value, member⟩)
    have values : other = value := functional _ (mem_of_find?_ofList found) _ member rfl
    exact values ▸ found

/-- Where the listed values ascend, a look-up finds the greatest one listed for a name. -/
theorem find?_ofList_iff_greatest {bindings : List (String × Nat)}
    (ascending : bindings.Pairwise (fun first second => first.2 ≤ second.2)) (name : String)
    (value : Nat) :
    (ofList bindings).find? name = some value ↔
      (name, value) ∈ bindings ∧ ∀ other, (name, other) ∈ bindings → other ≤ value := by
  -- The last binding of a name is the one that counts, so the list grows at its end.
  induction bindings using List.reverseRecOn with
  | nil => simp [ofList]
  | append_singleton earlier binding ih =>
    obtain ⟨among, _, below⟩ := List.pairwise_append.mp ascending
    rw [ofList_concat, find?_insert]
    by_cases same : name = binding.1
    · subst same
      have last : (binding.1, binding.2) ∈ earlier ++ [binding] :=
        List.mem_append_right _ (List.mem_singleton_self binding)
      have greatest (other : Nat) (listed : (binding.1, other) ∈ earlier ++ [binding]) : other ≤
          binding.2 := by
        rcases List.mem_append.mp listed with before | here
        · exact below _ before binding (List.mem_singleton_self binding)
        · exact Nat.le_of_eq (congrArg Prod.snd (List.mem_singleton.mp here))
      rw [if_pos rfl, Option.some.injEq]
      constructor
      · rintro rfl
        exact ⟨last, greatest⟩
      · rintro ⟨listed, above⟩
        exact Nat.le_antisymm (above _ last) (greatest _ listed)
    · have elsewhere (other : Nat) : (name, other) ∈ earlier ++ [binding] ↔
          (name, other) ∈ earlier := by
        rw [List.mem_append, or_iff_left]
        intro here
        exact same (congrArg Prod.fst (List.mem_singleton.mp here))
      rw [if_neg same, ih among]
      simp only [elsewhere]

theorem ofList_entries (table : Table β) : ofList table.entries = table := by
  apply ext_find?
  intro name
  apply Option.ext
  intro value
  rw [find?_ofList_iff, mem_entries_iff]
  intro first member second otherMember same
  exact congrArg Prod.snd (entry_unique member otherMember same)

/-- A table made from a list has a single entry exactly if the list has a single name; the last
binding is the entry. -/
theorem entries_ofList_eq_singleton_iff (bindings : List (String × β)) (name : String) (value : β) :
    (ofList bindings).entries = [(name, value)] ↔
      ∃ earlier, bindings = earlier ++ [(name, value)] ∧ ∀ binding ∈ earlier, binding.1 = name := by
  constructor
  · intro single
    have only (binding : String × β) (found : (ofList bindings).find? binding.1 = some binding.2) :
        binding = (name, value) := by
      have entry := (mem_entries_iff _ _ _).mpr found
      rw [single] at entry
      exact List.mem_singleton.mp entry
    rcases List.eq_nil_or_concat bindings with rfl | ⟨earlier, last, rfl⟩
    · cases single
    · rw [List.concat_eq_append] at only ⊢
      have isLast : last = (name, value) := only last (by rw [ofList_concat, find?_insert_self])
      refine ⟨earlier, by rw [isLast], ?_⟩
      intro binding member
      have bound := (contains_ofList (earlier ++ [last]) binding.1).mpr
        ⟨binding.2, List.mem_append_left _ member⟩
      obtain ⟨other, found⟩ := Option.isSome_iff_exists.mp bound
      exact congrArg Prod.fst (only (binding.1, other) found)
  · rintro ⟨earlier, rfl, same⟩
    suffices table : ofList (earlier ++ [(name, value)]) = empty.insert name value by
      rw [table]
      rfl
    apply ext_find?
    intro other
    rw [ofList_concat, find?_insert, find?_insert]
    by_cases hit : other = name
    · rw [if_pos hit, if_pos hit]
    · rw [if_neg hit, if_neg hit, find?_empty, ← Option.not_isSome_iff_eq_none]
      intro bound
      obtain ⟨_, member⟩ := (contains_ofList earlier other).mp bound
      exact hit (same _ member)

theorem mem_distinct (names : List String) (name : String) :
    name ∈ distinct names ↔ name ∈ names := by
  have listed := contains_ofList (names.map (fun name => (name, ()))) name
  rw [contains, Option.isSome_iff_exists] at listed
  rw [distinct, mem_keys_iff, listed]
  simp

end Statechart.Table
