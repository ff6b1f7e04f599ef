set_option autoImplicit false

namespace Statechart

/-- A finite map from names, kept as the list of its entries in strictly ascending order of
name, so that two tables with the same bindings are the same table. -/
structure Table (β : Type) where
  entries : List (String × β)
  ascending : entries.Pairwise (fun a b => a.1 < b.1)

namespace Table

variable {β γ : Type}

/-- Puts a binding where the order wants it; an earlier binding of the same name gives way. -/
def insertEntry (name : String) (value : β) : List (String × β) → List (String × β)
  | [] => [(name, value)]
  | (other, kept) :: rest =>
    if name < other then (name, value) :: (other, kept) :: rest
    else if name = other then (name, value) :: rest
    else (other, kept) :: insertEntry name value rest

/-- The first value bound to a name. -/
def findEntry (name : String) : List (String × β) → Option β
  | [] => none
  | (other, value) :: rest => if name = other then some value else findEntry name rest

theorem mem_insertEntry {name : String} {value : β} {entries : List (String × β)}
    {entry : String × β}
    (member : entry ∈ insertEntry name value entries) :
    entry = (name, value) ∨ entry ∈ entries := by
  induction entries with
  | nil => simpa [insertEntry] using member
  | cons head rest ih =>
    obtain ⟨other, kept⟩ := head
    simp only [insertEntry] at member
    split at member
    · simpa using member
    · split at member
      · rcases List.mem_cons.mp member with rfl | inside
        · exact .inl rfl
        · exact .inr (List.mem_cons_of_mem _ inside)
      · rcases List.mem_cons.mp member with rfl | inside
        · exact .inr List.mem_cons_self
        · exact (ih inside).imp id (List.mem_cons_of_mem _)

theorem insertEntry_ascending (name : String) (value : β) (entries : List (String × β))
    (ascending : entries.Pairwise (fun a b => a.1 < b.1)) :
    (insertEntry name value entries).Pairwise (fun a b => a.1 < b.1) := by
  induction entries with
  | nil => simp [insertEntry]
  | cons head rest ih =>
    obtain ⟨other, kept⟩ := head
    have above := (List.pairwise_cons.mp ascending).1
    simp only [insertEntry]
    split
    · rename_i less
      refine ascending.cons (fun entry member => ?_)
      rcases List.mem_cons.mp member with rfl | inside
      · exact less
      · exact String.lt_trans less (above _ inside)
    · rename_i notLess
      split
      · rename_i same
        exact ascending.of_cons.cons (fun entry member => same ▸ above _ member)
      · rename_i distinct
        refine (ih ascending.of_cons).cons (fun entry member => ?_)
        rcases mem_insertEntry member with rfl | inside
        · exact Std.lt_of_le_of_ne (String.not_lt.mp notLess) (Ne.symm distinct)
        · exact above _ inside

theorem findEntry_insertEntry (name wanted : String) (value : β) (entries : List (String × β)) :
    findEntry wanted (insertEntry name value entries)
      = if wanted = name then some value else findEntry wanted entries := by
  induction entries with
  | nil => rfl
  | cons head rest ih =>
    obtain ⟨other, kept⟩ := head
    simp only [insertEntry]
    by_cases less : name < other
    · simp [less, findEntry]
    · by_cases same : name = other
      · subst same
        by_cases hit : wanted = name <;> simp [findEntry, hit]
      · by_cases hit : wanted = other
        · subst hit
          simp [less, same, findEntry, Ne.symm same]
        · simp [less, same, findEntry, hit, ih]

theorem findEntry_eq_none {name : String} {entries : List (String × β)}
    (absent : ∀ entry ∈ entries, name ≠ entry.1) : findEntry name entries = none := by
  induction entries with
  | nil => rfl
  | cons head rest ih =>
    have here := absent head List.mem_cons_self
    simp only [findEntry, here, ↓reduceIte]
    exact ih (fun entry member => absent entry (List.mem_cons_of_mem _ member))

theorem entries_eq_of_findEntry : ∀ (first second : List (String × β)),
    first.Pairwise (fun a b => a.1 < b.1) → second.Pairwise (fun a b => a.1 < b.1) →
    (∀ name, findEntry name first = findEntry name second) → first = second
  | [], [], _, _, _ => rfl
  | [], (name, value) :: _, _, _, same => by simpa [findEntry] using same name
  | (name, value) :: _, [], _, _, same => by simpa [findEntry] using same name
  | (name, value) :: rest, (other, kept) :: more, sortedFirst, sortedSecond, same => by
    have aboveFirst := (List.pairwise_cons.mp sortedFirst).1
    have aboveSecond := (List.pairwise_cons.mp sortedSecond).1
    have names : name = other := by
      rcases Classical.em (name = other) with equal | distinct
      · exact equal
      · exfalso
        by_cases less : name < other
        · have missing : findEntry name ((other, kept) :: more) = none :=
              findEntry_eq_none (fun entry member => by
            rcases List.mem_cons.mp member with rfl | inside
            · exact distinct
            · exact fun equal => absurd (String.lt_trans less (aboveSecond entry inside))
                (equal ▸ String.lt_irrefl name))
          simpa [findEntry, distinct, missing] using (same name).trans missing
        · have greater : other < name :=
            Std.lt_of_le_of_ne (String.not_lt.mp less) (Ne.symm distinct)
          have missing : findEntry other ((name, value) :: rest) = none :=
              findEntry_eq_none (fun entry member => by
            rcases List.mem_cons.mp member with rfl | inside
            · exact Ne.symm distinct
            · exact fun equal => absurd (String.lt_trans greater (aboveFirst entry inside))
                (equal ▸ String.lt_irrefl other))
          simpa [findEntry] using (same other).symm.trans missing
    subst names
    have values : value = kept := by simpa [findEntry] using same name
    subst values
    have tails : rest = more :=
        entries_eq_of_findEntry rest more sortedFirst.of_cons sortedSecond.of_cons (fun wanted => by
      by_cases hit : wanted = name
      · subst hit
        rw [findEntry_eq_none (fun entry member equal =>
          absurd (aboveFirst entry member) (equal ▸ String.lt_irrefl wanted)),
          findEntry_eq_none (fun entry member equal =>
            absurd (aboveSecond entry member) (equal ▸ String.lt_irrefl wanted))]
      · simpa [findEntry, hit] using same wanted)
    rw [tails]

def empty : Table β := ⟨[], .nil⟩

instance : EmptyCollection (Table β) := ⟨empty⟩

instance : Inhabited (Table β) := ⟨empty⟩

instance [DecidableEq β] : DecidableEq (Table β) := fun first second =>
  decidable_of_iff (first.entries = second.entries)
    ⟨fun same => by cases first; cases second; cases same; rfl, fun same => same ▸ rfl⟩

def find? (table : Table β) (name : String) : Option β :=
  findEntry name table.entries

/-- Binds a name, in place of an earlier binding if there is one. -/
def insert (table : Table β) (name : String) (value : β) : Table β :=
  ⟨insertEntry name value table.entries,
    insertEntry_ascending name value table.entries table.ascending⟩

/-- Rebinds a name to a function of what it is bound to so far. -/
def alter (table : Table β) (name : String) (change : Option β → β) : Table β :=
  table.insert name (change (table.find? name))

def contains (table : Table β) (name : String) : Bool :=
  (table.find? name).isSome

def keys (table : Table β) : List String :=
  table.entries.map Prod.fst

def size (table : Table β) : Nat :=
  table.entries.length

def isEmpty (table : Table β) : Bool :=
  table.entries.isEmpty

/-- The table of a list of bindings; of two for one name the later counts. -/
def ofList (bindings : List (String × β)) : Table β :=
  bindings.foldl (fun table binding => table.insert binding.1 binding.2) empty

/-- The same names, each bound to a function of its value. -/
def map (table : Table β) (change : β → γ) : Table γ :=
  ⟨table.entries.map (fun entry => (entry.1, change entry.2)),
    List.pairwise_map.mpr table.ascending⟩

/-- The different names of a list, ascending. -/
def distinct (names : List String) : List String :=
  (ofList (names.map (fun name => (name, ())))).keys

/-- Collects the values listed under each name, in the order listed. -/
def group (listed : List (String × β)) : Table (List β) :=
  listed.foldl (fun table item => table.alter item.1 (fun before => before.getD [] ++ [item.2]))
    empty

@[simp] theorem find?_empty (name : String) : (empty : Table β).find? name = none := rfl

theorem find?_insert (table : Table β) (name wanted : String) (value : β) :
    (table.insert name value).find? wanted = if wanted = name then some value
      else table.find? wanted :=
  findEntry_insertEntry name wanted value table.entries

@[simp] theorem find?_insert_self (table : Table β) (name : String) (value : β) :
    (table.insert name value).find? name = some value := by
  simp [find?_insert]

theorem find?_insert_of_ne (table : Table β) {name wanted : String} (value : β)
    (distinct : wanted ≠ name) : (table.insert name value).find? wanted = table.find? wanted := by
  simp [find?_insert, distinct]

theorem find?_alter (table : Table β) (name wanted : String) (change : Option β → β) :
    (table.alter name change).find? wanted
      = if wanted = name then some (change (table.find? name)) else table.find? wanted :=
  find?_insert table name wanted _

theorem findEntry_map (entries : List (String × β)) (change : β → γ) (name : String) :
    findEntry name (entries.map (fun entry => (entry.1, change entry.2))) =
      (findEntry name entries).map change := by
  induction entries with
  | nil => rfl
  | cons head rest ih =>
    simp only [List.map_cons, findEntry, ih]
    split <;> rfl

@[simp] theorem find?_map (table : Table β) (change : β → γ) (name : String) :
    (table.map change).find? name = (table.find? name).map change :=
  findEntry_map table.entries change name

theorem find?_foldl_group (listed : List (String × β)) (table : Table (List β)) (name : String) :
    (listed.foldl (fun table item => table.alter item.1 (fun before => before.getD [] ++ [item.2]))
      table).find? name = if listed.any (fun item => item.1 = name)
        then some ((table.find? name).getD [] ++
          (listed.filter (fun item => item.1 = name)).map Prod.snd)
        else table.find? name := by
  induction listed generalizing table with
  | nil => rfl
  | cons item rest ih =>
    rw [List.foldl_cons, ih, find?_alter]
    by_cases hit : item.1 = name
    · subst hit
      simp only [↓reduceIte, Option.getD_some, List.any_cons, decide_true, Bool.true_or,
        List.filter_cons_of_pos, List.map_cons, List.append_assoc, List.singleton_append]
      split
      · rfl
      · rename_i none_left
        have no_more : rest.filter (fun other => other.1 = item.1) = [] :=
          List.filter_eq_nil_iff.mpr (fun other inside same =>
            none_left (List.any_eq_true.mpr ⟨other, inside, same⟩))
        simp [no_more]
    · have miss : name ≠ item.1 := fun same => hit same.symm
      have differs : decide (item.1 = name) = false := decide_eq_false hit
      simp only [if_neg miss, List.any_cons, List.filter_cons, differs, Bool.false_or,
        Bool.false_eq_true, ↓reduceIte]

/-- The values grouped under a name are those listed under it; a name under which nothing is
listed is not bound. -/
theorem find?_group (listed : List (String × β)) (name : String) :
    (group listed).find? name
      = if listed.any (fun item => item.1 = name)
        then some ((listed.filter (fun item => item.1 = name)).map Prod.snd) else none := by
  rw [group, find?_foldl_group]
  simp

/-- A table is determined by its look-ups. -/
theorem ext_find? {first second : Table β} (same : ∀ name, first.find? name = second.find? name) :
    first = second := by
  obtain ⟨entries, ascending⟩ := first
  obtain ⟨others, ascending'⟩ := second
  have lists : entries = others := entries_eq_of_findEntry entries others ascending ascending' same
  subst lists
  rfl

end Table

end Statechart
