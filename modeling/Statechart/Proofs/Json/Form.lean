import Statechart.Proofs.Table
import Statechart.State.Form

set_option autoImplicit false

namespace Statechart.Json

/-- What holds of a value if it holds of its parts holds of every value. -/
theorem induct {motive : Json → Prop}
    (array : ∀ items, (∀ item ∈ items, motive item) → motive (.array items))
    (object : ∀ fields, (∀ field ∈ fields, motive field.2) → motive (.object fields))
    (scalar : ∀ value, (∀ items, value ≠ .array items) → (∀ fields, value ≠ .object fields) →
      motive value) :
    (value : Json) → motive value
  | .array items => array items (fun item _ => induct array object scalar item)
  | .object fields => object fields (fun field _ => induct array object scalar field.2)
  | .null => scalar _ nofun nofun
  | .bool _ => scalar _ nofun nofun
  | .number _ => scalar _ nofun nofun
  | .string _ => scalar _ nofun nofun
  | .unreadable => scalar _ nofun nofun
termination_by value => sizeOf value
decreasing_by
  · have smaller := List.sizeOf_lt_of_mem ‹item ∈ items›
    simp only [Json.array.sizeOf_spec]
    omega
  · obtain ⟨name, value⟩ := field
    have smaller := List.sizeOf_lt_of_mem ‹(name, value) ∈ fields›
    simp only [Json.object.sizeOf_spec, Prod.mk.sizeOf_spec] at smaller ⊢
    omega

variable {fields : List (String × Json)} {name : String} {value : Json}

theorem sole_iff_filter : Sole fields name value ↔
    fields.filter (fun field => field.1 = name) = [(name, value)] := by
  simp only [Sole, List.filter_eq_cons_iff, List.filter_eq_nil_iff, decide_eq_true_eq,
    List.forall_mem_append, ne_eq, true_and]

theorem lacks_iff_filter : Lacks fields name ↔
    fields.filter (fun field => field.1 = name) = [] := by
  simp only [Lacks, List.filter_eq_nil_iff, decide_eq_true_eq, ne_eq]

theorem sole_of_filter {field : String × Json}
    (listed : fields.filter (fun field => field.1 = name) = [field]) :
    Sole fields name field.2 := by
  have member : field ∈ fields.filter (fun field => field.1 = name) :=
    listed ▸ List.mem_singleton_self field
  have same : field.1 = name := by simpa using (List.mem_filter.mp member).2
  rw [sole_iff_filter, listed, ← same]

theorem sole?_eq_some_iff : sole? fields name = some (some value) ↔ Sole fields name value := by
  rw [sole?]
  constructor
  · intro found
    split at found
    · cases found
    · rename_i field listed
      cases found
      exact sole_of_filter listed
    · cases found
  · intro only
    rw [sole_iff_filter.mp only]

theorem string?_eq_some_iff {text : String} : value.string? = some text ↔ value = .string text := by
  cases value <;> simp [string?]

theorem Sole.mem (only : Sole fields name value) : (name, value) ∈ fields := by
  obtain ⟨_, _, rfl, _⟩ := only
  simp

theorem table?_ofTable {β : Type} {form : β → Json} {value? : Json → Option β}
    (back : ∀ value, value? (form value) = some value)
    (table : Table β) : table? value? (ofTable form table) = some table := by
  have reads : (fun entry : String × β => (value? (form entry.2)).map (entry.1, ·)) = pure := by
    funext entry
    rw [back, Option.map_some]
    rfl
  have entries : table.entries.mapM (pure : String × β → Option (String × β)) =
      some table.entries := by
    simpa using List.mapM_pure (m := Option) (l := table.entries) (f := id)
  rw [ofTable, table?, List.mapM_map]
  change (table.entries.mapM (fun entry => (value? (form entry.2)).map (entry.1, ·))).map
    Table.ofList = some table
  rw [reads, entries, Option.map_some, Table.ofList_entries]

@[simp] theorem field?_ofTable {β : Type} (form : β → Json) (table : Table β) (name : String) :
    (ofTable form table).field? name = (table.find? name).map form := by
  rw [← Table.find?_map]
  exact congrArg (Table.find? · name) (table.map form).ofList_entries

theorem nat_injective {first second : Nat} (same : nat first = nat second) : first = second := by
  have integers : (first : Int) = second := by simpa [nat, int] using same
  exact Int.ofNat.inj integers

end Statechart.Json
