import Mathlib.Data.List.Forall2
import Statechart.Proofs.Json.Form
import Statechart.Proofs.State.Visits

set_option autoImplicit false

namespace Statechart.StateNode

open Json (Sole Lacks)

/-- A value is a form of a state. Fields stand in any order, and those of other names may hold
anything. -/
inductive Denotes : Json → StateNode → Prop where
  | record {fields : List (String × Json)} {name : String} {items : List Json}
    {children : List StateNode} (named : Sole fields "name" (.string name))
    (nested : Sole fields "children" (.array items))
    (each : List.Forall₂ Denotes items children) : Denotes (.object fields) ⟨name, children⟩
  | bareRecord {fields : List (String × Json)} {name : String}
    (named : Sole fields "name" (.string name))
    (bare : Lacks fields "children") : Denotes (.object fields) ⟨name, []⟩
  | array {name : String} {items : List Json} {children : List StateNode}
    (each : List.Forall₂ Denotes items children) :
    Denotes (.array [.string name, .array items]) ⟨name, children⟩
  | bareArray {name : String} : Denotes (.array [.string name]) ⟨name, []⟩

theorem forestToJson_eq_map (forest : List StateNode) :
    forestToJson forest = forest.map toJson := by
  induction forest with
  | nil => rfl
  | cons node rest ih => rw [forestToJson, ih, List.map_cons]

theorem toJson_eq (node : StateNode) :
    node.toJson = .object (("name", .string node.name) ::
      if node.isCompound then [("children", .array (node.children.map toJson))] else []) := by
  obtain ⟨name, children⟩ := node
  rw [toJson, forestToJson_eq_map]
  cases children <;> rfl

theorem childrenFields_eq (fields : List (String × Json)) :
    childrenFields fields
      = (fields.filter (fun field => field.1 = "children")).map
        (fun field => childrenOfJson? field.2) := by
  induction fields with
  | nil => rfl
  | cons field rest ih =>
    rw [childrenFields, ih]
    by_cases hit : field.1 = "children" <;> simp [hit]

theorem forestOfJson?_eq_some_iff {items : List Json}
    (each : ∀ item ∈ items, ∀ node, ofJson? item = some node ↔ Denotes item node)
    (forest : List StateNode) :
    forestOfJson? items = some forest ↔ List.Forall₂ Denotes items forest := by
  induction items generalizing forest with
  | nil => simp [forestOfJson?, eq_comm]
  | cons item rest ih =>
    have first := each item List.mem_cons_self
    have others := ih (fun other member => each other (List.mem_cons_of_mem _ member))
    simp only [forestOfJson?, Option.bind_eq_bind, Option.bind_eq_some_iff, Option.pure_def,
      Option.some.injEq, first, others, List.forall₂_cons_left_iff]
    constructor
    · rintro ⟨node, form, nodes, forms, rfl⟩
      exact ⟨node, nodes, form, forms, rfl⟩
    · rintro ⟨node, nodes, form, forms, rfl⟩
      exact ⟨node, form, nodes, forms, rfl⟩

theorem ofJson?_object_eq_some_iff (fields : List (String × Json)) (node : StateNode) :
    ofJson? (.object fields) = some node ↔ Sole fields "name" (.string node.name) ∧
      (Lacks fields "children" ∧ node.children = [] ∨
        ∃ value, Sole fields "children" value ∧ childrenOfJson? value = some node.children) := by
  obtain ⟨name, children⟩ := node
  simp only [ofJson?, Option.bind_eq_bind, Option.bind_eq_some_iff]
  constructor
  · rintro ⟨_, found, value, rfl, text, isText, read⟩
    rw [Json.string?_eq_some_iff.mp isText] at found
    have named := Json.sole?_eq_some_iff.mp found
    split at read
    · rename_i listed
      cases read
      rw [childrenFields_eq, List.map_eq_nil_iff] at listed
      exact ⟨named, Or.inl ⟨Json.lacks_iff_filter.mpr listed, rfl⟩⟩
    · rename_i listed
      obtain ⟨forest, got, same⟩ := Option.map_eq_some_iff.mp read
      cases same
      rw [childrenFields_eq, List.map_eq_singleton_iff] at listed
      obtain ⟨field, only, rfl⟩ := listed
      exact ⟨named, Or.inr ⟨field.2, Json.sole_of_filter only, got⟩⟩
    · cases read
  · rintro ⟨named, nested⟩
    refine ⟨_, Json.sole?_eq_some_iff.mpr named, _, rfl, name, rfl, ?_⟩
    rw [childrenFields_eq]
    rcases nested with ⟨lacks, bare⟩ | ⟨value, only, got⟩
    · cases bare
      rw [Json.lacks_iff_filter.mp lacks]
      rfl
    · rw [Json.sole_iff_filter.mp only]
      exact congrArg (Option.map (StateNode.mk name)) got

theorem ofJson?_array_eq_some_iff (items : List Json) (node : StateNode) :
    ofJson? (.array items) = some node ↔ items = [.string node.name] ∧ node.children = [] ∨
      ∃ value, items = [.string node.name, value] ∧ childrenOfJson? value = some node.children := by
  obtain ⟨name, children⟩ := node
  constructor
  · intro read
    rw [ofJson?.eq_def] at read
    split at read
    · contradiction
    · rename_i own written
      cases written
      cases read
      exact Or.inl ⟨rfl, rfl⟩
    · rename_i own value written
      cases written
      obtain ⟨forest, got, same⟩ := Option.map_eq_some_iff.mp read
      cases same
      exact Or.inr ⟨value, rfl, got⟩
    · cases read
  · rintro (⟨rfl, bare⟩ | ⟨value, rfl, got⟩)
    · cases bare
      rw [ofJson?]
    · rw [ofJson?]
      exact congrArg (Option.map (StateNode.mk name)) got

/-- What is read of a value, as a state and as the children of one. A part of a state is read in
the one way and what is inside it in the other, so an induction needs both. -/
structure ReadAsForms (value : Json) : Prop where
  state : ∀ node, ofJson? value = some node ↔ Denotes value node
  children : ∀ forest, childrenOfJson? value = some forest ↔
    ∃ items, value = .array items ∧ List.Forall₂ Denotes items forest

theorem readAsForms_array {items : List Json} (each : ∀ item ∈ items, ReadAsForms item) :
    ReadAsForms (.array items) where
  state := by
    intro node
    rw [ofJson?_array_eq_some_iff]
    constructor
    · obtain ⟨name, children⟩ := node
      rintro (⟨rfl, bare⟩ | ⟨value, rfl, got⟩)
      · cases bare
        exact .bareArray
      · obtain ⟨inside, rfl, forms⟩ := ((each value (by simp)).children children).mp got
        exact .array forms
    · intro form
      cases form with
      | array forms => exact Or.inr ⟨_, rfl, ((each _ (by simp)).children _).mpr ⟨_, rfl, forms⟩⟩
      | bareArray => exact Or.inl ⟨rfl, rfl⟩
  children := by
    intro forest
    rw [childrenOfJson?, forestOfJson?_eq_some_iff (fun item member => (each item member).state)]
    simp

theorem readAsForms_object {fields : List (String × Json)}
    (each : ∀ field ∈ fields, ReadAsForms field.2) : ReadAsForms (.object fields) where
  state := by
    intro node
    rw [ofJson?_object_eq_some_iff]
    constructor
    · obtain ⟨name, children⟩ := node
      rintro ⟨named, ⟨bare, none_inside⟩ | ⟨value, only, got⟩⟩
      · cases none_inside
        exact .bareRecord named bare
      · obtain ⟨items, rfl, forms⟩ := ((each _ only.mem).children children).mp got
        exact .record named only forms
    · intro form
      cases form with
      | record named nested forms =>
        exact ⟨named, Or.inr ⟨_, nested, ((each _ nested.mem).children _).mpr ⟨_, rfl, forms⟩⟩⟩
      | bareRecord named bare => exact ⟨named, Or.inl ⟨bare, rfl⟩⟩
  children := by
    intro forest
    simp [childrenOfJson?]

theorem readAsForms (value : Json) : ReadAsForms value := by
  induction value using Json.induct with
  | array items each => exact readAsForms_array each
  | object fields each => exact readAsForms_object each
  | scalar value notArray notObject =>
    constructor
    · intro node
      refine iff_of_false ?_ ?_
      · cases value <;> simp_all [ofJson?]
      · rintro (_ | _ | _ | _)
        · exact notObject _ rfl
        · exact notObject _ rfl
        · exact notArray _ rfl
        · exact notArray _ rfl
    · intro forest
      cases value <;> simp_all [childrenOfJson?]

/-- The values read as a state are its forms. -/
theorem ofJson?_eq_some_iff (value : Json) (node : StateNode) :
    ofJson? value = some node ↔ Denotes value node :=
  (readAsForms value).state node

theorem denotes_toJson (node : StateNode) : Denotes node.toJson node := by
  induction node using induct with
  | step node ih =>
    obtain ⟨name, children⟩ := node
    rw [toJson_eq]
    cases children with
    | nil => exact .bareRecord ⟨[], [], rfl, by simp⟩ (by simp [Lacks, isCompound])
    | cons first rest =>
      refine .record ⟨[], _, rfl, by simp [isCompound]⟩
        ⟨[("name", .string name)], [], rfl, by simp⟩ ?_
      exact List.forall₂_map_left_iff.mpr (List.forall₂_same.mpr ih)

end Statechart.StateNode
