import Statechart.Proofs.State.Form
import Statechart.Transition.Target

set_option autoImplicit false

namespace Statechart

namespace HistoryMode

theorem ofJson?_toJson (mode : HistoryMode) : ofJson? mode.toJson = some mode := by
  cases mode <;> rfl

end HistoryMode

namespace HistoryTarget

theorem ofJson?_toJson (target : HistoryTarget) : ofJson? target.toJson = some target := by
  have fields : target.toJson.record? ["mode", "state"] =
    some [some target.mode.toJson, some (.string target.state)] := rfl
  rw [ofJson?, fields]
  simp only [Option.bind_eq_bind, Option.bind_some, HistoryMode.ofJson?_toJson, Json.string?]
  rfl

end HistoryTarget

theorem Target.ofJson?_toJson (target : Target) : ofJson? target.toJson = some target := by
  cases target with
  | state name => rfl
  | history target =>
    simp only [toJson, ofJson?, Json.choice?, Option.bind_eq_bind, Option.bind_some,
      HistoryTarget.ofJson?_toJson]
    rfl

namespace HistoryStore

theorem ofJson?_array (shallow deep : Json) :
    ofJson? (.array [shallow, deep]) = ofJson? (.object [("shallow", shallow), ("deep", deep)]) :=
      rfl

theorem ofJson?_toJson (store : HistoryStore) : ofJson? store.toJson = some store := by
  have fields : store.toJson.record? ["shallow", "deep"]
      = some [some (.ofTable .string store.shallow), some (.ofTable .string store.deep)] := rfl
  have text (name : String) : Json.string? (.string name) = some name := rfl
  rw [ofJson?, fields]
  simp only [Option.bind_eq_bind, Option.bind_some, Json.table?_ofTable text]
  rfl

end HistoryStore

/-- Every state, target and store is read back from its form. An atomic state is written without
children, and a state is read from each of its forms, also where objects and arrays are mixed,
and from nothing else. -/
theorem forms_read_back :
    (∀ node : StateNode,
      node.toJson = .object (("name", .string node.name) ::
        if node.isCompound then [("children", .array (node.children.map StateNode.toJson))]
          else []) ∧
      StateNode.ofJson? node.toJson = some node) ∧
    (∀ value node, StateNode.ofJson? value = some node ↔ StateNode.Denotes value node) ∧
    (∀ target : Target, Target.ofJson? target.toJson = some target) ∧
    ∀ store : HistoryStore, HistoryStore.ofJson? store.toJson = some store ∧
      HistoryStore.ofJson? (.array [.ofTable .string store.shallow, .ofTable .string store.deep]) =
        some store := by
  refine ⟨?_, StateNode.ofJson?_eq_some_iff, Target.ofJson?_toJson, ?_⟩
  · intro node
    exact ⟨node.toJson_eq, (StateNode.ofJson?_eq_some_iff _ node).mpr node.denotes_toJson⟩
  · intro store
    have object := store.ofJson?_toJson
    exact ⟨object, (HistoryStore.ofJson?_array _ _).trans object⟩

end Statechart
