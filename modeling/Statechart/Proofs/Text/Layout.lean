import Statechart.Proofs.Text.Quoted
import Statechart.State.Node
import Statechart.Transition.Target

set_option autoImplicit false

namespace Statechart

namespace Text

variable {α β : Type}

theorem toList_intercalate_cons (separator text : String) (texts : List String) :
    (separator.intercalate (text :: texts)).toList =
      text.toList ++ texts.flatMap (fun next => separator.toList ++ next.toList) := by
  rw [String.toList_intercalate]
  induction texts generalizing text with
  | nil => simp
  | cons next texts ih =>
    have further := ih next
    simp only [List.map_cons, List.intercalate_cons_cons, List.flatMap_cons] at further ⊢
    rw [further]
    simp

/-- Items with commas between them, up to a mark that neither goes on with a comma nor begins an
item. -/
theorem intercalate_append_inj {form : α → String} {closing : Char} (notComma : closing ≠ ',')
    (opens : ∀ a s t, (form a).toList ++ s ≠ closing :: t) {items : List α}
    (delimits : ∀ a ∈ items, Delimits form a) {others : List α} {s t : List Char}
    (same : (", ".intercalate (items.map form)).toList ++ closing :: s =
      (", ".intercalate (others.map form)).toList ++ closing :: t) : items = others ∧ s = t := by
  have onward {items : List α} (delimits : ∀ a ∈ items, Delimits form a) (others : List α)
      (same : (items.map form).flatMap (fun next => ", ".toList ++ next.toList) ++ closing :: s =
        (others.map form).flatMap (fun next => ", ".toList ++ next.toList) ++ closing :: t) :
      items = others ∧ s = t := by
    induction items generalizing others with
    | nil =>
      cases others with
      | nil => exact ⟨rfl, (List.cons.inj same).2⟩
      | cons other others => exact absurd (List.cons.inj same).1 notComma
    | cons item items ih =>
      cases others with
      | nil => exact absurd (List.cons.inj same).1.symm notComma
      | cons other others =>
        simp only [List.map_cons, List.flatMap_cons, List.append_assoc,
          List.append_cancel_left_eq] at same
        obtain ⟨rfl, rest⟩ := delimits item List.mem_cons_self _ _ _ same
        obtain ⟨rfl, rfl⟩ := ih (fun a member => delimits a (List.mem_cons_of_mem _ member)) _ rest
        exact ⟨rfl, rfl⟩
  cases items with
  | nil =>
    cases others with
    | nil => exact onward (List.forall_mem_nil _) [] same
    | cons other others =>
      rw [List.map_cons, toList_intercalate_cons, List.append_assoc] at same
      exact absurd same.symm (opens other _ _)
  | cons item items =>
    rw [List.map_cons, toList_intercalate_cons, List.append_assoc] at same
    cases others with
    | nil => exact absurd same (opens item _ _)
    | cons other others =>
      rw [List.map_cons, toList_intercalate_cons, List.append_assoc] at same
      obtain ⟨rfl, rest⟩ := delimits item List.mem_cons_self _ _ _ same
      obtain ⟨rfl, rfl⟩ :=
        onward (fun a member => delimits a (List.mem_cons_of_mem _ member)) _ rest
      exact ⟨rfl, rfl⟩

theorem list_delimits {form : α → String} (opens : ∀ a s t, (form a).toList ++ s ≠ ']' :: t)
    {items : List α} (delimits : ∀ a ∈ items, Delimits form a) :
    Delimits (fun items : List α => list (items.map form)) items := by
  intro others s t same
  simp only [list, String.toList_append, List.append_assoc] at same
  exact intercalate_append_inj (by decide) opens delimits (List.cons.inj same).2

theorem pair_delimits {first : α → String} {second : β → String} (between : String) {a : α}
    {b : β} (firstDelimits : Delimits first a) (secondDelimits : Delimits second b) :
    Delimits (fun pair : α × β => first pair.1 ++ between ++ second pair.2) (a, b) := by
  rintro ⟨otherA, otherB⟩ s t same
  simp only [String.toList_append, List.append_assoc] at same
  obtain ⟨rfl, rest⟩ := firstDelimits _ _ _ same
  obtain ⟨rfl, rfl⟩ := secondDelimits _ _ _ (List.append_cancel_left rest)
  exact ⟨rfl, rfl⟩

theorem wrapped_delimits {form : α → String} (before after : String) {a : α}
    (delimits : Delimits form a) : Delimits (fun a => before ++ form a ++ after) a := by
  intro b s t same
  simp only [String.toList_append, List.append_assoc] at same
  obtain ⟨rfl, rest⟩ := delimits _ _ _ (List.append_cancel_left same)
  exact ⟨rfl, List.append_cancel_left rest⟩

theorem case_delimits {form : α → String} (name : String) {a : α} (delimits : Delimits form a) :
    Delimits (fun a => case name [form a]) a := by
  intro b s t same
  apply wrapped_delimits (name ++ "(") ")" delimits b s t
  simpa [case] using same

theorem mapping_delimits {form : α → String} {bindings : List (String × α)}
    (delimits : ∀ binding ∈ bindings, Delimits form binding.2) :
    Delimits (fun bindings : List (String × α) =>
      mapping (bindings.map (fun binding => (binding.1, form binding.2)))) bindings := by
  have opens (binding : String × α) (s t : List Char) :
      (quoted binding.1 ++ ": " ++ form binding.2).toList ++ s ≠ '\x7d' :: t := by
    simp [quoted]
  intro others s t same
  simp only [mapping, List.map_map, String.toList_append, List.append_assoc] at same
  exact intercalate_append_inj (by decide) opens
    (fun binding member => pair_delimits _ (quoted_delimits _) (delimits binding member))
    (List.cons.inj same).2

/-- A record of two fields whose names are fixed. -/
theorem record_delimits {first : α → String} {second : β → String} (name one two : String)
    {a : α} {b : β} (firstDelimits : Delimits first a) (secondDelimits : Delimits second b) :
    Delimits (fun pair : α × β => record name [(one, first pair.1), (two, second pair.2)])
      (a, b) := by
  have inner := wrapped_delimits (name ++ " \x7b " ++ (one ++ ": ")) " \x7d"
    (pair_delimits (", " ++ (two ++ ": ")) firstDelimits secondDelimits)
  rintro pair s t same
  apply inner
  simpa [record, String.toList_intercalate, List.intercalate_cons_cons] using same

end Text

theorem HistoryStore.tableText_delimits (table : Table String) :
    Text.Delimits tableText table := by
  intro other s t same
  obtain ⟨entries, rest⟩ := Text.mapping_delimits
    (fun entry _ => Text.quoted_delimits entry.2) other.entries s t same
  cases table
  cases other
  cases entries
  exact ⟨rfl, rest⟩

/-- Stores of history that look alike are the same. -/
theorem HistoryStore.text_injective : Function.Injective HistoryStore.text := by
  intro store other same
  have fields := Text.record_delimits "HistoryStore" "shallow" "deep"
    (tableText_delimits store.shallow) (tableText_delimits store.deep) (other.shallow, other.deep)
    [] [] (by rw [text, text] at same; simp only [same])
  cases store
  cases other
  cases fields.1
  rfl

theorem HistoryMode.text_delimits (mode : HistoryMode) : Text.Delimits HistoryMode.text mode := by
  intro other s t same
  cases mode <;> cases other
  · exact ⟨rfl, List.append_cancel_left same⟩
  · exact absurd (List.cons.inj same).1 (by decide)
  · exact absurd (List.cons.inj same).1 (by decide)
  · exact ⟨rfl, List.append_cancel_left same⟩

theorem HistoryTarget.text_delimits (target : HistoryTarget) :
    Text.Delimits HistoryTarget.text target := by
  intro other s t same
  obtain ⟨fields, rest⟩ := Text.record_delimits "HistoryTarget" "mode" "state"
    (HistoryMode.text_delimits target.mode) (Text.quoted_delimits target.state)
    (other.mode, other.state) s t same
  cases target
  cases other
  cases fields
  exact ⟨rfl, rest⟩

theorem Target.text_delimits (target : Target) : Text.Delimits Target.text target := by
  intro other s t same
  cases target with
  | state name =>
    cases other with
    | state otherName =>
      obtain ⟨rfl, rest⟩ :=
        Text.case_delimits "State" (Text.quoted_delimits name) otherName s t same
      exact ⟨rfl, rest⟩
    | history otherReference => simp [text, Text.case] at same
  | history reference =>
    cases other with
    | state otherName => simp [text, Text.case] at same
    | history otherReference =>
      obtain ⟨rfl, rest⟩ := Text.case_delimits "History" (HistoryTarget.text_delimits reference)
        otherReference s t same
      exact ⟨rfl, rest⟩

theorem StateNode.text_eq (node : StateNode) :
    node.text = Text.record "StateNode"
      [("name", Text.quoted node.name), ("children", Text.list (node.children.map text))] := by
  have forests (forest : List StateNode) : forestTexts forest = forest.map text := by
    induction forest with
    | nil => rfl
    | cons node rest ih => rw [forestTexts, ih, List.map_cons]
  cases node
  rw [text, forests]

mutual

theorem StateNode.text_delimits : (node : StateNode) → Text.Delimits StateNode.text node
  | ⟨name, children⟩ => by
    intro other s t same
    have opens (node : StateNode) (s t : List Char) : node.text.toList ++ s ≠ ']' :: t := by
      simp [text_eq, Text.record]
    rw [text_eq, text_eq] at same
    obtain ⟨fields, rest⟩ := Text.record_delimits "StateNode" "name" "children"
      (Text.quoted_delimits name)
      (Text.list_delimits opens (StateNode.forest_delimits children))
      (other.name, other.children) s t same
    cases other
    cases fields
    exact ⟨rfl, rest⟩

theorem StateNode.forest_delimits : (forest : List StateNode) →
    ∀ node ∈ forest, Text.Delimits StateNode.text node
  | [] => nofun
  | first :: rest => by
    intro node member
    rcases List.mem_cons.mp member with isFirst | further
    · rw [isFirst]
      exact StateNode.text_delimits first
    · exact StateNode.forest_delimits rest node further

end

/-- Trees that look alike are the same. -/
theorem StateNode.text_injective : Function.Injective StateNode.text :=
  Text.injective_of_delimits text_delimits

end Statechart
