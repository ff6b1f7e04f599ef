import Statechart.Proofs.Indices.Hierarchy
import Statechart.State.Node

set_option autoImplicit false

namespace Statechart.StateNode

namespace Rearranged

variable {states others : List StateNode}

theorem refl (states : List StateNode) : Rearranged states states := by
  have trees : ∀ node : StateNode, Rearranged node.children node.children := by
    intro node
    induction node using induct with
    | step node ih =>
      have forests : ∀ forest : List StateNode, (∀ child ∈ forest, child ∈ node.children) →
          Rearranged forest forest := by
        intro forest
        induction forest with
        | nil => exact fun _ => .nil
        | cons first rest further =>
          intro within
          have below := ih first (within first List.mem_cons_self)
          have beside := further (fun child member => within child (List.mem_cons_of_mem _ member))
          obtain ⟨name, inner⟩ := first
          exact .cons name below beside
      exact forests node.children (fun _ member => member)
  exact trees (root states)

theorem symm (rearranged : Rearranged states others) : Rearranged others states := by
  induction rearranged with
  | nil => exact .nil
  | cons name _ _ below beside => exact .cons name below beside
  | swap first second rest => exact .swap second first rest
  | trans _ _ onward further => exact .trans further onward

theorem length_eq (rearranged : Rearranged states others) : states.length = others.length := by
  induction rearranged with
  | nil => rfl
  | cons name _ _ below beside => rw [List.length_cons, List.length_cons, beside]
  | swap first second rest => rfl
  | trans _ _ onward further => exact onward.trans further

theorem names_perm (rearranged : Rearranged states others) (parent otherParent : StateNode)
    (path otherPath : List Nat) (position otherPosition : Nat) :
    ((forestPreOrderAt parent path position states).map (fun visit => visit.node.name)).Perm
      ((forestPreOrderAt otherParent otherPath otherPosition others).map
        (fun visit => visit.node.name)) := by
  induction rearranged generalizing parent otherParent path otherPath position otherPosition with
  | nil => exact .nil
  | cons name _ _ below beside =>
    simp only [forestPreOrderAt, List.map_append, preOrderAt_eq, List.map_cons]
    exact ((below _ _ _ _ _ _).cons name).append (beside _ _ _ _ _ _)
  | swap first second rest =>
    simp only [forestPreOrderAt, List.map_append]
    rw [names_preOrderAt first (some parent) (some otherParent) _
      (otherPath ++ [otherPosition + 1]),
      names_preOrderAt second (some parent) (some otherParent) _ (otherPath ++ [otherPosition]),
      names_forestPreOrderAt rest parent otherParent path otherPath _ (otherPosition + 1 + 1),
      ← List.append_assoc, ← List.append_assoc]
    exact List.perm_append_comm.append_right _
  | trans _ _ onward further =>
    exact (onward _ parent _ path _ position).trans (further _ _ _ _ _ _)

theorem distinctNames (rearranged : Rearranged states others) (distinct : DistinctNames states) :
    DistinctNames others := by
  rw [DistinctNames, Hierarchy.preOrder_root, List.map_cons] at distinct ⊢
  exact ((rearranged.names_perm _ _ _ _ _ _).cons rootName).nodup_iff.mp distinct

theorem exists_mem (rearranged : Rearranged states others) {node : StateNode}
    (member : node ∈ states) :
    ∃ other ∈ others, other.name = node.name ∧ Rearranged node.children other.children := by
  induction rearranged generalizing node with
  | nil => cases member
  | @cons name inner otherInner rest otherRest below beside _ ih =>
    rcases List.mem_cons.mp member with rfl | later
    · exact ⟨⟨name, otherInner⟩, List.mem_cons_self, rfl, below⟩
    · obtain ⟨other, otherMember, same⟩ := ih later
      exact ⟨other, List.mem_cons_of_mem _ otherMember, same⟩
  | swap first second rest =>
    exact ⟨node, (List.Perm.swap second first rest).mem_iff.mp member, rfl, refl node.children⟩
  | trans _ _ onward further =>
    obtain ⟨middle, middleMember, middleName, middleChildren⟩ := onward member
    obtain ⟨other, otherMember, otherName, otherChildren⟩ := further middleMember
    exact ⟨other, otherMember, otherName.trans middleName, middleChildren.trans otherChildren⟩

theorem exists_inside {node top other : StateNode}
    (rearranged : Rearranged top.children other.children) (inside : Inside node top) :
    ∃ counterpart, Inside counterpart other ∧ counterpart.name = node.name ∧
      Rearranged node.children counterpart.children := by
  induction inside with
  | child direct =>
    obtain ⟨counterpart, member, same⟩ := rearranged.exists_mem direct
    exact ⟨counterpart, .child member, same⟩
  | deeper direct _ ih =>
    obtain ⟨between, inside, _, children⟩ := ih rearranged
    obtain ⟨counterpart, member, same⟩ := children.exists_mem direct
    exact ⟨counterpart, .deeper member inside, same⟩

section

variable (rearranged : Rearranged states others)

include rearranged

theorem exists_counterpart {node : StateNode} (inside : Inside node (root states)) :
    ∃ counterpart, Inside counterpart (root others) ∧ counterpart.name = node.name ∧
      Rearranged node.children counterpart.children := by
  have children : Rearranged (root states).children (root others).children := rearranged
  exact children.exists_inside inside

theorem declared {name : String} (declared : Declared states name) : Declared others name := by
  obtain ⟨node, inside, rfl⟩ := declared
  obtain ⟨counterpart, placed, named, _⟩ := rearranged.exists_counterpart inside
  exact ⟨counterpart, placed, named⟩

theorem compound {name : String} (compound : DeclaredCompound states name) :
    DeclaredCompound others name := by
  obtain ⟨node, inside, rfl, nested⟩ := compound
  obtain ⟨counterpart, placed, named, children⟩ := rearranged.exists_counterpart inside
  refine ⟨counterpart, placed, named, ?_⟩
  intro childless
  have same := children.length_eq
  rw [childless, List.length_nil, List.length_eq_zero_iff] at same
  exact nested same

theorem encloses {outer inner : String} (encloses : Encloses states outer inner) :
    Encloses others outer inner := by
  obtain ⟨above, below, aboveInside, nested, rfl, rfl⟩ := encloses
  obtain ⟨outside, placed, outsideNamed, children⟩ := rearranged.exists_counterpart aboveInside
  obtain ⟨counterpart, within, named, _⟩ := children.exists_inside nested
  exact ⟨outside, counterpart, placed, within, outsideNamed, named⟩

theorem declared_iff (name : String) : Declared states name ↔ Declared others name :=
  ⟨rearranged.declared, rearranged.symm.declared⟩

theorem compound_iff (name : String) : DeclaredCompound states name ↔
    DeclaredCompound others name :=
  ⟨rearranged.compound, rearranged.symm.compound⟩

theorem encloses_iff (outer inner : String) :
    Encloses states outer inner ↔ Encloses others outer inner :=
  ⟨rearranged.encloses, rearranged.symm.encloses⟩

end

end Rearranged

end Statechart.StateNode
