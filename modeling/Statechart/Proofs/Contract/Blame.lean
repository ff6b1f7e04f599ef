import Mathlib.Data.List.Nodup
import Mathlib.Data.Sum.Basic
import Mathlib.Tactic.Tauto
import Statechart.Contract.Finding

set_option autoImplicit false

namespace Statechart

/-- There is one finding for each offender, and no other. -/
def BlamesEach {α : Type} (findings : List Finding) (offends : α → Prop) (blame : α → Finding) :
    Prop :=
  ∃ offenders : List α, offenders.Nodup ∧ (∀ offender, offender ∈ offenders ↔ offends offender) ∧
    findings = offenders.map blame

namespace BlamesEach

variable {α β : Type} {findings further : List Finding} {offends : α → Prop} {blame : α → Finding}

theorem of_filter {items : List α} (nodup : items.Nodup) (picked : α → Bool) (blame : α → Finding) :
    BlamesEach ((items.filter picked).map blame)
    (fun item => item ∈ items ∧ picked item = true) blame :=
  ⟨items.filter picked, nodup.filter _, fun _ => List.mem_filter, rfl⟩

/-- Offenders may go by another name, if no two of them have the same one. -/
theorem rename {others : β → Prop} {blameOther : β → Finding}
    (each : BlamesEach findings offends blame) (name : α → β)
    (apart : ∀ first second, offends first → offends second → name first = name second →
      first = second)
    (named : ∀ other, others other ↔ ∃ offender, offends offender ∧ name offender = other)
    (same : ∀ offender, offends offender → blameOther (name offender) = blame offender) :
    BlamesEach findings others blameOther := by
  obtain ⟨offenders, nodup, complete, rfl⟩ := each
  refine ⟨offenders.map name, ?_, ?_, ?_⟩
  · apply List.Nodup.map_on _ nodup
    intro first isFirst second isSecond
    exact apart first second ((complete first).mp isFirst) ((complete second).mp isSecond)
  · intro other
    rw [List.mem_map, named]
    exact exists_congr (fun offender => and_congr_left (fun _ => complete offender))
  · rw [List.map_map]
    exact List.map_congr_left (fun offender isOffender =>
      (same offender ((complete offender).mp isOffender)).symm)

theorem congr {others : α → Prop} {blameOther : α → Finding}
    (each : BlamesEach findings offends blame)
    (iff : ∀ offender, others offender ↔ offends offender)
    (same : ∀ offender, others offender → blameOther offender = blame offender) :
    BlamesEach findings others blameOther := by
  refine each.rename id (fun _ _ _ _ equal => equal) ?_
    (fun offender isOffender => same offender ((iff offender).mpr isOffender))
  intro other
  rw [iff]
  exact ⟨fun isOffender => ⟨other, isOffender, rfl⟩, fun ⟨_, isOffender, equal⟩ =>
    equal ▸ isOffender⟩

theorem append {others : α → Prop} (each : BlamesEach findings offends blame)
    (other : BlamesEach further others blame)
    (apart : ∀ offender, offends offender → ¬ others offender) :
    BlamesEach (findings ++ further)
    (fun offender => offends offender ∨ others offender) blame := by
  obtain ⟨offenders, nodup, complete, rfl⟩ := each
  obtain ⟨rest, restNodup, restComplete, rfl⟩ := other
  refine ⟨offenders ++ rest, ?_, ?_, List.map_append.symm⟩
  · apply nodup.append restNodup
    intro offender isFirst isOther
    exact apart offender ((complete offender).mp isFirst) ((restComplete offender).mp isOther)
  · intro offender
    rw [List.mem_append, complete, restComplete]

/-- Offenders that are looked for inside each item of a list go by the item and their name there. -/
theorem flatMap {items : List β} (nodup : items.Nodup) {found : β → List Finding}
    {offends : β → α → Prop} {blame : β → α → Finding}
    (each : ∀ item, BlamesEach (found item) (offends item) (blame item)) :
    BlamesEach (items.flatMap found) (fun pair : β × α => pair.1 ∈ items ∧ offends pair.1 pair.2)
      (fun pair => blame pair.1 pair.2) := by
  induction items with
  | nil => exact ⟨[], .nil, fun _ => by simp, rfl⟩
  | cons item rest ih =>
    obtain ⟨fresh, distinct⟩ := List.nodup_cons.mp nodup
    have here : BlamesEach (found item) (fun pair : β × α => pair.1 = item ∧ offends pair.1 pair.2)
        (fun pair => blame pair.1 pair.2) := by
      refine (each item).rename (fun inner => (item, inner))
        (fun _ _ _ _ same => (Prod.mk.inj same).2) ?_ (fun _ _ => rfl)
      rintro ⟨outer, inner⟩
      constructor
      · rintro ⟨rfl, isOffender⟩
        exact ⟨inner, isOffender, rfl⟩
      · rintro ⟨_, isOffender, same⟩
        cases same
        exact ⟨rfl, isOffender⟩
    rw [List.flatMap_cons]
    refine (here.append (ih distinct) ?_).congr ?_ (fun _ _ => rfl)
    · rintro ⟨outer, inner⟩ ⟨rfl, _⟩ ⟨listed, _⟩
      exact fresh listed
    · rintro ⟨outer, inner⟩
      rw [List.mem_cons, or_and_right]

theorem eq_nil (each : BlamesEach findings offends blame)
    (nobody : ∀ offender, ¬ offends offender) : findings = [] := by
  obtain ⟨offenders, _, complete, rfl⟩ := each
  rw [List.map_eq_nil_iff, List.eq_nil_iff_forall_not_mem]
  exact fun offender listed => nobody offender ((complete offender).mp listed)

theorem mem (each : BlamesEach findings offends blame) (offender : α)
    (isOffender : offends offender) : blame offender ∈ findings := by
  obtain ⟨offenders, _, complete, rfl⟩ := each
  exact List.mem_map_of_mem ((complete offender).mpr isOffender)

end BlamesEach

end Statechart
