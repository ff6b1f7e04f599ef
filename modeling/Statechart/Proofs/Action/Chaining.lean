import Statechart.Model
import Statechart.Proofs.Machine.Entry

set_option autoImplicit false

namespace Statechart

variable {M : Model}

namespace Action

variable {reducer : Reducer M}

section

variable (folds : Folds reducer)

include folds

/-- Of three actions it does not matter which two are chained first. -/
theorem andThen_assoc (first second third : Action M) :
    (first.andThen second reducer).andThen third reducer =
      first.andThen (second.andThen third reducer) reducer := by
  have names : first.name ++ "+" ++ second.name ++ "+" ++ third.name
      = first.name ++ "+" ++ (second.name ++ "+" ++ third.name) := by
    simp only [String.append_assoc]
  have runs : ((first.andThen second reducer).andThen third reducer).run
      = (first.andThen (second.andThen third reducer) reducer).run := by
    funext ext data settings
    simp only [andThen, bind, pure, Except.pure, Except.bind]
    cases first.run ext data settings with
    | error source => rfl
    | ok early =>
      dsimp only
      cases folded : reducer ext early.updates with
      | error source => rfl
      | ok between =>
        dsimp only
        cases second.run between data settings with
        | error source => rfl
        | ok middle =>
          -- The one nesting folds both lists in at once, the other goes on from the state between.
          have atOnce : reducer ext (early.updates ++ middle.updates) =
              reducer between middle.updates := by
            rw [folds, folded]
            rfl
          simp only [atOnce]
          cases reducer between middle.updates with
          | error source => rfl
          | ok next =>
            dsimp only
            cases third.run next data settings with
            | error source => rfl
            | ok late => simp only [List.append_assoc, mergeOutputs_assoc]
  exact (Action.mk.injEq ..).mpr ⟨names, runs⟩

/-- A chain behind an action is chained to it as a whole. -/
theorem chain_andThen (own next : Action M) (rest : List (Action M)) :
    (own.andThen next reducer).chain reducer rest =
      own.andThen (next.chain reducer rest) reducer := by
  induction rest generalizing next with
  | nil => rfl
  | cons further rest ih =>
    calc (own.andThen next reducer).chain reducer (further :: rest)
      _ = ((own.andThen next reducer).andThen further reducer).chain reducer rest := rfl
      _ = (own.andThen (next.andThen further reducer) reducer).chain reducer rest := by
        rw [andThen_assoc folds]
      _ = own.andThen ((next.andThen further reducer).chain reducer rest) reducer := ih _

end

theorem identity_andThen (nothing : ∀ ext, reducer ext [] = .ok ext) (action : Action M)
    (ext : M.Ext) (data : M.Data)
    (settings : Settings) : (identity.andThen action reducer).run ext data settings =
      action.run ext data settings := by
  simp only [andThen, identity, bind, pure, Except.pure, Except.bind, nothing]
  cases action.run ext data settings with
  | error source => rfl
  | ok result => simp only [List.nil_append, mergeOutputs_none_left]

/-- With nothing chained behind it an action only has its updates folded in for a trial. -/
theorem andThen_identity (reducer : Reducer M) (action : Action M) (ext : M.Ext) (data : M.Data)
    (settings : Settings) : (action.andThen identity reducer).run ext data settings
      = (action.run ext data settings).bind
        (fun result => (reducer ext result.updates).map (fun _ => result)) := by
  simp only [andThen, identity, bind, pure, Except.pure]
  cases action.run ext data settings with
  | error source => rfl
  | ok result =>
    simp only [Except.bind]
    cases reducer ext result.updates with
    | error source => rfl
    | ok next => simp only [Except.map, List.append_nil, mergeOutputs_none_right]

/-- So it is as it was exactly where the reducer accepts its updates. -/
theorem andThen_identity_iff (reducer : Reducer M) (action : Action M) (ext : M.Ext) (data : M.Data)
    (settings : Settings) :
    (action.andThen identity reducer).run ext data settings = action.run ext data settings ↔
      ∀ result, action.run ext data settings = .ok result →
      ∃ next, reducer ext result.updates = .ok next := by
  rw [andThen_identity]
  cases action.run ext data settings with
  | error source => exact iff_of_true rfl nofun
  | ok result =>
    simp only [Except.bind, Except.ok.injEq, forall_eq']
    cases reducer ext result.updates with
    | error source => exact iff_of_false nofun nofun
    | ok next => exact iff_of_true rfl ⟨next, rfl⟩

end Action

namespace Composition

/-- However an action is put together, it is the chain of its parts. -/
theorem action_eq_chain {reducer : Reducer M} (folds : Folds reducer)
    (composition : Composition M) :
    ∃ own rest, composition.parts = own :: rest ∧
    composition.action reducer = own.chain reducer rest := by
  induction composition with
  | single action => exact ⟨action, [], rfl, rfl⟩
  | chained first second firstIh secondIh =>
    obtain ⟨own, rest, parts, same⟩ := firstIh
    obtain ⟨next, further, nextParts, nextSame⟩ := secondIh
    refine ⟨own, rest ++ next :: further, ?_, ?_⟩
    · rw [Composition.parts, parts, nextParts, List.cons_append]
    · calc (chained first second).action reducer
        _ = (own.chain reducer rest).andThen (next.chain reducer further) reducer := by
          rw [action, same, nextSame]
        _ = ((own.chain reducer rest).andThen next reducer).chain reducer further :=
          (Action.chain_andThen folds _ _ _).symm
        _ = own.chain reducer (rest ++ next :: further) := by
          simp only [Action.chain, List.foldl_append, List.foldl_cons]

end Composition

namespace Action

/-- With a reducer that acts as a fold, and lets no updates count for nothing, chaining is
associative, name included; the identity in front of an action is not noticed, and behind it
exactly where the reducer accepts its updates. So of any nesting only the parts and their order
are left. -/
theorem andThen_monoid (reducer : Reducer M) (nothing : ∀ ext, reducer ext [] = .ok ext)
    (folds : Folds reducer) : (∀ first second third : Action M,
      (first.andThen second reducer).andThen third reducer =
        first.andThen (second.andThen third reducer) reducer) ∧
    (∀ (action : Action M) ext data settings,
      (identity.andThen action reducer).run ext data settings = action.run ext data settings) ∧
    (∀ (action : Action M) ext data settings,
      (action.andThen identity reducer).run ext data settings = action.run ext data settings ↔
        ∀ result, action.run ext data settings = .ok result →
        ∃ next, reducer ext result.updates = .ok next) ∧
    ∀ composition other : Composition M, composition.parts = other.parts →
      composition.action reducer = other.action reducer := by
  refine ⟨andThen_assoc folds, identity_andThen nothing, andThen_identity_iff reducer, ?_⟩
  intro composition other same
  obtain ⟨own, rest, parts, chained⟩ := composition.action_eq_chain folds
  obtain ⟨otherOwn, otherRest, otherParts, otherChained⟩ := other.action_eq_chain folds
  cases parts.symm.trans (same.trans otherParts)
  rw [chained, otherChained]

end Action

namespace Player

/-- Adds up as the player does, but gets stuck at an update that adds nothing. -/
def strict : Reducer model :=
  fun (ext : Nat) (updates : List Nat) => if 0 ∈ updates then .error "stuck"
    else .ok (updates.foldl Nat.add ext)

def jam : Action model where
  name := "jam"
  run _ _ _ := .ok ⟨[(0 : Nat)], none⟩

theorem strict_folds : Folds strict := by
  have split (ext : Nat) (first second : List Nat) :
      (if 0 ∈ first ++ second then .error "stuck"
        else .ok ((first ++ second).foldl Nat.add ext) : Callback Nat)
        = (if 0 ∈ first then .error "stuck" else .ok (first.foldl Nat.add ext) : Callback Nat).bind
          (fun between =>
            if 0 ∈ second then .error "stuck" else .ok (second.foldl Nat.add between)) := by
    by_cases sticks : 0 ∈ first
    · rw [if_pos sticks, if_pos (List.mem_append_left second sticks)]
      rfl
    · rw [if_neg sticks, List.foldl_append]
      simp only [List.mem_append, sticks, false_or]
      rfl
  exact split

end Player

namespace Action

/-- However it is nested, a chain with the jam in it gets stuck, unless the jam comes last. -/
theorem jam_andThen_regrouped :
    ((Player.speedUp.andThen Player.jam Player.strict).andThen Player.echo Player.strict
        = Player.speedUp.andThen (Player.jam.andThen Player.echo Player.strict) Player.strict ∧
      (Player.speedUp.andThen (Player.jam.andThen Player.echo Player.strict) Player.strict).run
        (0 : Nat) (0 : Nat) {} = .error "stuck") ∧
    (identity.andThen Player.jam Player.strict).run (0 : Nat) (0 : Nat)
    {} = Player.jam.run (0 : Nat) (0 : Nat) {} ∧
    (Player.jam.andThen identity Player.strict).run (0 : Nat) (0 : Nat)
    {} ≠ Player.jam.run (0 : Nat) (0 : Nat) {} ∧
    (Player.echo.andThen identity Player.strict).run (3 : Nat) (0 : Nat)
    {} = Player.echo.run (3 : Nat) (0 : Nat) {} := by
  obtain ⟨assoc, first, last, _⟩ := andThen_monoid Player.strict (fun _ => rfl) Player.strict_folds
  refine ⟨⟨assoc _ _ _, rfl⟩, first _ _ _ _, ?_, (last _ _ _ _).mpr ?_⟩
  · intro unnoticed
    obtain ⟨next, accepted⟩ := (last _ _ _ _).mp unnoticed _ rfl
    cases accepted
  · intro result ran
    cases ran
    exact ⟨(6 : Nat), rfl⟩

end Action

end Statechart
