import Mathlib.Order.WellFounded
import Statechart.Proofs.Contract.Offenders
import Statechart.Proofs.Machine.Safety
import Statechart.Transition.Calls

set_option autoImplicit false

namespace Statechart

variable {M : Model}

namespace TransitionDraft

open DraftCall

theorem ofCalls_concat (calls : List (DraftCall M)) (last : DraftCall M) :
    ofCalls (calls ++ [last]) = (ofCalls calls).call last := by
  simp only [ofCalls, List.foldl_append, List.foldl_cons, List.foldl_nil]

theorem last?_concat {α : Type} (given? : DraftCall M → Option α) (calls : List (DraftCall M))
    (last : DraftCall M) :
    last? given? (calls ++ [last]) = (given? last).or (last? given? calls) := by
  simp only [last?, List.filterMap_append, List.getLast?_append]
  cases given : given? last <;> simp [given]

theorem choices_concat (calls : List (DraftCall M)) (last : DraftCall M) :
    choices (calls ++ [last]) = choices calls ++ (guarded? last).toList := by
  simp only [choices, List.filterMap_append]
  cases given : guarded? last <;> simp [given]

/-- A draft has what is given last for each field, and all guarded targets. -/
theorem ofCalls_eq (calls : List (DraftCall M)) :
    ofCalls calls = ⟨last? origin? calls, last? event? calls, last? target? calls,
      last? action? calls, choices calls⟩ := by
  induction calls using List.reverseRecOn with
  | nil => rfl
  | append_singleton calls last ih =>
    rw [ofCalls_concat, ih]
    simp only [last?_concat, choices_concat]
    cases last <;> simp [call, origin?, event?, target?, action?, guarded?]

theorem mentions_iff {α : Type} {given? : DraftCall M → Option α} {field : DraftField}
    (about : ∀ call : DraftCall M, given? call ≠ none ↔ call.field = field)
    (calls : List (DraftCall M)) :
    Mentions calls field ↔ ∃ value, last? given? calls = some value := by
  rw [← Option.ne_none_iff_exists', last?, ne_eq, List.getLast?_eq_none_iff,
    List.filterMap_eq_nil_iff, Mentions]
  push Not
  exact exists_congr (fun call => and_congr_right (fun _ => (about call).symm))

theorem last?_eq_none {α : Type} {given? : DraftCall M → Option α} {field : DraftField}
    (about : ∀ call : DraftCall M, given? call ≠ none ↔ call.field = field)
    {calls : List (DraftCall M)}
    (unsaid : ¬ Mentions calls field) : last? given? calls = none := by
  rw [mentions_iff about, ← Option.ne_none_iff_exists'] at unsaid
  exact not_not.mp unsaid

theorem origin?_ne_none_iff (call : DraftCall M) : call.origin? ≠ none ↔ call.field = .origin := by
  cases call <;> simp [origin?, field]

theorem event?_ne_none_iff (call : DraftCall M) : call.event? ≠ none ↔ call.field = .event := by
  cases call <;> simp [event?, field]

theorem target?_ne_none_iff (call : DraftCall M) : call.target? ≠ none ↔ call.field = .target := by
  cases call <;> simp [target?, field]

theorem action?_ne_none_iff (call : DraftCall M) : call.action? ≠ none ↔ call.field = .action := by
  cases call <;> simp [action?, field]

theorem guarded?_ne_none_iff (call : DraftCall M) :
    call.guarded? ≠ none ↔ call.field = .guarded := by
  cases call <;> simp [guarded?, field]

theorem choices_ne_nil_iff (calls : List (DraftCall M)) :
    choices calls ≠ [] ↔ Mentions calls .guarded := by
  rw [mentions_iff guarded?_ne_none_iff, ← Option.ne_none_iff_exists', last?, ne_eq, ne_eq,
    List.getLast?_eq_none_iff, choices]

section

variable {calls : List (DraftCall M)}

theorem choices_eq_nil (unsaid : ¬ Mentions calls .guarded) : choices calls = [] := by
  rw [← choices_ne_nil_iff] at unsaid
  exact not_not.mp unsaid

/-- Calls say all that a row needs exactly if they describe one. -/
theorem complete_iff : Complete calls ↔ ∃ row, Describes calls row := by
  constructor
  · rintro ⟨origin, event, form⟩
    obtain ⟨_, leaves⟩ := (mentions_iff origin?_ne_none_iff calls).mp origin
    obtain ⟨_, on⟩ := (mentions_iff event?_ne_none_iff calls).mp event
    rcases form with ⟨target, unguarded⟩ | ⟨guarded, notPlain, actionless⟩
    · obtain ⟨_, leads⟩ := (mentions_iff target?_ne_none_iff calls).mp target
      exact ⟨_, .plain leaves on leads (choices_eq_nil unguarded)⟩
    · exact ⟨_, .choice leaves on ((choices_ne_nil_iff calls).mpr guarded) notPlain actionless⟩
  · rintro ⟨_, described⟩
    cases described with
    | plain leaves on leads unguarded =>
      refine ⟨(mentions_iff origin?_ne_none_iff calls).mpr ⟨_, leaves⟩,
        (mentions_iff event?_ne_none_iff calls).mpr ⟨_, on⟩,
        Or.inl ⟨(mentions_iff target?_ne_none_iff calls).mpr ⟨_, leads⟩, ?_⟩⟩
      rw [← choices_ne_nil_iff]
      exact not_not.mpr unguarded
    | choice leaves on guarded notPlain actionless =>
      exact ⟨(mentions_iff origin?_ne_none_iff calls).mpr ⟨_, leaves⟩,
        (mentions_iff event?_ne_none_iff calls).mpr ⟨_, on⟩,
        Or.inr ⟨(choices_ne_nil_iff calls).mp guarded, notPlain, actionless⟩⟩

/-- Where calls do not, there is an error that they warrant. -/
theorem exists_warrants_iff : (∃ error, Warrants calls error) ↔ ¬ Complete calls := by
  constructor
  · rintro ⟨error, warranted⟩ ⟨origin, event, form⟩
    cases error with
    | missingOrigin => exact warranted origin
    | missingEvent => exact warranted event
    | missingTarget =>
      exact form.elim (fun plain => warranted.1 plain.1) (fun choice => warranted.2 choice.1)
    | mixedForms _ =>
      obtain ⟨_, guarded, other⟩ := warranted
      rcases form with ⟨_, unguarded⟩ | ⟨_, notPlain, actionless⟩
      · exact unguarded guarded
      · exact other.elim notPlain actionless
  · intro incomplete
    by_contra unwarranted
    have refuted (error : DraftError) : ¬ Warrants calls error :=
      fun warranted => unwarranted ⟨error, warranted⟩
    have origin : Mentions calls .origin := not_not.mp (refuted .missingOrigin)
    have event : Mentions calls .event := not_not.mp (refuted .missingEvent)
    obtain ⟨state, leaves⟩ := (mentions_iff origin?_ne_none_iff calls).mp origin
    by_cases guarded : Mentions calls .guarded
    · have alone : ¬ (Mentions calls .target ∨ Mentions calls .action) := fun other =>
        refuted (.mixedForms state) ⟨leaves, guarded, other⟩
      exact incomplete ⟨origin, event, Or.inr ⟨guarded, not_or.mp alone⟩⟩
    · have target : Mentions calls .target := by
        by_contra notPlain
        exact refuted .missingTarget ⟨notPlain, guarded⟩
      exact incomplete ⟨origin, event, Or.inl ⟨target, guarded⟩⟩

theorem exists_failsWith_iff : (∃ error, FailsWith calls error) ↔ ¬ Complete calls := by
  rw [← exists_warrants_iff]
  constructor
  · rintro ⟨error, warranted, _⟩
    exact ⟨error, warranted⟩
  · intro warranted
    obtain ⟨error, isWarranted, least⟩ :=
      WellFounded.has_min (measure DraftError.rank).wf {error | Warrants calls error} warranted
    exact ⟨error, isWarranted, fun other otherWarranted =>
      Nat.le_of_not_lt (least other otherWarranted)⟩

theorem build_of_describes {row : Transition M} (described : Describes calls row) :
    (ofCalls calls).build = .ok row := by
  rw [ofCalls_eq]
  cases described with
  | plain leaves on leads unguarded =>
    rw [leaves, on, leads, unguarded]
    rfl
  | choice leaves on guarded notPlain actionless =>
    rw [leaves, on, last?_eq_none target?_ne_none_iff notPlain,
      last?_eq_none action?_ne_none_iff actionless]
    obtain ⟨first, rest, same⟩ := List.exists_cons_of_ne_nil guarded
    rw [same]
    rfl

theorem build_of_failsWith {error : DraftError} (fails : FailsWith calls error) :
    (ofCalls calls).build = .error error := by
  obtain ⟨warranted, least⟩ := fails
  rw [ofCalls_eq]
  have notBefore (other : DraftError) (before : other.rank < error.rank) : ¬ Warrants calls other :=
      fun otherWarranted =>
    absurd (least other otherWarranted) (Nat.not_le_of_lt before)
  have given (after : 1 < error.rank) :
      (∃ origin, last? origin? calls = some origin) ∧ ∃ event, last? event? calls = some event := by
    refine ⟨(mentions_iff origin?_ne_none_iff calls).mp ?_,
      (mentions_iff event?_ne_none_iff calls).mp ?_⟩
    · exact not_not.mp (notBefore .missingOrigin (Nat.zero_lt_of_lt after))
    · exact not_not.mp (notBefore .missingEvent after)
  cases error with
  | missingOrigin =>
    rw [last?_eq_none origin?_ne_none_iff warranted]
    rfl
  | missingEvent =>
    have origin : Mentions calls .origin := not_not.mp (notBefore .missingOrigin Nat.zero_lt_one)
    obtain ⟨_, leaves⟩ := (mentions_iff origin?_ne_none_iff calls).mp origin
    rw [leaves, last?_eq_none event?_ne_none_iff warranted]
    rfl
  | mixedForms origin =>
    obtain ⟨leaves, guarded, other⟩ := warranted
    obtain ⟨_, _, on⟩ := given Nat.one_lt_two
    obtain ⟨first, rest, same⟩ :=
      List.exists_cons_of_ne_nil ((choices_ne_nil_iff calls).mpr guarded)
    rw [leaves, on, same]
    cases leads : last? target? calls with
    | some _ => rfl
    | none =>
      have action : Mentions calls .action := other.resolve_left (fun target => by
        obtain ⟨_, given⟩ := (mentions_iff target?_ne_none_iff calls).mp target
        cases leads.symm.trans given)
      obtain ⟨_, does⟩ := (mentions_iff action?_ne_none_iff calls).mp action
      rw [does]
      rfl
  | missingTarget =>
    obtain ⟨⟨_, leaves⟩, _, on⟩ := given (by decide)
    rw [leaves, on, last?_eq_none target?_ne_none_iff warranted.1, choices_eq_nil warranted.2]
    rfl

theorem build_eq_ok_iff (row : Transition M) :
    (ofCalls calls).build = .ok row ↔ Describes calls row := by
  constructor
  · intro built
    by_cases complete : Complete calls
    · obtain ⟨other, described⟩ := complete_iff.mp complete
      cases built.symm.trans (build_of_describes described)
      exact described
    · obtain ⟨error, fails⟩ := exists_failsWith_iff.mpr complete
      cases built.symm.trans (build_of_failsWith fails)
  · exact build_of_describes

theorem build_eq_error_iff (error : DraftError) :
    (ofCalls calls).build = .error error ↔ FailsWith calls error := by
  constructor
  · intro failed
    by_cases complete : Complete calls
    · obtain ⟨row, described⟩ := complete_iff.mp complete
      cases failed.symm.trans (build_of_describes described)
    · obtain ⟨other, fails⟩ := exists_failsWith_iff.mpr complete
      cases failed.symm.trans (build_of_failsWith fails)
      exact fails
  · exact build_of_failsWith

/-- No row that calls describe has its targets in both forms, or none. -/
theorem Describes.not_misshapen {row : Transition M} (described : Describes calls row) :
    ¬ row.Misshapen := by
  cases described with
  | plain _ _ _ _ =>
    rintro (none | ⟨several, _⟩)
    · cases none
    · exact absurd several (Nat.lt_irrefl 1)
  | choice _ _ nonempty _ _ =>
    rintro (none | ⟨_, guarded, listed, unguarded⟩)
    · exact nonempty none
    · obtain ⟨call, _, given⟩ := List.mem_filterMap.mp listed
      cases call <;> cases given
      cases unguarded

end

/-- The calls about one field tell all that is given for it. -/
theorem filterMap_of_sameByField {α : Type} {given? : DraftCall M → Option α} {field : DraftField}
    (about : ∀ call : DraftCall M, given? call ≠ none ↔ call.field = field)
    {calls others : List (DraftCall M)}
    (same : SameByField calls others) : calls.filterMap given? = others.filterMap given? := by
  have kept (calls : List (DraftCall M)) :
      (calls.filter (fun call => call.field = field)).filterMap given? =
        calls.filterMap given? := by
    rw [List.filterMap_filter]
    apply List.filterMap_congr
    intro call _
    by_cases here : call.field = field
    · simp [here]
    · simp [here, not_not.mp (mt (about call).mp here)]
  rw [← kept calls, same field, kept others]

/-- So drafts do not see how calls about different fields are interleaved. -/
theorem ofCalls_of_sameByField {calls others : List (DraftCall M)}
    (same : SameByField calls others) : ofCalls calls = ofCalls others := by
  rw [ofCalls_eq, ofCalls_eq]
  simp only [last?, choices, filterMap_of_sameByField origin?_ne_none_iff same,
    filterMap_of_sameByField event?_ne_none_iff same,
    filterMap_of_sameByField target?_ne_none_iff same,
    filterMap_of_sameByField action?_ne_none_iff same,
    filterMap_of_sameByField guarded?_ne_none_iff same]

/-- However a draft was filled in, it is built exactly if its calls say all that a row needs,
into the row that they describe; otherwise it fails with the first error that they warrant. No
row that is built is misshapen, so the rule on shapes finds nothing wrong with a definition that
has no others. How calls about different fields are interleaved makes no difference. -/
theorem build_follows_calls :
    (∀ calls : List (DraftCall M),
      ((∃ row, (ofCalls calls).build = .ok row) ↔ Complete calls) ∧
      (∀ row, (ofCalls calls).build = .ok row ↔ Describes calls row) ∧
      (∀ error, (ofCalls calls).build = .error error ↔ FailsWith calls error) ∧
      ∀ row, (ofCalls calls).build = .ok row → ¬ row.Misshapen) ∧
    (∀ (definition : MachineDefinition M) (settings : Settings),
      (∀ row ∈ definition.transitions, ∃ calls, (ofCalls calls).build = .ok row) →
        (definition.context settings).transitionShape = []) ∧
    ∀ calls others : List (DraftCall M), SameByField calls others →
    (ofCalls calls).build = (ofCalls others).build := by
  refine ⟨?_, ?_, fun calls others same => by rw [ofCalls_of_sameByField same]⟩
  · intro calls
    refine ⟨?_, build_eq_ok_iff, build_eq_error_iff, fun row built =>
      ((build_eq_ok_iff row).mp built).not_misshapen⟩
    simp only [build_eq_ok_iff, complete_iff]
  · intro definition settings built
    refine (definition.transitionShape_blames settings).eq_nil ?_
    rintro item ⟨listed, misshapen⟩
    have isBuilt : ∃ calls, (ofCalls calls).build = .ok item.1 := by
      rcases MachineDefinition.mem_rows (List.mem_of_getElem? listed) with given | ⟨state, start⟩
      · exact built item.1 given
      -- The row into the initial state could have been built as well.
      · exact ⟨[.origin rootName, .event initEvent, .target (.state state)], by rw [start]; rfl⟩
    obtain ⟨calls, isBuilt⟩ := isBuilt
    exact ((build_eq_ok_iff item.1).mp isBuilt).not_misshapen misshapen

end TransitionDraft

namespace Player

/-- How the row that speeds up was told, with a few second thoughts. -/
def scattered : List (DraftCall model) :=
  [.target (.state "On"), .origin "Off", .automatic, .action speedUp, .target (.state "Fast"),
    .event "speed", .origin "Slow"]

def tidy : List (DraftCall model) :=
  [.origin "Off", .origin "Slow", .automatic, .event "speed", .target (.state "On"),
    .target (.state "Fast"), .action speedUp]

end Player

namespace TransitionDraft

theorem scattered_built :
    (ofCalls Player.scattered).build =
      .ok (.onEvent "Slow" "speed" (.state "Fast") Player.speedUp) ∧
      (ofCalls Player.scattered).build = (ofCalls Player.tidy).build ∧
        (({ Player.definition with
          transitions := [.onEvent "Slow" "speed" (.state "Fast") Player.speedUp] }).context
              {}).transitionShape = [] := by
  obtain ⟨outcome, shape, interleaved⟩ := build_follows_calls (M := Player.model)
  obtain ⟨_, row, _, _⟩ := outcome Player.scattered
  have built := (row (.onEvent "Slow" "speed" (.state "Fast") Player.speedUp)).mpr
    (.plain rfl rfl rfl rfl)
  refine ⟨built, interleaved _ _ ?_, shape _ _ ?_⟩
  · intro field
    cases field <;> rfl
  · intro row listed
    cases List.mem_singleton.mp listed
    exact ⟨_, built⟩

end TransitionDraft

end Statechart
