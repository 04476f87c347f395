import EdnLint.Lint

/-!
# Failures inside a lint

Whatever a validator does, a lint ends with findings, and the validator is called in an
orderly way. To speak of its calls, a validator is made to keep a record of them
(`Validator.recording`). The record is of no consequence: a lint with it comes to the
same as a lint without it. So what is shown of the recorded calls holds of the calls to
any validator.

The validator is called by `Lint.consult` alone, in one of three ways
(`Lint.Consults`), and each of them ends with the issues being cleared.
-/

namespace EdnLint

/-- A call to a validator, with what it was given and how it ended. -/
inductive Call where
  | submit (d : Datum) (path : Text) (raised : Option Fault)
  | read (answer : Except Fault (List Issue))
  | clear

namespace Call

/-- The call did not return. -/
def HasRaised : Call → Prop
  | .submit _ _ raised => raised ≠ none
  | .read answer => ∀ issues, answer ≠ .ok issues
  | .clear => False

end Call

namespace Validator

variable {σ : Type}

/-- A validator that keeps its calls, the first one first. -/
def recording (v : Validator σ) : Validator (σ × List Call) where
  submit d path s :=
    let (after, log, raised) := v.submit d path s.1
    ((after, s.2 ++ [.submit d path raised]), log, raised)
  read s :=
    let (after, answer) := v.read s.1
    ((after, s.2 ++ [.read answer]), answer)
  clear s := (v.clear s.1, s.2 ++ [.clear])

end Validator

namespace Lint

variable {σ : Type}

/-- The calls that a document with the datum `d` leads to, and what comes of them.
Without a path there is nothing to be submitted, and only a submission that returns is
followed by a reading. -/
inductive Consults (uri : Text) (d : Datum) : List Call → Except Fault (List Issue) → Prop
  | unplaced {fault : Fault} : Uri.path uri = .error fault → Consults uri d [.clear] (.error fault)
  | stopped {path : Text} {fault : Fault} : Uri.path uri = .ok path →
      Consults uri d [.submit d path (some fault), .clear] (.error fault)
  | answered {path : Text} {answer : Except Fault (List Issue)} : Uri.path uri = .ok path →
      Consults uri d [.submit d path none, .read answer, .clear] answer

theorem Consults.error_of_hasRaised {uri : Text} {d : Datum} {calls : List Call}
    {result : Except Fault (List Issue)} (h : Consults uri d calls result)
    (hraised : ∃ call ∈ calls, call.HasRaised) : ∃ fault, result = .error fault := by
  cases h with
  | unplaced _ => exact ⟨_, rfl⟩
  | stopped _ => exact ⟨_, rfl⟩
  | answered _ =>
      cases result with
      | error fault => exact ⟨fault, rfl⟩
      | ok issues => simp [Call.HasRaised] at hraised

theorem consult_recording (v : Validator σ) (uri : Text) (d : Datum) (s : σ)
    (before : List Call) :
    ∃ calls, consult v.recording uri d (s, before) =
        (((consult v uri d s).1, before ++ calls), (consult v uri d s).2) ∧
      Consults uri d calls (consult v uri d s).2.2 := by
  cases hpath : Uri.path uri with
  | error fault =>
      refine ⟨[.clear], ?_, ?_⟩
      · simp [consult, hpath, Validator.recording]
      · simpa [consult, hpath] using .unplaced hpath
  | ok path =>
      rcases hsubmit : v.submit d path s with ⟨after, log, _ | fault⟩
      · refine ⟨[.submit d path none, .read (v.read after).2, .clear], ?_, ?_⟩
        · simp [consult, hpath, hsubmit, Validator.recording]
        · simpa [consult, hpath, hsubmit] using .answered hpath
      · refine ⟨[.submit d path (some fault), .clear], ?_, ?_⟩
        · simp [consult, hpath, hsubmit, Validator.recording]
        · simpa [consult, hpath, hsubmit] using .stopped hpath

/-- The calls of a cycle: none for a document that does not read. -/
inductive Conducts (text uri : Text) : List Call → Prop
  | unread : (∀ tree, parse text ≠ .ok tree) → Conducts text uri []
  | read {tree : Node} {calls : List Call} {result : Except Fault (List Issue)} :
      parse text = .ok tree → Consults uri tree.toDatum calls result → Conducts text uri calls

theorem cycle_recording (v : Validator σ) (text uri : Text) (s : σ) (before : List Call) :
    ∃ calls, cycle v.recording text uri (s, before) =
        (((cycle v text uri s).1, before ++ calls), (cycle v text uri s).2) ∧
      Conducts text uri calls ∧
      ((∃ call ∈ calls, call.HasRaised) → ∃ fault, (cycle v text uri s).2.2 = .error fault) := by
  cases hp : parse text with
  | error e =>
      refine ⟨[], ?_, .unread (by simp [hp]), by simp⟩
      cases e <;> simp [cycle, hp]
  | ok tree =>
      obtain ⟨calls, hconsult, hcalls⟩ := consult_recording v uri tree.toDatum s before
      refine ⟨calls, ?_, .read hp hcalls, fun hraised => ?_⟩
      · simp only [cycle, hp, hconsult]
        rcases consult v uri tree.toDatum s with ⟨after, log, _ | issues⟩
        · rfl
        · rfl
      · obtain ⟨fault, hfault⟩ := hcalls.error_of_hasRaised hraised
        rcases hend : consult v uri tree.toDatum s with ⟨after, log, result⟩
        obtain rfl : result = .error fault := by rw [← hfault, hend]
        exact ⟨fault, by simp [cycle, hp, hend]⟩

/-- A lint contains every failure. It returns findings whatever the validator and the
sink do. A document that is left out has none, and neither the validator nor the sink is
called. Of any other document the findings go to the sink once, and they are the same
whether the sink fails or not. The validator is called as `Conducts` says, and if one of
the calls does not return, there are no findings. -/
theorem run_contained (v : Validator σ) (sink : Sink) (exclude : List Text) (text uri : Text)
    (s : σ) :
    let result := run v.recording sink exclude text uri (s, [])
    run v sink exclude text uri s =
        ⟨result.state.1, result.findings, result.published, result.log⟩ ∧
      (isExcluded exclude uri = true →
        result.findings = [] ∧ result.published = [] ∧ result.state = (s, [])) ∧
      (isExcluded exclude uri = false →
        result.published = (if sink = .absent then [] else [result.findings]) ∧
          Conducts text uri result.state.2) ∧
      ((∃ call ∈ result.state.2, call.HasRaised) → result.findings = []) ∧
      ∀ other, (run v.recording other exclude text uri (s, [])).findings = result.findings ∧
        (run v.recording other exclude text uri (s, [])).state = result.state := by
  intro result
  by_cases hexcluded : isExcluded exclude uri = true
  · simp [result, run, hexcluded]
  obtain ⟨calls, hcycle, hcalls, hraised⟩ := cycle_recording v text uri s []
  rw [List.nil_append] at hcycle
  have hstate : result.state.2 = calls := by simp [result, run, hexcluded, hcycle]
  refine ⟨?_, fun h => absurd h hexcluded, fun _ => ⟨?_, hstate ▸ hcalls⟩, fun h => ?_, ?_⟩
  · simp [result, run, hexcluded, hcycle]
  · simp [result, run, hexcluded]
  · obtain ⟨fault, hfault⟩ := hraised (hstate ▸ h)
    simp [result, run, hexcluded, hcycle, hfault]
  · intro other
    simp [result, run, hexcluded]

end Lint

end EdnLint
