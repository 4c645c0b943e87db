import ClawMessenger.Verified.Machine

/-!
# Milestones of a run

Something that does not hold where a run begins and holds where it ends came
true in one of its steps.  `Reach.milestone` cuts the run there: before the
step, the step, and the rest of the run, so that what the step did can be
carried to the end by an invariant of the rest.
-/

namespace ClawMessenger.Verified.Machine

variable {σ ι ο : Type*} {step : σ → ι → ο × σ} {allowed : Config σ ι ο → ι → Prop}

theorem Reach.milestone {P : Config σ ι ο → Prop} {a c : Config σ ι ο}
    (h : Reach step allowed a c) (ha : ¬ P a) (hc : P c) :
    ∃ d input, Reach step allowed a d ∧ allowed d input ∧ ¬ P d ∧ P (advance step d input) ∧
      Reach step allowed (advance step d input) c := by
  induction h with
  | refl => exact absurd hc ha
  | @tail b c hab hnext ih =>
    obtain ⟨input, hinput, rfl⟩ := hnext
    by_cases hb : P b
    · obtain ⟨d, input', had, hallowed, hd, hd', hdb⟩ := ih hb
      exact ⟨d, input', had, hallowed, hd, hd', hdb.tail input hinput⟩
    · exact ⟨b, input, hab, hinput, hb, hc, Reach.refl _⟩

end ClawMessenger.Verified.Machine
