import Mathlib

/-!
# Runs of a deterministic machine

A component is a function `step : σ → ι → ο × σ`: in a state, an input gives
an answer and the next state.  A `Config` is a state together with everything
asked and answered so far.  What the environment may do is a predicate on the
configuration and the next input, so that clocks, fresh names and conditions
on a step are all stated in one place.

`Reach` is the reflexive-transitive closure of allowed steps.  `Reach.invariant`
is the induction every safety result uses, `Reach.rel` its two-state form, and
`reach_exec` turns a concrete list of inputs into a run.
-/

namespace ClawMessenger.Verified

open List

/-- A state with the inputs taken and the answers given so far. -/
structure Config (σ ι ο : Type*) where
  past : List (ι × ο)
  state : σ

namespace Machine

variable {σ ι ο : Type*}

def start (s : σ) : Config σ ι ο := ⟨[], s⟩

@[simp] theorem start_past (s : σ) : (start s : Config σ ι ο).past = [] := rfl

@[simp] theorem start_state (s : σ) : (start s : Config σ ι ο).state = s := rfl

/-- Take one input. -/
def advance (step : σ → ι → ο × σ) (c : Config σ ι ο) (input : ι) : Config σ ι ο :=
  ⟨c.past ++ [(input, (step c.state input).1)], (step c.state input).2⟩

@[simp] theorem advance_past (step : σ → ι → ο × σ) (c : Config σ ι ο) (input : ι) :
    (advance step c input).past = c.past ++ [(input, (step c.state input).1)] := rfl

@[simp] theorem advance_state (step : σ → ι → ο × σ) (c : Config σ ι ο) (input : ι) :
    (advance step c input).state = (step c.state input).2 := rfl

/-- One step the environment allows. -/
def Next (step : σ → ι → ο × σ) (allowed : Config σ ι ο → ι → Prop)
    (c c' : Config σ ι ο) : Prop :=
  ∃ input, allowed c input ∧ c' = advance step c input

/-- Any number of allowed steps. -/
def Reach (step : σ → ι → ο × σ) (allowed : Config σ ι ο → ι → Prop) :
    Config σ ι ο → Config σ ι ο → Prop :=
  Relation.ReflTransGen (Next step allowed)

variable {step : σ → ι → ο × σ} {allowed : Config σ ι ο → ι → Prop}

theorem Reach.refl (c : Config σ ι ο) : Reach step allowed c c := Relation.ReflTransGen.refl

variable {c c' : Config σ ι ο}

theorem Reach.trans {a b : Config σ ι ο} (hab : Reach step allowed a b)
    (hbc : Reach step allowed b c) : Reach step allowed a c :=
  Relation.ReflTransGen.trans hab hbc

theorem Reach.tail {a : Config σ ι ο} (h : Reach step allowed a c) (input : ι)
    (hinput : allowed c input) : Reach step allowed a (advance step c input) :=
  Relation.ReflTransGen.tail h ⟨input, hinput, rfl⟩

variable {I : Config σ ι ο → Prop}

/-- What holds at the start and is kept by every allowed step holds in every
configuration reached. -/
theorem Reach.invariant (hstep : ∀ d input, allowed d input → I d → I (advance step d input))
    (h : Reach step allowed c c') (hc : I c) : I c' := by
  induction h with
  | refl => exact hc
  | tail _ hnext ih =>
    obtain ⟨input, hinput, rfl⟩ := hnext
    exact hstep _ input hinput ih

/-- The same for a relation between the two ends of a run: reflexive,
transitive and kept by each allowed step from a configuration satisfying `I`. -/
theorem Reach.rel {R : Config σ ι ο → Config σ ι ο → Prop} (hrefl : ∀ d, R d d)
    (htrans : ∀ d e f, R d e → R e f → R d f)
    (hinv : ∀ d input, allowed d input → I d → I (advance step d input))
    (hstep : ∀ d input, allowed d input → I d → R d (advance step d input))
    (h : Reach step allowed c c') (hc : I c) : R c c' := by
  induction h with
  | refl => exact hrefl c
  | @tail b d hcb hnext ih =>
    have hb : I b := Reach.invariant hinv hcb hc
    obtain ⟨input, hinput, rfl⟩ := hnext
    exact htrans _ _ _ ih (hstep b input hinput hb)

theorem Reach.mono {allowed' : Config σ ι ο → ι → Prop}
    (hsub : ∀ d input, allowed d input → allowed' d input) (h : Reach step allowed c c') :
    Reach step allowed' c c' := by
  induction h with
  | refl => exact Reach.refl c
  | tail _ hnext ih =>
    obtain ⟨input, hinput, rfl⟩ := hnext
    exact Reach.tail ih input (hsub _ _ hinput)

/-- Every configuration on the way has its past as a prefix of the final one. -/
theorem Reach.past_prefix (h : Reach step allowed c c') :
    c.past <+: c'.past := by
  induction h with
  | refl => exact prefix_rfl
  | tail _ hnext ih =>
    obtain ⟨input, _, rfl⟩ := hnext
    exact ih.trans (prefix_append _ _)

/-- Each entry of the history was written by an allowed step, from a
configuration whose history is what stands before the entry. -/
theorem Reach.before {s : σ} (h : Reach step allowed (start s) c) {k : Nat} {e : ι × ο}
    (he : c.past[k]? = some e) :
    ∃ d : Config σ ι ο, Reach step allowed (start s) d ∧ d.past = c.past.take k ∧
      allowed d e.1 ∧ e.2 = (step d.state e.1).1 := by
  induction h with
  | refl => simp at he
  | @tail b d hb hnext ih =>
    obtain ⟨input, hinput, rfl⟩ := hnext
    rw [advance_past] at he ⊢
    by_cases hk : k < b.past.length
    · rw [List.getElem?_append_left hk] at he
      obtain ⟨d, hd, hpast, hrest⟩ := ih he
      refine ⟨d, hd, ?_, hrest⟩
      rw [hpast, List.take_append_of_le_length (Nat.le_of_lt hk)]
    · have hlen : k = b.past.length := by
        have hlt := (List.getElem?_eq_some_iff.mp he).1
        rw [List.length_append, List.length_singleton] at hlt
        omega
      subst hlen
      rw [List.getElem?_concat_length, Option.some.injEq] at he
      subst he
      refine ⟨b, hb, ?_, hinput, rfl⟩
      rw [List.take_left']
      rfl

/-- Where an allowed step always lowers a well-founded rank until the end, the
end is within reach. -/
theorem exists_reach {α : Type*} [Preorder α] [WellFoundedLT α] (rank : Config σ ι ο → α)
    {Done : Config σ ι ο → Prop}
    (hmove : ∀ d, I d → ¬ Done d → ∃ input, allowed d input ∧ I (advance step d input) ∧ rank (advance step d input) < rank d)
    (c : Config σ ι ο) (hc : I c) : ∃ c', Reach step allowed c c' ∧ Done c' := by
  induction hrank : rank c using WellFoundedLT.induction generalizing c with
  | ind r ih =>
    by_cases hdone : Done c
    · exact ⟨c, Reach.refl c, hdone⟩
    · obtain ⟨input, hallowed, hkept, hlt⟩ := hmove c hc hdone
      obtain ⟨c', hreach, hend⟩ := ih _ (hrank ▸ hlt) _ hkept rfl
      exact ⟨c', Reach.trans (Reach.tail (Reach.refl c) input hallowed) hreach, hend⟩

/-! ## Concrete runs -/

def exec (step : σ → ι → ο × σ) (c : Config σ ι ο) (inputs : List ι) : Config σ ι ο :=
  inputs.foldl (advance step) c

@[simp] theorem exec_nil (c : Config σ ι ο) : exec step c [] = c := rfl

@[simp] theorem exec_cons (c : Config σ ι ο) (input : ι) (rest : List ι) :
    exec step c (input :: rest) = exec step (advance step c input) rest := rfl

variable {inputs : List ι}

/-- Every input taken is in the history. -/
theorem mem_exec_past {input : ι} (h : input ∈ inputs ∨ ∃ e ∈ c.past, e.1 = input) :
    ∃ e ∈ (exec step c inputs).past, e.1 = input := by
  induction inputs generalizing c with
  | nil => exact h.resolve_left (not_mem_nil)
  | cons head rest ih =>
    refine ih ?_
    rcases h with h | ⟨e, he, heq⟩
    · rcases mem_cons.mp h with rfl | h
      · exact .inr ⟨_, mem_append_right _ (mem_singleton_self _), rfl⟩
      · exact .inl h
    · exact .inr ⟨e, mem_append_left _ he, heq⟩

/-- Every input of a list is allowed where it is taken. -/
def AllAllowed (step : σ → ι → ο × σ) (allowed : Config σ ι ο → ι → Prop)
    (c : Config σ ι ο) : List ι → Prop
  | [] => True
  | input :: rest => allowed c input ∧ AllAllowed step allowed (advance step c input) rest

theorem exec_append (c : Config σ ι ο) (inputs rest : List ι) :
    exec step c (inputs ++ rest) = exec step (exec step c inputs) rest :=
  foldl_append

theorem allAllowed_append {rest : List ι} :
    AllAllowed step allowed c (inputs ++ rest) ↔
      AllAllowed step allowed c inputs ∧ AllAllowed step allowed (exec step c inputs) rest := by
  induction inputs generalizing c with
  | nil => exact ⟨fun h => ⟨trivial, h⟩, And.right⟩
  | cons input inputs ih =>
    rw [cons_append, AllAllowed, AllAllowed, ih, and_assoc, exec_cons]

instance decidableAllAllowed [∀ c input, Decidable (allowed c input)] :
    (c : Config σ ι ο) → (inputs : List ι) → Decidable (AllAllowed step allowed c inputs)
  | _, [] => .isTrue trivial
  | c, input :: rest =>
    haveI := decidableAllAllowed (advance step c input) rest
    inferInstanceAs (Decidable (allowed c input ∧ AllAllowed step allowed _ rest))

/-- An environment that allows everything. -/
theorem allAllowed_of_forall (h : ∀ c input, allowed c input) (c : Config σ ι ο)
    (inputs : List ι) : AllAllowed step allowed c inputs := by
  induction inputs generalizing c with
  | nil => exact trivial
  | cons input rest ih => exact ⟨h c input, ih (advance step c input)⟩

theorem reach_exec (h : AllAllowed step allowed c inputs) :
    Reach step allowed c (exec step c inputs) := by
  induction inputs generalizing c with
  | nil => exact Reach.refl c
  | cons input rest ih =>
    exact Reach.trans (Reach.tail (Reach.refl c) input h.1) (ih h.2)

end Machine

end ClawMessenger.Verified
