import Mathlib

/-!
# Executions of a labelled transition relation

An execution is a chain of steps, and its trace lists each step's label together with the state the
step was taken in. What one step does to an invariant, or to a number, decides what a whole execution
does to it.

States and labels are arbitrary types.
-/

namespace MynaCard

variable {σ ℓ : Type}

/-- The steps of the trace, one after the other, lead from the first state to the last. -/
inductive Execution (step : σ → ℓ → σ → Prop) : σ → List (σ × ℓ) → σ → Prop
  | nil (s : σ) : Execution step s [] s
  | cons {s s' t : σ} {l : ℓ} {tr : List (σ × ℓ)} (h : step s l s') (hrest : Execution step s' tr t) :
      Execution step s ((s, l) :: tr) t

namespace Execution

variable {step : σ → ℓ → σ → Prop} {s t : σ} {tr : List (σ × ℓ)}

/-- An execution of two traces passes through a state between them. -/
theorem split {tr₁ tr₂ : List (σ × ℓ)} (h : Execution step s (tr₁ ++ tr₂) t) :
    ∃ m, Execution step s tr₁ m ∧ Execution step m tr₂ t := by
  induction tr₁ generalizing s with
  | nil => exact ⟨s, .nil s, h⟩
  | cons e tr₁ ih =>
    cases h with
    | cons hstep hrest =>
      obtain ⟨m, h₁, h₂⟩ := ih hrest
      exact ⟨m, .cons hstep h₁, h₂⟩

/-- Every entry of a trace is a step of the execution. -/
theorem step_of_mem (h : Execution step s tr t) {e : σ × ℓ} (he : e ∈ tr) :
    ∃ b, step e.1 e.2 b := by
  induction h with
  | nil s => cases he
  | cons hstep _ ih =>
    obtain rfl | he := List.mem_cons.mp he
    · exact ⟨_, hstep⟩
    · exact ih he

/-- An execution of other steps, of which those with the trace's labels are steps too. -/
theorem mono {step' : σ → ℓ → σ → Prop} (h : Execution step s tr t)
    (hstep : ∀ e ∈ tr, ∀ b, step e.1 e.2 b → step' e.1 e.2 b) : Execution step' s tr t := by
  induction h with
  | nil s => exact .nil s
  | cons hfirst _ ih =>
    exact .cons (hstep _ List.mem_cons_self _ hfirst)
      (ih fun e he => hstep e (List.mem_cons_of_mem _ he))

/-- What every step keeps holds at the end. A step may rely on what is known of the trace's
entries. -/
theorem invariant {I : σ → Prop} {P : σ × ℓ → Prop} (h : Execution step s tr t) (hs : I s)
    (hP : ∀ e ∈ tr, P e) (hkeep : ∀ a l b, I a → P (a, l) → step a l b → I b) : I t := by
  induction h with
  | nil s => exact hs
  | cons hstep _ ih =>
    exact ih (hkeep _ _ _ hs (hP _ List.mem_cons_self) hstep)
      fun e he => hP e (List.mem_cons_of_mem _ he)

/-- A number that each step of a kind lowers by one, as long as it is not zero, and that no other
step changes. -/
theorem count_down {M : σ → ℕ} {K : σ × ℓ → Bool} {I : σ → Prop} {P : σ × ℓ → Prop}
    (h : Execution step s tr t) (hs : I s) (hP : ∀ e ∈ tr, P e)
    (hkeep : ∀ a l b, I a → P (a, l) → step a l b →
      I b ∧ M b = M a - if K (a, l) then 1 else 0) :
    I t ∧ M t = M s - tr.countP K := by
  induction h with
  | nil s => exact ⟨hs, rfl⟩
  | @cons s s' t l tr hstep hrest ih =>
    obtain ⟨hI, hM⟩ := hkeep s l s' hs (hP _ List.mem_cons_self) hstep
    obtain ⟨hI', hM'⟩ := ih hI fun e he => hP e (List.mem_cons_of_mem _ he)
    refine ⟨hI', ?_⟩
    rw [hM', hM, List.countP_cons]
    split <;> omega

/-- What holds at the end held at the start and was kept throughout, or was brought about by one step
and kept since. -/
theorem since {I : σ → Prop} {brings keeps : σ × ℓ → Prop} (h : Execution step s tr t) (ht : I t)
    (hstep : ∀ a l b, step a l b → I b → brings (a, l) ∨ I a ∧ keeps (a, l)) :
    (I s ∧ ∀ e ∈ tr, keeps e) ∨
      ∃ tr₁ e tr₂, tr = tr₁ ++ e :: tr₂ ∧ brings e ∧ ∀ e' ∈ tr₂, keeps e' := by
  induction h with
  | nil s => exact .inl ⟨ht, fun e he => nomatch he⟩
  | @cons s s' t l tr hfirst hrest ih =>
    obtain ⟨hs', hkept⟩ | ⟨tr₁, e, tr₂, htr, hbrings, hkept⟩ := ih ht
    · obtain hbrings | ⟨hs, hkeeps⟩ := hstep s l s' hfirst hs'
      · exact .inr ⟨[], (s, l), tr, rfl, hbrings, hkept⟩
      · exact .inl ⟨hs, List.forall_mem_cons.mpr ⟨hkeeps, hkept⟩⟩
    · exact .inr ⟨(s, l) :: tr₁, e, tr₂, congrArg _ htr, hbrings, hkept⟩

end Execution

end MynaCard
