import MynaCard.Executions
import MynaCard.Guarded

/-!
# Lockouts

A guard in the states of a transition relation, to which some steps present a value. `Guards` asks
little of the steps: one that presents nothing leaves the guard alone, and one that presents a value
and is not let in leaves it as the presentation does. What becomes of the guard where somebody is let
in is open.

That is enough for a lockout. In an execution that presents wrong values only, each of them costs an
attempt; from where the attempts are used up the guard stays as it is.
-/

namespace MynaCard

variable {σ ℓ V : Type} {bound : ℕ}

/-- The steps guard a value: `presents` says what a step presents to it. -/
structure Guards [DecidableEq V] (step : σ → ℓ → σ → Prop) (guard : σ → Option (Guarded bound V))
    (presents : σ × ℓ → Option V) : Prop where
  leaves : ∀ a l b, step a l b → presents (a, l) = none → guard b = guard a
  refuses : ∀ a l b v g, step a l b → presents (a, l) = some v → guard a = some g →
    (g.present v).1 ≠ .accepted → guard b = some (g.present v).2

/-- The attempts left on the guard. -/
def attemptsLeft (guard : σ → Option (Guarded bound V)) (a : σ) : ℕ :=
  ((guard a).bind Guarded.left).getD 0

/-- The guard holds `value`, and its attempts are counted. -/
def Counts (guard : σ → Option (Guarded bound V)) (value : V) (a : σ) : Prop :=
  ∃ g, guard a = some g ∧ g.value = value ∧ g.left = some (attemptsLeft guard a)

theorem attemptsLeft_eq {guard : σ → Option (Guarded bound V)} {a : σ} {g : Guarded bound V} {n : ℕ}
    (hg : guard a = some g) (hleft : g.left = some n) : attemptsLeft guard a = n := by
  rw [attemptsLeft, hg, Option.bind_some, hleft, Option.getD_some]

namespace Guards

variable {step : σ → ℓ → σ → Prop} {guard : σ → Option (Guarded bound V)}
  {presents : σ × ℓ → Option V} [DecidableEq V]

/-- A step that presents a wrong value, or none. -/
theorem counts (h : Guards step guard presents) {a b : σ} {l : ℓ} {value : V} (hstep : step a l b)
    (ha : Counts guard value a) (hwrong : ∀ v, presents (a, l) = some v → v ≠ value) :
    Counts guard value b ∧
      attemptsLeft guard b = attemptsLeft guard a - if (presents (a, l)).isSome then 1 else 0 := by
  obtain ⟨g, hg, hvalue, hleft⟩ := ha
  cases hpresents : presents (a, l) with
  | none =>
    have hsame := h.leaves a l b hstep hpresents
    have hcount : attemptsLeft guard b = attemptsLeft guard a := by
      rw [attemptsLeft, hsame, attemptsLeft]
    exact ⟨⟨g, hsame.trans hg, hvalue, hcount ▸ hleft⟩, hcount⟩
  | some v =>
    have hne : v ≠ g.value := hvalue ▸ hwrong v hpresents
    have hrefused : (g.present v).1 ≠ .accepted := by
      intro haccepted
      exact hne ((g.present_accepted_iff v).mp haccepted).1
    have hnext := h.refuses a l b v g hstep hpresents hg hrefused
    have hspent := g.present_left_of_ne v hne hleft
    have hless := attemptsLeft_eq hnext hspent
    exact ⟨⟨_, hnext, by rw [g.present_value, hvalue], hless ▸ hspent⟩, hless⟩

/-- A step with no attempts left. -/
theorem used_up (h : Guards step guard presents) {a b : σ} {l : ℓ} {g : Guarded bound V}
    (hstep : step a l b) (hg : guard a = some g) (hleft : g.left = some 0) : guard b = some g := by
  cases hpresents : presents (a, l) with
  | none => exact (h.leaves a l b hstep hpresents).trans hg
  | some v =>
    have hblocked := g.present_of_used_up v hleft
    have hnext := h.refuses a l b v g hstep hpresents hg (by rw [hblocked]; simp)
    rw [hblocked] at hnext
    exact hnext

variable {s t : σ} {tr : List (σ × ℓ)} {g : Guarded bound V} {n : ℕ}

/-- An execution that presents nothing but wrong values. -/
theorem after_wrong (h : Guards step guard presents) (hrun : Execution step s tr t)
    (hg : guard s = some g) (hleft : g.left = some n)
    (hwrong : ∀ e ∈ tr, ∀ v, presents e = some v → v ≠ g.value) :
    ∃ g', guard t = some g' ∧ g'.value = g.value ∧
      g'.left = some (n - tr.countP fun e => (presents e).isSome) := by
  have hstart : attemptsLeft guard s = n := attemptsLeft_eq hg hleft
  obtain ⟨⟨g', hg', hvalue, hleft'⟩, hcount⟩ :=
    hrun.count_down (M := attemptsLeft guard) (I := Counts guard g.value)
      (K := fun e => (presents e).isSome)
      (P := fun e => ∀ v, presents e = some v → v ≠ g.value)
      ⟨g, hg, rfl, hstart.symm ▸ hleft⟩ hwrong
      fun a l b ha hl hstep => h.counts hstep ha hl
  refine ⟨g', hg', hvalue, ?_⟩
  rw [hleft', hcount, hstart]

/-- In an execution that begins with no attempts left the guard is always the same. -/
theorem stays_used_up (h : Guards step guard presents) (hrun : Execution step s tr t)
    (hg : guard s = some g) (hleft : g.left = some 0) :
    guard t = some g ∧ ∀ e ∈ tr, guard e.1 = some g := by
  induction hrun with
  | nil s => exact ⟨hg, fun e he => (by cases he)⟩
  | cons hstep _ ih =>
    obtain ⟨hlast, hall⟩ := ih (h.used_up hstep hg hleft)
    refine ⟨hlast, fun e he => ?_⟩
    obtain rfl | he := List.mem_cons.mp he
    · exact hg
    · exact hall e he

/-- **The guard locks.** At each wrong value of the execution as many attempts are left as there were,
less the wrong values before it; and once they are used up the guard stays as it is. -/
theorem lock (h : Guards step guard presents) {tr₁ tr₂ : List (σ × ℓ)}
    (hrun : Execution step s (tr₁ ++ tr₂) t) (hg : guard s = some g) (hleft : g.left = some n)
    (hwrong : ∀ e ∈ tr₁, ∀ v, presents e = some v → v ≠ g.value) :
    (∀ before e after, tr₁ = before ++ e :: after → ∃ g', guard e.1 = some g' ∧
      g'.value = g.value ∧ g'.left = some (n - before.countP fun e => (presents e).isSome)) ∧
    (n ≤ (tr₁.countP fun e => (presents e).isSome) →
      ∃ g', g'.value = g.value ∧ g'.left = some 0 ∧ guard t = some g' ∧
        ∀ e ∈ tr₂, guard e.1 = some g') := by
  obtain ⟨m, hrun₁, hrun₂⟩ := hrun.split
  refine ⟨?_, ?_⟩
  · intro before e after htr₁
    subst htr₁
    obtain ⟨m', hbefore, hafter⟩ := hrun₁.split
    obtain ⟨g', hg', hvalue, hleft'⟩ :=
      h.after_wrong hbefore hg hleft fun e he => hwrong e (List.mem_append_left _ he)
    cases hafter with
    | cons hstep hrest => exact ⟨g', hg', hvalue, hleft'⟩
  · intro hn
    obtain ⟨g', hg', hvalue, hleft'⟩ := h.after_wrong hrun₁ hg hleft hwrong
    rw [Nat.sub_eq_zero_of_le hn] at hleft'
    obtain ⟨hlast, hall⟩ := h.stays_used_up hrun₂ hg' hleft'
    exact ⟨g', hvalue, hleft', hlast, hall⟩

end Guards

end MynaCard
