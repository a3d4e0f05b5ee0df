import Mathlib

/-!
# Secrets guarded by a retry counter

A value that is presented to be let in. Each wrong presentation lowers the counter, a right one sets
it back, and once it is at zero every presentation is turned away, the right one included. A guard
may also have no counter.

The bound is the most a counter can be set to. Values are of any type with decidable equality.
-/

namespace MynaCard

/-- A retry counter. -/
structure Counter (bound : ℕ) where
  limit : ℕ
  left : ℕ
  left_le : left ≤ limit
  limit_le : limit ≤ bound
  deriving DecidableEq

namespace Counter

variable {bound : ℕ} (c : Counter bound)

/-- The counter after a wrong presentation. -/
def spend : Counter bound :=
  { c with left := c.left - 1, left_le := (Nat.sub_le _ _).trans c.left_le }

/-- The counter after a right one. -/
def reset : Counter bound := { c with left := c.limit, left_le := le_rfl }

theorem left_le_bound : c.left ≤ bound := c.left_le.trans c.limit_le

end Counter

/-- A secret, with its counter if it has one. -/
structure Guarded (bound : ℕ) (V : Type) where
  value : V
  counter : Option (Counter bound)
  deriving DecidableEq

/-- What becomes of a presentation. -/
inductive Verdict
  | accepted
  /-- wrong, with so many attempts left if they are counted -/
  | refused (left : Option ℕ)
  | blocked
  deriving DecidableEq

namespace Guarded

variable {bound : ℕ} {V : Type} (g : Guarded bound V) (v : V)

/-- Put another value in its place. -/
def replace : Guarded bound V := { g with value := v }

/-- The attempts left, if they are counted. -/
def left : Option ℕ := g.counter.map Counter.left

@[simp] theorem replace_value : (g.replace v).value = v := rfl

@[simp] theorem replace_left : (g.replace v).left = g.left := rfl

variable [DecidableEq V]

/-- Present `v`. -/
def present : Verdict × Guarded bound V :=
  match g.counter with
  | none => (if v = g.value then .accepted else .refused none, g)
  | some c =>
    if c.left = 0 then (.blocked, g)
    else if v = g.value then (.accepted, { g with counter := some c.reset })
    else (.refused (some c.spend.left), { g with counter := some c.spend })

@[simp] theorem present_value : (g.present v).2.value = g.value := by
  unfold present
  cases g.counter with
  | none => rfl
  | some c =>
    dsimp only
    split_ifs <;> rfl

/-- The right value is let in unless the counter is used up. -/
theorem present_accepted_iff :
    (g.present v).1 = .accepted ↔ v = g.value ∧ g.left ≠ some 0 := by
  unfold present left
  cases g.counter with
  | none =>
    dsimp only
    split_ifs with h <;> simp [h]
  | some c =>
    dsimp only
    by_cases hzero : c.left = 0
    · simp [hzero]
    · by_cases h : v = g.value <;> simp [hzero, h]

/-- A wrong value costs an attempt. -/
theorem present_left_of_ne {n : ℕ} (hne : v ≠ g.value) (hleft : g.left = some n) :
    (g.present v).2.left = some (n - 1) := by
  obtain ⟨c, hc, rfl⟩ := Option.map_eq_some_iff.mp hleft
  rw [present, hc]
  dsimp only
  rw [if_neg hne]
  split_ifs with hzero
  · rw [left, hc, Option.map_some, hzero]
  · rfl

/-- What a wrong value is told. -/
theorem present_verdict_of_ne {n : ℕ} (hne : v ≠ g.value) (hleft : g.left = some n) :
    (g.present v).1 = if n = 0 then .blocked else .refused (some (n - 1)) := by
  obtain ⟨c, hc, rfl⟩ := Option.map_eq_some_iff.mp hleft
  rw [present, hc]
  dsimp only
  rw [if_neg hne]
  split_ifs with hzero
  · rfl
  · rfl

/-- Being let in leaves as many attempts as the counter allows, whatever was left of them. -/
theorem present_accepted_left (h : (g.present v).1 = .accepted) :
    (g.present v).2.left = g.counter.map Counter.limit := by
  obtain ⟨rfl, hleft⟩ := (g.present_accepted_iff v).mp h
  unfold present
  unfold left at hleft ⊢
  cases hc : g.counter with
  | none =>
    rw [hc]
    rfl
  | some c =>
    rw [hc] at hleft
    dsimp only
    rw [if_neg (by simpa using hleft), if_pos rfl]
    rfl

/-- So the next presentation is not turned away for want of attempts. -/
theorem present_accepted_left_ne (h : (g.present v).1 = .accepted) :
    (g.present v).2.left ≠ some 0 := by
  rw [g.present_accepted_left v h]
  have hleft := ((g.present_accepted_iff v).mp h).2
  unfold left at hleft
  cases hc : g.counter with
  | none => simp
  | some c =>
    rw [hc] at hleft
    intro hzero
    have hlimit : c.limit = 0 := by simpa using hzero
    have hle := c.left_le
    exact hleft (by simp only [Option.map_some, Option.some.injEq]; omega)

/-- Nobody is let in once the counter is used up, and nothing changes any more. -/
theorem present_of_used_up (h : g.left = some 0) : g.present v = (.blocked, g) := by
  obtain ⟨c, hc, hzero⟩ := Option.map_eq_some_iff.mp h
  rw [present, hc]
  exact if_pos hzero

end Guarded

end MynaCard
