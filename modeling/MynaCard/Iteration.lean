import Mathlib

/-!
# Iterators as step functions

An iterator is a function of its state: the item it yields, if any, and the state it is left in.
`Yields` is a run that yields items up to some state, and `answers` is what a number of calls
return, whether or not the iterator has ended. A run that reaches an exhausted state fixes the
answers of all calls (`Yields.answers_eq`): the items of the run in order, and nothing ever after.

The states and items are arbitrary and nothing here is about the card.
-/

namespace MynaCard.Iteration

variable {σ α : Type*} {next : σ → Option α × σ} {s s' : σ} {items : List α}

/-- From `s` the iterator yields `items`, one a call, and is then in the state `s'`. -/
inductive Yields (next : σ → Option α × σ) : σ → List α → σ → Prop
  | nil (s : σ) : Yields next s [] s
  | cons {s s' s'' : σ} {item : α} {items : List α} (h : next s = (some item, s'))
      (hrest : Yields next s' items s'') : Yields next s (item :: items) s''

/-- A call in this state yields nothing and changes nothing. -/
def Exhausted (next : σ → Option α × σ) (s : σ) : Prop := next s = (none, s)

/-- What the first `calls` calls return. -/
def answers (next : σ → Option α × σ) : ℕ → σ → List (Option α)
  | 0, _ => []
  | calls + 1, s => (next s).1 :: answers next calls (next s).2

theorem Exhausted.answers_eq (h : Exhausted next s) (calls : ℕ) :
    answers next calls s = List.replicate calls none := by
  induction calls with
  | zero => rfl
  | succ calls ih =>
    rw [answers, show next s = (none, s) from h, ih]
    rfl

/-- The answers of any number of calls: the items up to the end, then nothing. -/
theorem Yields.answers_eq (h : Yields next s items s') (hend : Exhausted next s') (calls : ℕ) :
    answers next calls s = (items.map some ++ List.replicate calls none).take calls := by
  induction h generalizing calls with
  | nil s => simp [hend.answers_eq]
  | cons h hrest ih =>
    cases calls with
    | zero => simp [answers]
    | succ calls =>
      rw [answers, h, ih hend]
      -- of the answers after the end there is one more than is looked at
      simp [List.take_append, List.take_replicate]
      omega

end MynaCard.Iteration
