import MynaCard.Dialogue

/-!
# Programs that stop at a failure

Some answers are failures, each with the error it stands for. A program fails fast if, whenever it is
given one, it asks nothing more and results in that error. What is built in sequence of programs that
fail fast does too; a program that looks at the errors of another one fails fast if it hands these on.

Questions, answers, errors and results are arbitrary types.
-/

namespace MynaCard.Dialogue

variable {Q A ε α β : Type} {failure : A → Option ε}

/-- Given a failure for an answer, the program is done, with its error. -/
def FailsFast (failure : A → Option ε) : Dialogue Q A (Except ε α) → Prop
  | done _ => True
  | ask _ k => ∀ a, FailsFast failure (k a) ∧ ∀ e, failure a = some e → k a = done (.error e)

namespace FailsFast

/-- The program, and what comes after it for each result. An error that stands for a failure has to
be handed on. -/
theorem bind {d : Dialogue Q A (Except ε α)} {f : Except ε α → Dialogue Q A (Except ε β)}
    (h : FailsFast failure d) (hf : ∀ r, FailsFast failure (f r))
    (herr : ∀ a e, failure a = some e → f (.error e) = done (.error e)) :
    FailsFast failure (d.bind f) := by
  induction d with
  | done r => exact hf r
  | ask q k ih =>
    intro a
    obtain ⟨hk, hfail⟩ := h a
    refine ⟨ih a hk, ?_⟩
    intro e he
    show (k a).bind f = _
    rw [hfail e he]
    exact herr a e he

theorem exceptT_bind {x : ExceptT ε (Dialogue Q A) α} {f : α → ExceptT ε (Dialogue Q A) β}
    (h : FailsFast failure x.run) (hf : ∀ a, FailsFast failure (f a).run) :
    FailsFast failure (x >>= f).run := by
  rw [exceptT_run_bind]
  refine h.bind (fun r => ?_) fun a e he => rfl
  cases r with
  | ok a => exact hf a
  | error e => trivial

/-- On a path with a failure in it, the failure is the last answer and the result is its error. -/
theorem path {d : Dialogue Q A (Except ε α)} (h : FailsFast failure d) {tr : Trace Q A}
    {out : Except ε α} (hpath : Path d tr out) {before after : Trace Q A} {q : Q} {a : A} {e : ε}
    (htr : tr = before ++ (q, a) :: after) (he : failure a = some e) :
    after = [] ∧ out = .error e := by
  induction hpath generalizing before with
  | done r =>
    cases before <;> cases htr
  | ask q' k a' hrest ih =>
    obtain ⟨hk, hfail⟩ := h a'
    cases before with
    | nil =>
      obtain ⟨hhead, rfl⟩ := List.cons.inj htr
      obtain ⟨-, rfl⟩ := Prod.mk.inj hhead
      rw [hfail e he] at hrest
      exact path_done.mp hrest
    | cons b before => exact ih hk (List.cons.inj htr).2

end FailsFast

end MynaCard.Dialogue
