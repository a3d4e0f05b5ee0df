import MynaCard.CardExchange

/-!
# Properties of programs over a card

A property of operations that sequencing, catching an error, and giving a value or an error keep is
`Closed`. The loops of the file readers are made of these and of single READ BINARY commands, so a
closed property that those have is one the readers have.

`Transmits P`, that every APDU of an operation belongs to a command with `P`, is such a property.
-/

namespace MynaCard.Card

open Dialogue

/-! ### Closed properties -/

/-- The property is kept by whatever operations are made of, apart from calls and from sums of
lengths. -/
structure Closed (K : (α : Type) → CardM α → Prop) : Prop where
  pure : ∀ {α : Type} (a : α), K α (pure a)
  throw : ∀ {α : Type} {stop : Stop}, stop ≠ .panic .usizeOverflow → K α (throw stop)
  bind : ∀ {α β : Type} {x : CardM α} {f : α → CardM β}, K α x → (∀ a, K β (f a)) → K β (x >>= f)
  attempt : ∀ {α : Type} {x : CardM α}, K α x → K (Except Error α) (attempt x)

namespace Closed

variable {K : (α : Type) → CardM α → Prop} (hK : Closed K) {fuel : ℕ}
  (hchunk : ∀ offset le, K Bytes (readBinaryChunk fuel offset le))

include hK hchunk

theorem readBinaryLoop (offset length : ℕ) (out : Bytes) :
    K Bytes (readBinaryLoop fuel offset length out) := by
  induction hmeasure : length - out.length using Nat.strong_induction_on generalizing out with
  | _ n ih =>
    subst hmeasure
    by_cases hmore : out.length < length
    · rw [readBinaryLoop_more fuel offset hmore]
      refine hK.bind (hK.attempt (hchunk _ _)) fun r => ?_
      cases r with
      | ok chunk =>
        simp only
        split
        · exact hK.pure out
        · rename_i hne
          have hpos := List.length_pos_iff.mpr hne
          exact ih _ (by rw [List.length_append]; omega) (out ++ chunk) rfl
      | error e =>
        simp only
        split
        · exact hK.pure out
        · exact hK.throw (by simp)
    · rw [readBinaryLoop_done fuel offset hmore]
      exact hK.pure out

theorem readToEnd (out : Bytes) : K Bytes (readToEnd fuel out) := by
  induction hmeasure : maxOffset + 1 - out.length using Nat.strong_induction_on
    generalizing out with
  | _ n ih =>
    subst hmeasure
    by_cases hmore : out.length ≤ maxOffset
    · rw [readToEnd_more fuel hmore]
      refine hK.bind (hK.attempt (hchunk _ _)) fun r => ?_
      cases r with
      | ok chunk =>
        simp only
        split
        · exact hK.pure out
        · rename_i hne
          have hpos := List.length_pos_iff.mpr hne
          split
          · exact hK.pure _
          · exact ih _ (by rw [List.length_append]; omega) (out ++ chunk) rfl
      | error e =>
        simp only
        split
        · exact hK.pure out
        · exact hK.throw (by simp)
    · rw [readToEnd_done fuel hmore]
      exact hK.pure out

theorem readBinary (pf : Platform) (offset length : ℕ) :
    K Bytes (readBinary pf fuel offset length) := by
  rw [readBinary_eq]
  split_ifs
  · exact hK.throw (by simp)
  · exact hK.throw (by simp)
  · exact hK.readBinaryLoop hchunk _ _ _

end Closed

/-! ### What an operation transmits -/

/-- Every APDU of the operation, on every path, is one a call of a command with `P` can send. -/
def Transmits (P : Command → Prop) {α : Type} (x : CardM α) : Prop :=
  ∀ tr out, Path x.run tr out → ∀ e ∈ tr, ∃ c : Command, c.Valid ∧ P c ∧ FromCall c e.1

section Transmits

variable {P : Command → Prop} {α β : Type}

/-- An operation that sends nothing. -/
theorem Transmits.of_run (x : Run α) : Transmits P (liftM x : CardM α) := by
  intro tr out hpath e he
  obtain ⟨rfl, -⟩ := path_done.mp hpath
  cases he

theorem Transmits.pure (a : α) : Transmits P (pure a : CardM α) := .of_run (.ok a)

theorem Transmits.throw (stop : Stop) : Transmits P (throw stop : CardM α) := .of_run (.error stop)

theorem Transmits.bind {x : CardM α} {f : α → CardM β} (hx : Transmits P x)
    (hf : ∀ a, Transmits P (f a)) : Transmits P (x >>= f) := by
  intro tr out hpath e he
  rcases path_exceptT_bind.mp hpath with ⟨stop, -, hstop⟩ | ⟨tr₁, a, tr₂, rfl, h₁, h₂⟩
  · exact hx tr _ hstop e he
  · rcases List.mem_append.mp he with he | he
    · exact hx tr₁ _ h₁ e he
    · exact hf a tr₂ out h₂ e he

theorem Transmits.attempt {x : CardM α} (hx : Transmits P x) : Transmits P (attempt x) := by
  intro tr out hpath
  rcases path_attempt.mp hpath with ⟨a, -, h⟩ | ⟨e, -, h⟩ | ⟨stop, -, -, h⟩
  all_goals exact hx tr _ h

theorem transmits_closed : Closed fun _ x => Transmits P x where
  pure := .pure
  throw _ := .throw _
  bind := .bind
  attempt := .attempt

theorem transmits_call (fuel : ℕ) {c : Command} (hc : P c) : Transmits P (call fuel c) := by
  intro tr out hpath e he
  by_cases hv : c.Valid
  · exact ⟨c, hv, hc, call_fromCall hv hpath e he⟩
  · obtain ⟨err, hrun⟩ := call_run_not_valid fuel hv
    rw [hrun] at hpath
    obtain ⟨rfl, -⟩ := path_done.mp hpath
    cases he

theorem transmits_callOk (fuel : ℕ) {c : Command} (hc : P c) : Transmits P (callOk fuel c) :=
  (transmits_call fuel hc).bind fun r => .of_run r.intoData

end Transmits

end MynaCard.Card
