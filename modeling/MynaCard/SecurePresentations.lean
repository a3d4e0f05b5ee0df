import MynaCard.KeyOperations
import MynaCard.SecureRuns

/-!
# Presentations in a session and in the clear

A program presents a value to a key through a session, or in the clear by `verify_sfi`. To the key it
is the same. `presented_as_in_clear` puts a run of a session, with whatever else is done in it, beside
a run in the clear of its presentations alone, on a card with the same keys: each presentation is told
the same in both, and the keys are the same at the end.
-/

namespace MynaCard

open Dialogue

/-! ### The presentations of a run -/

/-- What an entry presents to the key of a short identifier, and what it is told. -/
def presentation (e : SessionEntry) : Option ((ShortEfId × Pin) × Run Unit) :=
  match e.2.1 with
  | .secure (.verify id value) =>
    (ShortEfId.fromEfId id).toOption.map fun sfi => ((sfi, value), e.2.2.map fun _ => ())
  | _ => none

section

variable {τ : Type} (answer : Bytes → τ → Answer × τ) (fuel : ℕ)

/-- The same presentations by `verify_sfi`, one after the other: what each is told, and the party
after them. -/
def verifiedInTurn : List (ShortEfId × Pin) → τ → List (Run Unit) × τ
  | [], s => ([], s)
  | (sfi, value) :: rest, s =>
    let p := (Card.verifySfi fuel sfi value).run.run answer s
    let q := verifiedInTurn rest p.2
    (p.1 :: q.1, q.2)

end

/-- The keys that can be named by short identifiers are those of the application that is selected. -/
def SameKeys (a : Application) (v : Vault) : Prop :=
  ∀ sfi : ShortEfId, a.keys sfi.value.toUInt16 = v.key sfi.value.toUInt16

/-! ### One step -/

theorem ShortEfId.fromEfId_toUInt16 (sfi : ShortEfId) :
    ShortEfId.fromEfId sfi.value.toUInt16 = .ok sfi := by
  obtain ⟨value, hpos, hle⟩ := sfi
  have hnat : value.toUInt16.toNat = value.toNat := UInt8.toNat_toUInt16 value
  have hrange : 0x0001 ≤ value.toUInt16.toNat ∧ value.toUInt16.toNat ≤ 0x001E := by
    rw [hnat]
    exact ⟨hpos, hle⟩
  unfold ShortEfId.fromEfId
  rw [dif_pos hrange]
  simp

/-- What presents is a `verify` of an EF with a short identifier. -/
theorem presentation_eq_some_iff {e : SessionEntry} {sfi : ShortEfId} {value : Pin}
    {told : Run Unit} :
    presentation e = some ((sfi, value), told) ↔
      e.2.1 = .secure (.verify sfi.value.toUInt16 value) ∧ told = e.2.2.map fun _ => () := by
  obtain ⟨a, step, r⟩ := e
  constructor
  · intro hp
    unfold presentation at hp
    split at hp
    · rename_i id value' hverify
      obtain rfl : step = .secure (.verify id value') := hverify
      obtain ⟨sfi', hsfi, heq⟩ := Option.map_eq_some_iff.mp hp
      obtain ⟨hp', rfl⟩ := Prod.mk.inj heq
      obtain ⟨rfl, rfl⟩ := Prod.mk.inj hp'
      have hid : ShortEfId.fromEfId id = .ok sfi' := by
        cases hfrom : ShortEfId.fromEfId id with
        | error stop =>
          rw [hfrom] at hsfi
          cases hsfi
        | ok sfi'' =>
          rw [hfrom] at hsfi
          exact congrArg Except.ok (Option.some.inj hsfi)
      rw [ShortEfId.toUInt16_of_fromEfId hid]
      exact ⟨rfl, rfl⟩
    · cases hp
  · rintro ⟨hstep, rfl⟩
    obtain rfl : step = .secure (.verify sfi.value.toUInt16 value) := hstep
    show (ShortEfId.fromEfId sfi.value.toUInt16).toOption.map _ = _
    rw [sfi.fromEfId_toUInt16]
    rfl

section

variable {oc : OverflowChecks} {a a' : Application} {l : SessionStep × Run Bytes}

/-- A step that does not present to a key leaves it as it is. -/
theorem GuardedStep.keys_of_other (h : GuardedStep oc a l a') (sfi : ShortEfId)
    (hother : ∀ p, presentation (a, l) = some p → p.1.1 ≠ sfi) :
    a'.keys sfi.value.toUInt16 = a.keys sfi.value.toUInt16 := by
  refine (session_guards oc sfi.fromEfId_toUInt16).leaves a l a' h ?_
  rw [Option.map_eq_none_iff, Option.eq_none_iff_forall_ne_some]
  intro value hvalue
  exact hother ((sfi, value), l.2.map fun _ => ())
    (presentation_eq_some_iff.mpr ⟨SessionStep.eq_of_presents hvalue, rfl⟩) rfl

/-- A step that presents to a key. -/
theorem GuardedStep.presented (h : GuardedStep oc a l a') {sfi : ShortEfId} {value : Pin}
    {told : Run Unit} (hp : presentation (a, l) = some ((sfi, value), told)) {key : Key}
    (hkey : a.keys sfi.value.toUInt16 = some key) :
    told = (key.present value.bytes).1.reply () ∧
      a'.keys sfi.value.toUInt16 = some (key.present value.bytes).2 := by
  obtain ⟨step, r⟩ := l
  obtain ⟨hstep, rfl⟩ := presentation_eq_some_iff.mp hp
  obtain rfl : step = .secure (.verify sfi.value.toUInt16 value) := hstep
  cases h.1 with
  | secure hdoes =>
    obtain ⟨rfl, hkeys⟩ := hdoes.of_verify sfi.fromEfId_toUInt16 hkey
    exact ⟨Verdict.reply_map _ _ _, hkeys⟩

end

/-- The keys after one was put in its EF. -/
theorem Vault.key_set (v : Vault) (id id' : UInt16) (key : Key) :
    (v.set id key).key id' = if id' = id then some key else v.key id' := by
  rw [Vault.key, Vault.keys_set, Vault.set_df]
  simp only [true_and]
  rfl

section

variable {τ : Type} {answer : Bytes → τ → Answer × τ} {view : τ → KeyCard} {σ : τ} (fuel : ℕ)

/-- The same presentation in the clear. -/
theorem KeepsKeys.verifySfi_run (h : KeepsKeys answer view) (sfi : ShortEfId) (value : Pin)
    {key : Key} (hkey : (view σ).vault.key sfi.value.toUInt16 = some key) :
    ∃ σ', (Card.verifySfi fuel sfi value).run.run answer σ =
        ((key.present value.bytes).1.reply (), σ') ∧
      (view σ').vault =
        (view σ).vault.set sfi.value.toUInt16 (key.present value.bytes).2 := by
  obtain ⟨σ', hrun, hvault, -⟩ := h.present_run fuel value (named_sfi (view σ) sfi) hkey
  exact ⟨σ', hrun, hvault⟩

/-! ### Runs -/

/-- An execution beside the same presentations in the clear. -/
theorem KeepsKeys.presented_execution (h : KeepsKeys answer view) {oc : OverflowChecks}
    {a a' : Application} {tr : List SessionEntry} (hrun : Execution (GuardedStep oc) a tr a')
    (hsame : SameKeys a (view σ).vault)
    (hheld : ∀ e ∈ tr, ∀ p, presentation e = some p → a.keys p.1.1.value.toUInt16 ≠ none) :
    (verifiedInTurn answer fuel ((tr.filterMap presentation).map Prod.fst) σ).1 =
        (tr.filterMap presentation).map Prod.snd ∧
      SameKeys a'
        (view (verifiedInTurn answer fuel ((tr.filterMap presentation).map Prod.fst) σ).2).vault := by
  induction hrun generalizing σ with
  | nil a => exact ⟨rfl, hsame⟩
  | @cons a a₁ a' l tr hstep hrest ih =>
    cases hp : presentation (a, l) with
    | none =>
      have hkeys := fun sfi => hstep.keys_of_other sfi fun p hsome => by
        rw [hp] at hsome
        cases hsome
      rw [List.filterMap_cons_none hp]
      refine ih (fun sfi => (hkeys sfi).trans (hsame sfi)) ?_
      intro e he p hpresents
      rw [hkeys]
      exact hheld e (List.mem_cons_of_mem _ he) p hpresents
    | some p =>
      obtain ⟨⟨sfi, value⟩, told⟩ := p
      obtain ⟨key, hkey⟩ := Option.ne_none_iff_exists'.mp (hheld _ List.mem_cons_self _ hp)
      obtain ⟨rfl, hpresented⟩ := hstep.presented hp hkey
      obtain ⟨σ₁, hverify, hvault⟩ :=
        h.verifySfi_run fuel sfi value ((hsame sfi).symm.trans hkey)
      have hkeys : ∀ sfi', sfi' ≠ sfi → a₁.keys sfi'.value.toUInt16 = a.keys sfi'.value.toUInt16 :=
        fun sfi' hne => hstep.keys_of_other sfi' fun p hsome => by
          rw [hp] at hsome
          rw [← Option.some.inj hsome]
          exact hne.symm
      have hsame' : SameKeys a₁ (view σ₁).vault := by
        intro sfi'
        rw [hvault, Vault.key_set]
        by_cases hid : sfi'.value.toUInt16 = sfi.value.toUInt16
        · rw [if_pos hid, hid]
          exact hpresented
        · rw [if_neg hid, hkeys sfi' fun heq => hid (by rw [heq])]
          exact hsame sfi'
      rw [List.filterMap_cons_some hp, List.map_cons, List.map_cons, verifiedInTurn, hverify]
      dsimp only
      obtain ⟨htold, hend⟩ := ih hsame' (by
        intro e he p hpresents
        by_cases hid : p.1.1 = sfi
        · rw [hid, hpresented]
          exact Option.some_ne_none _
        · rw [hkeys p.1.1 hid]
          exact hheld e (List.mem_cons_of_mem _ he) p hpresents)
      exact ⟨by rw [htold], hend⟩

end

section

variable {τ τ' : Type} {aes : Aes128} {answer : Bytes → τ → Answer × τ} {view : τ → SecureCard}
  {answer' : Bytes → τ' → Answer × τ'} {view' : τ' → KeyCard} {s : SecureSession} {σ : τ} {σ' : τ'}

/-- **A session presents as `verify_sfi` does in the clear.** In any run of a session that begins in
step with the card, and whose operations on the card present to no key, what is presented to keys the
card has is told what the same presentations by `verify_sfi` are told on another card with these keys,
and the two cards have the same keys at the end. -/
theorem presented_as_in_clear (h : KeepsSession aes answer view) (h' : KeepsKeys answer' view')
    (oc : OverflowChecks) (fuel fuel' : ℕ) (steps : List SessionStep)
    (hplain : ∀ x, .plain x ∈ steps → Card.Transmits Command.IsPlain x)
    (huntouched : ∀ x, .plain x ∈ steps → Card.Transmits (fun c => ¬ c.TouchesKeys) x)
    (hs : SameSession s (view σ)) (hsize : (view σ).app.Addressable)
    (hroom : s.counter.toNat + 0x8002 * steps.length < 2 ^ 32)
    (hsame : SameKeys (view σ).app (view' σ').vault)
    (hheld : ∀ id value, .secure (.verify id value) ∈ steps → (view σ).app.keys id ≠ none) :
    (verifiedInTurn answer' fuel' (((sessionEntries aes answer view oc fuel steps s σ).filterMap
        presentation).map Prod.fst) σ').1 =
      ((sessionEntries aes answer view oc fuel steps s σ).filterMap presentation).map Prod.snd ∧
    SameKeys (view (afterSteps aes answer oc fuel steps s σ).2).app
      (view' (verifiedInTurn answer' fuel' (((sessionEntries aes answer view oc fuel steps s
        σ).filterMap presentation).map Prod.fst) σ').2).vault := by
  have hsteps : ∀ e ∈ sessionEntries aes answer view oc fuel steps s σ, e.2.1 ∈ steps := fun e he =>
    (KeepsSession.sessionEntries_steps oc fuel steps s σ).subset (List.mem_map_of_mem he)
  have hrun := (h.session_refined oc fuel steps hplain hs hsize hroom).1
  refine h'.presented_execution fuel' (hrun.mono fun e he b hstep =>
    ⟨hstep, fun x hx => huntouched x (hx ▸ hsteps e he)⟩) hsame ?_
  intro e he p hp
  obtain ⟨⟨sfi, value⟩, told⟩ := p
  have hverify := (presentation_eq_some_iff.mp hp).1
  exact hheld _ value (hverify ▸ hsteps e he)

end

end MynaCard
