import MynaCard.CardExchange

/-!
# Calls that return

A `6Cxx` is corrected once, but a `61xx` is answered with a GET RESPONSE as often as it comes, so it
is the card that ends a call. Against any transport a call returns, unless the card goes on with
`61xx` for ever (`call_returns_iff`).
-/

namespace MynaCard

open Dialogue

namespace Card

/-! ### What a card that chains sends -/

/-- The `xx` of an answer `61xx`, if a GET RESPONSE can ask for that many bytes. -/
def moreOf (a : Answer) : Option UInt8 :=
  match answered a with
  | .ok r => r.status.moreDataAvailable.filter fun n => n ≠ 0
  | .error _ => none

section

variable {τ : Type} (answer : Bytes → τ → Answer × τ)

/-- The answer to the GET RESPONSE that an answer calls for, and the card after it. An answer that
calls for none stays. -/
def follow (p : Answer × τ) : Answer × τ :=
  match moreOf p.1 with
  | some n => answer (getResponse n).encoding p.2
  | none => p

/-- The answer to the command or, after a `6Cxx`, to the command with `Le` corrected. -/
def firstAnswer (c : Command) (s : τ) : Answer × τ :=
  let p := answer c.encoding s
  match correctLeOf p.1 with
  | some le => answer (retry c le).encoding p.2
  | none => p

/-- From the answer on the card answers every GET RESPONSE with a `61xx`, and never `6100`. -/
def ChainsForever (p : Answer × τ) : Prop :=
  ∀ k : ℕ, (moreOf ((follow answer)^[k] p).1).isSome = true

/-- After finitely many transmissions the call is over, however long it is let run. -/
def Returns (c : Command) (s : τ) : Prop :=
  ∃ tr out, out ≠ .error .running ∧ Gives answer s tr ∧
    ∃ fuel, ∀ fuel' ≥ fuel, Path (call fuel' c).run tr out

end

/-! ### One round of the loop -/

/-- What the call does with an answer, once `data` is collected. -/
def collectAfter (fuel : ℕ) (data : Bytes) (a : Answer) : Dialogue Bytes Answer (Run Response) :=
  orElseDone (fun r => (collect fuel ⟨data ++ r.data, r.status⟩).run) (answered a)

theorem moreOf_eq_some {a : Answer} {n : UInt8} (h : moreOf a = some n) :
    ∃ r, answered a = .ok r ∧ r.status.moreDataAvailable = some n ∧ n ≠ 0 := by
  unfold moreOf at h
  cases ha : answered a with
  | error stop =>
    rw [ha] at h
    cases h
  | ok r =>
    rw [ha] at h
    obtain ⟨hmore, hn⟩ := Option.filter_eq_some_iff.mp h
    exact ⟨r, rfl, hmore, by simpa using hn⟩

/-- After a `61xx` there is one GET RESPONSE, and then the same again with more collected. -/
theorem collectAfter_more {a : Answer} {n : UInt8} (h : moreOf a = some n) (data : Bytes) :
    ∃ more, collectAfter 0 data a = done (.error .running) ∧
      ∀ fuel, collectAfter (fuel + 1) data a =
        ask (getResponse n).encoding (collectAfter fuel (data ++ more)) := by
  obtain ⟨r, ha, hmore, hn⟩ := moreOf_eq_some h
  refine ⟨r.data, ?_, ?_⟩
  · rw [collectAfter, ha, orElseDone_ok, collect_zero (r := ⟨data ++ r.data, r.status⟩) hmore]
    rfl
  · intro fuel
    rw [collectAfter, ha, orElseDone_ok, collect_run fuel (r := ⟨data ++ r.data, r.status⟩) hmore hn]
    rfl

/-- After any other answer the call is over. -/
theorem collectAfter_last {a : Answer} (h : moreOf a = none) (data : Bytes) :
    ∃ out, out ≠ .error .running ∧ ∀ fuel > 0, collectAfter fuel data a = done out := by
  cases ha : answered a with
  | error stop =>
    obtain ⟨e, rfl⟩ := answered_eq_error ha
    refine ⟨.error (.err e), by simp, ?_⟩
    intro fuel _
    rw [collectAfter, ha]
    rfl
  | ok r =>
    cases hmore : r.status.moreDataAvailable with
    | none =>
      refine ⟨.ok ⟨data ++ r.data, r.status⟩, by simp, ?_⟩
      intro fuel _
      rw [collectAfter, ha, orElseDone_ok, collect_done _ (r := ⟨data ++ r.data, r.status⟩) hmore]
      rfl
    | some n =>
      -- a `6100`, whose GET RESPONSE cannot be encoded
      have hzero : n = 0 := by
        by_contra hn
        rw [moreOf, ha] at h
        simp [hmore, hn] at h
      subst hzero
      obtain ⟨e, he⟩ := transmitOnce_run_not_valid (mt (getResponse_valid_iff 0).mp (by simp))
      refine ⟨.error (.err e), by simp, ?_⟩
      intro fuel hfuel
      obtain ⟨fuel, rfl⟩ := Nat.exists_eq_add_of_lt hfuel
      rw [Nat.zero_add, collectAfter, ha, orElseDone_ok,
        collect_succ fuel (r := ⟨data ++ r.data, r.status⟩) hmore, exceptT_run_bind, he]
      rfl

/-! ### The whole loop -/

section

variable {τ : Type} {answer : Bytes → τ → Answer × τ}

theorem follow_more {p : Answer × τ} {n : UInt8} (h : moreOf p.1 = some n) :
    follow answer p = answer (getResponse n).encoding p.2 := by
  rw [follow, h]

/-- A chain that ends lets the loop end. -/
theorem collectAfter_ends (k : ℕ) {p : Answer × τ}
    (hend : moreOf ((follow answer)^[k] p).1 = none) (data : Bytes) :
    ∃ tr out, out ≠ .error .running ∧ Gives answer p.2 tr ∧
      ∀ fuel > k, Path (collectAfter fuel data p.1) tr out := by
  induction k generalizing p data with
  | zero =>
    have hlast : moreOf p.1 = none := hend
    obtain ⟨out, hout, hdone⟩ := collectAfter_last hlast data
    refine ⟨[], out, hout, trivial, ?_⟩
    intro fuel hfuel
    rw [hdone fuel hfuel]
    exact .done out
  | succ k ih =>
    cases hmore : moreOf p.1 with
    | none =>
      obtain ⟨out, hout, hdone⟩ := collectAfter_last hmore data
      refine ⟨[], out, hout, trivial, ?_⟩
      intro fuel hfuel
      rw [hdone fuel (by omega)]
      exact .done out
    | some n =>
      rw [Function.iterate_succ_apply, follow_more hmore] at hend
      obtain ⟨more, -, hround⟩ := collectAfter_more hmore data
      obtain ⟨tr, out, hout, hgives, hpath⟩ := ih hend (data ++ more)
      refine ⟨((getResponse n).encoding, _) :: tr, out, hout, ⟨rfl, hgives⟩, ?_⟩
      intro fuel hfuel
      obtain ⟨fuel, rfl⟩ := Nat.exists_eq_succ_of_ne_zero (by omega : fuel ≠ 0)
      rw [Nat.succ_eq_add_one, hround]
      exact .ask _ _ _ (hpath fuel (by omega))

/-- On a chain without an end the loop asks for more as long as it is let run. -/
theorem collectAfter_forever (fuel : ℕ) {p : Answer × τ} (hforever : ChainsForever answer p)
    (data : Bytes) {tr : Trace Bytes Answer} {out : Run Response} (hgives : Gives answer p.2 tr)
    (h : Path (collectAfter fuel data p.1) tr out) :
    out = .error .running ∧ tr.length = fuel := by
  induction fuel generalizing p data tr with
  | zero =>
    obtain ⟨n, hmore⟩ := Option.isSome_iff_exists.mp (hforever 0)
    obtain ⟨more, hstop, -⟩ := collectAfter_more hmore data
    rw [show p.1 = ((follow answer)^[0] p).1 from rfl, hstop] at h
    obtain ⟨rfl, rfl⟩ := path_done.mp h
    exact ⟨rfl, rfl⟩
  | succ fuel ih =>
    obtain ⟨n, hmore⟩ := Option.isSome_iff_exists.mp (hforever 0)
    have hmore : moreOf p.1 = some n := hmore
    obtain ⟨more, -, hround⟩ := collectAfter_more hmore data
    rw [hround] at h
    obtain ⟨a, tr', rfl, h'⟩ := path_ask.mp h
    obtain ⟨ha, hgives'⟩ := hgives
    have hnext : ChainsForever answer (answer (getResponse n).encoding p.2) := by
      intro k
      have hk := hforever (k + 1)
      rwa [Function.iterate_succ_apply, follow_more hmore] at hk
    obtain ⟨hout, hlength⟩ := ih hnext (data ++ more) hgives' (ha ▸ h')
    exact ⟨hout, by rw [List.length_cons, hlength]⟩

/-! ### The whole call -/

/-- A call is the loop on its first answer. -/
theorem call_run_collectAfter (fuel : ℕ) {c : Command} (hv : c.Valid) :
    (call fuel c).run = ask c.encoding fun a =>
      match correctLeOf a with
      | some le => ask (retry c le).encoding (collectAfter fuel [])
      | none => collectAfter fuel [] a := by
  rw [call_run fuel hv]
  congr 1
  funext a
  unfold correctLeOf
  cases ha : answered a with
  | error stop =>
    rw [collectAfter, ha]
    rfl
  | ok r =>
    rw [orElseDone_ok, afterFirst]
    dsimp only
    cases hle : r.status.correctLe with
    | none =>
      rw [collectAfter, ha]
      rfl
    | some le => rfl

/-- The command and, after a `6Cxx`, the command with `Le` corrected, with their answers. -/
def firstTraffic (answer : Bytes → τ → Answer × τ) (c : Command) (s : τ) : Trace Bytes Answer :=
  let p := answer c.encoding s
  match correctLeOf p.1 with
  | some le => [(c.encoding, p.1), ((retry c le).encoding, (answer (retry c le).encoding p.2).1)]
  | none => [(c.encoding, p.1)]

/-- The traffic of a call with a transport is what leads to its first answer, and then that of the
loop. -/
theorem path_call_iff {c : Command} (hv : c.Valid) {s : τ} {fuel : ℕ} {tr : Trace Bytes Answer}
    {out : Run Response} :
    Gives answer s tr ∧ Path (call fuel c).run tr out ↔
      ∃ rest, tr = firstTraffic answer c s ++ rest ∧ Gives answer (firstAnswer answer c s).2 rest ∧
        Path (collectAfter fuel [] (firstAnswer answer c s).1) rest out := by
  rw [call_run_collectAfter fuel hv, path_ask, firstTraffic, firstAnswer]
  cases hle : correctLeOf (answer c.encoding s).1 with
  | none =>
    constructor
    · intro h
      obtain ⟨hgives, a, rest, rfl, hpath⟩ := h
      obtain ⟨rfl, hrest⟩ := hgives
      rw [hle] at hpath
      exact ⟨rest, rfl, hrest, hpath⟩
    · intro h
      obtain ⟨rest, rfl, hrest, hpath⟩ := h
      refine ⟨⟨rfl, hrest⟩, _, rest, rfl, ?_⟩
      rw [hle]
      exact hpath
  | some le =>
    constructor
    · intro h
      obtain ⟨hgives, a, rest, rfl, hpath⟩ := h
      obtain ⟨rfl, hrest⟩ := hgives
      rw [hle] at hpath
      obtain ⟨b, rest', rfl, hloop⟩ := path_ask.mp hpath
      obtain ⟨rfl, hrest'⟩ := hrest
      exact ⟨rest', rfl, hrest', hloop⟩
    · intro h
      obtain ⟨rest, rfl, hrest, hpath⟩ := h
      refine ⟨⟨rfl, rfl, hrest⟩, _, _, rfl, ?_⟩
      rw [hle]
      exact .ask _ _ _ hpath

/-- A call with a card that chains for ever is let run as long as it may, and is not over. -/
theorem call_forever {c : Command} (hv : c.Valid) {s : τ}
    (hforever : ChainsForever answer (firstAnswer answer c s)) {fuel : ℕ} {tr : Trace Bytes Answer}
    {out : Run Response} (hgives : Gives answer s tr) (h : Path (call fuel c).run tr out) :
    out = .error .running ∧ fuel < tr.length := by
  obtain ⟨rest, rfl, hrest, hpath⟩ := (path_call_iff hv).mp ⟨hgives, h⟩
  obtain ⟨hout, hlength⟩ := collectAfter_forever fuel hforever [] hrest hpath
  refine ⟨hout, ?_⟩
  have hpos : firstTraffic answer c s ≠ [] := by
    unfold firstTraffic
    dsimp only
    split
    · exact List.cons_ne_nil _ _
    · exact List.cons_ne_nil _ _
  have := List.length_pos_iff.mpr hpos
  rw [List.length_append]
  omega

theorem not_returns_of_chainsForever {c : Command} (hv : c.Valid) {s : τ}
    (hforever : ChainsForever answer (firstAnswer answer c s)) : ¬ Returns answer c s := by
  intro h
  obtain ⟨tr, out, hout, hgives, fuel, hpath⟩ := h
  exact hout (call_forever hv hforever hgives (hpath fuel le_rfl)).1

/-- **A call returns, unless the card chains for ever**: against any transport it is over after
finitely many transmissions, if the command cannot be encoded, or some answer after the first (or
the corrected) one is not a `61xx`, or is `6100`; and otherwise it is never over. -/
theorem call_returns_iff (answer : Bytes → τ → Answer × τ) (c : Command) (s : τ) :
    Returns answer c s ↔ ¬ (c.Valid ∧ ChainsForever answer (firstAnswer answer c s)) := by
  constructor
  · intro h hboth
    exact not_returns_of_chainsForever hboth.1 hboth.2 h
  · intro h
    by_cases hv : c.Valid
    · have hends : ∃ k, moreOf ((follow answer)^[k] (firstAnswer answer c s)).1 = none := by
        by_contra hnone
        refine h ⟨hv, ?_⟩
        intro k
        exact Option.isSome_iff_ne_none.mpr fun hk => hnone ⟨k, hk⟩
      obtain ⟨k, hend⟩ := hends
      obtain ⟨rest, out, hout, hgives, hpath⟩ := collectAfter_ends k hend []
      have hcall := fun fuel (hfuel : fuel > k) =>
        (path_call_iff hv).mpr ⟨rest, rfl, hgives, hpath fuel hfuel⟩
      exact ⟨_, out, hout, (hcall (k + 1) (by omega)).1, k + 1,
        fun fuel hfuel => (hcall fuel (by omega)).2⟩
    · obtain ⟨e, he⟩ := transmitOnce_run_not_valid hv
      refine ⟨[], .error (.err e), by simp, trivial, 0, ?_⟩
      intro fuel _
      rw [call, exceptT_run_bind, he]
      exact .done _

end

/-- A card that answers everything with `61 01`. -/
def chainingCard (_ : Bytes) (_ : Unit) : Answer × Unit := (.ok [0x61, 0x01], ())

theorem follow_chainingCard (k : ℕ) :
    (follow chainingCard)^[k] (.ok [0x61, 0x01], ()) = (.ok [0x61, 0x01], ()) :=
  Function.iterate_fixed rfl k

/-- READ BINARY to a card that answers everything with `61 01`: the call does not return, and has
sent more than `fuel` APDUs when it is stopped. -/
theorem chainingCard_never_ends :
    ¬ Returns chainingCard (Command.withLe 0x00 0xB0 0x00 0x00 256) () ∧
      ∀ fuel tr out, Gives chainingCard () tr →
        Path (call fuel (Command.withLe 0x00 0xB0 0x00 0x00 256)).run tr out →
          out = .error .running ∧ fuel < tr.length := by
  have hforever : ChainsForever chainingCard
      (firstAnswer chainingCard (Command.withLe 0x00 0xB0 0x00 0x00 256) ()) := by
    intro k
    show (moreOf ((follow chainingCard)^[k] (.ok [0x61, 0x01], ())).1).isSome = true
    rw [follow_chainingCard]
    decide
  refine ⟨not_returns_of_chainsForever (by decide) hforever, ?_⟩
  intro fuel tr out hgives h
  exact call_forever (by decide) hforever hgives h

end Card

end MynaCard
