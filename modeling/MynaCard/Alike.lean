import MynaCard.Dialogue

/-!
# Programs that ask alike

Two programs are alike up to a relation on questions and one on results if, given the same answers,
they ask questions the first relates, one for one, and give results the second relates. What is built
alike of alike parts is alike, so that whatever the first program can be made to ask, the second can
be made to ask too, up to the relation.

With a relation that forgets part of a question this is non-interference: what is forgotten decides
neither what is asked next nor the result.
-/

namespace MynaCard.Dialogue

variable {Q Q' A α α' β β' : Type}

/-- The programs ask questions `R` relates and result in values `S` relates. -/
inductive Alike (R : Q → Q' → Prop) (S : α → α' → Prop) : Dialogue Q A α → Dialogue Q' A α' → Prop
  | done {a : α} {b : α'} (h : S a b) : Alike R S (done a) (done b)
  | ask {q : Q} {q' : Q'} {k : A → Dialogue Q A α} {k' : A → Dialogue Q' A α'} (hq : R q q')
      (hk : ∀ r, Alike R S (k r) (k' r)) : Alike R S (ask q k) (ask q' k')

namespace Alike

variable {R : Q → Q' → Prop} {S : α → α' → Prop} {T : β → β' → Prop}

theorem refl {R : Q → Q → Prop} {S : α → α → Prop} (hR : ∀ q, R q q) (hS : ∀ a, S a a)
    (d : Dialogue Q A α) : Alike R S d d := by
  induction d with
  | done a => exact .done (hS a)
  | ask q k ih => exact .ask (hR q) ih

theorem bind {d : Dialogue Q A α} {d' : Dialogue Q' A α'} {f : α → Dialogue Q A β}
    {g : α' → Dialogue Q' A β'} (h : Alike R S d d') (hfg : ∀ a b, S a b → Alike R T (f a) (g b)) :
    Alike R T (d.bind f) (d'.bind g) := by
  induction h with
  | done hab => exact hfg _ _ hab
  | ask hq _ ih => exact .ask hq ih

theorem relabel {P P' : Type} {R' : P → P' → Prop} {f : Q → P} {g : Q' → P'}
    {d : Dialogue Q A α} {d' : Dialogue Q' A α'} (h : Alike R S d d')
    (hfg : ∀ q q', R q q' → R' (f q) (g q')) : Alike R' S (d.relabel f) (d'.relabel g) := by
  induction h with
  | done hab => exact .done hab
  | ask hq _ ih => exact .ask (hfg _ _ hq) ih

/-- The two traces have related questions and the same answers. -/
def TracesAlike (R : Q → Q' → Prop) : Trace Q A → Trace Q' A → Prop :=
  List.Forall₂ fun e e' => R e.1 e'.1 ∧ e.2 = e'.2

/-- Whatever the first program can be made to ask, the second can be made to ask, up to the
relation. -/
theorem path {d : Dialogue Q A α} {d' : Dialogue Q' A α'} (h : Alike R S d d') {tr : Trace Q A}
    {a : α} (hpath : Path d tr a) :
    ∃ tr' b, Path d' tr' b ∧ TracesAlike R tr tr' ∧ S a b := by
  induction h generalizing tr with
  | @done c b hab =>
    obtain ⟨rfl, rfl⟩ := path_done.mp hpath
    exact ⟨[], b, .done b, .nil, hab⟩
  | ask hq _ ih =>
    obtain ⟨r, tr, rfl, hrest⟩ := path_ask.mp hpath
    obtain ⟨tr', b, hpath', htraces, hab⟩ := ih r hrest
    exact ⟨_, b, .ask _ _ r hpath', .cons ⟨hq, rfl⟩ htraces, hab⟩

end Alike

/-! ### Programs that may fail -/

section

variable {ε : Type} {R : Q → Q' → Prop}

/-- Alike with the same result. -/
abbrev AlikeRun (R : Q → Q' → Prop) (x : ExceptT ε (Dialogue Q A) α)
    (y : ExceptT ε (Dialogue Q' A) α) : Prop :=
  Alike R (fun r s => r = s) x.run y.run

theorem AlikeRun.bind {x : ExceptT ε (Dialogue Q A) α} {y : ExceptT ε (Dialogue Q' A) α}
    {f : α → ExceptT ε (Dialogue Q A) β} {g : α → ExceptT ε (Dialogue Q' A) β} (h : AlikeRun R x y)
    (hfg : ∀ a, AlikeRun R (f a) (g a)) : AlikeRun R (x >>= f) (y >>= g) := by
  unfold AlikeRun
  rw [exceptT_run_bind, exceptT_run_bind]
  refine Alike.bind h fun r s hrs => ?_
  subst hrs
  cases r with
  | ok a => exact hfg a
  | error e => exact .done rfl

theorem AlikeRun.refl {R : Q → Q → Prop} (hR : ∀ q, R q q) (x : ExceptT ε (Dialogue Q A) α) :
    AlikeRun R x x :=
  Alike.refl hR (fun _ => rfl) x.run

end

end MynaCard.Dialogue
