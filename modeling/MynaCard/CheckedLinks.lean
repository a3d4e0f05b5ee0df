import Mathlib.Data.List.Chain

/-!
# Lists checked link by link

A loop that goes along a list with the element before at hand, checks each pair of neighbours, and
returns the first error. It accepts a list exactly when every two neighbours check
(`checkLinks_eq_ok_iff`), and its error is the one of the first pair that does not, whatever comes
after it (`checkLinks_eq_error_iff`).

Elements and errors are arbitrary types.
-/

namespace MynaCard

variable {α ε : Type}

/-- Check each element of the list against the one before it, `a` coming before the first. -/
def checkLinks (check : α → α → Except ε Unit) : α → List α → Except ε Unit
  | _, [] => .ok ()
  | a, b :: bs => do
    check a b
    checkLinks check b bs

section

variable {check : α → α → Except ε Unit} {a b : α} {bs : List α} {e : ε}

theorem checkLinks_cons_of_ok (h : check a b = .ok ()) :
    checkLinks check a (b :: bs) = checkLinks check b bs := by
  rw [checkLinks, h]
  rfl

theorem checkLinks_cons_of_error (h : check a b = .error e) :
    checkLinks check a (b :: bs) = .error e := by
  rw [checkLinks, h]
  rfl

/-- **What the loop accepts.** -/
theorem checkLinks_eq_ok_iff :
    checkLinks check a bs = .ok () ↔ (a :: bs).IsChain fun x y => check x y = .ok () := by
  induction bs generalizing a with
  | nil => exact iff_of_true rfl (.singleton a)
  | cons b bs ih =>
    rw [List.isChain_cons_cons]
    cases hab : check a b with
    | error e' =>
      rw [checkLinks_cons_of_error hab]
      simp
    | ok u =>
      rw [checkLinks_cons_of_ok hab, ih]
      simp

/-- **The error of the loop**: the first pair that does not check. -/
theorem checkLinks_eq_error_iff :
    checkLinks check a bs = .error e ↔ ∃ pre x y post, a :: bs = pre ++ x :: y :: post ∧
      ((pre ++ [x]).IsChain fun x y => check x y = .ok ()) ∧ check x y = .error e := by
  induction bs generalizing a with
  | nil =>
    refine iff_of_false (fun h => nomatch h) ?_
    intro h
    obtain ⟨pre, x, y, post, heq, -⟩ := h
    have hlen := congrArg List.length heq
    simp only [List.length_cons, List.length_nil, List.length_append] at hlen
    omega
  | cons b bs ih =>
    constructor
    · intro h
      cases hab : check a b with
      | error e' =>
        rw [checkLinks_cons_of_error hab] at h
        obtain rfl := Except.error.inj h
        exact ⟨[], a, b, bs, rfl, .singleton a, hab⟩
      | ok u =>
        rw [checkLinks_cons_of_ok hab] at h
        obtain ⟨pre, x, y, post, heq, hchain, hxy⟩ := ih.mp h
        refine ⟨a :: pre, x, y, post, by rw [heq, List.cons_append], ?_, hxy⟩
        -- the pair before has `b` second, which comes first in what was checked
        cases pre with
        | nil =>
          obtain ⟨rfl, -⟩ := List.cons.inj heq
          exact List.isChain_pair.mpr hab
        | cons c pre =>
          obtain ⟨rfl, -⟩ := List.cons.inj heq
          exact List.isChain_cons_cons.mpr ⟨hab, hchain⟩
    · intro h
      obtain ⟨pre, x, y, post, heq, hchain, hxy⟩ := h
      cases pre with
      | nil =>
        simp only [List.nil_append, List.cons.injEq] at heq
        obtain ⟨rfl, rfl, rfl⟩ := heq
        exact checkLinks_cons_of_error hxy
      | cons c pre =>
        simp only [List.cons_append, List.cons.injEq] at heq
        obtain ⟨rfl, hrest⟩ := heq
        have hab : check a b = .ok () := by
          cases pre with
          | nil =>
            obtain ⟨rfl, -⟩ := List.cons.inj hrest
            simpa using hchain
          | cons d pre =>
            obtain ⟨rfl, -⟩ := List.cons.inj hrest
            exact (List.isChain_cons_cons.mp hchain).1
        rw [checkLinks_cons_of_ok hab]
        exact ih.mpr ⟨pre, x, y, post, hrest, hchain.tail, hxy⟩

end

/-- A condition on the second of every two neighbours, and on the first element, is one on all. -/
theorem and_isChain_and_iff (P : α → Prop) (R : α → α → Prop) (a : α) (bs : List α) :
    (P a ∧ (a :: bs).IsChain fun x y => P y ∧ R x y) ↔
      (∀ x ∈ a :: bs, P x) ∧ (a :: bs).IsChain R := by
  induction bs generalizing a with
  | nil => simp
  | cons b bs ih =>
    have hrest := ih b
    simp only [List.isChain_cons_cons, List.forall_mem_cons] at hrest ⊢
    tauto

end MynaCard
