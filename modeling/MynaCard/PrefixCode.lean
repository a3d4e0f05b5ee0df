import Mathlib

/-!
# Prefix-free codes

A set of code words none of which begins another can be read off a stream one word at a time, with
no look at what follows. This file has the three facts that reading rests on: the first word of a
stream is determined, so is the list of all words in front of a tail that starts no word, and a
concatenation of words with no tail decodes uniquely.

The alphabet is arbitrary and nothing here is about the card.
-/

namespace MynaCard.PrefixCode

open InformationTheory

variable {α : Type*} {S : Set (List α)}

/-- No word of the code is a proper prefix of another. -/
def PrefixFree (S : Set (List α)) : Prop := ∀ u ∈ S, ∀ v ∈ S, u <+: v → u = v

/-- The stream `x` begins with no word of the code. -/
def Stuck (S : Set (List α)) (x : List α) : Prop := ∀ u ∈ S, ¬ u <+: x

/-- The first word of a stream, and with it the rest of the stream, is determined. -/
theorem PrefixFree.append_inj (hS : PrefixFree S) {u v x y : List α} (hu : u ∈ S) (hv : v ∈ S)
    (h : u ++ x = v ++ y) : u = v ∧ x = y := by
  have hux : u <+: v ++ y := h ▸ List.prefix_append u x
  have huv : u = v := by
    rcases List.prefix_or_prefix_of_prefix hux (List.prefix_append v y) with hpre | hpre
    · exact hS u hu v hv hpre
    · exact (hS v hv u hu hpre).symm
  subst huv
  exact ⟨rfl, List.append_cancel_left h⟩

/-- The words in front of a tail that begins no word are determined, and so is the tail. -/
theorem PrefixFree.flatten_append_inj (hS : PrefixFree S) {us vs : List (List α)} {x y : List α}
    (hus : ∀ u ∈ us, u ∈ S) (hvs : ∀ v ∈ vs, v ∈ S) (hx : Stuck S x) (hy : Stuck S y)
    (h : us.flatten ++ x = vs.flatten ++ y) : us = vs ∧ x = y := by
  induction us generalizing vs with
  | nil =>
    cases vs with
    | nil => exact ⟨rfl, h⟩
    | cons v vs =>
      have hpre : v <+: x := ⟨vs.flatten ++ y, by simpa using h.symm⟩
      exact absurd hpre (hx v (hvs v List.mem_cons_self))
  | cons u us ih =>
    cases vs with
    | nil =>
      have hpre : u <+: y := ⟨us.flatten ++ x, by simpa using h⟩
      exact absurd hpre (hy u (hus u List.mem_cons_self))
    | cons v vs =>
      rw [List.flatten_cons, List.flatten_cons, List.append_assoc, List.append_assoc] at h
      obtain ⟨rfl, hrest⟩ :=
        hS.append_inj (hus u List.mem_cons_self) (hvs v List.mem_cons_self) h
      obtain ⟨rfl, hxy⟩ := ih (fun w hw => hus w (List.mem_cons_of_mem _ hw))
        (fun w hw => hvs w (List.mem_cons_of_mem _ hw)) hrest
      exact ⟨rfl, hxy⟩

/-- A prefix-free code without the empty word is uniquely decodable. -/
theorem PrefixFree.uniquelyDecodable (hS : PrefixFree S) (hnil : [] ∉ S) :
    UniquelyDecodable S := by
  have hstuck : Stuck S [] := by
    intro u hu hpre
    rw [List.prefix_nil.mp hpre] at hu
    exact hnil hu
  intro us vs hus hvs h
  exact (hS.flatten_append_inj hus hvs hstuck hstuck (by rw [h])).1

end MynaCard.PrefixCode
