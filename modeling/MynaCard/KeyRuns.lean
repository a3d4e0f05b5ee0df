import MynaCard.KeyOperations
import MynaCard.Lockouts

/-!
# Runs of operations on a card that keeps keys

A run is any list of operations of the six wrappers, in any order and whatever they return, against
any party that keeps keys. `keys_refined` says that to the keys it is a run of their requests, and no
more: nothing but a presentation spends an attempt, nothing but a change of the right value replaces
one, and no key is mistaken for another. What holds of the requests then holds of the run.
-/

namespace MynaCard

open Dialogue

/-! ### Runs -/

/-- The keys before an operation, the operation, and its reply. -/
abbrev KeyEntry := Vault × (WrapperOperation × Reply)

section

variable {τ : Type} (answer : Bytes → τ → Answer × τ) (view : τ → KeyCard) (rsa : RsaCrate)
  (x509 : X509Crate) (pf : Platform) (fuel : ℕ)

/-- One operation, against the party. -/
def performed (op : WrapperOperation) (s : τ) : Reply × τ :=
  (op.report rsa x509 pf fuel).run.run answer s

/-- Operations one after the other, until one does not come back. -/
def keyEntries : List WrapperOperation → τ → List KeyEntry
  | [], _ => []
  | op :: ops, s =>
    let p := performed answer rsa x509 pf fuel op s
    ((view s).vault, (op, p.1)) :: if p.1.isLost then [] else keyEntries ops p.2

/-- The party after them. -/
def afterOperations : List WrapperOperation → τ → τ
  | [], s => s
  | op :: ops, s =>
    let p := performed answer rsa x509 pf fuel op s
    if p.1.isLost then p.2 else afterOperations ops p.2

end

/-- What an operation that got its reply does to the keys. -/
def KeyStep (v : Vault) (l : WrapperOperation × Reply) (v' : Vault) : Prop :=
  Vault.Serves v l.1.keyRequest l.2 v'

section

variable {τ : Type} {answer : Bytes → τ → Answer × τ} {view : τ → KeyCard}

theorem keys_execution (h : KeepsKeys answer view) (rsa : RsaCrate) (x509 : X509Crate)
    (pf : Platform) (fuel : ℕ) (ops : List WrapperOperation) (s : τ) :
    Execution KeyStep (view s).vault (keyEntries answer view rsa x509 pf fuel ops s)
      (view (afterOperations answer rsa x509 pf fuel ops s)).vault := by
  induction ops generalizing s with
  | nil => exact .nil _
  | cons op ops ih =>
    have hstep := op.serves fuel h rsa x509 pf s
    rw [keyEntries, afterOperations]
    by_cases hlost : (performed answer rsa x509 pf fuel op s).1.isLost = true
    · rw [if_pos hlost, if_pos hlost]
      exact .cons hstep (.nil _)
    · rw [if_neg hlost, if_neg hlost]
      exact .cons hstep (ih (performed answer rsa x509 pf fuel op s).2)

/-- The run is of the operations given, from the first on, and of all of them if each comes back. -/
theorem keyEntries_operations (rsa : RsaCrate) (x509 : X509Crate) (pf : Platform) (fuel : ℕ)
    (ops : List WrapperOperation) (s : τ) :
    (keyEntries answer view rsa x509 pf fuel ops s).map (fun e => e.2.1) <+: ops ∧
      ((∀ e ∈ keyEntries answer view rsa x509 pf fuel ops s, e.2.2.isLost = false) →
        (keyEntries answer view rsa x509 pf fuel ops s).map (fun e => e.2.1) = ops) := by
  induction ops generalizing s with
  | nil => exact ⟨List.prefix_rfl, fun _ => rfl⟩
  | cons op ops ih =>
    rw [keyEntries]
    by_cases hlost : (performed answer rsa x509 pf fuel op s).1.isLost = true
    · rw [if_pos hlost]
      refine ⟨List.prefix_append [op] ops, fun hall => ?_⟩
      rw [hall _ List.mem_cons_self] at hlost
      cases hlost
    · obtain ⟨hfront, hwhole⟩ := ih (performed answer rsa x509 pf fuel op s).2
      rw [if_neg hlost]
      refine ⟨(List.prefix_cons_inj op).mpr hfront, fun hall => ?_⟩
      rw [List.map_cons, hwhole fun e he => hall e (List.mem_cons_of_mem _ he)]

/-- **A run of the wrappers is a run of the keys.** Against any party that keeps keys, and from any
state of it, the operations' replies and what becomes of the keys are those of the operations'
requests one after the other. -/
theorem keys_refined (h : KeepsKeys answer view) (rsa : RsaCrate) (x509 : X509Crate)
    (pf : Platform) (fuel : ℕ) (ops : List WrapperOperation) (s : τ) :
    Execution KeyStep (view s).vault (keyEntries answer view rsa x509 pf fuel ops s)
        (view (afterOperations answer rsa x509 pf fuel ops s)).vault ∧
      (keyEntries answer view rsa x509 pf fuel ops s).map (fun e => e.2.1) <+: ops ∧
      ((∀ e ∈ keyEntries answer view rsa x509 pf fuel ops s, e.2.2.isLost = false) →
        (keyEntries answer view rsa x509 pf fuel ops s).map (fun e => e.2.1) = ops) :=
  ⟨keys_execution h rsa x509 pf fuel ops s, keyEntries_operations rsa x509 pf fuel ops s⟩

end

/-! ### One key -/

/-- The value a request presents to the EF. -/
def KeyRequest.presents (id : UInt16) : KeyRequest → Option Pin
  | .present id' value => if id' = id then some value else none
  | .replace id' currentPin _ => if id' = id then some currentPin else none
  | _ => none

/-- The value a request puts in the EF, if it goes through. -/
def KeyRequest.puts (id : UInt16) : KeyRequest → Option Pin
  | .replace id' _ newPin => if id' = id then some newPin else none
  | _ => none

/-- The value an operation presents to the key of an application. -/
def KeyEntry.presents (df : Bytes) (id : UInt16) (e : KeyEntry) : Option Pin :=
  if e.1.df = df then e.2.1.keyRequest.presents id else none

/-- The value an operation has put in the EF of an application. -/
def KeyEntry.puts (df : Bytes) (id : UInt16) (e : KeyEntry) : Option Pin :=
  if e.1.df = df ∧ e.2.2.isOk then e.2.1.keyRequest.puts id else none

section

variable {v v' : Vault} {request : KeyRequest} {r : Reply} {df : Bytes} {id : UInt16}

/-- Only a presentation to it can change a key. -/
theorem Vault.Serves.keys_of_not_presented (h : v.Serves request r v')
    (hnot : v.df = df → request.presents id = none) : v'.keys df id = v.keys df id := by
  have hset : ∀ id' key (value : Pin), (v.df = df → (if id' = id then some value else none) = none) →
      (v.set id' key).keys df id = v.keys df id := by
    intro id' key value hne
    rw [v.keys_set, if_neg]
    intro hsame
    have hnone := hne hsame.1.symm
    rw [if_pos hsame.2.symm] at hnone
    cases hnone
  cases h with
  | entered | notEntered | queried | notReported | noKey | noKeyToQuery | noKeyToReplace
  | nothing => rfl
  | presented id' value hkey => exact hset id' _ value hnot
  | replaced id' currentPin newPin hkey haccepted => exact hset id' _ currentPin hnot
  | notReplaced id' currentPin newPin e hkey haccepted => exact hset id' _ currentPin hnot
  | refused id' currentPin newPin hkey hrefused => exact hset id' _ currentPin hnot

/-- A presentation to a key: it is told the verdict, and the key is as it is after it, unless another
value was put in its place or turned down. -/
theorem Vault.Serves.keys_of_presented (h : v.Serves request r v') {value : Pin}
    (hvalue : request.presents id = some value) {key : Key} (hkey : v.key id = some key) :
    ((r = (key.present value.bytes).1.reply none ∨
        ((key.present value.bytes).1 = .accepted ∧ ∃ e, r = .error (.err e))) ∧
      (r.isOk = true → request.puts id = none) ∧
      v'.keys v.df id = some (key.present value.bytes).2) ∨
    ∃ new, r = .ok none ∧ request.puts id = some new ∧ (key.present value.bytes).1 = .accepted ∧
      v'.keys v.df id = some ((key.present value.bytes).2.replace new.bytes) := by
  have hself : ∀ {id' : UInt16} {value' : Pin} {key' : Key}, v.key id' = some key' →
      (if id' = id then some value' else none) = some value →
      id' = id ∧ value' = value ∧ key' = key := by
    intro id' value' key' hkey' hpresents
    by_cases hid : id' = id
    · rw [if_pos hid] at hpresents
      subst hid
      exact ⟨rfl, Option.some.inj hpresents, Option.some.inj (hkey'.symm.trans hkey)⟩
    · rw [if_neg hid] at hpresents
      cases hpresents
  have hnone : ∀ {id' : UInt16} {value' : Pin}, v.key id' = none →
      (if id' = id then some value' else none) ≠ some value := by
    intro id' value' hnone hpresents
    by_cases hid : id' = id
    · rw [← hid, hnone] at hkey
      cases hkey
    · rw [if_neg hid] at hpresents
      cases hpresents
  cases h with
  | entered | notEntered | queried | notReported | noKeyToQuery | nothing => cases hvalue
  | noKey id' value' e hnokey => exact absurd hvalue (hnone hnokey)
  | noKeyToReplace id' currentPin newPin e hnokey => exact absurd hvalue (hnone hnokey)
  | presented id' value' hkey' =>
    obtain ⟨rfl, rfl, rfl⟩ := hself hkey' hvalue
    exact .inl ⟨.inl rfl, fun _ => rfl, v.key_set_self _ _⟩
  | replaced id' currentPin newPin hkey' haccepted =>
    obtain ⟨rfl, rfl, rfl⟩ := hself hkey' hvalue
    exact .inr ⟨newPin, rfl, if_pos rfl, haccepted, v.key_set_self _ _⟩
  | notReplaced id' currentPin newPin e hkey' haccepted =>
    obtain ⟨rfl, rfl, rfl⟩ := hself hkey' hvalue
    exact .inl ⟨.inr ⟨haccepted, e, rfl⟩, fun hok => (by cases hok), v.key_set_self _ _⟩
  | refused id' currentPin newPin hkey' hrefused =>
    obtain ⟨rfl, rfl, rfl⟩ := hself hkey' hvalue
    refine .inl ⟨.inl rfl, fun hok => ?_, v.key_set_self _ _⟩
    obtain ⟨e, he⟩ := Verdict.reply_error_of_ne (none : Option Retries) hrefused
    rw [he] at hok
    cases hok

/-- What a presentation to a key is told. -/
theorem Vault.Serves.reply_of_present {value : Pin} (h : v.Serves (.present id value) r v')
    {key : Key} (hkey : v.key id = some key) : r = (key.present value.bytes).1.reply none := by
  cases h with
  | presented id value hkey' =>
    obtain rfl := Option.some.inj (hkey'.symm.trans hkey)
    rfl
  | noKey id value e hnone =>
    rw [hnone] at hkey
    cases hkey

end

/-! ### Wrong values -/

theorem KeyEntry.df_of_presents {df : Bytes} {id : UInt16} {e : KeyEntry} {pin : Pin}
    (h : KeyEntry.presents df id e = some pin) :
    e.1.df = df ∧ e.2.1.keyRequest.presents id = some pin := by
  unfold KeyEntry.presents at h
  by_cases hdf : e.1.df = df
  · rw [if_pos hdf] at h
    exact ⟨hdf, h⟩
  · rw [if_neg hdf] at h
    cases h

/-- The steps guard every key. -/
theorem keys_guards (df : Bytes) (id : UInt16) :
    Guards KeyStep (fun v => v.keys df id)
      fun e => (KeyEntry.presents df id e).map Pin.bytes where
  leaves v l v' h hpresents := by
    apply Vault.Serves.keys_of_not_presented h
    intro hdf
    have hnone := Option.map_eq_none_iff.mp hpresents
    rwa [KeyEntry.presents, if_pos hdf] at hnone
  refuses v l v' value key h hpresents hkey hrefused := by
    obtain ⟨pin, hpin, rfl⟩ := Option.map_eq_some_iff.mp hpresents
    obtain ⟨hdf, hrequest⟩ := KeyEntry.df_of_presents hpin
    replace hdf : v.df = df := hdf
    subst hdf
    obtain ⟨-, -, hkeys⟩ | ⟨new, -, -, haccepted, -⟩ :=
      Vault.Serves.keys_of_presented h hrequest hkey
    · exact hkeys
    · exact absurd haccepted hrefused

/-- How often a key of an application is presented a value. -/
def attempts (df : Bytes) (id : UInt16) (tr : List KeyEntry) : ℕ :=
  tr.countP fun e => (KeyEntry.presents df id e).isSome

/-- What a presentation that cannot be let in is answered. -/
theorem KeyStep.reply_of_refused {v v' : Vault} {l : WrapperOperation × Reply} {df : Bytes}
    {id : UInt16} {key : Key} {pin : Pin} (h : KeyStep v l v')
    (hpin : KeyEntry.presents df id (v, l) = some pin) (hkey : v.keys df id = some key)
    (hrefused : (key.present pin.bytes).1 ≠ .accepted) :
    l.2 = (key.present pin.bytes).1.reply none := by
  obtain ⟨hdf, hrequest⟩ := KeyEntry.df_of_presents hpin
  replace hdf : v.df = df := hdf
  subst hdf
  obtain ⟨hreply | ⟨haccepted, -⟩, -, -⟩ | ⟨new, -, -, haccepted, -⟩ :=
    Vault.Serves.keys_of_presented h hrequest hkey
  · exact hreply
  · exact absurd haccepted hrefused
  · exact absurd haccepted hrefused

/-- **A key locks.** However the run goes on otherwise, and whatever is done to the other keys in
between, a key whose attempts are counted answers each wrong value with one attempt less, and once
they are used up it lets nobody in any more, the right value included, and is never replaced. -/
theorem keys_lock {τ : Type} {answer : Bytes → τ → Answer × τ} {view : τ → KeyCard}
    (h : KeepsKeys answer view) (rsa : RsaCrate) (x509 : X509Crate) (pf : Platform)
    (fuel : ℕ) (ops : List WrapperOperation) (s : τ) {df : Bytes} {id : UInt16} {key : Key} {n : ℕ}
    (hkey : (view s).vault.keys df id = some key) (hleft : key.left = some n)
    {tr₁ tr₂ : List KeyEntry} (htr : keyEntries answer view rsa x509 pf fuel ops s = tr₁ ++ tr₂)
    (hwrong : ∀ e ∈ tr₁, ∀ pin, KeyEntry.presents df id e = some pin → pin.bytes ≠ key.value) :
    (∀ before e after, tr₁ = before ++ e :: after → (KeyEntry.presents df id e).isSome = true →
      e.2.2 = wrongReply (n - attempts df id before)) ∧
    (n ≤ attempts df id tr₁ →
      (∀ e ∈ tr₂, (KeyEntry.presents df id e).isSome = true →
        e.2.2 = .error (.err .pinBlocked)) ∧
      ∃ key', (view (afterOperations answer rsa x509 pf fuel ops s)).vault.keys df id = some key' ∧
        key'.value = key.value ∧ key'.left = some 0) := by
  have hrun := keys_execution h rsa x509 pf fuel ops s
  rw [htr] at hrun
  obtain ⟨hbefore, hafter⟩ := (keys_guards df id).lock hrun hkey hleft (by
    intro e he value hvalue
    obtain ⟨pin, hpin, rfl⟩ := Option.map_eq_some_iff.mp hvalue
    exact hwrong e he pin hpin)
  simp only [Option.isSome_map] at hbefore hafter
  refine ⟨?_, ?_⟩
  · intro before e after htr₁ hpresents
    obtain ⟨key', hkey', hvalue, hleft'⟩ := hbefore before e after htr₁
    obtain ⟨pin, hpin⟩ := Option.isSome_iff_exists.mp hpresents
    have hmem : e ∈ tr₁ := htr₁ ▸ List.mem_append_right _ List.mem_cons_self
    obtain ⟨v', hstep⟩ := hrun.step_of_mem (List.mem_append_left tr₂ hmem)
    have hne : pin.bytes ≠ key'.value := hvalue ▸ hwrong e hmem pin hpin
    have hnot : (key'.present pin.bytes).1 ≠ .accepted := by
      intro haccepted
      exact hne ((key'.present_accepted_iff pin.bytes).mp haccepted).1
    exact (hstep.reply_of_refused hpin hkey' hnot).trans (Verdict.reply_wrong none hne hleft')
  · intro hn
    obtain ⟨key', hvalue, hleft', hlast, hall⟩ := hafter hn
    refine ⟨?_, key', hlast, hvalue, hleft'⟩
    intro e he hpresents
    obtain ⟨pin, hpin⟩ := Option.isSome_iff_exists.mp hpresents
    obtain ⟨v', hstep⟩ := hrun.step_of_mem (List.mem_append_right tr₁ he)
    have hblocked := key'.present_of_used_up pin.bytes hleft'
    have hreply := hstep.reply_of_refused hpin (hall e he) (by rw [hblocked]; simp)
    rw [hreply, hblocked]
    rfl

/-! ### The value a key holds -/

/-- The value the run leaves in the EF, `value` being there before. -/
def lastPut (df : Bytes) (id : UInt16) (value : Bytes) (tr : List KeyEntry) : Bytes :=
  tr.foldl (fun value e => (KeyEntry.puts df id e).elim value Pin.bytes) value

section

variable {v v' : Vault} {tr : List KeyEntry} {df : Bytes} {id : UInt16} {key : Key}

theorem KeyEntry.puts_of_not_presents {e : KeyEntry} (h : KeyEntry.presents df id e = none) :
    KeyEntry.puts df id e = none := by
  unfold KeyEntry.puts
  by_cases hdf : e.1.df = df ∧ e.2.2.isOk = true
  · rw [if_pos hdf]
    rw [KeyEntry.presents, if_pos hdf.1] at h
    cases hrequest : e.2.1.keyRequest with
    | replace id' currentPin newPin =>
      rw [hrequest] at h
      by_cases hid : id' = id
      · rw [KeyRequest.presents, if_pos hid] at h
        cases h
      · exact if_neg hid
    | enter | present | query | nothing => rfl
  · exact if_neg hdf

/-- A step that is let in presented the value the key holds, and the key holds the value it held
unless the step put another there. -/
theorem KeyStep.value {l : WrapperOperation × Reply} (h : KeyStep v l v')
    (hkey : v.keys df id = some key) :
    (∃ key', v'.keys df id = some key' ∧
      key'.value = (KeyEntry.puts df id (v, l)).elim key.value Pin.bytes) ∧
    ∀ pin, KeyEntry.presents df id (v, l) = some pin → l.2 = .ok none → pin.bytes = key.value := by
  cases hpresents : KeyEntry.presents df id (v, l) with
  | none =>
    refine ⟨⟨key, ?_, ?_⟩, fun pin hpin => (by cases hpin)⟩
    · rw [← hkey]
      apply Vault.Serves.keys_of_not_presented h
      intro hdf
      rwa [KeyEntry.presents, if_pos hdf] at hpresents
    · rw [KeyEntry.puts_of_not_presents hpresents]
      rfl
  | some pin =>
    obtain ⟨hdf, hrequest⟩ := KeyEntry.df_of_presents hpresents
    obtain ⟨hreply, hputs, hkeys⟩ | ⟨new, hreply, hputs, haccepted, hkeys⟩ :=
      Vault.Serves.keys_of_presented h hrequest (show v.keys v.df id = _ from hdf ▸ hkey)
    · rw [show v.df = df from hdf] at hkeys
      have hnone : KeyEntry.puts df id (v, l) = none := by
        unfold KeyEntry.puts
        by_cases hok : v.df = df ∧ l.2.isOk = true
        · rw [if_pos hok]
          exact hputs hok.2
        · exact if_neg hok
      refine ⟨⟨_, hkeys, ?_⟩, ?_⟩
      · rw [hnone, key.present_value]
        rfl
      · intro pin' hpin' hok
        obtain rfl := Option.some.inj hpin'
        obtain hreply | ⟨-, e, he⟩ := hreply
        · by_contra hne
          have hnot : (key.present pin.bytes).1 ≠ .accepted := by
            intro haccepted
            exact hne ((key.present_accepted_iff pin.bytes).mp haccepted).1
          obtain ⟨e, he⟩ := Verdict.reply_error_of_ne (none : Option Retries) hnot
          rw [hok, he] at hreply
          cases hreply
        · rw [hok] at he
          cases he
    · rw [show v.df = df from hdf] at hkeys
      have hsome : KeyEntry.puts df id (v, l) = some new := by
        rw [KeyEntry.puts, if_pos ⟨hdf, by rw [hreply]; rfl⟩]
        exact hputs
      refine ⟨⟨_, hkeys, by rw [hsome]; rfl⟩, ?_⟩
      intro pin' hpin' _
      obtain rfl := Option.some.inj hpin'
      exact ((key.present_accepted_iff pin.bytes).mp haccepted).1

theorem keys_value (h : Execution KeyStep v tr v') (hkey : v.keys df id = some key) :
    ∃ key', v'.keys df id = some key' ∧ key'.value = lastPut df id key.value tr := by
  induction h generalizing key with
  | nil v => exact ⟨key, hkey, rfl⟩
  | @cons v v₁ v' l tr hstep hrest ih =>
    obtain ⟨⟨key₁, hkey₁, hvalue₁⟩, -⟩ := hstep.value hkey
    obtain ⟨key', hkey', hvalue'⟩ := ih hkey₁
    refine ⟨key', hkey', ?_⟩
    rw [hvalue', hvalue₁]
    rfl

/-- A step that puts a value in an EF was let in by the key there, and leaves it attempts. -/
theorem KeyStep.put {l : WrapperOperation × Reply} (h : KeyStep v l v') {new : Pin}
    (hputs : KeyEntry.puts df id (v, l) = some new) :
    ∃ key', v'.keys df id = some key' ∧ key'.value = new.bytes ∧ key'.left ≠ some 0 := by
  have hentry : (v.df = df ∧ l.2.isOk = true) ∧ l.1.keyRequest.puts id = some new := by
    unfold KeyEntry.puts at hputs
    by_cases hdf : v.df = df ∧ l.2.isOk = true
    · rw [if_pos hdf] at hputs
      exact ⟨hdf, hputs⟩
    · rw [if_neg hdf] at hputs
      cases hputs
  obtain ⟨⟨hdf, hok⟩, hrequest⟩ := hentry
  subst hdf
  unfold KeyStep at h
  generalize l.1.keyRequest = request at h hrequest
  generalize l.2 = r at h hok
  cases h with
  | entered | notEntered | presented | queried | notReported | noKey | noKeyToQuery | nothing =>
    cases hrequest
  | notReplaced | noKeyToReplace => cases hok
  | refused id' currentPin newPin hkey hrefused =>
    obtain ⟨e, he⟩ := Verdict.reply_error_of_ne (none : Option Retries) hrefused
    rw [he] at hok
    cases hok
  | replaced id' currentPin newPin hkey haccepted =>
    have hput : (if id' = id then some newPin else none) = some new := hrequest
    by_cases hid : id' = id
    · rw [if_pos hid] at hput
      obtain rfl := Option.some.inj hput
      subst hid
      refine ⟨_, v.key_set_self _ _, rfl, ?_⟩
      rw [Guarded.replace_left]
      exact Guarded.present_accepted_left_ne _ _ haccepted
    · rw [if_neg hid] at hput
      cases hput

/-- A run that presents nothing to a key leaves it as it is. -/
theorem keys_untouched (h : Execution KeyStep v tr v')
    (hnot : ∀ e ∈ tr, KeyEntry.presents df id e = none) : v'.keys df id = v.keys df id := by
  refine h.invariant (I := fun w => w.keys df id = v.keys df id) rfl hnot ?_
  intro a l b ha hl hstep
  rw [← ha]
  apply Vault.Serves.keys_of_not_presented hstep
  intro hdf
  rwa [KeyEntry.presents, if_pos hdf] at hl

end

section

variable {τ : Type} {answer : Bytes → τ → Answer × τ} {view : τ → KeyCard}
  (h : KeepsKeys answer view) (rsa : RsaCrate) (x509 : X509Crate) (pf : Platform)
  (fuel : ℕ) (ops : List WrapperOperation) (s : τ) {df : Bytes} {id : UInt16}

include h

/-- **Only the value last put in its EF is let in.** In any run, an operation that presents a value to
a key and succeeds presented the one that the last successful change before it put there, or the one
that was there from the start, and at the end the key holds the one that the last change put there. -/
theorem keys_let_in {key : Key} (hkey : (view s).vault.keys df id = some key) :
    (∀ before e after pin,
      keyEntries answer view rsa x509 pf fuel ops s = before ++ e :: after →
      KeyEntry.presents df id e = some pin → e.2.2 = .ok none →
      pin.bytes = lastPut df id key.value before) ∧
    ∃ key', (view (afterOperations answer rsa x509 pf fuel ops s)).vault.keys df id = some key' ∧
      key'.value = lastPut df id key.value (keyEntries answer view rsa x509 pf fuel ops s) := by
  have hrun := keys_execution h rsa x509 pf fuel ops s
  refine ⟨?_, keys_value hrun hkey⟩
  intro before e after pin htr hpresents hok
  rw [htr] at hrun
  obtain ⟨m, hbefore, hafter⟩ := hrun.split
  obtain ⟨key', hkey', hvalue⟩ := keys_value hbefore hkey
  cases hafter with
  | cons hstep hrest =>
    rw [← hvalue]
    exact (hstep.value hkey').2 pin hpresents hok

/-- **A changed key lets in the new value and no other**: once a change of a key has succeeded, the
next operation to verify that key, whatever came in between, succeeds just when it presents the new
value. -/
theorem keys_changed {before between after : List KeyEntry} {change verify : KeyEntry} {new pin : Pin}
    (htr : keyEntries answer view rsa x509 pf fuel ops s =
      before ++ change :: (between ++ verify :: after))
    (hputs : KeyEntry.puts df id change = some new)
    (hbetween : ∀ e ∈ between, KeyEntry.presents df id e = none) (hdf : verify.1.df = df)
    (hverify : verify.2.1.keyRequest = .present id pin) :
    verify.2.2 = .ok none ↔ pin.bytes = new.bytes := by
  have hrun := keys_execution h rsa x509 pf fuel ops s
  rw [htr] at hrun
  obtain ⟨m, -, hchange⟩ := hrun.split
  cases hchange with
  | cons hstep hrest =>
    obtain ⟨key, hkey, hvalue, hleft⟩ := hstep.put hputs
    obtain ⟨m', huntouched, hlast⟩ := hrest.split
    rw [← keys_untouched huntouched hbetween] at hkey
    cases hlast with
    | @cons _ m'' _ l _ hstep' hrest' =>
      have hserves : m'.Serves (.present id pin) l.2 m'' := by
        rw [← show l.1.keyRequest = .present id pin from hverify]
        exact hstep'
      rw [hserves.reply_of_present (show m'.keys m'.df id = _ from hdf ▸ hkey), ← hvalue,
        Verdict.reply_eq_ok_iff, key.present_accepted_iff]
      exact and_iff_left hleft

end

/-! ### A run -/

/-- The PIN `1111`. -/
def pin1111 : Pin := ⟨[0x31, 0x31, 0x31, 0x31], by decide, by decide, by decide +kernel⟩

/-- The key `4321`, with two attempts left of three. -/
def key4321 : Key := ⟨pin4321.bytes, some ⟨3, 2, by decide, by decide⟩⟩

/-- A card with that key in two of its applications. -/
def twoKeys : KeyCard :=
  ⟨⟨[], fun df id =>
    if (df = CommonAp.df ∧ id = CommonAp.Ef.pin) ∨ (df = TextAp.df ∧ id = TextAp.Ef.pin) then
      some key4321
    else none⟩, none, false⟩

/-- The key of the common card application is presented wrong, changed by its right value in the other
application, and presented wrong and then right. -/
def crossed : List WrapperOperation :=
  [.common .select, .common (.verifyPin pin1111), .text .select,
    .text (.changePin pin4321 pin1111), .text (.verifyPin pin1111), .common .select,
    .common .pinRetries, .common (.verifyPin pin1111), .common (.verifyPin pin4321)]

/-- The card of `twoKeys` as a party. -/
def twoKeysCard : Bytes → KeyCard → Answer × KeyCard :=
  KeyCard.transmit [CommonAp.df, TextAp.df]

def crossedEntries : List KeyEntry :=
  keyEntries twoKeysCard (fun card => card) .pkcs1 .blank .checked 0 crossed twoKeys

theorem keys_refined_crossed :
    Execution KeyStep twoKeys.vault crossedEntries
        (afterOperations twoKeysCard .pkcs1 .blank .checked 0 crossed twoKeys).vault ∧
      crossedEntries.map (fun e => e.2.1) = crossed := by
  obtain ⟨hrun, -, hwhole⟩ := keys_refined (KeyCard.transmit_keepsKeys [CommonAp.df, TextAp.df])
    .pkcs1 .blank .checked 0 crossed twoKeys
  have hback : crossedEntries.all (fun e => e.2.2.isLost = false) = true := by decide +kernel
  exact ⟨hrun, hwhole fun e he => of_decide_eq_true (List.all_eq_true.mp hback e he)⟩

/-- After two wrong values the right one is not let in, though the other application's key was
changed and verified in between. -/
theorem keys_lock_crossed :
    ((crossedEntries.drop 8).any fun e =>
        (KeyEntry.presents CommonAp.df CommonAp.Ef.pin e).isSome) = true ∧
      ∀ e ∈ crossedEntries.drop 8,
        (KeyEntry.presents CommonAp.df CommonAp.Ef.pin e).isSome = true →
          e.2.2 = .error (.err .pinBlocked) := by
  have hall : (crossedEntries.take 8).all (fun e =>
      (KeyEntry.presents CommonAp.df CommonAp.Ef.pin e).all fun pin =>
        decide (pin.bytes ≠ key4321.value)) = true := by
    decide +kernel
  have hkey : twoKeys.vault.keys CommonAp.df CommonAp.Ef.pin = some key4321 := by decide
  have hleft : key4321.left = some 2 := rfl
  refine ⟨by decide +kernel, ?_⟩
  refine ((keys_lock (KeyCard.transmit_keepsKeys [CommonAp.df, TextAp.df]) .pkcs1 .blank .checked 0
    crossed twoKeys hkey hleft (List.take_append_drop 8 _).symm ?_).2 (by decide +kernel)).1
  intro e he pin hpin
  have hone := List.all_eq_true.mp hall e he
  rw [hpin] at hone
  exact of_decide_eq_true hone

/-- The text application lets somebody in twice: with `4321`, which is there from the start, and then
with the `1111` that the change puts there. -/
theorem keys_let_in_crossed :
    ((crossedEntries.filter fun e => e.2.2.isOk).filterMap
        (KeyEntry.presents TextAp.df TextAp.Ef.pin)).map Pin.bytes =
        [pin4321.bytes, pin1111.bytes] ∧
      (∀ before e after pin, crossedEntries = before ++ e :: after →
        KeyEntry.presents TextAp.df TextAp.Ef.pin e = some pin → e.2.2 = .ok none →
        pin.bytes = lastPut TextAp.df TextAp.Ef.pin key4321.value before) ∧
      ∃ key', (afterOperations twoKeysCard .pkcs1 .blank .checked 0 crossed twoKeys).vault.keys
          TextAp.df TextAp.Ef.pin = some key' ∧
        key'.value = lastPut TextAp.df TextAp.Ef.pin key4321.value crossedEntries :=
  ⟨by decide +kernel, keys_let_in (KeyCard.transmit_keepsKeys [CommonAp.df, TextAp.df]) .pkcs1 .blank
    .checked 0 crossed twoKeys
    (show twoKeys.vault.keys TextAp.df TextAp.Ef.pin = some key4321 by decide)⟩

/-- The change in the other application puts `1111` there, so `1111` is let in. -/
theorem keys_changed_crossed : crossedEntries[4]?.map (fun e => e.2.2) = some (.ok none) := by
  have hlen : crossedEntries.length = 9 := by decide +kernel
  have htr : crossedEntries = crossedEntries.take 3 ++
      crossedEntries[3] :: ([] ++ crossedEntries[4] :: crossedEntries.drop 5) := by
    rw [List.nil_append, ← List.drop_eq_getElem_cons, ← List.drop_eq_getElem_cons,
      List.take_append_drop]
  have hputs : crossedEntries[3]?.bind (KeyEntry.puts TextAp.df TextAp.Ef.pin) = some pin1111 := by
    decide +kernel
  rw [List.getElem?_eq_getElem (by omega), Option.bind_some] at hputs
  have hdf : crossedEntries[4]?.map (fun e => e.1.df) = some TextAp.df := by decide +kernel
  rw [List.getElem?_eq_getElem (by omega), Option.map_some, Option.some.injEq] at hdf
  rw [List.getElem?_eq_getElem (by omega), Option.map_some, Option.some.injEq]
  exact (keys_changed (KeyCard.transmit_keepsKeys [CommonAp.df, TextAp.df]) .pkcs1 .blank .checked 0
    crossed twoKeys htr hputs (fun e he => (by cases he)) hdf
    (show crossedEntries[4].2.1.keyRequest = .present TextAp.Ef.pin pin1111 from rfl)).mpr rfl

/-- The card of `twoKeys` with the common card application selected. -/
def commonSelected : KeyCard := { twoKeys with vault := twoKeys.vault.enter CommonAp.df }

/-- The common card application's PIN, by its short identifier. -/
theorem sfi_agrees_common :
    ((Card.verifySfi 0 ⟨0x1C, by decide, by decide⟩ pin1111).run.run twoKeysCard commonSelected).1 =
        ((Ap.verifyKey 0 0x1C pin1111).run.run twoKeysCard commonSelected).1 ∧
      ((Card.verifySfi 0 ⟨0x1C, by decide, by decide⟩ pin1111).run.run twoKeysCard
          commonSelected).2.vault =
        ((Ap.verifyKey 0 0x1C pin1111).run.run twoKeysCard commonSelected).2.vault ∧
      ∀ x ∈ [Card.pinRetriesSfi 0 ⟨0x1C, by decide, by decide⟩, Ap.keyRetries 0 0x1C],
        ((x.run.run twoKeysCard commonSelected).1 = .ok key4321.retries ∨
            (x.run.run twoKeysCard commonSelected).1 = .ok .notReported) ∧
          (x.run.run twoKeysCard commonSelected).2.vault = commonSelected.vault :=
  sfi_agrees 0 (KeyCard.transmit_keepsKeys [CommonAp.df, TextAp.df]) ⟨0x1C, by decide, by decide⟩
    pin1111 commonSelected (show commonSelected.vault.key 0x1C = some key4321 by decide)

end MynaCard
