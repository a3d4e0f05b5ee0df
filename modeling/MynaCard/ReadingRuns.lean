import MynaCard.FilesCard
import MynaCard.Readings

/-!
# Who is shown a file

Runs of the wrappers' operations against a card whose keys open its files. **A file is shown to the
holder of one of its keys** (`shown_to_holder`): once a key of it was presented and accepted, and as
long as the application is not left and the key not presented wrong. **A file that a key guards is
shown to no one else** (`shown_since`): one of its keys was presented with its right value since the
application was entered, or was unlocked from the start.

The crate documents two ways for a program to be sure that it was its own presentation that opened
a file: to enter the application from the master file (`shown_after_entering`), and to read the file
before (`shown_after_refusal`).
-/

namespace MynaCard

open Dialogue

/-! ### Runs -/

/-- A state of the party, the operation performed in it, and its reply. -/
abbrev Entry (τ : Type) := τ × (WrapperOperation × Reply)

section

variable {τ : Type} (answer : Bytes → τ → Answer × τ) (rsa : RsaCrate) (x509 : X509Crate)
  (pf : Platform) (fuel : ℕ)

/-- Operations one after the other, until one does not come back. -/
def entries : List WrapperOperation → τ → List (Entry τ)
  | [], _ => []
  | op :: ops, s =>
    let p := performed answer rsa x509 pf fuel op s
    (s, (op, p.1)) :: if p.1.isLost then [] else entries ops p.2

/-- One operation that got its reply. -/
def Performs (s : τ) (l : WrapperOperation × Reply) (s' : τ) : Prop :=
  performed answer rsa x509 pf fuel l.1 s = (l.2, s')

theorem entries_execution (ops : List WrapperOperation) (s : τ) :
    Execution (Performs answer rsa x509 pf fuel) s (entries answer rsa x509 pf fuel ops s)
      (afterOperations answer rsa x509 pf fuel ops s) := by
  induction ops generalizing s with
  | nil => exact .nil s
  | cons op ops ih =>
    rw [entries, afterOperations]
    by_cases hlost : (performed answer rsa x509 pf fuel op s).1.isLost = true
    · rw [if_pos hlost, if_pos hlost]
      exact .cons rfl (.nil _)
    · rw [if_neg hlost, if_neg hlost]
      exact .cons rfl (ih _)

end

/-! ### What an entry does to the security status -/

section

variable {τ : Type} (view : τ → KeyCard)

/-- Another application is selected. -/
def Leaves (e : Entry τ) : Prop :=
  ∃ df, e.2.1.keyRequest = .enter df ∧ e.2.2 = .ok none ∧ df ≠ (view e.1).vault.df

/-- A presentation does not select an application. -/
theorem not_leaves_of_presents {k : UInt16} {e : Entry τ} {pin : Pin}
    (h : e.2.1.keyRequest.presents k = some pin) : ¬ Leaves view e := by
  intro hleaves
  obtain ⟨df, henter, -⟩ := hleaves
  rw [henter] at h
  cases h

/-- The key is presented with its right value, and accepted. -/
def Accepts (k : UInt16) (e : Entry τ) : Prop :=
  ∃ pin key, e.2.1.keyRequest.presents k = some pin ∧ (view e.1).vault.key k = some key ∧
    (key.present pin.bytes).1 = .accepted

/-- Then no application is selected. -/
theorem Accepts.not_leaves {view : τ → KeyCard} {k : UInt16} {e : Entry τ}
    (h : Accepts view k e) : ¬ Leaves view e := by
  obtain ⟨pin, key, hpin, -⟩ := h
  exact not_leaves_of_presents view hpin

/-- The operation presents the key, and its caller is told that all went well. -/
def LogsIn (k : UInt16) (e : Entry τ) : Prop :=
  (e.2.1.keyRequest.presents k).isSome = true ∧ e.2.2 = .ok none

/-- The operation presents the key, and its caller is told of an error. -/
def Fails (k : UInt16) (e : Entry τ) : Prop :=
  (e.2.1.keyRequest.presents k).isSome = true ∧ e.2.2 ≠ .ok none

/-- The operation neither selects an application nor presents the key. -/
def Quiet (k : UInt16) (e : Entry τ) : Bool :=
  (e.2.1.keyRequest.presents k).isNone &&
    match e.2.1.keyRequest with
    | .enter _ => false
    | _ => true

theorem Quiet.stays {k : UInt16} {e : Entry τ} (h : Quiet k e = true) :
    ¬ Leaves view e ∧ ¬ Fails k e := by
  rw [Quiet, Bool.and_eq_true, Option.isNone_iff_eq_none] at h
  obtain ⟨hnone, hstays⟩ := h
  refine ⟨?_, ?_⟩
  · intro hleaves
    obtain ⟨df, henter, -⟩ := hleaves
    rw [henter] at hstays
    cases hstays
  · intro hfails
    rw [Fails, hnone] at hfails
    cases hfails.1

/-- A run whose second operation presents the key with success, and whose later ones are quiet. -/
theorem exists_login {k : UInt16} {df : Bytes} {log : List (Entry τ)}
    (hsecond : (log[1]?.map fun e => ((view e.1).vault.df, (e.2.1.keyRequest.presents k).isSome,
      e.2.2)) = some (df, true, .ok none))
    (hquiet : (log.drop 2).all (Quiet k) = true) :
    ∃ before e after, log = before ++ e :: after ∧ (view e.1).vault.df = df ∧ LogsIn k e ∧
      ∀ e' ∈ after, ¬ Leaves view e' ∧ ¬ Fails k e' := by
  obtain ⟨e, he, hsecond⟩ := Option.map_eq_some_iff.mp hsecond
  rw [Prod.mk.injEq, Prod.mk.injEq] at hsecond
  obtain ⟨hdf, hlogs⟩ := hsecond
  obtain ⟨hlen, rfl⟩ := List.getElem?_eq_some_iff.mp he
  refine ⟨log.take 1, log[1], log.drop 2, ?_, hdf, hlogs,
    fun e' he' => Quiet.stays view (List.all_eq_true.mp hquiet e' he')⟩
  rw [← List.drop_eq_getElem_cons, List.take_append_drop]

variable {v v' : Vault} {before after : Set UInt16} {request : KeyRequest} {r : Reply}

/-- The selected application is another one after the selection of another one only. -/
theorem Vault.Serves.df_eq_iff (h : v.Serves request r v') :
    v'.df = v.df ↔ ¬ ∃ df, request = .enter df ∧ r = .ok none ∧ df ≠ v.df := by
  cases h with
  | entered df =>
    show df = v.df ↔ _
    simp
  | _ => simp

/-- The application that is selected is the one that was entered. -/
theorem Vault.Serves.df_of_entered {df : Bytes} (h : v.Serves (.enter df) (.ok none) v') :
    v'.df = df := by
  cases h with
  | entered => rfl

/-- Where there is no key, the caller is told of an error. -/
theorem Vault.Serves.reply_of_no_key (h : v.Serves request r v') {k : UInt16} {pin : Pin}
    (hrequest : request.presents k = some pin) (hkey : v.key k = none) :
    ∃ e, r = .error (.err e) := by
  have hnot : ∀ {id : UInt16} {key : Key} {pin' : Pin}, v.key id = some key →
      (if id = k then some pin' else none) ≠ some pin := by
    intro id key pin' hsome hpresents
    split at hpresents
    · rename_i hid
      rw [hid, hkey] at hsome
      cases hsome
    · cases hpresents
  cases h with
  | entered | notEntered | queried | notReported | noKeyToQuery | nothing => cases hrequest
  | noKey _ _ e | noKeyToReplace _ _ _ e => exact ⟨e, rfl⟩
  | presented _ _ hkey' | replaced _ _ _ hkey' | notReplaced _ _ _ _ hkey' | refused _ _ _ hkey' =>
    exact absurd hrequest (hnot hkey')

theorem Unlocking.presented (h : Unlocking v v' before after request) {k : UInt16} {pin : Pin}
    (hrequest : request.presents k = some pin) : v.Presented k pin.bytes before after := by
  cases request with
  | present id value | replace id value _ =>
    rw [KeyRequest.presents] at hrequest
    split at hrequest
    · rename_i hid
      obtain rfl := Option.some.inj hrequest
      exact hid ▸ h
    · cases hrequest
  | _ => cases hrequest

theorem Unlocking.not_presented (h : Unlocking v v' before after request) {k : UInt16}
    (hrequest : request.presents k = none) :
    k ∈ after ↔ k ∈ before ∧ ∀ df, request = .enter df → v'.df = v.df := by
  cases request with
  | enter df =>
    unfold Unlocking at h
    rw [h]
    by_cases hdf : v'.df = v.df
    · rw [if_pos hdf]
      exact (and_iff_left fun _ _ => hdf).symm
    · rw [if_neg hdf]
      exact iff_of_false (Set.notMem_empty k) fun hand => hdf (hand.2 df rfl)
  | present id value | replace id value _ =>
    have hid : k ≠ id := by
      intro heq
      rw [KeyRequest.presents, if_pos heq.symm] at hrequest
      cases hrequest
    refine (Vault.Presented.other h hid).trans (and_iff_left ?_).symm
    intro df henter
    cases henter
  | query _ | nothing =>
    refine (Set.ext_iff.mp h k).trans (and_iff_left ?_).symm
    intro df henter
    cases henter

end

section

variable {τ : Type} {held : Holdings} {answer : Bytes → τ → Answer × τ} {view : τ → KeyCard}
  {unlocked : τ → Set UInt16} (h : GuardsFiles held answer view unlocked) {rsa : RsaCrate}
  {x509 : X509Crate} {pf : Platform} {fuel : ℕ} {a b : τ} {l : WrapperOperation × Reply}
  (hstep : Performs answer rsa x509 pf fuel a l b) {k : UInt16}

include h hstep

theorem Performs.serves : Vault.Serves (view a).vault l.1.keyRequest l.2 (view b).vault := by
  have hserves := l.1.serves fuel h.toKeepsKeys rsa x509 pf a
  have hrun : (l.1.report rsa x509 pf fuel).run.run answer a = (l.2, b) := hstep
  rwa [hrun] at hserves

theorem Performs.unlocking :
    Unlocking (view a).vault (view b).vault (unlocked a) (unlocked b) l.1.keyRequest := by
  have hunlocking := h.unlocking_of_keyShape fuel (l.1.keyShape rsa x509 pf fuel) a
  have hrun : (counterOf (l.1.perform rsa x509 pf fuel)).run.run answer a = (l.2, b) := hstep
  rwa [hrun] at hunlocking

/-- The selected application stays the same, unless it is left. -/
theorem Performs.df_eq_iff : (view b).vault.df = (view a).vault.df ↔ ¬ Leaves view (a, l) :=
  (Performs.serves h hstep).df_eq_iff

/-- What is unlocked after an entry was accepted by it, or unlocked before. -/
theorem Performs.accepts_or_kept (hk : k ∈ unlocked b) :
    Accepts view k (a, l) ∨ k ∈ unlocked a ∧ ¬ Leaves view (a, l) := by
  have hunlocking := Performs.unlocking h hstep
  cases hrequest : l.1.keyRequest.presents k with
  | none =>
    obtain ⟨hbefore, hdf⟩ := (hunlocking.not_presented hrequest).mp hk
    refine .inr ⟨hbefore, ?_⟩
    intro hleaves
    obtain ⟨df, henter, hreply⟩ := hleaves
    exact (Performs.df_eq_iff h hstep).mp (hdf df henter) ⟨df, henter, hreply⟩
  | some pin =>
    have hpresented := hunlocking.presented hrequest
    have hstays : ¬ Leaves view (a, l) := not_leaves_of_presents view hrequest
    unfold Vault.Presented at hpresented
    cases hkey : (view a).vault.key k with
    | none =>
      rw [hkey] at hpresented
      exact .inr ⟨hpresented ▸ hk, hstays⟩
    | some key =>
      rw [hkey] at hpresented
      by_cases haccepted : (key.present pin.bytes).1 = .accepted
      · exact .inl ⟨pin, key, hrequest, hkey, haccepted⟩
      · exact .inr ⟨hpresented.refuses haccepted hk, hstays⟩

/-- A presentation went well for its caller exactly if the value was right, or if it was and the new one
was turned down. -/
theorem Performs.accepts_of_logsIn (hlogs : LogsIn k (a, l)) : Accepts view k (a, l) := by
  obtain ⟨hpresents, hreply⟩ := hlogs
  obtain ⟨pin, hpin⟩ := Option.isSome_iff_exists.mp hpresents
  have hserves := Performs.serves h hstep
  rw [show l.2 = .ok none from hreply] at hserves
  cases hkey : (view a).vault.key k with
  | none =>
    obtain ⟨e, he⟩ := hserves.reply_of_no_key hpin hkey
    cases he
  | some key =>
    refine ⟨pin, key, hpin, hkey, ?_⟩
    obtain ⟨hverdict | ⟨haccepted, -⟩, -, -⟩ | ⟨new, -, -, haccepted, -⟩ :=
      hserves.keys_of_presented hpin hkey
    · exact (Verdict.reply_eq_ok_iff none _).mp hverdict.symm
    · exact haccepted
    · exact haccepted

/-- What is accepted is unlocked. -/
theorem Performs.unlocked_of_accepts (haccepts : Accepts view k (a, l)) : k ∈ unlocked b := by
  obtain ⟨pin, key, hpin, hkey, haccepted⟩ := haccepts
  have hpresented := (Performs.unlocking h hstep).presented hpin
  rw [Vault.Presented, hkey] at hpresented
  exact hpresented.accepts haccepted

/-- What is unlocked stays so while the application is not left and the key not presented wrong. -/
theorem Performs.unlocked_of_kept (hk : k ∈ unlocked a) (hstays : ¬ Leaves view (a, l))
    (hright : ¬ Fails k (a, l)) : k ∈ unlocked b := by
  have hunlocking := Performs.unlocking h hstep
  cases hpresents : l.1.keyRequest.presents k with
  | none =>
    exact (hunlocking.not_presented hpresents).mpr
      ⟨hk, fun _ _ => (Performs.df_eq_iff h hstep).mpr hstays⟩
  | some pin =>
    have hpresented := hunlocking.presented hpresents
    cases hkey : (view a).vault.key k with
    | none =>
      rw [Vault.Presented, hkey] at hpresented
      exact hpresented.symm ▸ hk
    | some key =>
      refine Performs.unlocked_of_accepts h hstep ?_
      refine Performs.accepts_of_logsIn h hstep ⟨by rw [hpresents]; rfl, ?_⟩
      by_contra hreply
      exact hright ⟨by rw [hpresents]; rfl, hreply⟩

end

/-! ### Whole runs -/

/-- A file with an individual number, and filler. -/
def numberFile : Bytes := [0xFF, 0x10, 0x0C] ++ List.replicate 12 0x31 ++ [0xFF, 0xFF]

/-- A file with a name in Japanese, an address, a birth date and a sex, with the table of where they
are, filler, and a byte behind it. -/
def basicFile : Bytes :=
  [0xFF, 0x20, 0x25, 0xDF, 0x21, 0x08, 0x00, 0x0E, 0x00, 0x14, 0x00, 0x18, 0x00, 0x23,
    0xDF, 0x22, 0x03, 0xE5, 0x8D, 0xB7, 0xDF, 0x23, 0x01, 0x41,
    0xDF, 0x24, 0x08, 0x31, 0x39, 0x38, 0x30, 0x30, 0x32, 0x31, 0x37, 0xDF, 0x25, 0x01, 0x31, 0x00,
    0xFF]

/-- The number and the attributes in the text application, opened by the PIN or the code A. -/
def heldText : Holdings where
  files df id :=
    if df = TextAp.df ∧ id = TextAp.Ef.myNumber then some numberFile
    else if df = TextAp.df ∧ id = TextAp.Ef.attributes then some basicFile
    else none
  openers df id :=
    if df = TextAp.df ∧ (id = TextAp.Ef.myNumber ∨ id = TextAp.Ef.attributes) then
      [TextAp.Ef.pin, TextAp.Ef.codeA]
    else []

/-- A card with those files, whose PIN was left unlocked. -/
def numberCard : FilesCard := ⟨twoKeys, [TextAp.Ef.pin]⟩

def numberAnswer : Bytes → FilesCard → Answer × FilesCard :=
  FilesCard.transmit [Ap.defaultDf, TextAp.df] heldText

def numberReading (pf : Platform) : Reading MyNumber :=
  ⟨TextAp.df, TextAp.Ef.myNumber, false, Text.parseMyNumber pf⟩

/-- The application is entered, and its PIN presented. Then the attributes are read, the code A, which
has no key, is presented in vain, and the PIN's attempts are asked for. -/
def login : List WrapperOperation :=
  [.text .select, .text (.verifyPin pin4321), .text .readAttributes, .text (.verifyCodeA pin1111),
    .text (.retries TextAp.Ef.pin)]

theorem login_entries :
    ∃ before e after, entries numberAnswer .pkcs1 .blank .checked 0 login numberCard =
        before ++ e :: after ∧
      e.1.keys.vault.df = TextAp.df ∧ LogsIn TextAp.Ef.pin e ∧
      ∀ e' ∈ after, ¬ Leaves FilesCard.keys e' ∧ ¬ Fails TextAp.Ef.pin e' :=
  exists_login FilesCard.keys (by decide +kernel) (by decide +kernel)

section

variable {τ : Type} {held : Holdings} {answer : Bytes → τ → Answer × τ} {view : τ → KeyCard}
  {unlocked : τ → Set UInt16} (h : GuardsFiles held answer view unlocked) (rsa : RsaCrate)
  (x509 : X509Crate) (pf : Platform) (fuel : ℕ) (ops : List WrapperOperation) (s : τ)

include h

/-- What is unlocked at the end of a run was accepted in it and the application not left since, or was
unlocked from the start. -/
theorem unlocked_since {k : UInt16}
    (hk : k ∈ unlocked (afterOperations answer rsa x509 pf fuel ops s)) :
    (k ∈ unlocked s ∧ ∀ e ∈ entries answer rsa x509 pf fuel ops s, ¬ Leaves view e) ∨
      ∃ before e after, entries answer rsa x509 pf fuel ops s = before ++ e :: after ∧
        Accepts view k e ∧ ∀ e' ∈ after, ¬ Leaves view e' :=
  (entries_execution answer rsa x509 pf fuel ops s).since (I := fun t => k ∈ unlocked t) hk
    fun _ _ _ hstep => Performs.accepts_or_kept h hstep

/-- An application that is not left stays selected. -/
theorem df_of_not_left {tr : List (Entry τ)} {a b : τ}
    (hrun : Execution (Performs answer rsa x509 pf fuel) a tr b)
    (hstays : ∀ e ∈ tr, ¬ Leaves view e) : (view b).vault.df = (view a).vault.df :=
  hrun.invariant (I := fun t => (view t).vault.df = (view a).vault.df) rfl hstays
    fun _ _ _ hI hstay hstep => ((Performs.df_eq_iff h hstep).mpr hstay).trans hI

/-- Once a key of an EF was presented to its caller's satisfaction the EF is open, as long as the
application is not left and the key not presented wrong. -/
theorem open_since_login {df : Bytes} {id k : UInt16} (hk : k ∈ held.openers df id) {e : Entry τ}
    {before after : List (Entry τ)}
    (hlog : entries answer rsa x509 pf fuel ops s = before ++ e :: after)
    (hdf : (view e.1).vault.df = df) (hlogs : LogsIn k e)
    (hstays : ∀ e' ∈ after, ¬ Leaves view e' ∧ ¬ Fails k e') :
    (view (afterOperations answer rsa x509 pf fuel ops s)).vault.df = df ∧
      held.Open df id (unlocked (afterOperations answer rsa x509 pf fuel ops s)) := by
  have hrun := entries_execution answer rsa x509 pf fuel ops s
  rw [hlog] at hrun
  obtain ⟨m, -, hrest⟩ := hrun.split
  cases hrest with
  | @cons _ s₁ _ l _ hstep hafter =>
    have haccepts := Performs.accepts_of_logsIn h hstep hlogs
    have hunlocked := Performs.unlocked_of_accepts h hstep haccepts
    have hstay : ¬ Leaves view (m, l) := haccepts.not_leaves
    have hend := hafter.invariant
      (I := fun t => k ∈ unlocked t ∧ (view t).vault.df = df)
      ⟨hunlocked, ((Performs.df_eq_iff h hstep).mpr hstay).trans hdf⟩ hstays
      fun a l b hI hkept hnext => ⟨Performs.unlocked_of_kept h hnext hI.1 hkept.1 hkept.2,
        ((Performs.df_eq_iff h hnext).mpr hkept.1).trans hI.2⟩
    exact ⟨hend.2, .inr ⟨k, hk, hend.1⟩⟩

/-- An EF that a key guards and that is open at the end of a run was opened in it, by one of its keys
that was presented and accepted, and the application not left since, or was open from the start. -/
theorem opened_since {df : Bytes} {id : UInt16} (hguarded : held.openers df id ≠ [])
    (hdf : (view (afterOperations answer rsa x509 pf fuel ops s)).vault.df = df)
    (hopen : held.Open df id (unlocked (afterOperations answer rsa x509 pf fuel ops s))) :
    (held.Open df id (unlocked s) ∧ (view s).vault.df = df) ∨
      ∃ k ∈ held.openers df id, ∃ before e after,
        entries answer rsa x509 pf fuel ops s = before ++ e :: after ∧
          (view e.1).vault.df = df ∧ Accepts view k e ∧ ∀ e' ∈ after, ¬ Leaves view e' := by
  have hrun := entries_execution answer rsa x509 pf fuel ops s
  obtain hfree | ⟨k, hk, hunlocked⟩ := hopen
  · exact absurd hfree hguarded
  obtain ⟨hstart, hstays⟩ | ⟨before, e, after, hlog, haccepts, hstays⟩ :=
    unlocked_since h rsa x509 pf fuel ops s hunlocked
  · exact .inl ⟨.inr ⟨k, hk, hstart⟩, (df_of_not_left h rsa x509 pf fuel hrun hstays).symm.trans hdf⟩
  · refine .inr ⟨k, hk, before, e, after, hlog, ?_, haccepts, hstays⟩
    rw [hlog] at hrun
    obtain ⟨m, -, hrest⟩ := hrun.split
    have hm : m = e.1 := by
      cases hrest with
      | cons hstep hafter => rfl
    rw [← hm, ← df_of_not_left h rsa x509 pf fuel hrest
      (List.forall_mem_cons.mpr ⟨haccepts.not_leaves, hstays⟩)]
    exact hdf

section

variable {α : Type} {x : CardM α} {r : Reading α} (hread : IsRead x509 pf fuel x r) {file : Bytes}
  (hfile : held.files r.df r.ef = some file) (hsize : file.length ≤ 0x8000)

include hread hfile hsize

/-- **A file is shown to the holder of one of its keys.** In whatever state a run begins and whatever
operations it has: once one of them has presented the key in the file's application and returned `Ok`,
and none after it leaves the application or presents the key and fails, a read gives what its parser
makes of the file. -/
theorem shown_to_holder {k : UInt16} (hk : k ∈ held.openers r.df r.ef) {e : Entry τ}
    {before after : List (Entry τ)}
    (hlog : entries answer rsa x509 pf fuel ops s = before ++ e :: after)
    (hdf : (view e.1).vault.df = r.df) (hlogs : LogsIn k e)
    (hstays : ∀ e' ∈ after, ¬ Leaves view e' ∧ ¬ Fails k e') :
    (x.run.run answer (afterOperations answer rsa x509 pf fuel ops s)).1 = r.value pf file := by
  obtain ⟨hselected, hopen⟩ := open_since_login h rsa x509 pf fuel ops s hk hlog hdf hlogs hstays
  exact (h.read_run hread hselected hfile hsize).1 hopen

omit h hread hfile hsize in
/-- The number, to who has presented the PIN and done other things since. -/
theorem shown_to_holder_number :
    ((TextAp.readMyNumber .checked 0).run.run numberAnswer
        (afterOperations numberAnswer .pkcs1 .blank .checked 0 login numberCard)).1 =
      (numberReading .checked).value .checked numberFile := by
  obtain ⟨before, e, after, hlog, hdf, hlogs, hstays⟩ := login_entries
  exact shown_to_holder FilesCard.transmit_guardsFiles .pkcs1 .blank .checked 0 login numberCard
    .myNumber rfl (by decide) (List.mem_cons_self : TextAp.Ef.pin ∈ [_, _]) hlog hdf hlogs hstays

/-- **A file that a key guards is shown to no one else.** If it is shown at the end of a run, one of
its keys was accepted in it and the application not left since, or it was open from the start. -/
theorem shown_since (hguarded : held.openers r.df r.ef ≠ [])
    (hdf : (view (afterOperations answer rsa x509 pf fuel ops s)).vault.df = r.df)
    (hshown : (x.run.run answer (afterOperations answer rsa x509 pf fuel ops s)).1 ≠
      .error (.err (.status ⟨0x6982⟩))) :
    (x.run.run answer (afterOperations answer rsa x509 pf fuel ops s)).1 = r.value pf file ∧
      ((held.Open r.df r.ef (unlocked s) ∧ (view s).vault.df = r.df) ∨
        ∃ k ∈ held.openers r.df r.ef, ∃ before e after,
          entries answer rsa x509 pf fuel ops s = before ++ e :: after ∧
            (view e.1).vault.df = r.df ∧ Accepts view k e ∧ ∀ e' ∈ after, ¬ Leaves view e') := by
  obtain ⟨hopen, hclosed⟩ := h.read_run hread hdf hfile hsize
  have hisOpen : held.Open r.df r.ef
      (unlocked (afterOperations answer rsa x509 pf fuel ops s)) := by
    by_contra hnot
    exact hshown (hclosed hnot)
  exact ⟨hopen hisOpen, opened_since h rsa x509 pf fuel ops s hguarded hdf hisOpen⟩

/-- **Entering the application from the master file makes sure.** If a file that a key guards is shown
after that, one of its keys was presented with its right value in between. -/
theorem shown_after_entering (hguarded : held.openers r.df r.ef ≠ []) {op : WrapperOperation}
    {s₁ s₂ : τ} (hop : op.keyRequest = .enter r.df)
    (hleave : performed answer rsa x509 pf fuel (.masterFile .select) s = (.ok none, s₁))
    (henter : performed answer rsa x509 pf fuel op s₁ = (.ok none, s₂))
    (hdf : (view (afterOperations answer rsa x509 pf fuel ops s₂)).vault.df = r.df)
    (hshown : (x.run.run answer (afterOperations answer rsa x509 pf fuel ops s₂)).1 ≠
      .error (.err (.status ⟨0x6982⟩))) :
    (x.run.run answer (afterOperations answer rsa x509 pf fuel ops s₂)).1 = r.value pf file ∧
      ∃ k ∈ held.openers r.df r.ef, ∃ before e after,
        entries answer rsa x509 pf fuel ops s₂ = before ++ e :: after ∧
          (view e.1).vault.df = r.df ∧ Accepts view k e ∧ ∀ e' ∈ after, ¬ Leaves view e' := by
  have hmaster : (view s₁).vault.df = Ap.defaultDf :=
    (Performs.serves h (l := (.masterFile .select, .ok none)) hleave).df_of_entered
  have happlication : (view s₂).vault.df = r.df := by
    have hserves := Performs.serves h (l := (op, .ok none)) henter
    rw [hop] at hserves
    exact hserves.df_of_entered
  have hnothing : unlocked s₂ = ∅ := by
    have hunlocking := Performs.unlocking h (l := (op, .ok none)) henter
    rw [hop] at hunlocking
    have hother : (view s₂).vault.df ≠ (view s₁).vault.df := by
      rw [happlication, hmaster]
      exact hread.df_ne x509 pf fuel
    exact hunlocking.trans (if_neg hother)
  obtain ⟨hvalue, ⟨hopen, -⟩ | hpresented⟩ :=
    shown_since h rsa x509 pf fuel ops s₂ hread hfile hsize hguarded hdf hshown
  · rw [Holdings.Open, hnothing] at hopen
    obtain hfree | ⟨k, -, hk⟩ := hopen
    · exact absurd hfree hguarded
    · cases hk
  · exact ⟨hvalue, hpresented⟩

/-- The card after an operation. -/
def numberCardAfter (op : WrapperOperation) (card : FilesCard) : FilesCard :=
  (performed numberAnswer .pkcs1 .blank .checked 0 op card).2

/-- The card once the application was entered from the master file. -/
def enteredCard : FilesCard :=
  numberCardAfter (.text .select) (numberCardAfter (.masterFile .select) numberCard)

/-- The attributes are read before the PIN is presented and after it. -/
def readAround : List WrapperOperation :=
  [.text .readAttributes, .text (.verifyPin pin4321), .text .readAttributes]

/-- What is done on a card, and what it gives. -/
def aroundEntries (card : FilesCard) : List (Entry FilesCard) :=
  entries numberAnswer .pkcs1 .blank .checked 0 readAround card

/-- The card afterwards. -/
def aroundCard (card : FilesCard) : FilesCard :=
  afterOperations numberAnswer .pkcs1 .blank .checked 0 readAround card

omit h hread hfile hsize in
/-- The PIN that was left unlocked is locked by then, so that the number is shown says that the PIN was
presented in between. -/
theorem shown_after_entering_number :
    ((TextAp.readMyNumber .checked 0).run.run numberAnswer (aroundCard enteredCard)).1 =
        (numberReading .checked).value .checked numberFile ∧
      ∃ k ∈ heldText.openers TextAp.df TextAp.Ef.myNumber, ∃ before e after,
        aroundEntries enteredCard = before ++ e :: after ∧ e.1.keys.vault.df = TextAp.df ∧
          Accepts FilesCard.keys k e ∧ ∀ e' ∈ after, ¬ Leaves FilesCard.keys e' := by
  have hshown : ((TextAp.readMyNumber .checked 0).run.run numberAnswer
      (aroundCard enteredCard)).1.isOk = true := by
    decide +kernel
  refine shown_after_entering FilesCard.transmit_guardsFiles .pkcs1 .blank .checked 0 readAround
    numberCard .myNumber rfl (by decide) (List.cons_ne_nil _ _)
    (rfl : (WrapperOperation.text .select).keyRequest = .enter TextAp.df)
    (Prod.ext (show _ = _ from by decide +kernel) rfl)
    (Prod.ext (show _ = _ from by decide +kernel) rfl) (by decide +kernel) ?_
  intro hrefused
  have hno : true = false := hshown.symm.trans (congrArg Except.isOk hrefused)
  cases hno

/-- **Reading the file before makes sure too.** If it is refused, and shown after some operations, one
of its keys was presented with its right value in between. -/
theorem shown_after_refusal (hguarded : held.openers r.df r.ef ≠ []) {s₁ : τ}
    (hselected : (view s).vault.df = r.df)
    (hlocked : x.run.run answer s = (.error (.err (.status ⟨0x6982⟩)), s₁))
    (hdf : (view (afterOperations answer rsa x509 pf fuel ops s₁)).vault.df = r.df)
    (hshown : (x.run.run answer (afterOperations answer rsa x509 pf fuel ops s₁)).1 ≠
      .error (.err (.status ⟨0x6982⟩))) :
    (x.run.run answer (afterOperations answer rsa x509 pf fuel ops s₁)).1 = r.value pf file ∧
      ∃ k ∈ held.openers r.df r.ef, ∃ before e after,
        entries answer rsa x509 pf fuel ops s₁ = before ++ e :: after ∧
          (view e.1).vault.df = r.df ∧ Accepts view k e ∧ ∀ e' ∈ after, ¬ Leaves view e' := by
  have hunlocked := h.run_leaves_unlocked (s := s) (hread.leavesVault x509 pf fuel)
  rw [hlocked] at hunlocked
  obtain ⟨hvalue, ⟨hopen, -⟩ | hpresented⟩ :=
    shown_since h rsa x509 pf fuel ops s₁ hread hfile hsize hguarded hdf hshown
  · -- the file would have been shown the first time
    have hfirst := (h.read_run hread hselected hfile hsize).1 (hunlocked ▸ hopen)
    rw [hlocked] at hfirst
    exact absurd (hvalue.trans hfirst.symm) hshown
  · exact ⟨hvalue, hpresented⟩

/-- The card once the number was asked for, and refused. -/
def refusedCard : FilesCard := ((TextAp.readMyNumber .checked 0).run.run numberAnswer enteredCard).2

omit h hread hfile hsize in
/-- The number is refused at first, and then the PIN is presented. -/
theorem shown_after_refusal_number :
    ((TextAp.readMyNumber .checked 0).run.run numberAnswer (aroundCard refusedCard)).1 =
        (numberReading .checked).value .checked numberFile ∧
      ∃ k ∈ heldText.openers TextAp.df TextAp.Ef.myNumber, ∃ before e after,
        aroundEntries refusedCard = before ++ e :: after ∧ e.1.keys.vault.df = TextAp.df ∧
          Accepts FilesCard.keys k e ∧ ∀ e' ∈ after, ¬ Leaves FilesCard.keys e' := by
  have hshown : ((TextAp.readMyNumber .checked 0).run.run numberAnswer
      (aroundCard refusedCard)).1.isOk = true := by
    decide +kernel
  have hlocked : ((TextAp.readMyNumber .checked 0).run.run numberAnswer enteredCard).1 =
      .error (.err (.status ⟨0x6982⟩)) := by
    decide +kernel
  refine shown_after_refusal FilesCard.transmit_guardsFiles .pkcs1 .blank .checked 0 readAround
    enteredCard .myNumber rfl (by decide) (List.cons_ne_nil _ _) (by decide +kernel)
    (Prod.ext hlocked rfl) (by decide +kernel) ?_
  intro hrefused
  have hno : true = false := hshown.symm.trans (congrArg Except.isOk hrefused)
  cases hno

end

end

end MynaCard
