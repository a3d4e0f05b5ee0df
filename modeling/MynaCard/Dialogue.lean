import Mathlib

/-!
# Dialogues

A program that asks questions of an outside party and goes on with the answers, as the tree of its
questions. A `Path` through the tree is one thing the party may do: the list of questions with the
answers they got, and the result the program then gives. `run` is the same program against a party
that is itself a state machine, and takes one of the paths.

The second half is a logic of paths. A `Monitor` is an automaton that reads the questions and
answers of a path; it says of each question whether it may be asked, and of each answer whether it
is one we assume. A `Triple` says that a program started in a good state of the monitor asks only
what it may, and ends in a state the postcondition describes. There is one rule for each way
of building a program, and no rule looks inside a program that has a triple already.

Questions, answers, results and monitor states are arbitrary types; nothing here is about the card.
-/

namespace MynaCard

/-- A program that asks questions in `Q`, is given answers in `R`, and results in an `α`. -/
inductive Dialogue (Q R α : Type) : Type
  | done (a : α)
  | ask (q : Q) (k : R → Dialogue Q R α)

/-- The questions of a path, each with the answer it got. -/
abbrev Trace (Q R : Type) := List (Q × R)

namespace Dialogue

variable {Q Q' R σ α β : Type}

def bind : Dialogue Q R α → (α → Dialogue Q R β) → Dialogue Q R β
  | done a, f => f a
  | ask q k, f => ask q fun r => (k r).bind f

instance : Monad (Dialogue Q R) where
  pure := done
  bind := bind

/-- One question. -/
def query (q : Q) : Dialogue Q R R := ask q done

/-- The same program, its questions written another way. -/
def relabel (f : Q → Q') : Dialogue Q R α → Dialogue Q' R α
  | done a => done a
  | ask q k => ask (f q) fun r => (k r).relabel f

theorem bind_done (d : Dialogue Q R α) : d.bind done = d := by
  induction d with
  | done a => rfl
  | ask q k ih => exact congrArg (ask q) (funext ih)

theorem bind_assoc {γ : Type} (d : Dialogue Q R α) (f : α → Dialogue Q R β)
    (g : β → Dialogue Q R γ) : (d.bind f).bind g = d.bind fun a => (f a).bind g := by
  induction d with
  | done a => rfl
  | ask q k ih => exact congrArg (ask q) (funext ih)

instance : LawfulMonad (Dialogue Q R) :=
  LawfulMonad.mk' _ (fun d => bind_done d) (fun _ _ => rfl) (fun d f g => bind_assoc d f g)

@[simp] theorem pure_eq (a : α) : (pure a : Dialogue Q R α) = done a := rfl

@[simp] theorem bind_eq (d : Dialogue Q R α) (f : α → Dialogue Q R β) : d >>= f = d.bind f := rfl

@[simp] theorem done_bind (a : α) (f : α → Dialogue Q R β) : (done a).bind f = f a := rfl

@[simp] theorem ask_bind (q : Q) (k : R → Dialogue Q R α) (f : α → Dialogue Q R β) :
    (ask q k).bind f = ask q fun r => (k r).bind f := rfl

/-! ### Paths -/

/-- `Path d tr a`: with the answers of `tr` the program asks the questions of `tr` and results in
`a`. -/
inductive Path : Dialogue Q R α → Trace Q R → α → Prop
  | done (a : α) : Path (done a) [] a
  | ask (q : Q) (k : R → Dialogue Q R α) (r : R) {tr : Trace Q R} {a : α} (h : Path (k r) tr a) :
      Path (ask q k) ((q, r) :: tr) a

@[simp] theorem path_done {a b : α} {tr : Trace Q R} : Path (done a) tr b ↔ tr = [] ∧ b = a := by
  constructor
  · intro h
    cases h
    exact ⟨rfl, rfl⟩
  · rintro ⟨rfl, rfl⟩
    exact .done b

@[simp] theorem path_ask {q : Q} {k : R → Dialogue Q R α} {tr : Trace Q R} {a : α} :
    Path (ask q k) tr a ↔ ∃ r tr', tr = (q, r) :: tr' ∧ Path (k r) tr' a := by
  constructor
  · intro h
    cases h with
    | ask _ _ r h => exact ⟨r, _, rfl, h⟩
  · rintro ⟨r, tr', rfl, h⟩
    exact .ask q k r h

/-- A path of a sequence is a path of the first part and then one of the second. -/
theorem path_bind {d : Dialogue Q R α} {f : α → Dialogue Q R β} {tr : Trace Q R} {b : β} :
    Path (d.bind f) tr b ↔
      ∃ tr₁ a tr₂, tr = tr₁ ++ tr₂ ∧ Path d tr₁ a ∧ Path (f a) tr₂ b := by
  induction d generalizing tr with
  | done a =>
    constructor
    · intro h
      exact ⟨[], a, tr, rfl, .done a, h⟩
    · rintro ⟨tr₁, a', tr₂, rfl, h₁, h₂⟩
      obtain ⟨rfl, rfl⟩ := path_done.mp h₁
      exact h₂
  | ask q k ih =>
    simp only [ask_bind, path_ask]
    constructor
    · rintro ⟨r, tr', rfl, h⟩
      obtain ⟨tr₁, a, tr₂, rfl, h₁, h₂⟩ := (ih r).mp h
      exact ⟨(q, r) :: tr₁, a, tr₂, rfl, ⟨r, tr₁, rfl, h₁⟩, h₂⟩
    · rintro ⟨_, a, tr₂, rfl, ⟨r, tr₁, rfl, h₁⟩, h₂⟩
      exact ⟨r, tr₁ ++ tr₂, rfl, (ih r).mpr ⟨tr₁, a, tr₂, rfl, h₁, h₂⟩⟩

theorem path_relabel {d : Dialogue Q R α} {f : Q → Q'} {tr : Trace Q' R} {a : α} :
    Path (d.relabel f) tr a ↔ ∃ tr', tr = tr'.map (Prod.map f id) ∧ Path d tr' a := by
  induction d generalizing tr with
  | done b =>
    constructor
    · intro h
      obtain ⟨rfl, rfl⟩ := path_done.mp h
      exact ⟨[], rfl, .done _⟩
    · rintro ⟨tr', rfl, h⟩
      obtain ⟨rfl, rfl⟩ := path_done.mp h
      exact .done _
  | ask q k ih =>
    simp only [relabel, path_ask]
    constructor
    · rintro ⟨r, tr', rfl, h⟩
      obtain ⟨tr'', rfl, h'⟩ := (ih r).mp h
      exact ⟨(q, r) :: tr'', rfl, r, tr'', rfl, h'⟩
    · rintro ⟨_, rfl, r, tr'', rfl, h⟩
      exact ⟨r, _, rfl, (ih r).mpr ⟨tr'', rfl, h⟩⟩

/-- Given the same answers, a program asks the same questions and gives the same result. -/
theorem path_prefix_unique {d : Dialogue Q R α} {tr tr' whole : Trace Q R} {a a' : α}
    (h : Path d tr a) (h' : Path d tr' a') (hpre : tr <+: whole) (hpre' : tr' <+: whole) :
    tr = tr' ∧ a = a' := by
  induction h generalizing tr' whole with
  | done a =>
    obtain ⟨rfl, rfl⟩ := path_done.mp h'
    exact ⟨rfl, rfl⟩
  | ask q k r h ih =>
    obtain ⟨r', tr'', rfl, h''⟩ := path_ask.mp h'
    obtain ⟨rest, rfl⟩ := hpre
    obtain ⟨rest', heq⟩ := hpre'
    obtain ⟨hhead, htail⟩ := List.cons.inj heq
    obtain ⟨-, rfl⟩ := Prod.mk.inj hhead
    obtain ⟨rfl, rfl⟩ := ih h'' (List.prefix_append _ rest) ⟨rest', htail⟩
    exact ⟨rfl, rfl⟩

theorem path_unique {d : Dialogue Q R α} {tr : Trace Q R} {a a' : α} (h : Path d tr a)
    (h' : Path d tr a') : a = a' :=
  (path_prefix_unique h h' (List.prefix_refl tr) (List.prefix_refl tr)).2

/-- The path on which the answers are the ones listed, if the program asks for just so many. -/
def replay : Dialogue Q R α → List R → Option (Trace Q R × α)
  | done a, [] => some ([], a)
  | ask q k, r :: rs => ((k r).replay rs).map fun p => ((q, r) :: p.1, p.2)
  | _, _ => none

theorem path_of_replay {d : Dialogue Q R α} (rs : List R) {tr : Trace Q R} {a : α}
    (h : d.replay rs = some (tr, a)) : Path d tr a := by
  induction d generalizing rs tr with
  | done b =>
    cases rs with
    | nil =>
      obtain ⟨rfl, rfl⟩ := Prod.mk.inj (Option.some.inj h)
      exact .done _
    | cons r rs => cases h
  | ask q k ih =>
    cases rs with
    | nil => cases h
    | cons r rs =>
      obtain ⟨p, hp, heq⟩ := Option.map_eq_some_iff.mp h
      obtain ⟨rfl, rfl⟩ := Prod.mk.inj heq
      exact .ask q k r (ih r rs hp)

/-! ### Runs -/

/-- The program against a party whose answers come from a state. -/
def run (answer : Q → σ → R × σ) : Dialogue Q R α → σ → α × σ
  | done a, s => (a, s)
  | ask q k, s => (k (answer q s).1).run answer (answer q s).2

@[simp] theorem run_done (answer : Q → σ → R × σ) (a : α) (s : σ) :
    (done a : Dialogue Q R α).run answer s = (a, s) := rfl

@[simp] theorem run_ask (answer : Q → σ → R × σ) (q : Q) (k : R → Dialogue Q R α) (s : σ) :
    (ask q k).run answer s = (k (answer q s).1).run answer (answer q s).2 := rfl

@[simp] theorem run_query (answer : Q → σ → R × σ) (q : Q) (s : σ) :
    (query q).run answer s = answer q s := rfl

theorem run_bind (answer : Q → σ → R × σ) (d : Dialogue Q R α) (f : α → Dialogue Q R β) (s : σ) :
    (d.bind f).run answer s = (f (d.run answer s).1).run answer (d.run answer s).2 := by
  induction d generalizing s with
  | done a => rfl
  | ask q k ih => exact ih _ _

theorem run_relabel (answer : Q' → σ → R × σ) (f : Q → Q') (d : Dialogue Q R α) (s : σ) :
    (d.relabel f).run answer s = d.run (fun q => answer (f q)) s := by
  induction d generalizing s with
  | done a => rfl
  | ask q k ih => exact ih _ _

/-- Against a party the program takes one of its paths. -/
theorem path_run (answer : Q → σ → R × σ) (d : Dialogue Q R α) (s : σ) :
    ∃ tr, Path d tr (d.run answer s).1 := by
  induction d generalizing s with
  | done a => exact ⟨[], .done a⟩
  | ask q k ih =>
    obtain ⟨tr, h⟩ := ih (answer q s).1 (answer q s).2
    exact ⟨_, .ask q k _ h⟩

/-- A program whose questions all have `P` keeps what the party keeps under such questions. -/
theorem run_keeps {answer : Q → σ → R × σ} {P : Q → Prop} {I : σ → Prop} {d : Dialogue Q R α}
    (hP : ∀ tr a, Path d tr a → ∀ e ∈ tr, P e.1) (hkeep : ∀ q s, P q → I s → I (answer q s).2)
    {s : σ} (hs : I s) : I (d.run answer s).2 := by
  induction d generalizing s with
  | done a => exact hs
  | ask q k ih =>
    obtain ⟨tr, h⟩ := path_run answer (k (answer q s).1) (answer q s).2
    have hq := hP _ _ (.ask q k _ h) _ List.mem_cons_self
    refine ih _ (fun tr a hpath e he => ?_) (hkeep q s hq hs)
    exact hP _ _ (.ask q k _ hpath) e (List.mem_cons_of_mem _ he)

/-- The answers of the trace are those of the party, from a state on. -/
def Gives (answer : Q → σ → R × σ) : σ → Trace Q R → Prop
  | _, [] => True
  | s, (q, r) :: tr => r = (answer q s).1 ∧ Gives answer (answer q s).2 tr

/-- The party after the questions of a trace. -/
def partyAfter (answer : Q → σ → R × σ) (s : σ) (tr : Trace Q R) : σ :=
  tr.foldl (fun s e => (answer e.1 s).2) s

theorem gives_append {answer : Q → σ → R × σ} {s : σ} {tr tr' : Trace Q R} (h : Gives answer s tr)
    (h' : Gives answer (partyAfter answer s tr) tr') : Gives answer s (tr ++ tr') := by
  induction tr generalizing s with
  | nil => exact h'
  | cons e tr ih =>
    obtain ⟨ha, hrest⟩ := h
    exact ⟨ha, ih hrest h'⟩

end Dialogue

/-! ### Monitors -/

/-- An automaton over the questions and answers of a path. -/
structure Monitor (σ Q R : Type) where
  next : σ → Q → R → σ
  /-- whether the question may be asked in the state -/
  ok : σ → Q → Prop
  /-- whether the answer is one that is assumed -/
  assume : σ → Q → R → Prop

namespace Monitor

open Dialogue

variable {σ Q R α β : Type} (m : Monitor σ Q R)

/-- The state after a trace. -/
def after : σ → Trace Q R → σ
  | s, [] => s
  | s, (q, r) :: tr => after (m.next s q r) tr

/-- Each question and answer of the trace has `P`, in the state it comes in. -/
def Throughout (P : σ → Q → R → Prop) : σ → Trace Q R → Prop
  | _, [] => True
  | s, (q, r) :: tr => P s q r ∧ Throughout P (m.next s q r) tr

/-- Every question of the trace may be asked in the state it is asked in. -/
def Safe : σ → Trace Q R → Prop := m.Throughout fun s q _ => m.ok s q

/-- Every answer of the trace is assumed in the state it is given in. -/
def Assumed : σ → Trace Q R → Prop := m.Throughout m.assume

theorem after_append (s : σ) (tr₁ tr₂ : Trace Q R) :
    m.after s (tr₁ ++ tr₂) = m.after (m.after s tr₁) tr₂ := by
  induction tr₁ generalizing s with
  | nil => rfl
  | cons e tr₁ ih => exact ih _

theorem throughout_append (P : σ → Q → R → Prop) (s : σ) (tr₁ tr₂ : Trace Q R) :
    m.Throughout P s (tr₁ ++ tr₂) ↔ m.Throughout P s tr₁ ∧ m.Throughout P (m.after s tr₁) tr₂ := by
  induction tr₁ generalizing s with
  | nil => simp [Throughout, after]
  | cons e tr₁ ih => simp only [List.cons_append, Throughout, after, ih, and_assoc]

theorem safe_append (s : σ) (tr₁ tr₂ : Trace Q R) :
    m.Safe s (tr₁ ++ tr₂) ↔ m.Safe s tr₁ ∧ m.Safe (m.after s tr₁) tr₂ :=
  m.throughout_append _ s tr₁ tr₂

theorem assumed_append (s : σ) (tr₁ tr₂ : Trace Q R) :
    m.Assumed s (tr₁ ++ tr₂) ↔ m.Assumed s tr₁ ∧ m.Assumed (m.after s tr₁) tr₂ :=
  m.throughout_append _ s tr₁ tr₂

/-- Started in a state with `pre` and given assumed answers, the program asks only what it may, and
its result and the state it ends in satisfy `post`. -/
def Triple (pre : σ → Prop) (d : Dialogue Q R α) (post : α → σ → Prop) : Prop :=
  ∀ s tr a, pre s → Path d tr a → m.Assumed s tr → m.Safe s tr ∧ post a (m.after s tr)

variable {m}

theorem Triple.done {pre : σ → Prop} {a : α} {post : α → σ → Prop} (h : ∀ s, pre s → post a s) :
    m.Triple pre (.done a) post := by
  intro s tr b hs hpath _
  obtain ⟨rfl, rfl⟩ := path_done.mp hpath
  exact ⟨trivial, h s hs⟩

theorem Triple.bind {pre : σ → Prop} {d : Dialogue Q R α} {mid : α → σ → Prop}
    {f : α → Dialogue Q R β} {post : β → σ → Prop} (hd : m.Triple pre d mid)
    (hf : ∀ a, m.Triple (mid a) (f a) post) : m.Triple pre (d.bind f) post := by
  intro s tr b hs hpath hassume
  obtain ⟨tr₁, a, tr₂, rfl, h₁, h₂⟩ := path_bind.mp hpath
  obtain ⟨ha₁, ha₂⟩ := (m.assumed_append s tr₁ tr₂).mp hassume
  obtain ⟨hsafe₁, hmid⟩ := hd s tr₁ a hs h₁ ha₁
  obtain ⟨hsafe₂, hpost⟩ := hf a _ tr₂ b hmid h₂ ha₂
  rw [m.safe_append, m.after_append]
  exact ⟨⟨hsafe₁, hsafe₂⟩, hpost⟩

theorem Triple.conseq {pre pre' : σ → Prop} {d : Dialogue Q R α} {post post' : α → σ → Prop}
    (hd : m.Triple pre d post) (hpre : ∀ s, pre' s → pre s)
    (hpost : ∀ a s, post a s → post' a s) : m.Triple pre' d post' := by
  intro s tr a hs hpath hassume
  obtain ⟨hsafe, h⟩ := hd s tr a (hpre s hs) hpath hassume
  exact ⟨hsafe, hpost a _ h⟩

/-- A program whose questions all have `P`, where `P` is enough for a question to be allowed and for
the invariant to hold after its answer. -/
theorem Triple.of_invariant {P : Q → Prop} {I : σ → Prop} {d : Dialogue Q R α}
    (hP : ∀ tr a, Path d tr a → ∀ e ∈ tr, P e.1)
    (hstep : ∀ s q r, I s → P q → m.ok s q ∧ I (m.next s q r)) :
    m.Triple I d (fun _ => I) := by
  intro s tr a hs hpath hassume
  have hall := hP tr a hpath
  clear hpath hassume
  induction tr generalizing s with
  | nil => exact ⟨trivial, hs⟩
  | cons e tr ih =>
    obtain ⟨hok, hnext⟩ := hstep s e.1 e.2 hs (hall e List.mem_cons_self)
    obtain ⟨hsafe, hI⟩ := ih _ hnext fun f hf => hall f (List.mem_cons_of_mem e hf)
    exact ⟨⟨hok, hsafe⟩, hI⟩

/-! ### Monitors over the whole history -/

/-- The monitor whose state is everything asked and answered so far. -/
def ofHistory (ok : Trace Q R → Q → Prop) (assume : Trace Q R → Q → R → Prop) :
    Monitor (Trace Q R) Q R where
  next past q r := past ++ [(q, r)]
  ok := ok
  assume := assume

variable {ok : Trace Q R → Q → Prop} {assume : Trace Q R → Q → R → Prop}

theorem ofHistory_after (past tr : Trace Q R) : (ofHistory ok assume).after past tr = past ++ tr := by
  induction tr generalizing past with
  | nil => exact (List.append_nil past).symm
  | cons e tr ih =>
    show (ofHistory ok assume).after (past ++ [e]) tr = _
    rw [ih, List.append_assoc, List.singleton_append]

/-- What holds throughout a trace holds of each question and answer after the ones before it. -/
theorem ofHistory_throughout (P : Trace Q R → Q → R → Prop) (past tr : Trace Q R) :
    (ofHistory ok assume).Throughout P past tr ↔
      ∀ tr₁ q r tr₂, tr = tr₁ ++ (q, r) :: tr₂ → P (past ++ tr₁) q r := by
  constructor
  · intro h tr₁ q r tr₂ htr
    subst htr
    have hrest := ((throughout_append _ P past tr₁ _).mp h).2.1
    rwa [ofHistory_after] at hrest
  · intro h
    induction tr generalizing past with
    | nil => exact trivial
    | cons e tr ih =>
      have hhead := h [] e.1 e.2 tr rfl
      rw [List.append_nil] at hhead
      refine ⟨hhead, ih (past ++ [e]) ?_⟩
      intro tr₁ q r tr₂ htr
      have htail := h (e :: tr₁) q r tr₂ (by rw [htr, List.cons_append])
      rwa [List.append_assoc, List.singleton_append]

theorem ofHistory_safe (past tr : Trace Q R) :
    (ofHistory ok assume).Safe past tr ↔
      ∀ tr₁ q r tr₂, tr = tr₁ ++ (q, r) :: tr₂ → ok (past ++ tr₁) q :=
  ofHistory_throughout _ past tr

theorem ofHistory_assumed (past tr : Trace Q R) :
    (ofHistory ok assume).Assumed past tr ↔
      ∀ tr₁ q r tr₂, tr = tr₁ ++ (q, r) :: tr₂ → assume (past ++ tr₁) q r :=
  ofHistory_throughout _ past tr

end Monitor

/-! ### The last question of a kind -/

/-- `e` is the last entry of the trace whose question has `P`, and `rest` is what came after it. -/
def LastWith {Q R : Type} (P : Q → Prop) (tr : Trace Q R) (e : Q × R) (rest : Trace Q R) : Prop :=
  (∃ before, tr = before ++ e :: rest) ∧ P e.1 ∧ ∀ f ∈ rest, ¬ P f.1

namespace LastWith

variable {Q Q' R : Type} {P : Q → Prop} {tr rest : Trace Q R} {e : Q × R}

/-- A question of another kind leaves the last of this kind where it was. -/
theorem snoc (h : LastWith P tr e rest) {q : Q} (r : R) (hq : ¬ P q) :
    LastWith P (tr ++ [(q, r)]) e (rest ++ [(q, r)]) := by
  obtain ⟨⟨before, rfl⟩, he, hrest⟩ := h
  refine ⟨⟨before, by rw [List.append_assoc, List.cons_append]⟩, he, ?_⟩
  intro f hf
  rcases List.mem_append.mp hf with hf | hf
  · exact hrest f hf
  · obtain rfl := List.mem_singleton.mp hf
    exact hq

/-- What came earlier does not matter. -/
theorem append_left (h : LastWith P tr e rest) (past : Trace Q R) :
    LastWith P (past ++ tr) e rest := by
  obtain ⟨⟨before, rfl⟩, he, hrest⟩ := h
  exact ⟨⟨past ++ before, (List.append_assoc past before _).symm⟩, he, hrest⟩

theorem map {P' : Q' → Prop} (f : Q → Q') (h : LastWith P tr e rest)
    (hf : ∀ q, P' (f q) ↔ P q) :
    LastWith P' (tr.map (Prod.map f id)) (f e.1, e.2) (rest.map (Prod.map f id)) := by
  obtain ⟨⟨before, rfl⟩, he, hrest⟩ := h
  refine ⟨⟨before.map (Prod.map f id), by rw [List.map_append, List.map_cons]; rfl⟩,
    (hf e.1).mpr he, ?_⟩
  intro g hg
  obtain ⟨g', hg', rfl⟩ := List.mem_map.mp hg
  exact mt (hf g'.1).mp (hrest g' hg')

end LastWith

/-! ### Dialogues that may fail -/

namespace Dialogue

variable {Q R σ ε α β : Type}

/-- What comes after the first part of a sequence that may fail. -/
def orElseDone (f : α → Dialogue Q R (Except ε β)) : Except ε α → Dialogue Q R (Except ε β)
  | .ok a => f a
  | .error e => done (.error e)

@[simp] theorem orElseDone_ok (f : α → Dialogue Q R (Except ε β)) (a : α) :
    orElseDone f (.ok a) = f a := rfl

theorem exceptT_run_bind (x : ExceptT ε (Dialogue Q R) α) (f : α → ExceptT ε (Dialogue Q R) β) :
    (x >>= f).run = x.run.bind (orElseDone fun a => (f a).run) := by
  show x.run.bind _ = x.run.bind _
  congr 1

/-- A path of a sequence that may fail: the first part fails, or it gives a value to go on with. -/
theorem path_exceptT_bind {x : ExceptT ε (Dialogue Q R) α} {f : α → ExceptT ε (Dialogue Q R) β}
    {tr : Trace Q R} {r : Except ε β} :
    Path (x >>= f).run tr r ↔
      (∃ e, r = .error e ∧ Path x.run tr (.error e)) ∨
      ∃ tr₁ a tr₂, tr = tr₁ ++ tr₂ ∧ Path x.run tr₁ (.ok a) ∧ Path (f a).run tr₂ r := by
  rw [exceptT_run_bind, path_bind]
  constructor
  · rintro ⟨tr₁, a | a, tr₂, rfl, h₁, h₂⟩
    · obtain ⟨rfl, rfl⟩ := path_done.mp h₂
      exact .inl ⟨a, rfl, by rwa [List.append_nil]⟩
    · exact .inr ⟨tr₁, a, tr₂, rfl, h₁, h₂⟩
  · rintro (⟨e, rfl, h⟩ | ⟨tr₁, a, tr₂, rfl, h₁, h₂⟩)
    · exact ⟨tr, .error e, [], (List.append_nil tr).symm, h, .done _⟩
    · exact ⟨tr₁, .ok a, tr₂, rfl, h₁, h₂⟩

theorem run_exceptT_bind (answer : Q → σ → R × σ) (x : ExceptT ε (Dialogue Q R) α)
    (f : α → ExceptT ε (Dialogue Q R) β) (s : σ) :
    (x >>= f).run.run answer s =
      (orElseDone (fun a => (f a).run) (x.run.run answer s).1).run answer
        (x.run.run answer s).2 := by
  rw [exceptT_run_bind, run_bind]

end Dialogue

namespace Monitor

open Dialogue

variable {σ Q R ε α β : Type} {m : Monitor σ Q R}

/-- The rule for a sequence that may fail. A failure of the first part is the sequence's own. -/
theorem Triple.exceptT_bind {pre : σ → Prop} {x : ExceptT ε (Dialogue Q R) α}
    {mid : Except ε α → σ → Prop} {f : α → ExceptT ε (Dialogue Q R) β}
    {post : Except ε β → σ → Prop} (hx : m.Triple pre x.run mid)
    (hf : ∀ a, m.Triple (mid (.ok a)) (f a).run post)
    (herr : ∀ e s, mid (.error e) s → post (.error e) s) :
    m.Triple pre (x >>= f).run post := by
  rw [exceptT_run_bind]
  refine Triple.bind hx fun r => ?_
  cases r with
  | ok a => exact hf a
  | error e => exact Triple.done fun s hs => herr e s hs

end Monitor

end MynaCard
