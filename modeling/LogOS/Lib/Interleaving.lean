import Mathlib.Logic.Function.Basic
import Mathlib.Tactic.Common

/-!
# Threads that interleave atomic steps

Shared memory is a set of registers, and a program is a tree of atomic steps on them: loads, stores, compare-exchanges
and fetch-and-updates.  A loop is a jump to a label, whose program stands in a table, so that a program is always a
finite tree.  Any number of threads run programs of one code at the same time, one atomic step of one thread after the
other, and a log keeps everything that happened, the newest entry first.

The logic is rely and guarantee.  What every entry of the log has to respect is `Outline.Legal`.  A program is `Safe` from
an assertion when its steps are legal and every point of it has an assertion that the legal steps of the other threads
leave true.  If all programs are safe, the invariant holds in every state a run reaches, and every thread stands at a
point whose assertion holds.
-/

set_option linter.unusedSectionVars false

namespace LogOS.Lib.Interleaving

open Function

/-! ## Programs -/

/-- One atomic step with the values it met: `swap` is a compare-exchange that found `old`, `miss` one that did not. -/
inductive Action (Reg : Type) (Val : Reg → Type) where
  | load (r : Reg) (v : Val r)
  | store (r : Reg) (v : Val r)
  | swap (r : Reg) (old new : Val r)
  | miss (r : Reg) (old new : Val r)
  | fetch (r : Reg) (old new : Val r)

/-- A program: a finite tree of atomic steps that ends with a reply or a jump. -/
inductive Prog (Reg : Type) (Val : Reg → Type) (Label Reply : Type) where
  | ret (reply : Reply)
  | load (r : Reg) (next : Val r → Prog Reg Val Label Reply)
  | store (r : Reg) (v : Val r) (next : Prog Reg Val Label Reply)
  | cas (r : Reg) (old new : Val r) (next : Bool → Prog Reg Val Label Reply)
  | fetch (r : Reg) (update : Val r → Val r) (next : Val r → Prog Reg Val Label Reply)
  | jump (label : Label)

/-- What happened: a thread began a call, made a step of it, or returned from it. -/
inductive Entry (Thread Reg : Type) (Val : Reg → Type) (Call Reply : Type) where
  | called (t : Thread) (c : Call)
  | did (t : Thread) (c : Call) (a : Action Reg Val)
  | returned (t : Thread) (c : Call) (reply : Reply)

/-- The programs of the calls and of the labels. -/
structure Code (Reg : Type) (Val : Reg → Type) (Label Call Reply : Type) where
  code : Call → Prog Reg Val Label Reply
  body : Label → Prog Reg Val Label Reply

/-- The registers, and the log with its newest entry first. -/
structure Shared (Thread Reg : Type) (Val : Reg → Type) (Call Reply : Type) where
  mem : (r : Reg) → Val r
  log : List (Entry Thread Reg Val Call Reply)

variable {Thread Reg Label Call Reply : Type} {Val : Reg → Type}

def Entry.thread : Entry Thread Reg Val Call Reply → Thread
  | .called t _ => t
  | .did t _ _ => t
  | .returned t _ _ => t

variable {a : Action Reg Val}

namespace Action

/-- The memory is one in which the step meets these values. -/
def Fits (m : (r : Reg) → Val r) : Action Reg Val → Prop
  | .load r v => m r = v
  | .store _ _ => True
  | .swap r old _ => m r = old
  | .miss r old _ => m r ≠ old
  | .fetch r old _ => m r = old

/-- The register that the step writes. -/
def writes : Action Reg Val → Option Reg
  | .load _ _ => none
  | .store r _ => some r
  | .swap r _ _ => some r
  | .miss _ _ _ => none
  | .fetch r _ _ => some r

variable [DecidableEq Reg]

def apply (m : (r : Reg) → Val r) : Action Reg Val → (r : Reg) → Val r
  | .load _ _ => m
  | .store r v => Function.update m r v
  | .swap r _ new => Function.update m r new
  | .miss _ _ _ => m
  | .fetch r _ new => Function.update m r new

lemma apply_of_not_writes {m : (r : Reg) → Val r} {r : Reg} (h : a.writes ≠ some r) : a.apply m r = m r := by
  cases a with
  | load r' v | miss r' old new => rfl
  | store r' v | swap r' old new | fetch r' old new => exact update_of_ne (fun hr => h (congrArg some hr.symm)) _ _

end Action

/-- The next step of a program, and the program behind it. -/
def Prog.act? [∀ r, DecidableEq (Val r)] (m : (r : Reg) → Val r) :
    Prog Reg Val Label Reply → Option (Action Reg Val × Prog Reg Val Label Reply)
  | .ret _ => none
  | .load r next => some (.load r (m r), next (m r))
  | .store r v next => some (.store r v, next)
  | .cas r old new next => if m r = old then some (.swap r old new, next true) else some (.miss r old new, next false)
  | .fetch r update next => some (.fetch r (m r) (update (m r)), next (m r))
  | .jump _ => none

/-- The registers after `n` steps of a program that runs alone. -/
def Prog.alone [DecidableEq Reg] [∀ r, DecidableEq (Val r)] (K : Code Reg Val Label Call Reply) :
    ℕ → Prog Reg Val Label Reply → ((r : Reg) → Val r) → (r : Reg) → Val r
  | 0, _, m => m
  | n + 1, .jump label, m => Prog.alone K n (K.body label) m
  | n + 1, p, m =>
    match p.act? m with
    | some (a, next) => Prog.alone K n next (a.apply m)
    | none => m

/-! ## Runs -/

section Runs

variable [DecidableEq Thread] [DecidableEq Reg] [∀ r, DecidableEq (Val r)]

/-- The shared state with one more entry in the log, and what it did to the registers. -/
def Shared.push (s : Shared Thread Reg Val Call Reply) (e : Entry Thread Reg Val Call Reply) :
    Shared Thread Reg Val Call Reply where
  mem := match e with
    | .did _ _ a => a.apply s.mem
    | _ => s.mem
  log := e :: s.log

/-- The shared state, and for every thread the call it is in and what is left of its program. -/
structure System (Thread Reg : Type) (Val : Reg → Type) (Label Call Reply : Type) where
  shared : Shared Thread Reg Val Call Reply
  thread : Thread → Option (Call × Prog Reg Val Label Reply)

inductive Move (Thread Call : Type) where
  | call (t : Thread) (c : Call)
  | run (t : Thread)

namespace System

def start (m : (r : Reg) → Val r) : System Thread Reg Val Label Call Reply := ⟨⟨m, []⟩, fun _ => none⟩

/-- An idle thread begins a call; a busy one makes one step, returns, or goes to the program of a label. -/
def step (K : Code Reg Val Label Call Reply) (s : System Thread Reg Val Label Call Reply) :
    Move Thread Call → System Thread Reg Val Label Call Reply
  | .call t c =>
    match s.thread t with
    | some _ => s
    | none => ⟨s.shared.push (.called t c), Function.update s.thread t (some (c, K.code c))⟩
  | .run t =>
    match s.thread t with
    | none => s
    | some (c, .ret reply) => ⟨s.shared.push (.returned t c reply), Function.update s.thread t none⟩
    | some (c, .jump label) => ⟨s.shared, Function.update s.thread t (some (c, K.body label))⟩
    | some (c, p) =>
      match p.act? s.shared.mem with
      | some (a, next) => ⟨s.shared.push (.did t c a), Function.update s.thread t (some (c, next))⟩
      | none => s

end System

/-- What is asked of the threads: which calls they may begin, and which steps they may make. -/
structure Rules (Thread Reg : Type) (Val : Reg → Type) (Call Reply : Type) where
  mayCall : Shared Thread Reg Val Call Reply → Thread → Call → Prop
  mayAct : Shared Thread Reg Val Call Reply → Thread → Call → Action Reg Val → Prop

/-- The systems that runs within the rules reach. -/
inductive Reached (K : Code Reg Val Label Call Reply) (rules : Rules Thread Reg Val Call Reply) (m : (r : Reg) → Val r) :
    System Thread Reg Val Label Call Reply → Prop where
  | start : Reached K rules m (.start m)
  | call {s : System Thread Reg Val Label Call Reply} (h : Reached K rules m s) (t : Thread) (c : Call)
      (hidle : s.thread t = none) (hmay : rules.mayCall s.shared t c) : Reached K rules m (s.step K (.call t c))
  | run {s : System Thread Reg Val Label Call Reply} (h : Reached K rules m s) (t : Thread)
      (hmay : ∀ c p a next, s.thread t = some (c, p) → p.act? s.shared.mem = some (a, next) →
        rules.mayAct s.shared t c a) : Reached K rules m (s.step K (.run t))

/-- The step that a thread will make next, with the call it is in. -/
def System.next? (s : System Thread Reg Val Label Call Reply) (t : Thread) : Option (Call × Action Reg Val) :=
  (s.thread t).bind fun busy => (busy.2.act? s.shared.mem).map fun act => (busy.1, act.1)

/-- A schedule that keeps to the rules from a system on. -/
def Allowed (K : Code Reg Val Label Call Reply) (rules : Rules Thread Reg Val Call Reply) :
    System Thread Reg Val Label Call Reply → List (Move Thread Call) → Prop
  | _, [] => True
  | s, .call t c :: moves => ((s.thread t).isNone = true ∧ rules.mayCall s.shared t c) ∧
      Allowed K rules (s.step K (.call t c)) moves
  | s, .run t :: moves => (∀ next ∈ (s.next? t).toList, rules.mayAct s.shared t next.1 next.2) ∧
      Allowed K rules (s.step K (.run t)) moves

instance decidableAllowed (K : Code Reg Val Label Call Reply) (rules : Rules Thread Reg Val Call Reply)
    [∀ s t c, Decidable (rules.mayCall s t c)] [∀ s t c a, Decidable (rules.mayAct s t c a)] :
    ∀ (s : System Thread Reg Val Label Call Reply) (moves : List (Move Thread Call)), Decidable (Allowed K rules s moves)
  | _, [] => instDecidableTrue
  | s, .call t c :: moves =>
    have := decidableAllowed K rules (s.step K (.call t c)) moves
    inferInstanceAs (Decidable (((s.thread t).isNone = true ∧ rules.mayCall s.shared t c) ∧
      Allowed K rules (s.step K (.call t c)) moves))
  | s, .run t :: moves =>
    have := decidableAllowed K rules (s.step K (.run t)) moves
    inferInstanceAs (Decidable ((∀ next ∈ (s.next? t).toList, rules.mayAct s.shared t next.1 next.2) ∧
      Allowed K rules (s.step K (.run t)) moves))

lemma Reached.schedule {K : Code Reg Val Label Call Reply} {rules : Rules Thread Reg Val Call Reply}
    {m : (r : Reg) → Val r} {s : System Thread Reg Val Label Call Reply} (moves : List (Move Thread Call))
    (h : Reached K rules m s) (hallowed : Allowed K rules s moves) : Reached K rules m (moves.foldl (System.step K) s) := by
  induction moves generalizing s with
  | nil => exact h
  | cons move moves ih =>
    cases move with
    | call t c => exact ih (h.call t c (Option.isNone_iff_eq_none.mp hallowed.1.1) hallowed.1.2) hallowed.2
    | run t =>
      refine ih (h.run t ?_) hallowed.2
      intro c p a next ht ha
      refine hallowed.1 (c, a) ?_
      rw [System.next?, ht, Option.bind_some, ha]
      exact List.mem_singleton_self _

/-- The call that the thread is in. -/
def inCall (t : Thread) : List (Entry Thread Reg Val Call Reply) → Option Call
  | [] => none
  | .called u c :: log => if u = t then some c else inCall t log
  | .did _ _ _ :: log => inCall t log
  | .returned u _ _ :: log => if u = t then none else inCall t log

variable {t : Thread} {e : Entry Thread Reg Val Call Reply}

lemma inCall_cons_of_ne (h : e.thread ≠ t)
    (log : List (Entry Thread Reg Val Call Reply)) : inCall t (e :: log) = inCall t log := by
  cases e with
  | called u c => exact if_neg h
  | did u c a => rfl
  | returned u c reply => exact if_neg h

/-! ## Rely and guarantee -/

variable {P Q : Shared Thread Reg Val Call Reply → Prop} {c : Call} {p : Prog Reg Val Label Reply}

/-- A proof outline: the invariant, the legal entries, the assertion at each label, and what is to be seen at every point
of a program. -/
structure Outline (Thread Reg : Type) (Val : Reg → Type) (Label Call Reply : Type) where
  Inv : Shared Thread Reg Val Call Reply → Prop
  Legal : Shared Thread Reg Val Call Reply → Entry Thread Reg Val Call Reply → Prop
  pre : Label → Thread → Call → Shared Thread Reg Val Call Reply → Prop
  Seen : Thread → Call → Prog Reg Val Label Reply → Shared Thread Reg Val Call Reply → Prop

variable (O : Outline Thread Reg Val Label Call Reply) (rules : Rules Thread Reg Val Call Reply)

/-- The other threads leave the assertion true. -/
def Stable (t : Thread) (P : Shared Thread Reg Val Call Reply → Prop) : Prop :=
  ∀ s e, e.thread ≠ t → O.Inv s → O.Legal s e → P s → P (s.push e)

/-- The step is legal from the assertion `P` and leads to `P'`. -/
def Leads (t : Thread) (c : Call) (P : Shared Thread Reg Val Call Reply → Prop) (a : Action Reg Val)
    (P' : Shared Thread Reg Val Call Reply → Prop) : Prop :=
  ∀ s, O.Inv s → inCall t s.log = some c → P s → a.Fits s.mem → rules.mayAct s t c a →
    O.Legal s (.did t c a) ∧ P' (s.push (.did t c a))

/-- The program is safe from the assertion `P`. -/
def Safe (t : Thread) (c : Call) : Prog Reg Val Label Reply → (Shared Thread Reg Val Call Reply → Prop) → Prop
  | .ret reply, P => (∀ s, O.Inv s → P s → O.Seen t c (.ret reply) s) ∧
      ∀ s, O.Inv s → inCall t s.log = some c → P s → O.Legal s (.returned t c reply)
  | .load r next, P => (∀ s, O.Inv s → P s → O.Seen t c (.load r next) s) ∧
      ∀ v, ∃ P', Stable O t P' ∧ Leads O rules t c P (.load r v) P' ∧ Safe t c (next v) P'
  | .store r v next, P => (∀ s, O.Inv s → P s → O.Seen t c (.store r v next) s) ∧
      ∃ P', Stable O t P' ∧ Leads O rules t c P (.store r v) P' ∧ Safe t c next P'
  | .cas r old new next, P => (∀ s, O.Inv s → P s → O.Seen t c (.cas r old new next) s) ∧
      (∃ P', Stable O t P' ∧ Leads O rules t c P (.swap r old new) P' ∧ Safe t c (next true) P') ∧
      ∃ P', Stable O t P' ∧ Leads O rules t c P (.miss r old new) P' ∧ Safe t c (next false) P'
  | .fetch r update next, P => (∀ s, O.Inv s → P s → O.Seen t c (.fetch r update next) s) ∧
      ∀ v, ∃ P', Stable O t P' ∧ Leads O rules t c P (.fetch r v (update v)) P' ∧ Safe t c (next v) P'
  | .jump label, P => (∀ s, O.Inv s → P s → O.Seen t c (.jump label) s) ∧ ∀ s, O.Inv s → P s → O.pre label t c s

/-- Every call and every label is safe, and legal entries keep the invariant. -/
structure Proved (K : Code Reg Val Label Call Reply) (m : (r : Reg) → Val r) : Prop where
  start : O.Inv ⟨m, []⟩
  keeps : ∀ s e, O.Inv s → O.Legal s e → O.Inv (s.push e)
  call : ∀ t c, ∃ P, Stable O t P ∧
    (∀ s, O.Inv s → inCall t s.log = none → rules.mayCall s t c →
      O.Legal s (.called t c) ∧ P (s.push (.called t c))) ∧
    Safe O rules t c (K.code c) P
  label : ∀ l t c, Stable O t (O.pre l t c) ∧ Safe O rules t c (K.body l) (O.pre l t c)

/-- The thread stands at a point of its program whose assertion holds. -/
def Stands (s : Shared Thread Reg Val Call Reply) (t : Thread) (c : Call) (p : Prog Reg Val Label Reply) : Prop :=
  ∃ P, Stable O t P ∧ P s ∧ Safe O rules t c p P

variable {O rules} {K : Code Reg Val Label Call Reply} {m : (r : Reg) → Val r}
  {s : System Thread Reg Val Label Call Reply}

lemma Stable.and (hP : Stable O t P) (hQ : Stable O t Q) : Stable O t (fun s => P s ∧ Q s) := by
  intro s e he hi hl h
  exact ⟨hP s e he hi hl h.1, hQ s e he hi hl h.2⟩

lemma Stable.const (p : Prop) : Stable O t (fun _ => p) := fun _ _ _ _ _ h => h

lemma Stable.imp {p : Prop} (h : p → Stable O t P) :
    Stable O t (fun s => p → P s) := fun s e he hi hl hP hp => h hp s e he hi hl (hP hp)

/-- A step may be looked at from a weaker assertion. -/
theorem Leads.mono {P' : Shared Thread Reg Val Call Reply → Prop}
    (h : Leads O rules t c Q a P') (hPQ : ∀ s, O.Inv s → P s → Q s) : Leads O rules t c P a P' :=
  fun s hi hc hP hfit hmay => h s hi hc (hPQ s hi hP) hfit hmay

lemma Safe.mono (h : Safe O rules t c p Q) (hPQ : ∀ s, O.Inv s → P s → Q s) : Safe O rules t c p P := by
  cases p with
  | ret reply => exact ⟨fun s hi hP => h.1 s hi (hPQ s hi hP), fun s hi hc hP => h.2 s hi hc (hPQ s hi hP)⟩
  | jump label => exact ⟨fun s hi hP => h.1 s hi (hPQ s hi hP), fun s hi hP => h.2 s hi (hPQ s hi hP)⟩
  | load r next =>
    refine ⟨fun s hi hP => h.1 s hi (hPQ s hi hP), fun v => ?_⟩
    obtain ⟨P', hst, hlead, hnext⟩ := h.2 v
    exact ⟨P', hst, hlead.mono hPQ, hnext⟩
  | store r v next =>
    refine ⟨fun s hi hP => h.1 s hi (hPQ s hi hP), ?_⟩
    obtain ⟨P', hst, hlead, hnext⟩ := h.2
    exact ⟨P', hst, hlead.mono hPQ, hnext⟩
  | fetch r update next =>
    refine ⟨fun s hi hP => h.1 s hi (hPQ s hi hP), fun v => ?_⟩
    obtain ⟨P', hst, hlead, hnext⟩ := h.2 v
    exact ⟨P', hst, hlead.mono hPQ, hnext⟩
  | cas r old new next =>
    obtain ⟨P1, hst1, hlead1, hnext1⟩ := h.2.1
    obtain ⟨P2, hst2, hlead2, hnext2⟩ := h.2.2
    exact ⟨fun s hi hP => h.1 s hi (hPQ s hi hP), ⟨P1, hst1, hlead1.mono hPQ, hnext1⟩, P2, hst2, hlead2.mono hPQ, hnext2⟩

/-- Nothing is asked of a point that no thread reaches. -/
theorem Safe.of_false (p : Prog Reg Val Label Reply) : Safe O rules t c p (fun _ => False) := by
  have hlead : ∀ a, Leads O rules t c (fun _ => False) a (fun _ => False) := fun a s hi hc hP => hP.elim
  have hst : Stable O t (fun _ => False) := Stable.const False
  induction p with
  | ret reply => exact ⟨fun s hi hP => hP.elim, fun s hi hc hP => hP.elim⟩
  | jump label => exact ⟨fun s hi hP => hP.elim, fun s hi hP => hP.elim⟩
  | load r next ih => exact ⟨fun s hi hP => hP.elim, fun v => ⟨_, hst, hlead _, ih v⟩⟩
  | store r v next ih => exact ⟨fun s hi hP => hP.elim, _, hst, hlead _, ih⟩
  | cas r old new next ih => exact ⟨fun s hi hP => hP.elim, ⟨_, hst, hlead _, ih true⟩, _, hst, hlead _, ih false⟩
  | fetch r update next ih => exact ⟨fun s hi hP => hP.elim, fun v => ⟨_, hst, hlead _, ih v⟩⟩

/-- What an assertion says of no state may be taken as given. -/
theorem Safe.of_pure {q : Prop} (hq : ∀ s, P s → q) (h : q → Safe O rules t c p P) : Safe O rules t c p P := by
  by_cases hp : q
  · exact h hp
  · exact (Safe.of_false p).mono fun s _ hP => hp (hq s hP)

lemma Safe.seen
    (h : Safe O rules t c p P) (s : Shared Thread Reg Val Call Reply) (hi : O.Inv s) (hP : P s) : O.Seen t c p s := by
  cases p <;> exact h.1 s hi hP

/-- A step of a safe program is legal, and what is left of the program stands. -/
theorem Stands.act {sh : Shared Thread Reg Val Call Reply} {next : Prog Reg Val Label Reply}
    (h : Stands O rules sh t c p) (hi : O.Inv sh) (hc : inCall t sh.log = some c)
    (ha : p.act? sh.mem = some (a, next)) (hmay : rules.mayAct sh t c a) :
    O.Legal sh (.did t c a) ∧ Stands O rules (sh.push (.did t c a)) t c next := by
  obtain ⟨P, -, hP, hsafe⟩ := h
  cases p with
  | ret reply | jump label => cases ha
  | load r next =>
    cases ha
    obtain ⟨P', hst, hlead, hnext⟩ := hsafe.2 (sh.mem r)
    obtain ⟨hlegal, hP'⟩ := hlead sh hi hc hP rfl hmay
    exact ⟨hlegal, P', hst, hP', hnext⟩
  | store r v next =>
    cases ha
    obtain ⟨P', hst, hlead, hnext⟩ := hsafe.2
    obtain ⟨hlegal, hP'⟩ := hlead sh hi hc hP trivial hmay
    exact ⟨hlegal, P', hst, hP', hnext⟩
  | cas r old new next =>
    dsimp only [Prog.act?] at ha
    split at ha
    · rename_i hm
      cases ha
      obtain ⟨P', hst, hlead, hnext⟩ := hsafe.2.1
      obtain ⟨hlegal, hP'⟩ := hlead sh hi hc hP hm hmay
      exact ⟨hlegal, P', hst, hP', hnext⟩
    · rename_i hm
      cases ha
      obtain ⟨P', hst, hlead, hnext⟩ := hsafe.2.2
      obtain ⟨hlegal, hP'⟩ := hlead sh hi hc hP hm hmay
      exact ⟨hlegal, P', hst, hP', hnext⟩
  | fetch r update next =>
    cases ha
    obtain ⟨P', hst, hlead, hnext⟩ := hsafe.2 (sh.mem r)
    obtain ⟨hlegal, hP'⟩ := hlead sh hi hc hP rfl hmay
    exact ⟨hlegal, P', hst, hP', hnext⟩

/-- What holds between the steps of a run. -/
structure Holds (O : Outline Thread Reg Val Label Call Reply) (rules : Rules Thread Reg Val Call Reply)
    (s : System Thread Reg Val Label Call Reply) : Prop where
  inv : O.Inv s.shared
  stands : ∀ t c p, s.thread t = some (c, p) → Stands O rules s.shared t c p
  calls : ∀ t, inCall t s.shared.log = (s.thread t).map Prod.fst

/-- One thread moved on, with one entry in the log. -/
theorem Holds.entry (h : Holds O rules s) (hproved : Proved O rules K m)
    (hlegal : O.Legal s.shared e) (next : Option (Call × Prog Reg Val Label Reply))
    (hnext : ∀ c p, next = some (c, p) → Stands O rules (s.shared.push e) e.thread c p)
    (hcall : inCall e.thread (e :: s.shared.log) = next.map Prod.fst) :
    Holds O rules ⟨s.shared.push e, update s.thread e.thread next⟩ where
  inv := hproved.keeps _ _ h.inv hlegal
  stands := fun t c p ht => by
    dsimp only at ht
    rw [update_apply] at ht
    split at ht
    · rename_i heq
      subst heq
      exact hnext c p ht
    · rename_i hne
      obtain ⟨P, hst, hP, hsafe⟩ := h.stands t c p ht
      exact ⟨P, hst, hst _ e (Ne.symm hne) h.inv hlegal hP, hsafe⟩
  calls := fun t => by
    dsimp only
    rw [update_apply]
    split
    · rename_i heq
      subst heq
      exact hcall
    · rename_i hne
      rw [← h.calls t]
      exact inCall_cons_of_ne (Ne.symm hne) s.shared.log

/-- A thread goes to the program of a label. -/
theorem Holds.jump (h : Holds O rules s) (hproved : Proved O rules K m) {label : Label}
    (ht : s.thread t = some (c, .jump label)) : Holds O rules ⟨s.shared, update s.thread t (some (c, K.body label))⟩ where
  inv := h.inv
  stands := fun u c' p hu => by
    dsimp only at hu
    rw [update_apply] at hu
    split at hu
    · rename_i heq
      subst heq
      cases hu
      obtain ⟨P, -, hP, hsafe⟩ := h.stands u _ _ ht
      obtain ⟨hst, hbody⟩ := hproved.label label u c
      exact ⟨_, hst, hsafe.2 s.shared h.inv hP, hbody⟩
    · exact h.stands u c' p hu
  calls := fun u => by
    dsimp only
    rw [h.calls, update_apply]
    split
    · rename_i heq
      subst heq
      rw [ht]
      rfl
    · rfl

/-- A program returns, jumps or makes a step. -/
theorem Prog.cases_act (mem : (r : Reg) → Val r) (p : Prog Reg Val Label Reply) :
    (∃ reply, p = .ret reply) ∨ (∃ label, p = .jump label) ∨ ∃ a next, p.act? mem = some (a, next) := by
  cases p with
  | ret reply => exact .inl ⟨reply, rfl⟩
  | jump label => exact .inr (.inl ⟨label, rfl⟩)
  | load r next | store r v next | fetch r update next => exact .inr (.inr ⟨_, _, rfl⟩)
  | cas r old new next =>
    refine .inr (.inr ?_)
    dsimp only [Prog.act?]
    split <;> exact ⟨_, _, rfl⟩

lemma System.step_act {next : Prog Reg Val Label Reply}
    (ht : s.thread t = some (c, p)) (ha : p.act? s.shared.mem = some (a, next)) :
    s.step K (.run t) = ⟨s.shared.push (.did t c a), update s.thread t (some (c, next))⟩ := by
  cases p with
  | ret reply | jump label => cases ha
  | _ => simp [System.step, ht, ha]

/-- **Soundness.**  If every program is safe, the invariant holds in every state reached, and every thread stands at a
point whose assertion holds. -/
theorem Reached.holds (h : Reached K rules m s) (hproved : Proved O rules K m) : Holds O rules s := by
  induction h with
  | start => exact ⟨hproved.start, fun t c p ht => (by cases ht), fun t => rfl⟩
  | @call s hr t c hidle hmay ih =>
    obtain ⟨P, hst, hcall, hsafe⟩ := hproved.call t c
    have hnone : inCall t s.shared.log = none := by rw [ih.calls, hidle]; rfl
    obtain ⟨hlegal, hP⟩ := hcall s.shared ih.inv hnone hmay
    have hstep : s.step K (.call t c) = ⟨s.shared.push (.called t c), update s.thread t (some (c, K.code c))⟩ := by
      simp [System.step, hidle]
    rw [hstep]
    refine ih.entry hproved hlegal (some (c, K.code c)) (fun c' p hp => ?_) (if_pos rfl)
    cases hp
    exact ⟨P, hst, hP, hsafe⟩
  | @run s hr t hmay ih =>
    rcases hth : s.thread t with _ | ⟨c, p⟩
    · have hstep : s.step K (.run t) = s := by simp only [System.step, hth]
      rw [hstep]
      exact ih
    have hstands := ih.stands t c p hth
    have hc : inCall t s.shared.log = some c := by rw [ih.calls, hth]; rfl
    rcases p.cases_act s.shared.mem with ⟨reply, rfl⟩ | ⟨label, rfl⟩ | ⟨a, next, ha⟩
    · obtain ⟨P, -, hP, hsafe⟩ := hstands
      have hstep : s.step K (.run t) = ⟨s.shared.push (.returned t c reply), update s.thread t none⟩ := by
        simp [System.step, hth]
      rw [hstep]
      exact ih.entry hproved (hsafe.2 s.shared ih.inv hc hP) none nofun (if_pos rfl)
    · have hstep : s.step K (.run t) = ⟨s.shared, update s.thread t (some (c, K.body label))⟩ := by
        simp [System.step, hth]
      rw [hstep]
      exact ih.jump hproved hth
    · obtain ⟨hlegal, hstand⟩ := hstands.act ih.inv hc ha (hmay c p a next hth ha)
      rw [System.step_act hth ha]
      refine ih.entry hproved hlegal (some (c, next)) (fun c' p hp => ?_) hc
      cases hp
      exact hstand

end Runs

end LogOS.Lib.Interleaving
