import Mathlib
import LogOS.Lib.Interleaving

/-!
# Cells published under a sequence number

One writer and one reader share cells that are divided into channels.  To publish, the writer stores the cells of a channel
one by one and then advances the sequence number of the channel.  The reader loads the sequence number, the cells and the
sequence number again; if the number changed it tries again, and after a few attempts it answers with a fallback.

The sequence number tells the reader of publications that ended while it read, but not of one that is still under way.  So
an answer is what one publication stored if, whenever the reader loads the sequence number for the second time, no
publication on the channel has begun that did not advance it yet.
-/

set_option linter.unusedSectionVars false

namespace LogOS.Lib.SequenceLock

open Lib.Interleaving List

/-! ## Queries -/

/-- What a reader does between its two loads of the sequence number: it loads cells and computes a result. -/
inductive Query {Cell : Type} (V : Cell → Type) (α : Type) where
  | done (x : α)
  | load (a : Cell) (next : V a → Query V α)

namespace Query

variable {Cell : Type} {V : Cell → Type} {α : Type}

/-- The result when the cells do not change. -/
def eval (m : ∀ a, V a) : Query V α → α
  | .done x => x
  | .load a next => (next (m a)).eval m

/-- The query loads cells of `S` only. -/
def Within (S : Cell → Prop) : Query V α → Prop
  | .done _ => True
  | .load a next => S a ∧ ∀ v, (next v).Within S

lemma eval_congr {S : Cell → Prop} {m m' : ∀ a, V a} (h : ∀ a, S a → m' a = m a) (q : Query V α) (hq : q.Within S) :
    q.eval m' = q.eval m := by
  induction q with
  | done x => rfl
  | load a next ih => rw [eval, eval, h a hq.1, ih _ (hq.2 _)]

end Query

/-! ## The protocol -/

inductive Reg (Channel Cell : Type) where
  | sequence (ch : Channel)
  | cell (a : Cell)
  deriving DecidableEq

/-- Sequence numbers have 32 bits. -/
abbrev Val {Channel Cell : Type} (V : Cell → Type) : Reg Channel Cell → Type
  | .sequence _ => UInt32
  | .cell a => V a

inductive Party where
  | writer
  | reader
  deriving DecidableEq

inductive Call (Write Read : Type) where
  | write (w : Write)
  | read (r : Read)

/-- What the writer stores and what the reader loads. -/
structure Protocol (Channel Cell : Type) (V : Cell → Type) (Write Read Out : Type) where
  channel : Cell → Channel
  writes : Write → Channel
  stores : Write → List ((a : Cell) × V a)
  reads : Read → Channel
  query : Read → Query V Out
  fallback : Read → Out
  tries : ℕ
  stores_channel : ∀ w, ∀ e ∈ stores w, channel e.1 = writes w
  stores_nodup : ∀ w, ((stores w).map Sigma.fst).Nodup
  query_within : ∀ r, (query r).Within fun a => channel a = reads r

instance decidableVal {Channel Cell : Type} {V : Cell → Type} [∀ a, DecidableEq (V a)] :
    ∀ r : Reg Channel Cell, DecidableEq (Val V r)
  | .sequence _ => inferInstanceAs (DecidableEq UInt32)
  | .cell a => inferInstanceAs (DecidableEq (V a))

variable {Channel Cell Write Read Out : Type} {V : Cell → Type}

/-- A program of the protocol.  A read replies with a sequence number and a result. -/
abbrev Program (Channel : Type) {Cell : Type} (V : Cell → Type) (Out : Type) : Type :=
  Interleaving.Prog (Reg Channel Cell) (Val V) Empty (Option (UInt32 × Out))

abbrev LogEntry (Channel : Type) {Cell : Type} (V : Cell → Type) (Write Read Out : Type) : Type :=
  Entry Party (Reg Channel Cell) (Val V) (Call Write Read) (Option (UInt32 × Out))

abbrev State (Channel : Type) {Cell : Type} (V : Cell → Type) (Write Read Out : Type) : Type :=
  Shared Party (Reg Channel Cell) (Val V) (Call Write Read) (Option (UInt32 × Out))

def storeAll : List ((a : Cell) × V a) → Program Channel V Out → Program Channel V Out
  | [], next => next
  | ⟨a, v⟩ :: rest, next => .store (.cell a) v (storeAll rest next)

def Query.prog : Query V Out → (Out → Program Channel V Out) → Program Channel V Out
  | .done x, next => next x
  | .load a q, next => .load (.cell a) fun v => (q v).prog next

/-- The cells of a memory. -/
def cells (m : ∀ r : Reg Channel Cell, Val V r) : ∀ a, V a := fun a => m (.cell a)

/-- No publication yet. -/
def start (m : ∀ a, V a) : ∀ r : Reg Channel Cell, Val V r
  | .sequence _ => 0
  | .cell a => m a

namespace Protocol

variable (P : Protocol Channel Cell V Write Read Out)

def write (w : Write) : Program Channel V Out :=
  storeAll (P.stores w) (.fetch (.sequence (P.writes w)) (· + 1) fun _ => .ret none)

/-- `n` attempts, and the fallback when all of them fail. -/
def read (r : Read) : ℕ → Program Channel V Out
  | 0 => .load (.sequence (P.reads r)) fun v => .ret (some (v, P.fallback r))
  | n + 1 => .load (.sequence (P.reads r)) fun v => (P.query r).prog fun out =>
      .load (.sequence (P.reads r)) fun v' => if v' = v then .ret (some (v, out)) else read r n

def code : Code (Reg Channel Cell) (Val V) Empty (Call Write Read) (Option (UInt32 × Out)) where
  code
    | .write w => P.write w
    | .read r => P.read r P.tries
  body := Empty.elim

end Protocol

/-! ## Runs -/

/-- How often the sequence number of a channel was advanced. -/
def advanced [DecidableEq Channel] (ch : Channel) : List (LogEntry Channel V Write Read Out) → ℕ
  | [] => 0
  | .did _ _ (.fetch (.sequence ch') _ _) :: log => if ch' = ch then advanced ch log + 1 else advanced ch log
  | _ :: log => advanced ch log

/-- The next load of a sequence number is the second one of an attempt. -/
def closing (t : Party) : List (LogEntry Channel V Write Read Out) → Bool
  | [] => false
  | .called u _ :: log => if u = t then false else closing t log
  | .did u _ (.load (.sequence _) _) :: log => if u = t then !closing t log else closing t log
  | _ :: log => closing t log

namespace Protocol

variable (P : Protocol Channel Cell V Write Read Out) [DecidableEq Channel]

/-- The publications that have begun on a channel, the first one first. -/
def begun (ch : Channel) : List (LogEntry Channel V Write Read Out) → List Write
  | [] => []
  | .called _ (.write w) :: log => if P.writes w = ch then begun ch log ++ [w] else begun ch log
  | _ :: log => begun ch log

/-- Every publication that has begun on the channel has advanced its sequence number. -/
def Idle (ch : Channel) (log : List (LogEntry Channel V Write Read Out)) : Prop :=
  advanced ch log = (P.begun ch log).length

instance (ch : Channel) (log : List (LogEntry Channel V Write Read Out)) : Decidable (P.Idle ch log) :=
  inferInstanceAs (Decidable (_ = _))

/-- The writer publishes, less than `2 ^ 32` times on a channel, and the reader reads. -/
def MayCall (s : State Channel V Write Read Out) : Party → Call Write Read → Prop
  | .writer, .write w => (P.begun (P.writes w) s.log).length + 1 < 2 ^ 32
  | .reader, .read _ => True
  | _, _ => False

/-- The second load of an attempt is made while the channel is idle. -/
def MayAct (s : State Channel V Write Read Out) (t : Party) : Action (Reg Channel Cell) (Val V) → Prop
  | .load (.sequence ch) _ => closing t s.log = true → P.Idle ch s.log
  | _ => True

instance (s : State Channel V Write Read Out) (t : Party) (c : Call Write Read) : Decidable (P.MayCall s t c) :=
  match t, c with
  | .writer, .write w => inferInstanceAs (Decidable ((P.begun (P.writes w) s.log).length + 1 < 2 ^ 32))
  | .writer, .read _ => inferInstanceAs (Decidable False)
  | .reader, .write _ => inferInstanceAs (Decidable False)
  | .reader, .read _ => instDecidableTrue

instance (s : State Channel V Write Read Out) (t : Party) (a : Action (Reg Channel Cell) (Val V)) :
    Decidable (P.MayAct s t a) :=
  match a with
  | .load (.sequence ch) _ => inferInstanceAs (Decidable (closing t s.log = true → P.Idle ch s.log))
  | .load (.cell _) _ => instDecidableTrue
  | .store _ _ => instDecidableTrue
  | .swap _ _ _ => instDecidableTrue
  | .miss _ _ _ => instDecidableTrue
  | .fetch _ _ _ => instDecidableTrue

/-- All interleavings of one writer and one reader. -/
def anyTime : Rules Party (Reg Channel Cell) (Val V) (Call Write Read) (Option (UInt32 × Out)) where
  mayCall := P.MayCall
  mayAct := fun _ _ _ _ => True

/-- The interleavings in which the reader ends its attempts while the channel is idle. -/
def whenIdle : Rules Party (Reg Channel Cell) (Val V) (Call Write Read) (Option (UInt32 × Out)) where
  mayCall := P.MayCall
  mayAct := fun s t _ a => P.MayAct s t a

/-- The cells of the channel are those that the last of `ws` stored, and the initial ones before the first publication. -/
def Holding (m₀ : ∀ a, V a) (ch : Channel) (ws : List Write) (m : ∀ a, V a) : Prop :=
  match ws.getLast? with
  | none => ∀ a, P.channel a = ch → m a = m₀ a
  | some w => ∀ e ∈ P.stores w, m e.1 = e.2

/-- The result was computed from the cells of one publication, the one that the sequence number names. -/
def Answer (m₀ : ∀ a, V a) (log : List (LogEntry Channel V Write Read Out)) (r : Read) (v : UInt32) (out : Out) : Prop :=
  out = P.fallback r ∨ v.toNat ≤ (P.begun (P.reads r) log).length ∧
    ∃ m, P.Holding m₀ (P.reads r) ((P.begun (P.reads r) log).take v.toNat) m ∧ out = (P.query r).eval m

/-! ## The proof outline -/

section Outline

variable (m₀ : ∀ a, V a)

/-- What holds of a channel between the steps of a run. -/
structure ChannelInv (s : State Channel V Write Read Out) (ch : Channel) : Prop where
  sequence : s.mem (.sequence ch) = UInt32.ofNat (advanced ch s.log)
  bound : (P.begun ch s.log).length < 2 ^ 32
  advanced_le : advanced ch s.log ≤ (P.begun ch s.log).length
  idle : P.Idle ch s.log → P.Holding m₀ ch (P.begun ch s.log) (cells s.mem)
  busy : ¬ P.Idle ch s.log → ∃ w ws, inCall .writer s.log = some (.write w) ∧ P.writes w = ch ∧
    P.begun ch s.log = ws ++ [w] ∧ advanced ch s.log = ws.length

structure Inv (s : State Channel V Write Read Out) : Prop where
  channel : ∀ ch, P.ChannelInv m₀ s ch
  answers : ∀ r v out, .returned .reader (.read r) (some (v, out)) ∈ s.log → P.Answer m₀ s.log r v out

/-- The steps that the parties make. -/
inductive Legal (s : State Channel V Write Read Out) : LogEntry Channel V Write Read Out → Prop where
  | begins (w : Write) (hout : inCall .writer s.log = none)
      (hbound : (P.begun (P.writes w) s.log).length + 1 < 2 ^ 32) : Legal s (.called .writer (.write w))
  | asks (r : Read) : Legal s (.called .reader (.read r))
  | loads (c : Call Write Read) (x : Reg Channel Cell) (v : Val V x) : Legal s (.did .reader c (.load x v))
  | stores (w : Write) (a : Cell) (v : V a) (hch : P.channel a = P.writes w) (hbusy : ¬ P.Idle (P.writes w) s.log) :
      Legal s (.did .writer (.write w) (.store (.cell a) v))
  | advances (w : Write) (v : UInt32) (hin : inCall .writer s.log = some (.write w)) (hbusy : ¬ P.Idle (P.writes w) s.log)
      (hv : s.mem (.sequence (P.writes w)) = v) (hstored : ∀ e ∈ P.stores w, cells s.mem e.1 = e.2) :
      Legal s (.did .writer (.write w) (.fetch (.sequence (P.writes w)) v (v + 1)))
  | ends (w : Write) (hin : inCall .writer s.log = some (.write w)) (hidle : P.Idle (P.writes w) s.log) :
      Legal s (.returned .writer (.write w) none)
  | answers (r : Read) (v : UInt32) (out : Out) (h : P.Answer m₀ s.log r v out) :
      Legal s (.returned .reader (.read r) (some (v, out)))

def outline : Outline Party (Reg Channel Cell) (Val V) Empty (Call Write Read) (Option (UInt32 × Out)) where
  Inv := P.Inv m₀
  Legal := P.Legal m₀
  pre := Empty.elim
  Seen := fun _ _ _ _ => True

end Outline

/-! ## Legal steps keep the invariant -/

variable {v : UInt32}

variable {P} {m₀ : ∀ a, V a} {s : State Channel V Write Read Out} {e : LogEntry Channel V Write Read Out} {ch : Channel}

variable {w : Write}

lemma writes_of_mem_begun {log : List (LogEntry Channel V Write Read Out)} (h : w ∈ P.begun ch log) : P.writes w = ch := by
  fun_induction begun P ch log with
  | case1 => cases h
  | case2 t w' log hw ih =>
    rcases mem_append.mp h with h | h
    · exact ih h
    · rw [mem_singleton.mp h, hw]
  | case3 t w' log hw ih | case4 e log hne ih => exact ih h

lemma Holding.congr {ws : List Write} {m m' : ∀ a, V a} (h : P.Holding m₀ ch ws m) (hws : ∀ w ∈ ws, P.writes w = ch)
    (hm : ∀ a, P.channel a = ch → m' a = m a) : P.Holding m₀ ch ws m' := by
  unfold Holding at h ⊢
  split <;> rename_i hlast <;> rw [hlast] at h
  · exact fun a ha => (hm a ha).trans (h a ha)
  · rename_i w
    have hw : P.writes w = ch := hws w (mem_of_getLast? hlast)
    exact fun e he => (hm e.1 ((P.stores_channel w e he).trans hw)).trans (h e he)

/-- A publication begins at the end of the list. -/
theorem begun_prefix (ch : Channel) (e : LogEntry Channel V Write Read Out) (log : List (LogEntry Channel V Write Read Out)) :
    P.begun ch log <+: P.begun ch (e :: log) := by
  cases e with
  | called t c =>
    cases c with
    | write w =>
      rw [begun]
      split
      · exact prefix_append _ _
      · exact prefix_rfl
    | read r => exact prefix_rfl
  | did t c a | returned t c reply => exact prefix_rfl

lemma Answer.mono {log : List (LogEntry Channel V Write Read Out)} {r : Read} {out : Out}
    (h : P.Answer m₀ log r v out) (e : LogEntry Channel V Write Read Out) : P.Answer m₀ (e :: log) r v out := by
  rcases h with h | ⟨hle, m, hm, hout⟩
  · exact .inl h
  obtain ⟨rest, hrest⟩ := begun_prefix (P.reads r) e log
  refine .inr ⟨?_, m, ?_, hout⟩
  · rw [← hrest, length_append]
    exact le_trans hle (Nat.le_add_right _ _)
  · rw [← hrest, take_append_of_le_length hle]
    exact hm

/-- No publication begins on the channel, and its sequence number is not advanced. -/
structure Quiet (P : Protocol Channel Cell V Write Read Out) (s : State Channel V Write Read Out) (ch : Channel)
    (e : LogEntry Channel V Write Read Out) : Prop where
  begun : P.begun ch (e :: s.log) = P.begun ch s.log
  advanced : advanced ch (e :: s.log) = advanced ch s.log

lemma Quiet.idle_iff [DecidableEq Cell] (h : Quiet P s ch e) : P.Idle ch (s.push e).log ↔ P.Idle ch s.log := by
  show SequenceLock.advanced ch (e :: s.log) = (P.begun ch (e :: s.log)).length ↔ _
  rw [h.begun, h.advanced]
  rfl

variable [DecidableEq Cell]

lemma push_mem {t : Party} {c : Call Write Read} {a : Action (Reg Channel Cell) (Val V)} {x : Reg Channel Cell}
    (h : a.writes ≠ some x) : (s.push (.did t c a)).mem x = s.mem x := Action.apply_of_not_writes h

lemma cells_push {t : Party} {c : Call Write Read} {a : Action (Reg Channel Cell) (Val V)} {b : Cell}
    (h : a.writes ≠ some (.cell b)) : cells (s.push (.did t c a)).mem b = cells s.mem b := Action.apply_of_not_writes h

/-- A quiet step that changes no cell of the channel while it is idle. -/
theorem ChannelInv.quiet (h : P.ChannelInv m₀ s ch) (hquiet : Quiet P s ch e)
    (hseq : (s.push e).mem (.sequence ch) = s.mem (.sequence ch))
    (hcells : P.Idle ch s.log → ∀ a, P.channel a = ch → cells (s.push e).mem a = cells s.mem a)
    (hin : ¬ P.Idle ch s.log → inCall .writer (e :: s.log) = inCall .writer s.log) : P.ChannelInv m₀ (s.push e) ch where
  sequence := by
    rw [hseq, h.sequence]
    exact congrArg UInt32.ofNat hquiet.advanced.symm
  bound := by
    show (P.begun ch (e :: s.log)).length < 2 ^ 32
    rw [hquiet.begun]
    exact h.bound
  advanced_le := by
    show advanced ch (e :: s.log) ≤ (P.begun ch (e :: s.log)).length
    rw [hquiet.begun, hquiet.advanced]
    exact h.advanced_le
  idle := fun hidle => by
    have hidle' := hquiet.idle_iff.mp hidle
    show P.Holding m₀ ch (P.begun ch (e :: s.log)) _
    rw [hquiet.begun]
    exact (h.idle hidle').congr (fun w hw => writes_of_mem_begun hw) (hcells hidle')
  busy := fun hbusy => by
    have hbusy' : ¬ P.Idle ch s.log := fun hidle => hbusy (hquiet.idle_iff.mpr hidle)
    show ∃ w ws, inCall .writer (e :: s.log) = _ ∧ _ ∧ P.begun ch (e :: s.log) = _ ∧ advanced ch (e :: s.log) = _
    rw [hin hbusy', hquiet.begun, hquiet.advanced]
    exact h.busy hbusy'

/-- While a publication is under way its channel is not idle. -/
theorem ChannelInv.not_idle_begins (h : P.ChannelInv m₀ s (P.writes w)) :
    ¬ P.Idle (P.writes w) (.called .writer (.write w) :: s.log) := by
  intro hidle
  have hbegun : P.begun (P.writes w) (.called .writer (.write w) :: s.log) = P.begun (P.writes w) s.log ++ [w] := if_pos rfl
  have hlen : advanced (P.writes w) s.log = (P.begun (P.writes w) s.log ++ [w]).length := by
    rw [← hbegun]
    exact hidle
  have hle := h.advanced_le
  rw [length_append, length_singleton] at hlen
  omega

section

variable (h : P.ChannelInv m₀ s ch)
include h

lemma ChannelInv.begins (hout : inCall .writer s.log = none) (hbound : (P.begun (P.writes w) s.log).length + 1 < 2 ^ 32) :
    P.ChannelInv m₀ (s.push (.called .writer (.write w))) ch := by
  have hidle : P.Idle ch s.log := by
    by_contra hbusy
    obtain ⟨w', ws, hin, -⟩ := h.busy hbusy
    rw [hout] at hin
    cases hin
  by_cases hch : P.writes w = ch
  · subst hch
    have hbegun : P.begun (P.writes w) (s.push (.called .writer (.write w))).log = P.begun (P.writes w) s.log ++ [w] :=
      if_pos rfl
    refine ⟨h.sequence, ?_, ?_, fun hidle' => absurd hidle' h.not_idle_begins,
      fun _ => ⟨w, P.begun (P.writes w) s.log, if_pos rfl, rfl, hbegun, hidle⟩⟩
    · rw [hbegun, length_append]
      exact hbound
    · rw [hbegun, length_append]
      exact le_trans h.advanced_le (Nat.le_add_right _ _)
  · exact h.quiet ⟨if_neg hch, rfl⟩ rfl (fun _ _ _ => rfl) (absurd hidle)

lemma ChannelInv.stores {a : Cell} {v : V a} (hch : P.channel a = P.writes w)
    (hbusy : ¬ P.Idle (P.writes w) s.log) : P.ChannelInv m₀ (s.push (.did .writer (.write w) (.store (.cell a) v))) ch := by
  refine h.quiet ⟨rfl, rfl⟩ ?_ ?_ fun _ => rfl
  · exact push_mem (by rintro ⟨⟩)
  · intro hidle b hb
    refine cells_push ?_
    rintro ⟨⟩
    rw [← hch, hb] at hbusy
    exact hbusy hidle

lemma ChannelInv.advances
    (hin : inCall .writer s.log = some (.write w)) (hbusy : ¬ P.Idle (P.writes w) s.log)
    (hv : s.mem (.sequence (P.writes w)) = v) (hstored : ∀ e ∈ P.stores w, cells s.mem e.1 = e.2) :
    P.ChannelInv m₀ (s.push (.did .writer (.write w) (.fetch (.sequence (P.writes w)) v (v + 1)))) ch := by
  by_cases hch : P.writes w = ch
  · subst hch
    obtain ⟨w', ws, hin', -, hbegun, hadv⟩ := h.busy hbusy
    rw [hin] at hin'
    cases hin'
    have hadv' : advanced (P.writes w) (s.push (.did .writer (.write w) (.fetch (.sequence (P.writes w)) v (v + 1)))).log =
        ws.length + 1 := (if_pos rfl).trans (congrArg (· + 1) hadv)
    have hlen : (P.begun (P.writes w) s.log).length = ws.length + 1 := by rw [hbegun, length_append]; rfl
    refine ⟨?_, h.bound, ?_, fun _ => ?_, fun hnot => absurd (hadv'.trans hlen.symm) hnot⟩
    · rw [hadv']
      have hseq := h.sequence
      rw [hv, hadv] at hseq
      show Function.update s.mem _ (v + 1) _ = _
      rw [Function.update_self, hseq]
      exact (UInt32.ofNat_add _ _).symm
    · rw [hadv']
      exact le_of_eq hlen.symm
    · show P.Holding m₀ _ (P.begun (P.writes w) s.log) _
      unfold Holding
      rw [hbegun, getLast?_concat]
      intro e he
      rw [← hstored e he]
      exact cells_push (by rintro ⟨⟩)
  · refine h.quiet ⟨rfl, if_neg hch⟩ ?_ (fun _ a _ => ?_) fun _ => rfl
    · exact push_mem (by rintro ⟨⟩; exact hch rfl)
    · exact cells_push (by rintro ⟨⟩)

lemma ChannelInv.ends (hin : inCall .writer s.log = some (.write w))
    (hidle : P.Idle (P.writes w) s.log) : P.ChannelInv m₀ (s.push (.returned .writer (.write w) none)) ch := by
  refine h.quiet ⟨rfl, rfl⟩ rfl (fun _ _ _ => rfl) fun hbusy => ?_
  obtain ⟨w', ws, hin', hw', -⟩ := h.busy hbusy
  rw [hin] at hin'
  cases hin'
  rw [hw'] at hidle
  exact absurd hidle hbusy

lemma ChannelInv.keeps (hlegal : P.Legal m₀ s e) : P.ChannelInv m₀ (s.push e) ch := by
  cases hlegal with
  | begins w hout hbound => exact h.begins hout hbound
  | asks r => exact h.quiet ⟨rfl, rfl⟩ rfl (fun _ _ _ => rfl) fun _ => if_neg (by decide)
  | loads c x v => exact h.quiet ⟨rfl, by cases x <;> rfl⟩ rfl (fun _ _ _ => rfl) fun _ => rfl
  | stores w a v hch hbusy => exact h.stores hch hbusy
  | advances w v hin hbusy hv hstored => exact h.advances hin hbusy hv hstored
  | ends w hin hidle => exact h.ends hin hidle
  | answers r v out hans => exact h.quiet ⟨rfl, rfl⟩ rfl (fun _ _ _ => rfl) fun _ => if_neg (by decide)

end

lemma Inv.keeps (h : P.Inv m₀ s) (hlegal : P.Legal m₀ s e) : P.Inv m₀ (s.push e) where
  channel := fun ch => (h.channel ch).keeps hlegal
  answers := fun r v out hmem => by
    rcases mem_cons.mp hmem with heq | hold
    · subst heq
      cases hlegal with
      | answers r v out hans => exact hans.mono _
    · exact (h.answers r v out hold).mono _

/-! ## The programs are safe -/

variable [∀ a, DecidableEq (V a)]

/-- The reader changes nothing. -/
theorem Legal.of_reader (h : P.Legal m₀ s e) (he : e.thread ≠ .writer) : (s.push e).mem = s.mem ∧ ∀ ch, Quiet P s ch e := by
  cases h with
  | asks r => exact ⟨rfl, fun ch => ⟨rfl, rfl⟩⟩
  | loads c x v => exact ⟨rfl, fun ch => ⟨rfl, by cases x <;> rfl⟩⟩
  | answers r v out hans => exact ⟨rfl, fun ch => ⟨rfl, rfl⟩⟩
  | _ => exact absurd rfl he

/-- The writer has stored the cells of `done`. -/
def Storing (P : Protocol Channel Cell V Write Read Out) (w : Write) (done : List ((a : Cell) × V a))
    (s : State Channel V Write Read Out) : Prop :=
  ¬ P.Idle (P.writes w) s.log ∧ ∀ e ∈ done, cells s.mem e.1 = e.2

lemma stable_storing (w : Write) (done : List ((a : Cell) × V a)) : Stable (P.outline m₀) .writer (P.Storing w done) := by
  intro s e he hi hlegal ⟨hbusy, hdone⟩
  obtain ⟨hmem, hquiet⟩ := hlegal.of_reader he
  refine ⟨fun hidle => hbusy ((hquiet _).idle_iff.mp hidle), ?_⟩
  rw [hmem]
  exact hdone

lemma stable_idle (ch : Channel) : Stable (P.outline m₀) .writer (fun s => P.Idle ch s.log) := by
  intro s e he hi hlegal hidle
  exact ((hlegal.of_reader he).2 ch).idle_iff.mpr hidle

lemma safe_storeAll (rules : Rules Party (Reg Channel Cell) (Val V) (Call Write Read) (Option (UInt32 × Out))) (w : Write)
    (next : Program Channel V Out) (done rest : List ((a : Cell) × V a)) (hsplit : done ++ rest = P.stores w)
    (hnext : Safe (P.outline m₀) rules .writer (.write w) next (P.Storing w (P.stores w))) :
    Safe (P.outline m₀) rules .writer (.write w) (storeAll rest next) (P.Storing w done) := by
  induction rest generalizing done with
  | nil =>
    rw [append_nil] at hsplit
    rw [hsplit]
    exact hnext
  | cons x rest ih =>
    obtain ⟨a, v⟩ := x
    refine ⟨fun _ _ _ => trivial, P.Storing w (done ++ [⟨a, v⟩]), stable_storing w _, ?_, ih _ (by simpa using hsplit)⟩
    intro s hi hin hP _ _
    have hmem : (⟨a, v⟩ : (a : Cell) × V a) ∈ P.stores w := by rw [← hsplit]; simp
    refine ⟨.stores w a v (P.stores_channel w _ hmem) hP.1, hP.1, fun e he => ?_⟩
    rcases mem_append.mp he with he | he
    · have hne : e.1 ≠ a := by
        have hnodup := P.stores_nodup w
        rw [← hsplit, map_append, nodup_append] at hnodup
        exact hnodup.2.2 e.1 (mem_map_of_mem he) a (by simp)
      rw [← hP.2 e he]
      exact cells_push (by rintro ⟨⟩; exact hne rfl)
    · rw [mem_singleton.mp he]
      exact Function.update_self (Reg.cell a) v s.mem

lemma safe_write (w : Write) : Safe (P.outline m₀) P.whenIdle .writer (.write w) (P.write w) (P.Storing w []) := by
  refine safe_storeAll _ w _ [] (P.stores w) rfl ⟨fun _ _ _ => trivial, fun v => ?_⟩
  refine ⟨fun s => P.Idle (P.writes w) s.log, stable_idle _, ?_, fun _ _ _ => trivial, fun s hi hin hP => .ends w hin hP⟩
  intro s hi hin hP hfit _
  refine ⟨.advances w v hin hP.1 hfit hP.2, ?_⟩
  obtain ⟨w', ws, hin', -, hbegun, hadv⟩ := (hi.channel _).busy hP.1
  show advanced (P.writes w) (_ :: s.log) = (P.begun (P.writes w) s.log).length
  rw [hbegun, length_append, ← hadv]
  exact if_pos rfl

/-- The reader is in an attempt that found the sequence number `v`, with the query `q` left.  If nothing was published since,
the query still gives what it would give now from its beginning. -/
def Reading (P : Protocol Channel Cell V Write Read Out) (r : Read) (v : UInt32) (q : Query V Out)
    (s : State Channel V Write Read Out) : Prop :=
  closing .reader s.log = true ∧ v.toNat ≤ advanced (P.reads r) s.log ∧
    (v.toNat = advanced (P.reads r) s.log → P.Idle (P.reads r) s.log → q.eval (cells s.mem) = (P.query r).eval (cells s.mem))

/-- What the writer does to a channel: nothing, or the channel is not idle afterwards, or its sequence number is larger. -/
theorem Legal.of_writer (hi : P.Inv m₀ s) (h : P.Legal m₀ s e) (he : e.thread ≠ .reader) (ch : Channel) :
    closing .reader (e :: s.log) = closing .reader s.log ∧
    ((Quiet P s ch e ∧ ∀ a, P.channel a = ch → cells (s.push e).mem a = cells s.mem a) ∨
      (advanced ch (e :: s.log) = advanced ch s.log ∧ ¬ P.Idle ch (e :: s.log)) ∨
      advanced ch (e :: s.log) = advanced ch s.log + 1) := by
  cases h with
  | begins w hout hbound =>
    refine ⟨if_neg (by decide), ?_⟩
    by_cases hch : P.writes w = ch
    · subst hch
      exact .inr (.inl ⟨rfl, (hi.channel _).not_idle_begins⟩)
    · exact .inl ⟨⟨if_neg hch, rfl⟩, fun _ _ => rfl⟩
  | stores w a v hch hbusy =>
    refine ⟨rfl, ?_⟩
    by_cases heq : P.writes w = ch
    · subst heq
      exact .inr (.inl ⟨rfl, hbusy⟩)
    · refine .inl ⟨⟨rfl, rfl⟩, fun b hb => cells_push ?_⟩
      rintro ⟨⟩
      exact heq (hch.symm.trans hb)
  | advances w v hin hbusy hv hstored =>
    refine ⟨rfl, ?_⟩
    by_cases heq : P.writes w = ch
    · exact .inr (.inr (if_pos heq))
    · exact .inl ⟨⟨rfl, if_neg heq⟩, fun b _ => cells_push (by rintro ⟨⟩)⟩
  | ends w hin hidle => exact ⟨rfl, .inl ⟨⟨rfl, rfl⟩, fun _ _ => rfl⟩⟩
  | _ => exact absurd rfl he

variable (r : Read)

lemma stable_reading (v : UInt32) (q : Query V Out) (hq : q.Within fun a => P.channel a = P.reads r) :
    Stable (P.outline m₀) .reader (P.Reading r v q) := by
  intro s e he hi hlegal ⟨hclosing, hle, heval⟩
  obtain ⟨hclosing', hcases⟩ := Legal.of_writer hi hlegal he (P.reads r)
  refine ⟨hclosing'.trans hclosing, ?_⟩
  rcases hcases with ⟨hquiet, hcells⟩ | ⟨hadv, hbusy⟩ | hadv
  · show v.toNat ≤ advanced _ (e :: s.log) ∧ (v.toNat = advanced _ (e :: s.log) → _)
    rw [hquiet.advanced, hquiet.idle_iff, Query.eval_congr hcells q hq, Query.eval_congr hcells _ (P.query_within r)]
    exact ⟨hle, heval⟩
  · exact ⟨le_trans hle (le_of_eq hadv.symm), fun _ hidle => absurd hidle hbusy⟩
  · show v.toNat ≤ advanced _ (e :: s.log) ∧ (v.toNat = advanced _ (e :: s.log) → _)
    rw [hadv]
    exact ⟨Nat.le_succ_of_le hle, fun heq => by omega⟩

lemma stable_not_closing : Stable (P.outline m₀) .reader (fun s => closing .reader s.log = false) := by
  intro s e he hi hlegal hclosing
  rcases e with ⟨t, c⟩ | ⟨t, c, a⟩ | ⟨t, c, reply⟩
  · exact (if_neg he).trans hclosing
  · cases hlegal with
    | loads c x v => exact absurd rfl he
    | stores w a v hch hbusy | advances w v hin hbusy hv hstored => exact hclosing
  · exact hclosing

/-- The loads of a query. -/
theorem safe_query (v : UInt32) (next : Out → Program Channel V Out)
    (hnext : ∀ out, Safe (P.outline m₀) P.whenIdle .reader (.read r) (next out) (P.Reading r v (.done out)))
    (q : Query V Out) (hq : q.Within fun a => P.channel a = P.reads r) :
    Safe (P.outline m₀) P.whenIdle .reader (.read r) (q.prog next) (P.Reading r v q) := by
  induction q with
  | done out => exact hnext out
  | load a k ih =>
    refine ⟨fun _ _ _ => trivial, fun x => ⟨P.Reading r v (k x), stable_reading r v (k x) (hq.2 x), ?_, ih x (hq.2 x)⟩⟩
    intro s hi hin ⟨hclosing, hle, heval⟩ hfit _
    refine ⟨.loads _ _ _, hclosing, hle, fun hv hidle => ?_⟩
    rw [show (s.push _).mem = s.mem from rfl, ← heval hv hidle, Query.eval, show cells s.mem a = x from hfit]

lemma toNat_sequence {ch : Channel} (h : P.ChannelInv m₀ s ch) :
    UInt32.toNat (s.mem (.sequence ch)) = advanced ch s.log := by
  rw [h.sequence]
  exact Nat.mod_eq_of_lt (lt_of_le_of_lt h.advanced_le h.bound)

/-- After the second load: if the sequence number is the same, the result is an answer. -/
theorem safe_compare (v : UInt32) (out : Out) (again : Program Channel V Out)
    (hagain : Safe (P.outline m₀) P.whenIdle .reader (.read r) again (fun s => closing .reader s.log = false)) :
    Safe (P.outline m₀) P.whenIdle .reader (.read r)
      (.load (.sequence (P.reads r)) fun v' => if v' = v then .ret (some (v, out)) else again)
      (P.Reading r v (.done out)) := by
  refine ⟨fun _ _ _ => trivial, fun v' => ?_⟩
  by_cases hv : v' = v
  · subst hv
    refine ⟨fun s => P.Answer m₀ s.log r v' out, fun _ e _ _ _ hans => hans.mono e, ?_, ?_⟩
    · intro s hi hin ⟨hclosing, hle, heval⟩ hfit hmay
      refine ⟨.loads _ _ _, Answer.mono (.inr ?_) _⟩
      have hidle : P.Idle (P.reads r) s.log := hmay hclosing
      have hnum : v'.toNat = advanced (P.reads r) s.log := by
        rw [← toNat_sequence (hi.channel (P.reads r)), hfit]
      rw [hnum, hidle]
      refine ⟨le_refl _, cells s.mem, ?_, heval hnum hidle⟩
      rw [take_length]
      exact (hi.channel _).idle hidle
    · dsimp only
      rw [if_pos rfl]
      exact ⟨fun _ _ _ => trivial, fun s hi hin hans => .answers r v' out hans⟩
  · refine ⟨fun s => closing .reader s.log = false, stable_not_closing, ?_, ?_⟩
    · intro s hi hin ⟨hclosing, _⟩ hfit hmay
      refine ⟨.loads _ _ _, ?_⟩
      show (if _ then !closing .reader s.log else _) = false
      rw [hclosing]
      rfl
    · dsimp only
      rw [if_neg hv]
      exact hagain

lemma safe_read (n : ℕ) : Safe (P.outline m₀) P.whenIdle .reader (.read r) (P.read r n)
    (fun s => closing .reader s.log = false) := by
  induction n with
  | zero =>
    refine ⟨fun _ _ _ => trivial, fun v => ⟨fun _ => True, Stable.const True, ?_, fun _ _ _ => trivial, ?_⟩⟩
    · exact fun s hi hin hP hfit hmay => ⟨.loads _ _ _, trivial⟩
    · exact fun s hi hin hP => .answers r v _ (.inl rfl)
  | succ n ih =>
    refine ⟨fun _ _ _ => trivial, fun v => ⟨P.Reading r v (P.query r), stable_reading r v _ (P.query_within r), ?_, ?_⟩⟩
    · intro s hi hin hclosing hfit hmay
      refine ⟨.loads _ _ _, ?_, ?_, fun _ _ => rfl⟩
      · show (if _ then !closing .reader s.log else _) = true
        rw [hclosing]
        rfl
      · show v.toNat ≤ advanced (P.reads r) s.log
        exact le_of_eq (by rw [← toNat_sequence (hi.channel (P.reads r)), hfit])
    · exact safe_query r v _ (fun out => safe_compare r v out _ ih) _ (P.query_within r)

lemma Inv.start : P.Inv m₀ ⟨SequenceLock.start m₀, []⟩ where
  channel := fun ch => ⟨rfl, Nat.two_pow_pos 32, le_refl 0, fun _ _ _ => rfl, fun h => absurd rfl h⟩
  answers := nofun

lemma proved : Proved (P.outline m₀) P.whenIdle P.code (SequenceLock.start m₀) where
  start := Inv.start
  keeps := fun s e hi hlegal => hi.keeps hlegal
  call := fun t c => by
    cases t <;> cases c
    case writer.write w =>
      refine ⟨P.Storing w [], stable_storing w [], fun s hi hout hmay => ⟨.begins w hout hmay, ?_⟩, safe_write w⟩
      exact ⟨(hi.channel _).not_idle_begins, nofun⟩
    case reader.read r =>
      exact ⟨_, stable_not_closing, fun s hi hout hmay => ⟨.asks r, if_pos rfl⟩, safe_read r P.tries⟩
    all_goals exact ⟨fun _ => False, Stable.const False, fun s hi hout hmay => hmay.elim, Safe.of_false _⟩
  label := fun l => l.elim

/-- **Answers are publications.**  In every run in which the reader ends its attempts while the channel is idle, a result is
the fallback or was computed from the cells of the publication that the sequence number names. -/
theorem answer_of_reached {s : System Party (Reg Channel Cell) (Val V) Empty (Call Write Read) (Option (UInt32 × Out))}
    (h : Reached P.code P.whenIdle (SequenceLock.start m₀) s) {r : Read} {out : Out}
    (hmem : .returned .reader (.read r) (some (v, out)) ∈ s.shared.log) : P.Answer m₀ s.shared.log r v out :=
  (h.holds proved).inv.answers r v out hmem

end Protocol

end LogOS.Lib.SequenceLock
