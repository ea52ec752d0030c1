import LogOS.Lib.Bytes

/-!
# Run-length coding of byte strings

A byte string is cut into runs of zeros and runs without a zero, none longer than a given capacity.  A run is stored as a
flag byte, its length in two bytes and, unless it is a run of zeros, its bytes.

`Yields literal n input out` is the state of a reader of such a string, after any number of bytes: `n` bytes of the current
run are still to come, `input` is what is left to read, and `out` what it stands for.  The four lemmas about it are the
four things the reader can meet.
-/

namespace LogOS.Lib

open List Nat

/-- The first bytes of a string that are zero, or not zero, as `k` says, and at most `n` of them; and the rest. -/
def takeRun (k : Bool) : ℕ → List UInt8 → List UInt8 × List UInt8
  | 0, l => ([], l)
  | _ + 1, [] => ([], [])
  | n + 1, b :: l => if (b == 0) = k then (b :: (takeRun k n l).1, (takeRun k n l).2) else ([], b :: l)

lemma takeRun_append (k : Bool) (n : ℕ) (l : List UInt8) : (takeRun k n l).1 ++ (takeRun k n l).2 = l := by
  induction n generalizing l with
  | zero => rfl
  | succ n ih =>
    cases l with
    | nil => rfl
    | cons b l =>
      rw [takeRun]
      split
      · simp [ih]
      · rfl

lemma length_takeRun_le (k : Bool) (n : ℕ) (l : List UInt8) : (takeRun k n l).1.length ≤ n := by
  induction n generalizing l with
  | zero => simp [takeRun]
  | succ n ih =>
    cases l with
    | nil => simp [takeRun]
    | cons b l =>
      rw [takeRun]
      split
      · simpa using ih l
      · simp

lemma length_takeRun_rest (k : Bool) (n : ℕ) (l : List UInt8) : (takeRun k n l).2.length ≤ l.length := by
  have h := congrArg length (takeRun_append k n l)
  rw [length_append] at h
  omega

lemma mem_takeRun {k : Bool} {n : ℕ} {l : List UInt8} {b : UInt8} (h : b ∈ (takeRun k n l).1) : (b == 0) = k := by
  induction n generalizing l with
  | zero => cases h
  | succ n ih =>
    cases l with
    | nil => cases h
    | cons c l =>
      rw [takeRun] at h
      split at h
      · rcases mem_cons.mp h with rfl | h
        · assumption
        · exact ih h
      · cases h

/-- The runs of a string, each of at most `n + 1` bytes. -/
def runs (n : ℕ) : List UInt8 → List (List UInt8)
  | [] => []
  | b :: l => (b :: (takeRun (b == 0) n l).1) :: runs n (takeRun (b == 0) n l).2
termination_by l => l.length
decreasing_by exact Nat.lt_succ_of_le (length_takeRun_rest _ _ _)

variable (n : ℕ)

lemma runs_nil : runs n [] = [] := by rw [runs]

lemma flatten_runs (l : List UInt8) : (runs n l).flatten = l := by
  fun_induction runs n l with
  | case1 => rfl
  | case2 b l ih => rw [flatten_cons, ih, cons_append, takeRun_append]

/-- A run: not empty, and all zero or without a zero. -/
structure IsRun (n : ℕ) (r : List UInt8) : Prop where
  nonempty : r ≠ []
  length_le : r.length ≤ n
  class_eq : ∀ b ∈ r, (b == 0) = (r.head? == some 0)

lemma isRun_of_mem_runs {n : ℕ} {l r : List UInt8} (h : r ∈ runs n l) : IsRun (n + 1) r := by
  fun_induction runs n l with
  | case1 => cases h
  | case2 b l ih =>
    rcases mem_cons.mp h with rfl | h
    · refine ⟨by simp, ?_, fun c hc => ?_⟩
      · have := length_takeRun_le (b == 0) n l
        simpa using this
      · rcases mem_cons.mp hc with rfl | hc
        · simp
        · rw [mem_takeRun hc]
          simp
    · exact ih h

/-! ## The code -/

/-- What is stored for a run. -/
def encodeRun (r : List UInt8) : List UInt8 :=
  if r.head? = some 0 then 0 :: leBytes 2 r.length else 1 :: (leBytes 2 r.length ++ r)

/-- What is stored for a string. -/
def encodeRuns (n : ℕ) (l : List UInt8) : List UInt8 := (runs n l).flatMap encodeRun

lemma encodeRuns_nil : encodeRuns n [] = [] := by rw [encodeRuns, runs_nil]; rfl

lemma encodeRuns_cons (b : UInt8) (l : List UInt8) :
    encodeRuns n (b :: l) = encodeRun (b :: (takeRun (b == 0) n l).1) ++ encodeRuns n (takeRun (b == 0) n l).2 := by
  rw [encodeRuns, runs]
  rfl

/-- The number of bytes stored for a run. -/
theorem length_encodeRun (b : UInt8) (r : List UInt8) :
    (encodeRun (b :: r)).length = 3 + if b = 0 then 0 else r.length + 1 := by
  unfold encodeRun
  by_cases hb : b = 0
  · simp [hb]
  · simp [hb]
    omega

lemma length_encodeRun_pos (r : List UInt8) : 3 ≤ (encodeRun r).length := by
  unfold encodeRun
  split <;> simp

/-! ## How long it is -/

/-- The number of bytes that are not zero. -/
def nonzero (l : List UInt8) : ℕ := l.countP (· != 0)

@[simp] lemma nonzero_nil : nonzero [] = 0 := rfl

@[simp] lemma nonzero_append (a b : List UInt8) : nonzero (a ++ b) = nonzero a + nonzero b := List.countP_append

lemma nonzero_cons (b : UInt8) (l : List UInt8) : nonzero (b :: l) = nonzero l + if b = 0 then 0 else 1 := by
  by_cases h : b = 0 <;> simp [nonzero, h]

lemma nonzero_le_length (l : List UInt8) : nonzero l ≤ l.length := countP_le_length

lemma nonzero_flatMap_le {α : Type} {f : α → List UInt8} {k : ℕ} :
    ∀ {l : List α}, (∀ a ∈ l, nonzero (f a) ≤ k) → nonzero (l.flatMap f) ≤ l.length * k
  | [], _ => by simp
  | a :: l, h => by
    have ha := h a (by simp)
    have hl := nonzero_flatMap_le fun b hb => h b (mem_cons_of_mem a hb)
    rw [flatMap_cons, nonzero_append, length_cons, succ_mul]
    omega

@[simp] lemma nonzero_replicate_zero : nonzero (replicate n 0) = 0 := by
  simp [nonzero]

/-- Behind a run that is not full the string ends or goes on with the other kind. -/
theorem takeRun_rest {k : Bool} {n : ℕ} {l : List UInt8} (h : (takeRun k n l).1.length < n) :
    (takeRun k n l).2 = [] ∨ ∃ b rest, (takeRun k n l).2 = b :: rest ∧ (b == 0) ≠ k := by
  induction n generalizing l with
  | zero => exact absurd h (not_lt_zero _)
  | succ n ih =>
    cases l with
    | nil => exact .inl rfl
    | cons b l =>
      rw [takeRun] at h ⊢
      split at h
      · next hb =>
        rw [if_pos hb]
        exact ih (by simpa using h)
      · next hb =>
        rw [if_neg hb]
        exact .inr ⟨b, l, rfl, hb⟩

lemma nonzero_takeRun_false (l : List UInt8) : nonzero (takeRun false n l).1 = (takeRun false n l).1.length := by
  rw [nonzero, countP_eq_length]
  intro b hb
  simpa using mem_takeRun hb

/-- **The number of runs.**  A run that is not full is followed by one of the other kind, and one of the two has a byte that
is not zero. -/
theorem length_runs_le (l : List UInt8) :
    (n + 1) * (runs n l).length ≤ l.length + (n + 1) * (2 * nonzero l + 1) ∧
      (∀ b rest, l = b :: rest → b ≠ 0 → (n + 1) * (runs n l).length ≤ l.length + (n + 1) * (2 * nonzero l)) := by
  fun_induction runs n l with
  | case1 => exact ⟨by simp, nofun⟩
  | case2 b l ih =>
    have hsplit := congrArg length (takeRun_append (b == 0) n l)
    have hnz := congrArg nonzero (takeRun_append (b == 0) n l)
    rw [length_append] at hsplit
    rw [nonzero_append] at hnz
    obtain ⟨ih1, ih2⟩ := ih
    rw [length_cons, length_cons, nonzero_cons]
    generalize hrest : (takeRun (b == 0) n l).2 = rest at *
    generalize hrun : (takeRun (b == 0) n l).1.length = m at *
    by_cases hb : b = 0
    · subst hb
      refine ⟨?_, fun b' rest' h hne => absurd (cons.inj h).1.symm hne⟩
      have hz : nonzero (takeRun ((0 : UInt8) == 0) n l).1 = 0 := by
        rw [nonzero, countP_eq_zero]
        intro c hc
        simpa using mem_takeRun hc
      by_cases hfull : m = n
      · have hgoal : (n + 1) * ((runs n rest).length + 1) = (n + 1) * (runs n rest).length + (n + 1) := by ring
        simp only [if_true, add_zero]
        rw [hz, zero_add] at hnz
        rw [← hnz]
        omega
      · have hlt : (takeRun ((0 : UInt8) == 0) n l).1.length < n := by
          have := length_takeRun_le ((0 : UInt8) == 0) n l
          omega
        rcases takeRun_rest hlt with hnil | ⟨c, rest', hcons, hc⟩
        · rw [hrest] at hnil
          subst hnil
          simp only [runs_nil]
          exact le_trans (Nat.mul_le_mul_left _ (Nat.le_add_left _ _)) (Nat.le_add_left _ _)
        · rw [hrest] at hcons
          have hsharp := ih2 c rest' hcons (by simpa using hc)
          have hgoal : (n + 1) * ((runs n rest).length + 1) = (n + 1) * (runs n rest).length + (n + 1) := by ring
          have hone : (n + 1) * (2 * nonzero rest + 1) = (n + 1) * (2 * nonzero rest) + (n + 1) := by ring
          simp only [if_true, add_zero]
          rw [hz, zero_add] at hnz
          rw [← hnz]
          omega
    · have hsharp : (n + 1) * ((runs n rest).length + 1) ≤ l.length + 1 + (n + 1) * (2 * (nonzero l + 1)) := by
        have hgoal : (n + 1) * ((runs n rest).length + 1) = (n + 1) * (runs n rest).length + (n + 1) := by ring
        have hmono : (n + 1) * (2 * nonzero rest + 1) + (n + 1) ≤ (n + 1) * (2 * (nonzero l + 1)) := by
          have : (n + 1) * (2 * nonzero rest + 1) + (n + 1) = (n + 1) * (2 * (nonzero rest + 1)) := by ring
          rw [this]
          exact Nat.mul_le_mul_left _ (by omega)
        omega
      rw [if_neg hb]
      refine ⟨le_trans hsharp ?_, fun _ _ _ _ => hsharp⟩
      exact Nat.add_le_add_left (Nat.mul_le_mul_left _ (Nat.le_succ _)) _

lemma length_encodeRuns_le_runs (l : List UInt8) : (encodeRuns n l).length ≤ 3 * (runs n l).length + nonzero l := by
  fun_induction runs n l with
  | case1 => simp [encodeRuns_nil]
  | case2 b l ih =>
    have hnz := congrArg nonzero (takeRun_append (b == 0) n l)
    rw [nonzero_append] at hnz
    rw [encodeRuns_cons, length_append, length_encodeRun, length_cons, nonzero_cons]
    by_cases hb : b = 0
    · rw [if_pos hb]
      omega
    · have hb' : (b == 0) = false := by simpa using hb
      rw [hb'] at hnz ih ⊢
      rw [if_neg hb, if_neg hb]
      rw [nonzero_takeRun_false] at hnz
      omega

/-- **The length of the code**, by the number of bytes that are not zero. -/
theorem length_encodeRuns_le (l : List UInt8) :
    (encodeRuns n l).length ≤ 3 * (l.length / (n + 1) + 2 * nonzero l + 1) + nonzero l := by
  have h1 := length_encodeRuns_le_runs n l
  have h2 : (runs n l).length ≤ l.length / (n + 1) + (2 * nonzero l + 1) := by
    have hdiv := Nat.div_le_div_right (c := n + 1) (length_runs_le n l).1
    rwa [Nat.mul_div_cancel_left _ (Nat.succ_pos n), Nat.add_mul_div_left _ _ (Nat.succ_pos n)] at hdiv
  omega

/-! ## Reading it back -/

/-- The reader is inside of a run of which `n` bytes are to come. -/
def Yields (literal : Bool) (n : ℕ) (input out : List UInt8) : Prop :=
  ∃ (r : List UInt8) (rs : List (List UInt8)), r.length = n ∧ (literal = false → ∀ b ∈ r, b = 0) ∧ (∀ r' ∈ rs, IsRun 65535 r') ∧
    input = (if literal then r else []) ++ rs.flatMap encodeRun ∧ out = r ++ rs.flatten

lemma yields_encodeRuns {n : ℕ} (hn : n < 65535) (l : List UInt8) : Yields false 0 (encodeRuns n l) l := by
  refine ⟨[], runs n l, rfl, fun _ b hb => (by cases hb), fun r hr => ?_, by simp [encodeRuns], ?_⟩
  · have h := isRun_of_mem_runs hr
    exact ⟨h.nonempty, le_trans h.length_le hn, h.class_eq⟩
  · rw [nil_append, flatten_runs]

namespace Yields

variable {literal : Bool} {n : ℕ} {input out : List UInt8}

/-- Nothing is left to read. -/
theorem done (h : Yields literal 0 [] out) : out = [] := by
  obtain ⟨r, rs, hr, -, -, hin, rfl⟩ := h
  obtain rfl := length_eq_zero_iff.mp hr
  cases rs with
  | nil => rfl
  | cons r' rs =>
    have h3 := length_encodeRun_pos r'
    have hlen := congrArg length hin
    simp only [length_append, flatMap_cons] at hlen
    omega

/-- Nothing is left to yield. -/
theorem of_nil (h : Yields literal n input []) : n = 0 ∧ input = [] := by
  obtain ⟨r, rs, rfl, -, hrs, rfl, hout⟩ := h
  obtain ⟨rfl, hrs'⟩ := append_eq_nil_iff.mp hout.symm
  cases rs with
  | nil => simp
  | cons r' rs => exact absurd (flatten_eq_nil_iff.mp hrs' r' (by simp)) (hrs r' (by simp)).nonempty

/-- A new run begins: its flag, the two bytes of its length, and what follows. -/
theorem next_run (h : Yields literal 0 input out) (hne : input ≠ []) :
    ∃ flag lo hi rest, input = flag :: lo :: hi :: rest ∧ leVal [lo, hi] ≠ 0 ∧
      Yields (flag != 0) (leVal [lo, hi]) rest out := by
  obtain ⟨r, rs, hr, -, hrs, rfl, rfl⟩ := h
  obtain rfl := length_eq_zero_iff.mp hr
  cases rs with
  | nil => simp at hne
  | cons r' rs =>
    have hrun := hrs r' (by simp)
    have hlen : leVal (leBytes 2 r'.length) = r'.length :=
      leVal_leBytes_of_lt (lt_of_le_of_lt hrun.length_le (by norm_num))
    obtain ⟨lo, hi, hb⟩ : ∃ lo hi, leBytes 2 r'.length = [lo, hi] := ⟨_, _, rfl⟩
    rw [hb] at hlen
    have hpos : leVal [lo, hi] ≠ 0 := by
      rw [hlen]
      exact fun h => hrun.nonempty (length_eq_zero_iff.mp h)
    have hrs' : ∀ r'' ∈ rs, IsRun 65535 r'' := fun r'' h => hrs r'' (mem_cons_of_mem _ h)
    by_cases hz : r'.head? = some 0
    · refine ⟨0, lo, hi, rs.flatMap encodeRun, ?_, hpos, r', rs, hlen.symm, fun _ b hm => ?_, hrs', by simp, by simp⟩
      · simp [encodeRun, hz, hb]
      · have := hrun.class_eq b hm
        rw [hz] at this
        simpa using this
    · refine ⟨1, lo, hi, r' ++ rs.flatMap encodeRun, ?_, hpos, r', rs, hlen.symm, fun h => (by cases h), hrs', by simp, by simp⟩
      simp [encodeRun, hz, hb]

/-- A byte of a run that is stored. -/
theorem literal_byte (h : Yields true (n + 1) input out) :
    ∃ b input' out', input = b :: input' ∧ out = b :: out' ∧ Yields true n input' out' := by
  obtain ⟨r, rs, hr, -, hrs, rfl, rfl⟩ := h
  cases r with
  | nil => cases hr
  | cons b r =>
    refine ⟨b, r ++ rs.flatMap encodeRun, r ++ rs.flatten, by simp, by simp, r, rs, ?_, fun h => (by cases h), hrs, by simp, rfl⟩
    simpa using hr

/-- A byte of a run of zeros. -/
theorem zero_byte (h : Yields false (n + 1) input out) : ∃ out', out = 0 :: out' ∧ Yields false n input out' := by
  obtain ⟨r, rs, hr, hz, hrs, rfl, rfl⟩ := h
  cases r with
  | nil => cases hr
  | cons b r =>
    obtain rfl : b = 0 := hz rfl b (by simp)
    refine ⟨r ++ rs.flatten, by simp, r, rs, by simpa using hr, fun _ b hb => hz rfl b (by simp [hb]), hrs, by simp, rfl⟩

end Yields

/-! ## Strings that nobody encoded -/

/-- A reader at place `pos` of any bytes `f`, with `n` bytes of the current run to come, can go on to yield `out`. -/
inductive Expands (f : ℕ → UInt8) : Bool → ℕ → ℕ → List UInt8 → Prop
  | nil {literal : Bool} {n pos : ℕ} : Expands f literal n pos []
  | zero {n pos : ℕ} {out : List UInt8} : Expands f false n pos out → Expands f false (n + 1) pos (0 :: out)
  | literal {n pos : ℕ} {out : List UInt8} : Expands f true n (pos + 1) out → Expands f true (n + 1) pos (f pos :: out)
  | run {literal : Bool} {pos : ℕ} {out : List UInt8} :
      Expands f (f pos != 0) (leVal [f (pos + 1), f (pos + 2)]) (pos + 3) out → Expands f literal 0 pos out

/-- An encoded string expands to itself. -/
theorem Expands.eq_take {f : ℕ → UInt8} {literal : Bool} {n pos : ℕ} {out : List UInt8} (h : Expands f literal n pos out) :
    ∀ {input full : List UInt8}, Yields literal n input full → (∀ k < input.length, f (pos + k) = input.getD k 0) →
      out.length ≤ full.length → out = full.take out.length := by
  induction h with
  | nil =>
    intro input full _ _ _
    rfl
  | zero _ ih =>
    intro input full hy hf hlen
    obtain ⟨full', rfl, hy'⟩ := hy.zero_byte
    rw [length_cons, take_succ_cons, ← ih hy' hf (by simpa using hlen)]
  | @literal n pos out _ ih =>
    intro input full hy hf hlen
    obtain ⟨b, input', full', rfl, rfl, hy'⟩ := hy.literal_byte
    have hb : f pos = b := hf 0 (succ_pos _)
    have hf' : ∀ k < input'.length, f (pos + 1 + k) = input'.getD k 0 := by
      intro k hk
      have := hf (k + 1) (by simpa using hk)
      rwa [show pos + (k + 1) = pos + 1 + k by omega] at this
    rw [length_cons, take_succ_cons, hb, ← ih hy' hf' (by simpa using hlen)]
  | @run literal pos out _ ih =>
    intro input full hy hf hlen
    by_cases hne : input = []
    · subst hne
      rw [hy.done] at hlen ⊢
      rw [take_nil]
      exact length_eq_zero_iff.mp (le_zero.mp hlen)
    · obtain ⟨flag, lo, hi, rest, rfl, -, hy'⟩ := hy.next_run hne
      have h0 : f pos = flag := hf 0 (by simp)
      have h1 : f (pos + 1) = lo := hf 1 (by simp)
      have h2 : f (pos + 2) = hi := hf 2 (by simp)
      rw [h0, h1, h2] at ih
      refine ih hy' (fun k hk => ?_) hlen
      have := hf (k + 3) (by simpa using hk)
      rwa [show pos + (k + 3) = pos + 3 + k by omega] at this

end LogOS.Lib
