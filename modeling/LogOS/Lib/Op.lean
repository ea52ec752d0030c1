import Mathlib.Logic.Basic
import Mathlib.Tactic.Common

/-!
# Operations that may fail, and their weakest preconditions

An operation takes a state and returns a value or an error, *and the state after it in both cases*: what was changed
before an error stays changed.  `Op.wp m Q E s` says that `m`, started in `s`, ends in `Q` when it returns and in `E`
when it fails.  The rules below take a program apart at its binds, lifts and loops, so that a caller only ever uses
the `wp` fact of a callee and never its body.
-/

namespace LogOS.Lib

/-! ## Pure computations that may fail -/

section Except

variable {ε α β : Type}

variable {f : α → Except ε β}

lemma bind_eq_ok {x : Except ε α} {b : β} : (x >>= f) = .ok b ↔ ∃ a, x = .ok a ∧ f a = .ok b := by
  cases x with
  | error e | ok a => simp [bind, Except.bind]

lemma ok_bind (a : α) (f : α → Except ε β) : (Except.ok a >>= f) = f a := rfl

/-- A check that an accepted computation has passed. -/
theorem ite_eq_ok {c : Prop} [Decidable c] {e : ε} {x : Except ε α} {a : α} :
    (if c then .error e else x) = .ok a ↔ ¬ c ∧ x = .ok a := by
  split <;> simp [*]

/-- A condition that an accepted computation has met. -/
theorem ite_eq_ok_of_else {c : Prop} [Decidable c] {e : ε} {x : Except ε α} {a : α} :
    (if c then x else .error e) = .ok a ↔ c ∧ x = .ok a := by
  split <;> simp [*]

lemma mapM_eq_ok {g : α → β} :
    ∀ {l : List α}, (∀ a ∈ l, f a = .ok (g a)) → l.mapM f = .ok (l.map g)
  | [], _ => rfl
  | a :: l, h => by
    rw [List.mapM_cons, h a (by simp), mapM_eq_ok fun b hb => h b (by simp [hb])]
    rfl

lemma of_mapM_eq_ok :
    ∀ {l : List α} {l' : List β}, l.mapM f = .ok l' → l'.length = l.length ∧ ∀ b ∈ l', ∃ a ∈ l, f a = .ok b
  | [], _, h => by
    cases h
    exact ⟨rfl, nofun⟩
  | a :: l, l', h => by
    rw [List.mapM_cons] at h
    obtain ⟨b, hb, h⟩ := bind_eq_ok.mp h
    obtain ⟨bs, hbs, h⟩ := bind_eq_ok.mp h
    cases h
    obtain ⟨hlen, hmem⟩ := of_mapM_eq_ok hbs
    refine ⟨by simp [hlen], fun c hc => ?_⟩
    rcases List.mem_cons.mp hc with rfl | hc
    · exact ⟨a, by simp, hb⟩
    · obtain ⟨a', ha', hfa'⟩ := hmem c hc
      exact ⟨a', by simp [ha'], hfa'⟩

lemma exists_of_mapM_eq_ok :
    ∀ {l : List α} {l' : List β}, l.mapM f = .ok l' → ∀ a ∈ l, ∃ b ∈ l', f a = .ok b
  | a :: l, l', h, c, hc => by
    rw [List.mapM_cons] at h
    obtain ⟨b, hb, h⟩ := bind_eq_ok.mp h
    obtain ⟨bs, hbs, h⟩ := bind_eq_ok.mp h
    cases h
    rcases List.mem_cons.mp hc with rfl | hc
    · exact ⟨b, List.mem_cons_self, hb⟩
    · obtain ⟨b', hb', hf⟩ := exists_of_mapM_eq_ok hbs c hc
      exact ⟨b', List.mem_cons_of_mem _ hb', hf⟩

lemma forM_eq_ok {f : α → Except ε Unit} : ∀ {l : List α}, l.forM f = .ok () ↔ ∀ a ∈ l, f a = .ok ()
  | [] => by simp [pure, Except.pure]
  | a :: l => by
    show (f a >>= fun _ => l.forM f) = .ok () ↔ _
    rw [bind_eq_ok]
    constructor
    · rintro ⟨⟨⟩, h1, h2⟩
      exact List.forall_mem_cons.mpr ⟨h1, forM_eq_ok.mp h2⟩
    · intro h
      exact ⟨(), h a (by simp), forM_eq_ok.mpr fun b hb => h b (by simp [hb])⟩

end Except

/-! ## Operations -/

/-- An operation on a state of type `σ`, failing with an error of type `ε`. -/
def Op (σ ε α : Type) : Type := σ → Except ε α × σ

namespace Op

variable {σ τ ε ε' α β : Type}

/-- The operation that returns `a` and changes nothing. -/
def ret (a : α) : Op σ ε α := fun s => (.ok a, s)

/-- Sequential composition; an error stops the program and keeps the state. -/
def andThen (m : Op σ ε α) (f : α → Op σ ε β) : Op σ ε β := fun s =>
  match m s with
  | (.ok a, s') => f a s'
  | (.error e, s') => (.error e, s')

instance : Monad (Op σ ε) where
  pure := ret
  bind := andThen

/-- Failing with `e`. -/
def fail (e : ε) : Op σ ε α := fun s => (.error e, s)

/-- The current state. -/
def get : Op σ ε σ := fun s => (.ok s, s)

/-- A change of the state. -/
def modify (f : σ → σ) : Op σ ε Unit := fun s => (.ok (), f s)

/-- A pure computation that may fail. -/
def lift (x : Except ε α) : Op σ ε α := fun s => (x, s)

/-- A failure unless `p` holds. -/
def guard (p : Bool) (e : ε) : Op σ ε Unit := if p then ret () else fail e

/-- The value of an option, or the failure `e`. -/
def orFail (x : Option α) (e : ε) : Op σ ε α :=
  match x with
  | some a => ret a
  | none => fail e

/-- The same operation with its errors renamed. -/
def mapErr (f : ε → ε') (m : Op σ ε α) : Op σ ε' α := fun s =>
  match m s with
  | (.ok a, s') => (.ok a, s')
  | (.error e, s') => (.error (f e), s')

/-- The outcome of an operation as a value, so that a caller can look at the error and go on. -/
def attempt (m : Op σ ε α) : Op σ ε' (Except ε α) := fun s => (.ok (m s).1, (m s).2)

/-- The same operation, with a further change of the state when it fails. -/
def onError (m : Op σ ε α) (f : σ → σ) : Op σ ε α := fun s =>
  match m s with
  | (.ok a, s') => (.ok a, s')
  | (.error e, s') => (.error e, f s')

/-- An operation on a part of the state: `part` reads the part and `put` stores it back. -/
def zoom (part : τ → σ) (put : τ → σ → τ) (m : Op σ ε α) : Op τ ε α := fun t =>
  ((m (part t)).1, put t (m (part t)).2)

/-- The loop `for i in lo .. lo + n`. -/
def forRange (body : ℕ → Op σ ε Unit) : ℕ → ℕ → Op σ ε Unit
  | _, 0 => ret ()
  | lo, n + 1 => body lo >>= fun _ => forRange body (lo + 1) n

/-- The loop over a list. -/
def forEach (body : α → Op σ ε Unit) : List α → Op σ ε Unit
  | [] => ret ()
  | a :: l => body a >>= fun _ => forEach body l

/-- A loop that carries a value from round to round and ends with a result, and fails with `stuck` after `n` rounds. -/
def iterate (body : α → Op σ ε (α ⊕ β)) (stuck : ε) : ℕ → α → Op σ ε β
  | 0, _ => fail stuck
  | n + 1, a => body a >>= fun next =>
    match next with
    | .inl a => iterate body stuck n a
    | .inr b => ret b

/-- `n` times the same operation, with the results in order. -/
def times (m : Op σ ε α) : (n : ℕ) → Op σ ε (Vector α n)
  | 0 => ret #v[]
  | n + 1 => times m n >>= fun v => m >>= fun a => ret (v.push a)

variable {f : α → Op σ ε β} {m : Op σ ε α}

lemma bind_of_ok {s t : σ} {a : α} (h : m s = (.ok a, t)) : (m >>= f) s = f a t := by
  show andThen m f s = _
  rw [andThen, h]

lemma bind_of_error {s t : σ} {e : ε} (h : m s = (.error e, t)) : (m >>= f) s = (.error e, t) := by
  show andThen m f s = _
  rw [andThen, h]

lemma get_bind (f : σ → Op σ ε β) (s : σ) : (get >>= f) s = f s s := rfl

lemma attempt_bind (m : Op σ ε α) (f : Except ε α → Op σ ε' β) (s : σ) : (attempt m >>= f) s = f (m s).1 (m s).2 := rfl

/-- What both parts do to the state, the sequence does. -/
theorem related_bind {R : σ → σ → Prop} (htrans : ∀ {a b c}, R a b → R b c → R a c) (hm : ∀ s, R s (m s).2)
    (hf : ∀ a s, R s (f a s).2) (s : σ) : R s ((m >>= f) s).2 := by
  have hstate := hm s
  rcases hresult : m s with ⟨e | a, s'⟩ <;> rw [hresult] at hstate
  · rwa [bind_of_error hresult]
  · rw [bind_of_ok hresult]
    exact htrans hstate (hf a s')

lemma related_onError {R : σ → σ → Prop} (htrans : ∀ {a b c}, R a b → R b c → R a c) (hm : ∀ s, R s (m s).2) {g : σ → σ}
    (hg : ∀ s, R s (g s)) (s : σ) : R s (onError m g s).2 := by
  have hstate := hm s
  unfold onError
  rcases hresult : m s with ⟨e | a, s'⟩ <;> rw [hresult] at hstate
  · exact htrans hstate (hg s')
  · exact hstate

lemma forEach_congr {f g : α → Op σ ε Unit} : ∀ {l : List α}, (∀ a ∈ l, f a = g a) → forEach f l = forEach g l
  | [], _ => rfl
  | a :: l, h => by
    rw [forEach, forEach, h a (by simp), forEach_congr fun b hb => h b (by simp [hb])]

/-! ## Weakest preconditions -/

/-- `m`, started in `s`, ends in `Q` when it returns and in `E` when it fails. -/
def wp (m : Op σ ε α) (Q : α → σ → Prop) (E : ε → σ → Prop) (s : σ) : Prop :=
  match m s with
  | (.ok a, s') => Q a s'
  | (.error e, s') => E e s'

variable {Q Q' : α → σ → Prop} {E E' : ε → σ → Prop} {s : σ}

lemma wp_mono (h : wp m Q E s) (hQ : ∀ a s', Q a s' → Q' a s') (hE : ∀ e s', E e s' → E' e s') : wp m Q' E' s := by
  unfold wp at *
  rcases hm : m s with ⟨_ | _, s'⟩ <;> simp only [hm] at h ⊢
  · exact hE _ _ h
  · exact hQ _ _ h

lemma wp_and (h : wp m Q E s) (h' : wp m Q' E' s) :
    wp m (fun a s' => Q a s' ∧ Q' a s') (fun e s' => E e s' ∧ E' e s') s := by
  unfold wp at *
  rcases hm : m s with ⟨_ | _, s'⟩ <;> simp only [hm] at h h' ⊢ <;> exact ⟨h, h'⟩

/-- What a run that returned satisfies. -/
theorem wp_ok {a : α} {s' : σ} (h : wp m Q E s) (hm : m s = (.ok a, s')) : Q a s' := by
  unfold wp at h; rwa [hm] at h

/-- What a run that failed satisfies. -/
theorem wp_error {e : ε} {s' : σ} (h : wp m Q E s) (hm : m s = (.error e, s')) : E e s' := by
  unfold wp at h; rwa [hm] at h

lemma wp_of_eq (h : ∀ a s', m s = (.ok a, s') → Q a s') (h' : ∀ e s', m s = (.error e, s') → E e s') : wp m Q E s := by
  unfold wp
  rcases hm : m s with ⟨_ | _, s'⟩
  · exact h' _ _ hm
  · exact h _ _ hm

lemma wp_of_forall (hQ : ∀ a s', Q a s') (hE : ∀ e s', E e s') : wp m Q E s :=
  wp_of_eq (fun a s' _ => hQ a s') fun e s' _ => hE e s'

/-- What holds of the state however the operation ends. -/
theorem state_of_wp {P : σ → Prop} (h : wp m (fun _ => P) (fun _ => P) s) : P (m s).2 := by
  unfold wp at h
  rcases hm : m s with ⟨e | a, s'⟩ <;> rw [hm] at h <;> exact h

lemma wp_of_state {P : σ → Prop} (h : P (m s).2) : wp m (fun _ => P) (fun _ => P) s := by
  unfold wp
  rcases hm : m s with ⟨e | a, s'⟩ <;> rw [hm] at h <;> exact h

lemma fst_of_wp {x : Except ε α} (h : wp m (fun a _ => x = .ok a) (fun e _ => x = .error e) s) : (m s).1 = x := by
  unfold wp at h
  rcases hm : m s with ⟨_ | _, _⟩ <;> rw [hm] at h <;> exact h.symm

/-- An operation that cannot fail returns. -/
theorem exists_ok_of_wp (h : wp m Q E s) (hE : ∀ e s', ¬ E e s') : ∃ a s', m s = (.ok a, s') ∧ Q a s' := by
  unfold wp at h
  rcases hm : m s with ⟨e | a, s'⟩ <;> rw [hm] at h
  · exact (hE e s' h).elim
  · exact ⟨a, s', rfl, h⟩

@[simp] lemma wp_ret (a : α) : wp (ret a : Op σ ε α) Q E s ↔ Q a s := Iff.rfl

@[simp] lemma wp_pure (a : α) : wp (pure a : Op σ ε α) Q E s ↔ Q a s := Iff.rfl

@[simp] lemma wp_fail (e : ε) : wp (fail e : Op σ ε α) Q E s ↔ E e s := Iff.rfl

@[simp] lemma wp_get {Q : σ → σ → Prop} : wp (get : Op σ ε σ) Q E s ↔ Q s s := Iff.rfl

@[simp] lemma wp_modify {Q : Unit → σ → Prop} (f : σ → σ) : wp (modify f : Op σ ε Unit) Q E s ↔ Q () (f s) := Iff.rfl

lemma wp_bind {Q : β → σ → Prop} : wp (m >>= f) Q E s ↔ wp m (fun a s' => wp (f a) Q E s') E s := by
  show wp (andThen m f) Q E s ↔ _
  unfold wp andThen
  rcases m s with ⟨_ | _, s'⟩ <;> rfl

/-- Sequencing: the second operation starts where the first one leaves off. -/
theorem wp_seq {Q' : β → σ → Prop} (h : wp m Q E s) (hf : ∀ a s', Q a s' → wp (f a) Q' E s') : wp (m >>= f) Q' E s :=
  wp_bind.mpr (wp_mono h hf fun _ _ he => he)

/-- Sequencing, where the two operations fail in different ways. -/
theorem wp_step {Q' : β → σ → Prop} {E' : ε → σ → Prop} (h : wp m Q E s) (hf : ∀ a s', Q a s' → wp (f a) Q' E' s')
    (hE : ∀ e s', E e s' → E' e s') : wp (m >>= f) Q' E' s :=
  wp_bind.mpr (wp_mono h hf hE)

/-- A first part of which nothing has to be known. -/
theorem wp_bind_any {Q : β → σ → Prop} (h : ∀ a s', wp (f a) Q (fun _ _ => True) s') : wp (m >>= f) Q (fun _ _ => True) s :=
  wp_bind.mpr (wp_of_forall h fun _ _ => trivial)

lemma wp_lift (x : Except ε α) : wp (lift x : Op σ ε α) Q E s ↔ (∀ a, x = .ok a → Q a s) ∧ ∀ e, x = .error e → E e s := by
  unfold wp lift
  cases x <;> simp

lemma wp_guard {Q : Unit → σ → Prop} (p : Bool) (e : ε) :
    wp (guard p e : Op σ ε Unit) Q E s ↔ (p = true → Q () s) ∧ (p = false → E e s) := by
  unfold guard
  cases p <;> simp

/-- A guard that is passed, or whose failure is accounted for. -/
theorem wp_guard_seq {f : Unit → Op σ ε β} {Q : β → σ → Prop} {p : Bool} {e : ε} (hE : p = false → E e s)
    (h : p = true → wp (f ()) Q E s) : wp (guard p e >>= f) Q E s :=
  wp_bind.mpr ((wp_guard p e).mpr ⟨h, hE⟩)

lemma wp_orFail (x : Option α) (e : ε) :
    wp (orFail x e : Op σ ε α) Q E s ↔ (∀ a, x = some a → Q a s) ∧ (x = none → E e s) := by
  unfold orFail
  cases x <;> simp

lemma wp_mapErr {f : ε → ε'} {E : ε' → σ → Prop} : wp (mapErr f m) Q E s ↔ wp m Q (fun e s' => E (f e) s') s := by
  unfold wp mapErr
  rcases m s with ⟨_ | _, s'⟩ <;> rfl

lemma wp_attempt {Q : Except ε α → σ → Prop} {E : ε' → σ → Prop} :
    wp (attempt m : Op σ ε' (Except ε α)) Q E s ↔ wp m (fun a => Q (.ok a)) (fun e => Q (.error e)) s := by
  unfold wp attempt
  rcases m s with ⟨_ | _, s'⟩ <;> rfl

lemma wp_onError {f : σ → σ} : wp (onError m f) Q E s ↔ wp m Q (fun e s' => E e (f s')) s := by
  unfold wp onError
  rcases m s with ⟨_ | _, s'⟩ <;> rfl

lemma wp_zoom {part : τ → σ} {put : τ → σ → τ} {t : τ} {Q : α → τ → Prop} {E : ε → τ → Prop} :
    wp (zoom part put m) Q E t ↔
      wp m (fun a s' => Q a (put t s')) (fun e s' => E e (put t s')) (part t) := by
  unfold wp zoom
  rcases m (part t) with ⟨_ | _, s'⟩ <;> rfl

lemma wp_ite {p : Prop} [Decidable p] {m' : Op σ ε α} :
    wp (if p then m else m') Q E s ↔ (p → wp m Q E s) ∧ (¬ p → wp m' Q E s) := by
  by_cases h : p <;> simp [h]

/-- **The loop rule.**  An invariant `I` that every round carries on holds at the end. -/
theorem wp_forRange {f : ℕ → Op σ ε Unit} (I : ℕ → σ → Prop) :
    ∀ (n lo : ℕ) (s : σ), (∀ i s, lo ≤ i → i < lo + n → I i s → wp (f i) (fun _ => I (i + 1)) E s) →
      I lo s → wp (forRange f lo n) (fun _ => I (lo + n)) E s
  | 0, _, _, _, h => h
  | n + 1, lo, s, hb, h => by
    show wp (f lo >>= fun _ => forRange f (lo + 1) n) _ _ _
    refine wp_step (hb lo s (Nat.le_refl _) (by omega) h) (fun _ s' h' => ?_) (fun _ _ h => h)
    have := wp_forRange I n (lo + 1) s' (fun i s hlo hi => hb i s (by omega) (by omega)) h'
    rwa [show lo + 1 + n = lo + (n + 1) by omega] at this

/-- The loop rule over a list: `I` holds of the elements done. -/
theorem wp_forEach {f : α → Op σ ε Unit} {l : List α} (I : List α → σ → Prop)
    (hstep : ∀ done a rest s, done ++ a :: rest = l → I done s → wp (f a) (fun _ => I (done ++ [a])) E s) (h : I [] s) :
    wp (forEach f l) (fun _ => I l) E s := by
  induction l generalizing I s with
  | nil => exact h
  | cons a l ih =>
    show wp (f a >>= fun _ => forEach f l) _ _ _
    refine wp_step (hstep [] a l s rfl h) (fun _ s' h' => ?_) (fun _ _ h => h)
    exact ih (fun done => I (a :: done)) (fun done b rest s hl => hstep (a :: done) b rest s (congrArg _ hl)) h'

/-- The rule for a loop with a variant: a round that goes on makes the variant `μ` smaller, so that `n` rounds are enough. -/
theorem wp_iterate {f : α → Op σ ε (α ⊕ β)} {stuck : ε} (I : α → σ → Prop) (μ : σ → ℕ) {Q : β → σ → Prop}
    (hbody : ∀ a s, I a s → wp (f a) (fun next s' =>
      match next with
      | .inl a' => I a' s' ∧ μ s' < μ s
      | .inr b => Q b s') E s) :
    ∀ (n : ℕ) (a : α) (s : σ), I a s → μ s < n → wp (iterate f stuck n a) Q E s
  | 0, _, _, _, hn => absurd hn (Nat.not_lt_zero _)
  | n + 1, a, s, h, hn => by
    rw [iterate, wp_bind]
    refine wp_mono (hbody a s h) (fun next s' hnext => ?_) (fun _ _ h => h)
    cases next with
    | inl a' => exact wp_iterate I μ hbody n a' s' hnext.1 (by omega)
    | inr b => exact hnext

/-- The rule for a repeated operation: round `i` carries the invariant on and returns something that satisfies `R i`. -/
theorem wp_times (I : ℕ → σ → Prop) (R : ℕ → α → Prop) (s : σ) (h : I 0 s) :
    ∀ n : ℕ, (∀ i s, i < n → I i s → wp m (fun a s' => R i a ∧ I (i + 1) s') E s) →
      wp (times m n) (fun v s' => (∀ i (hi : i < n), R i v[i]) ∧ I n s') E s
  | 0, _ => ⟨fun i hi => absurd hi (Nat.not_lt_zero i), h⟩
  | n + 1, hb => by
    rw [times, wp_bind]
    refine wp_mono (wp_times I R s h n fun i s hi => hb i s (by omega)) (fun v s' hv => ?_) (fun _ _ h => h)
    refine wp_step (hb n s' (Nat.lt_succ_self n) hv.2) (fun a s'' ha => ?_) (fun _ _ h => h)
    refine ⟨fun i hi => ?_, ha.2⟩
    by_cases hin : i < n
    · rw [Vector.getElem_push_lt hin]
      exact hv.1 i hin
    · obtain rfl : i = n := by omega
      rw [Vector.getElem_push_eq]
      exact ha.1

end Op

end LogOS.Lib
