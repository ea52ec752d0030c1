import LogOS.StorageService.Durable

/-!
# A transaction and its records one by one

A transaction keeps whole records of the slots it has changed, over a base that it does not touch.  Its view is the lookup of
the namespace with the changes laid over it, and a record that is pushed changes that namespace as applying it there would:
so a run of records gives the same answers as applying them one after another, and a commit persists the namespace that this
leaves.  The one thing a transaction adds is the size of its buffers.
-/

namespace LogOS.StorageService

open Lib Storage Storage.Catalog NamespaceTransaction DurableNamespace

variable {base ns : ObjectNamespace} {t : NamespaceTransaction} {slot : ℕ}

lemma lookup_overlay (changes : Vector (Option ObjectRecord) 4) :
    (overlay base changes).lookup = NamespaceView.lookup ⟨base, changes⟩ := by
  funext slot
  by_cases h : slot < 4
  · cases hc : changes[slot] <;> simp [ObjectNamespace.lookup, NamespaceView.lookup, overlay, h]
  · simp [ObjectNamespace.lookup, NamespaceView.lookup, h]

lemma overlay_set (changes : Vector (Option ObjectRecord) 4) (slot : ℕ) (record : ObjectRecord) :
    overlay base (changes.setIfInBounds slot (some record)) = (overlay base changes).set slot record := by
  unfold overlay
  congr 1
  ext i hi : 1
  by_cases h : slot = i
  · subst h
    simp
  · simp [h]

/-! ## Runs of records -/

/-- The answers of a transaction to records that are pushed one after another. -/
def pushAll (base : ObjectNamespace) :
    List PendingRecord → NamespaceTransaction → List (Except NamespaceError Unit) × NamespaceTransaction
  | [], t => ([], t)
  | r :: rest, t =>
    let (answer, t) := pushRecord base r.kind r.payload t
    let (answers, t) := pushAll base rest t
    (answer :: answers, t)

/-- The answers of a namespace to records that are applied one after another; one that is refused changes nothing. -/
def applyAll : List PendingRecord → ObjectNamespace → List (Except NamespaceError Unit) × ObjectNamespace
  | [], ns => ([], ns)
  | r :: rest, ns =>
    match ns.applyRecord r.kind r.payload with
    | .ok ns => let (answers, ns) := applyAll rest ns; (.ok () :: answers, ns)
    | .error e => let (answers, ns) := applyAll rest ns; (.error e :: answers, ns)

/-- Every record finds room in the transaction. -/
def Room (base : ObjectNamespace) : List PendingRecord → NamespaceTransaction → Prop
  | [], _ => True
  | r :: rest, t => t.records.length < maxTransactionRecords ∧ Room base rest (pushRecord base r.kind r.payload t).2

/-- A record that finds room and fits into a buffer is taken as the namespace under the changes would take it. -/
theorem pushRecord_eq (base : ObjectNamespace) (kind : ℕ) {payload : List UInt8}
    (hroom : t.records.length < maxTransactionRecords) (hsize : payload.length ≤ maxRecordPayloadBytes) :
    match (overlay base t.changes).applyRecord kind payload with
    | .ok ns => ∃ changes, overlay base changes = ns ∧
        pushRecord base kind payload t = (.ok (), { t with changes, records := t.records ++ [⟨kind, payload⟩] })
    | .error e => pushRecord base kind payload t = (.error e, t) := by
  have hfree : Op.guard (t.records.length != maxTransactionRecords) NamespaceError.capacity t = (.ok (), t) := by
    simp [Op.guard, Op.ret, hroom.ne]
  have hfits : Op.guard (payload.length ≤ maxRecordPayloadBytes) NamespaceError.tooLarge t = (.ok (), t) := by
    simp [Op.guard, Op.ret, hsize]
  unfold pushRecord
  rw [Op.get_bind, Op.bind_of_ok hfree, Op.bind_of_ok hfits, ObjectNamespace.applyRecord, lookup_overlay]
  cases hchange : (NamespaceView.lookup ⟨base, t.changes⟩).recordChange kind payload with
  | error e => exact Op.bind_of_error (by rw [Op.lift, NamespaceTransaction.view, hchange])
  | ok change =>
    refine ⟨_, overlay_set t.changes change.1 change.2, ?_⟩
    rw [Op.bind_of_ok (by rw [Op.lift, NamespaceTransaction.view, hchange])]
    rfl

lemma pushAll_spec {records : List PendingRecord} (hsize : ∀ r ∈ records, r.payload.length ≤ maxRecordPayloadBytes)
    (hroom : Room base records t) :
    (pushAll base records t).1 = (applyAll records (overlay base t.changes)).1 ∧
      overlay base (pushAll base records t).2.changes = (applyAll records (overlay base t.changes)).2 ∧
      (pushAll base records t).2.baseGeneration = t.baseGeneration ∧
      (pushAll base records t).2.retiredExtents = t.retiredExtents := by
  induction records generalizing t with
  | nil => exact ⟨rfl, rfl, rfl, rfl⟩
  | cons r rest ih =>
    have hpush := pushRecord_eq base r.kind hroom.1 (hsize r (List.mem_cons_self ..))
    have hlater := ih (fun r' hr' => hsize r' (List.mem_cons_of_mem _ hr')) hroom.2
    cases happly : (overlay base t.changes).applyRecord r.kind r.payload with
    | error e =>
      rw [happly] at hpush
      simp only [pushAll, applyAll, happly, hpush] at hlater ⊢
      exact ⟨congrArg _ hlater.1, hlater.2⟩
    | ok ns =>
      rw [happly] at hpush
      obtain ⟨changes, rfl, heq⟩ := hpush
      simp only [pushAll, applyAll, happly, heq] at hlater ⊢
      exact ⟨congrArg _ hlater.1, hlater.2⟩

/-! ## Commits -/

section Commit

variable {σ V T α β : Type}

/-- The operation leaves the namespace in memory alone. -/
def KeepsObjects (m : Op (DurableNamespace σ V) NamespaceError α) : Prop := ∀ d, (m d).2.objects = d.objects

lemma KeepsObjects.bind {m : Op (DurableNamespace σ V) NamespaceError α} {f : α → Op (DurableNamespace σ V) NamespaceError β}
    (hm : KeepsObjects m) (hf : ∀ a, KeepsObjects (f a)) : KeepsObjects (m >>= f) :=
  Op.related_bind (R := fun d d' : DurableNamespace σ V => d'.objects = d.objects) (fun h h' => h'.trans h) hm hf

variable [BlockStore σ] [PersistentTransaction T] [NamespaceVolume V T]

lemma keepsObjects_persistSnapshot : KeepsObjects (persistSnapshot : Op (DurableNamespace σ V) NamespaceError ℕ) := by
  have hguard : ∀ (p : Bool) (e : NamespaceError), KeepsObjects (Op.guard p e : Op (DurableNamespace σ V) _ _) := by
    intro p e d
    cases p <;> rfl
  refine .bind (fun _ => rfl) fun d => .bind (fun _ => rfl) fun _ => .bind (fun _ => rfl) fun _ => ?_
  refine .bind (hguard _ _) fun _ => .bind (fun _ => rfl) fun _ => .bind (fun _ => rfl) fun _ => ?_
  exact .bind (fun _ => rfl) fun _ => .bind (fun _ => rfl) fun _ => .bind (fun _ => rfl) fun _ =>
    .bind (fun _ => rfl) fun _ _ => rfl

end Commit

/-- What it means that a transaction over `base` is its records one after another.  The view is all that reads, `stat`, `list`
and path resolution look at. -/
structure OneByOne (base : ObjectNamespace) (generation : ℕ) (records : List PendingRecord) : Prop where
  answers : (pushAll base records (.new generation)).1 = (applyAll records base).1
  view : (pushAll base records (.new generation)).2.view base = (applyAll records base).2.lookup
  commit : ∀ {σ V T : Type} [BlockStore σ] [PersistentTransaction T] [NamespaceVolume V T] (d d' : DurableNamespace σ V)
    (persisted : ℕ), d.objects = base → NamespaceVolume.generation d.volume = generation →
    persistSnapshot { d with objects := (applyAll records base).2, retiredFileExtents := [] } = (.ok persisted, d') →
      commitTransaction (pushAll base records (.new generation)).2 d = (.ok (persisted - 1), d') ∧
        d'.objects = (applyAll records base).2

end LogOS.StorageService
