import LogOS.Kernel.EventSpec

/-!
# No published wait is missed

A service that gets `Pending` from `wait_any` goes to sleep until its set is woken.  A session is a run of calls on the
registry together with, for every set, the number of wakes there had been when its last wait was published; a set has
been woken since when its handle is among the later wakes.

A software signal looks for all sets that wait for the event.  A hardware source remembers only one set, the last that
the event was added to, so an event shared by two sets wakes one of them.  When an event bound to a device is never
added to a second set, the set that the source remembers is the only one there is, and no wait is missed.
-/

namespace LogOS.Kernel

open Lib Abi EventWorld Op Function Handle EventSetRecord Option

/-! ## Sessions -/

inductive EventCall where
  | createEvent (owner : ServiceHandle)
  | createHardwareEvent (owner : ServiceHandle) (source : HardwareEventSource)
  | createSet (owner : ServiceHandle)
  | add (owner : ServiceHandle) (set : EventSetHandle) (event : EventHandle)
  | remove (owner : ServiceHandle) (set : EventSetHandle) (event : EventHandle)
  | signal (owner : ServiceHandle) (event : EventHandle)
  | signalIrq (event : EventHandle)
  | signalHardwareEvent (source : HardwareEventSource)
  | waitAny (owner : ServiceHandle) (set : EventSetHandle) (now : ℕ) (deadline : Option ℕ)
  | cancelWait (owner : ServiceHandle) (set : EventSetHandle)
  | destroyEvent (owner : ServiceHandle) (event : EventHandle)
  | destroySet (owner : ServiceHandle) (set : EventSetHandle)

/-- The call itself, with the set on which it published a wait, if it did. -/
def EventCall.run : EventCall → Op EventWorld EventError (Option EventSetHandle)
  | .createEvent owner => Kernel.createEvent owner >>= fun _ => pure none
  | .createHardwareEvent owner source => Kernel.createHardwareEvent owner source >>= fun _ => pure none
  | .createSet owner => Kernel.createSet owner >>= fun _ => pure none
  | .add owner set event => Kernel.add owner set event >>= fun _ => pure none
  | .remove owner set event => Kernel.remove owner set event >>= fun _ => pure none
  | .signal owner event => Kernel.signal owner event >>= fun _ => pure none
  | .signalIrq event => Kernel.signalIrq event >>= fun _ => pure none
  | .signalHardwareEvent source => Kernel.signalHardwareEvent source >>= fun _ => pure none
  | .waitAny owner set now deadline =>
    Kernel.waitAny owner set now deadline >>= fun result => pure (if result = .pending then some set else none)
  | .cancelWait owner set => Kernel.cancelWait owner set >>= fun _ => pure none
  | .destroyEvent owner event => Kernel.destroyEvent owner event >>= fun _ => pure none
  | .destroySet owner set => Kernel.destroySet owner set >>= fun _ => pure none

/-- A world, and for every set how many wakes there had been when its last wait was published. -/
structure WaitSession where
  world : EventWorld
  published : EventSetHandle → ℕ

namespace WaitSession

def start (generation : UInt32) : WaitSession := ⟨.start generation, fun _ => 0⟩

/-- The session after a call, in which the allocator answers as `answers` says. -/
def step (s : WaitSession) (call : EventCall) (answers : List Bool) : WaitSession :=
  match call.run { s.world with heap := answers } with
  | (.ok (some set), w) => ⟨w, Function.update s.published set w.wakes.length⟩
  | (_, w) => ⟨w, s.published⟩

/-- The sessions reached by calls that all meet the condition `P` on the world before them. -/
inductive Reached (P : EventWorld → EventCall → Prop) (generation : UInt32) : WaitSession → Prop where
  | start : Reached P generation (start generation)
  | step {s : WaitSession} (h : Reached P generation s) (call : EventCall) (answers : List Bool)
      (hcall : P s.world call) : Reached P generation (s.step call answers)

/-- `set` has been woken since its last wait was published. -/
def WokenSince (s : WaitSession) (set : EventSetHandle) : Prop := set ∈ s.world.wakes.drop (s.published set)

/-- A published wait with a ready member has been woken, and `wait_any` lets nobody sleep over a ready member. -/
structure NoMissedWait (s : WaitSession) : Prop where
  woken : ∀ set r e, s.world.set? set = some r → r.waiting = true → e ∈ r.members → s.world.Ready e → s.WokenSince set
  idle : ∀ owner set now deadline result w', waitAny owner set now deadline s.world = (.ok result, w') →
    result = .pending ∨ result = .timeout → ∀ r, s.world.set? set = some r → ∀ e ∈ r.members, ¬ s.world.Ready e

end WaitSession

/-- An event bound to a device is not added to a second set. -/
def Unshared (w : EventWorld) : EventCall → Prop
  | .add _ _ event => (∃ src, (w.hardware src).eventRaw = event.raw) → ∀ set r, w.set? set = some r → event ∉ r.members
  | _ => True

/-! ## The invariant -/

variable {e : EventHandle}

/-- What holds between the calls of a session in which no event bound to a device is shared. -/
structure Armed (w : EventWorld) (published : EventSetHandle → ℕ) : Prop where
  sound : w.Sound
  live : ∀ set r, w.set? set = some r → ∀ e ∈ r.members, ∃ re, w.event? e = some re
  nodup : ∀ set r, w.set? set = some r → r.members.Nodup
  /-- A source is bound to a live event or to none. -/
  bound : ∀ src, (w.hardware src).eventRaw = 0 ∨ ∃ e re, w.event? e = some re ∧ (w.hardware src).eventRaw = e.raw
  /-- The set a source remembers is the one its event is in. -/
  follows : ∀ src set r e, w.set? set = some r → e ∈ r.members → (w.hardware src).eventRaw = e.raw →
    (w.hardware src).setRaw = set.raw
  published_le : ∀ set, published set ≤ w.wakes.length
  woken : ∀ set r e, w.set? set = some r → r.waiting = true → e ∈ r.members → w.Ready e →
    set ∈ w.wakes.drop (published set)

variable {w w' : EventWorld} {p : EventSetHandle → ℕ}

lemma mem_drop_append {α : Type} {a : α} {l m : List α} {n : ℕ} (h : a ∈ l.drop n) : a ∈ (l ++ m).drop n := by
  rw [List.drop_append]
  exact List.mem_append_left _ h

lemma mem_drop_append_right {α : Type} {a : α} {l m : List α} {n : ℕ} (hn : n ≤ l.length) (h : a ∈ m) :
    a ∈ (l ++ m).drop n := by
  rw [List.drop_append, Nat.sub_eq_zero_of_le hn]
  exact List.mem_append_right _ h

lemma Armed.start (generation : UInt32) : Armed (.start generation) fun _ => 0 where
  sound := sound_start generation
  live := nofun
  nodup := nofun
  bound := fun _ => .inl rfl
  follows := nofun
  published_le := fun _ => Nat.zero_le _
  woken := nofun

/-- An event is ready only through its record and the sources bound to it. -/
theorem ready_of (he : ∀ r, w'.event? e = some r → r.signaled = true →
      ∃ r, w.event? e = some r ∧ r.signaled = true)
    (hh : ∀ src, (w'.hardware src).eventRaw = e.raw → (w'.hardware src).pending = true →
      (w.hardware src).eventRaw = e.raw ∧ (w.hardware src).pending = true) (h : w'.Ready e) : w.Ready e := by
  rcases h with ⟨r, hr, hsig⟩ | hp
  · exact .inl (he r hr hsig)
  · obtain ⟨src, h1, h2⟩ := hardwareEventIsPending_iff.mp hp
    exact .inr (hardwareEventIsPending_iff.mpr ⟨src, hh src h1 h2⟩)

/-- Changes that leave the events and the sources' devices alone make no event ready. -/
theorem ready_of_same (he : w'.event? = w.event?)
    (hraw : ∀ src, (w'.hardware src).eventRaw = (w.hardware src).eventRaw)
    (hpend : ∀ src, (w'.hardware src).pending = (w.hardware src).pending) (h : w'.Ready e) : w.Ready e := by
  refine ready_of (fun r hr hsig => ⟨r, he ▸ hr, hsig⟩) (fun src h1 h2 => ?_) h
  rw [hraw] at h1
  rw [hpend] at h2
  exact ⟨h1, h2⟩

lemma Armed.published (h : Armed w p) {l : List EventSetHandle} (hw : w'.wakes = w.wakes ++ l) (set : EventSetHandle) :
    p set ≤ w'.wakes.length := by
  rw [hw, List.length_append]
  exact Nat.le_add_right_of_le (h.published_le set)

/-! ## Every call keeps it -/

variable {k : EventHandle} {r : EventSetRecord}

section

variable (h : Armed w p)
include h

/-- A member of a set is another event than one just made. -/
theorem Armed.ne_fresh (hfresh : w.event? e = none) {set : EventSetHandle}
    (hr : w.set? set = some r) (hk : k ∈ r.members) : k ≠ e := by
  rintro rfl
  obtain ⟨re, hre⟩ := h.live set r hr k hk
  rw [hfresh] at hre
  cases hre

/-- **No set gains a member.**  When every set is one from before, with at most its members and its wait, the session
stays armed if the members are still events, the sources bound to them remember what they did, and what has become ready
is woken. -/
theorem Armed.carried (hs : w'.Sound) {l : List EventSetHandle} (hw : w'.wakes = w.wakes ++ l)
    (hbound : ∀ src, (w'.hardware src).eventRaw = 0 ∨ ∃ e re, w'.event? e = some re ∧ (w'.hardware src).eventRaw = e.raw)
    (hback : ∀ set r', w'.set? set = some r' → ∃ r, w.set? set = some r ∧ r'.members.Sublist r.members ∧
      (r'.waiting = true → r.waiting = true) ∧ ∀ k ∈ r'.members, (∃ rk, w'.event? k = some rk) ∧
        (∀ src, (w'.hardware src).eventRaw = k.raw →
          (w.hardware src).eventRaw = k.raw ∧ (w'.hardware src).setRaw = (w.hardware src).setRaw) ∧
        (w'.Ready k → r.waiting = true → w.Ready k ∨ set ∈ l)) : Armed w' p where
  sound := hs
  live := fun set r' hr' k hk => by
    obtain ⟨r, -, -, -, hkeep⟩ := hback set r' hr'
    exact (hkeep k hk).1
  nodup := fun set r' hr' => by
    obtain ⟨r, hr, hsub, -⟩ := hback set r' hr'
    exact (h.nodup set r hr).sublist hsub
  bound := hbound
  follows := fun src set r' k hr' hk hraw => by
    obtain ⟨r, hr, hsub, -, hkeep⟩ := hback set r' hr'
    obtain ⟨hraw, hset⟩ := (hkeep k hk).2.1 src hraw
    rw [hset]
    exact h.follows src set r k hr (hsub.subset hk) hraw
  published_le := h.published hw
  woken := fun set r' k hr' hwait hk hready => by
    obtain ⟨r, hr, hsub, hwaits, hkeep⟩ := hback set r' hr'
    rw [hw]
    rcases (hkeep k hk).2.2 hready (hwaits hwait) with hready | hset
    · exact mem_drop_append (h.woken set r k hr (hwaits hwait) (hsub.subset hk) hready)
    · exact mem_drop_append_right (h.published_le set) hset

/-- The same when the sets and the sources are as they were. -/
theorem Armed.carried_of_same (hs : w'.Sound) (hset : w'.set? = w.set?) (hh : w'.hardware = w.hardware)
    {l : List EventSetHandle} (hw : w'.wakes = w.wakes ++ l)
    (hlive : ∀ k rk, w.event? k = some rk → ∃ rk', w'.event? k = some rk')
    (hready : ∀ set r k, w.set? set = some r → r.waiting = true → k ∈ r.members →
      (∃ rk, w'.event? k = some rk ∧ rk.signaled = true) → (∃ rk, w.event? k = some rk ∧ rk.signaled = true) ∨ set ∈ l) :
    Armed w' p := by
  refine h.carried hs hw (fun src => ?_) fun set r hr => ?_
  · rw [hh]
    refine (h.bound src).imp_right ?_
    rintro ⟨k, rk, hk, hraw⟩
    obtain ⟨rk', hk'⟩ := hlive k rk hk
    exact ⟨k, rk', hk', hraw⟩
  · rw [hset] at hr
    refine ⟨r, hr, .refl _, id, fun k hk => ?_⟩
    obtain ⟨rk, hrk⟩ := h.live set r hr k hk
    refine ⟨hlive k rk hrk, fun src hraw => by rw [hh] at hraw ⊢; exact ⟨hraw, rfl⟩, ?_⟩
    rintro (hsig | hp) hwait
    · exact (hready set r k hr hwait hk hsig).imp_left .inl
    · refine .inl (.inr ?_)
      rwa [EventWorld.hardwareEventIsPending, hh] at hp

lemma Armed.alike (ha : w.Alike w') : Armed w' p := by
  refine h.carried_of_same (ha.sound h.sound) ha.set? ha.hardware (by rw [ha.wakes, List.append_nil]) ?_ ?_
  · rw [ha.event?]
    exact fun k rk hk => ⟨rk, hk⟩
  · rw [ha.event?]
    exact fun _ _ _ _ _ _ hsig => .inl hsig

lemma Armed.eventMade {re : EventRecord} (hm : EventMade w e re w') : Armed w' p := by
  refine h.carried_of_same hm.sound hm.set? hm.hardware (by rw [hm.wakes, List.append_nil])
    (fun k rk hk => ⟨rk, hm.keeps k rk hk⟩) fun set r k hr _ hk hsig => .inl ?_
  rwa [hm.event?, update_of_ne (h.ne_fresh hm.fresh hr hk)] at hsig

/-- A source bound anew belongs to an event that is in no set. -/
theorem Armed.boundAnew {re : EventRecord} (he : w.event? e = some re)
    (hfree : ∀ set r, w.set? set = some r → e ∉ r.members) (source : HardwareEventSource) :
    Armed (w.bindHardwareEvent source e) p where
  sound := ⟨h.sound.events, h.sound.sets, h.sound.seed⟩
  live := h.live
  nodup := h.nodup
  bound := fun src => by
    show ((w.setHardware source _).hardware src).eventRaw = 0 ∨ _
    rw [bindHardwareEvent, hardware_setHardware]
    split
    · exact .inr ⟨e, re, he, rfl⟩
    · exact h.bound src
  follows := fun src set r k hr hk => by
    rw [bindHardwareEvent, hardware_setHardware]
    split
    · intro hraw
      rw [← raw_inj.mp hraw] at hk
      exact absurd hk (hfree set r hr)
    · exact h.follows src set r k hr hk
  published_le := h.published_le
  woken := fun set r k hr hwait hk hready => by
    refine h.woken set r k hr hwait hk (ready_of
      (fun rk (hrk : (w.bindHardwareEvent source e).event? k = some rk) hsig => ⟨rk, hrk, hsig⟩) (fun src => ?_) hready)
    rw [bindHardwareEvent, hardware_setHardware]
    split
    · exact nofun
    · exact fun h1 h2 => ⟨h1, h2⟩

/-- **One set changed.**  A call that changes the members or the waiter of one set, without making an event ready,
keeps the session armed when the sources follow and the set, if it now waits, has no ready member. -/
theorem Armed.updateSet {s : EventSetHandle} {r' : EventSetRecord} (hs : w'.Sound)
    (hlive : ∀ e, (w.event? e).isSome → (w'.event? e).isSome)
    (hset : w'.set? = update w.set? s (some r')) (hmem : r'.members.Nodup)
    (hmemlive : ∀ e ∈ r'.members, (w.event? e).isSome)
    (hraw : ∀ src, (w'.hardware src).eventRaw = (w.hardware src).eventRaw)
    (hother : ∀ src set rs e, set ≠ s → w.set? set = some rs → e ∈ rs.members → (w.hardware src).eventRaw = e.raw →
      (w'.hardware src).setRaw = set.raw)
    (hself : ∀ src e, e ∈ r'.members → (w.hardware src).eventRaw = e.raw → (w'.hardware src).setRaw = s.raw)
    (hready : ∀ e, w'.Ready e → w.Ready e) {l : List EventSetHandle} (hw : w'.wakes = w.wakes ++ l)
    {q : EventSetHandle → ℕ} (hq : ∀ set, set ≠ s → q set = p set) (hqs : q s ≤ w'.wakes.length)
    (hwait : r'.waiting = true → ∀ e ∈ r'.members, ¬ w'.Ready e) : Armed w' q where
  sound := hs
  live := fun set rs hrs e he => by
    refine isSome_iff_exists.mp (hlive e ?_)
    rcases eq_some_of_update hset hrs with ⟨-, rfl⟩ | ⟨-, hrs⟩
    · exact hmemlive e he
    · exact isSome_iff_exists.mpr (h.live set rs hrs e he)
  nodup := fun set rs hrs => by
    rcases eq_some_of_update hset hrs with ⟨-, rfl⟩ | ⟨-, hrs⟩
    · exact hmem
    · exact h.nodup set rs hrs
  bound := fun src => by
    rw [hraw]
    rcases h.bound src with h0 | ⟨e, re, he, hre⟩
    · exact .inl h0
    · obtain ⟨re', he'⟩ := isSome_iff_exists.mp (hlive e (by rw [he]; rfl))
      exact .inr ⟨e, re', he', hre⟩
  follows := fun src set rs e hrs he => by
    rw [hraw]
    rcases eq_some_of_update hset hrs with ⟨rfl, rfl⟩ | ⟨hne, hrs⟩
    · exact hself src e he
    · exact hother src set rs e hne hrs he
  published_le := fun set => by
    by_cases hne : set = s
    · rw [hne]
      exact hqs
    · rw [hq set hne]
      exact h.published hw set
  woken := fun set rs e hrs hwaits he her => by
    rcases eq_some_of_update hset hrs with ⟨-, rfl⟩ | ⟨hne, hrs⟩
    · exact absurd her (hwait hwaits e he)
    · rw [hw, hq set hne]
      exact mem_drop_append (h.woken set rs e hrs hwaits he (hready e her))

/-- The same when the events and the sources are as they were. -/
theorem Armed.updateSet_of_same {s : EventSetHandle} {r' : EventSetRecord} (hs : w'.Sound) (hev : w'.event? = w.event?)
    (hh : w'.hardware = w.hardware) (hset : w'.set? = update w.set? s (some r')) (hmem : r'.members.Nodup)
    (hin : ∀ e ∈ r'.members, ∃ r, w.set? s = some r ∧ e ∈ r.members) {l : List EventSetHandle}
    (hw : w'.wakes = w.wakes ++ l) {q : EventSetHandle → ℕ} (hq : ∀ set, set ≠ s → q set = p set)
    (hqs : q s ≤ w'.wakes.length) (hwait : r'.waiting = true → ∀ e ∈ r'.members, ¬ w.Ready e) : Armed w' q := by
  have hready : ∀ k, w'.Ready k → w.Ready k := fun k =>
    ready_of_same hev (fun src => by rw [hh]) fun src => by rw [hh]
  refine h.updateSet hs (fun k hk => by rwa [hev]) hset hmem (fun e he => ?_) (fun src => by rw [hh])
    (fun src set rs k _ hrs hk hkraw => ?_) (fun src k hk hkraw => ?_) hready hw hq hqs
    fun hwaits e he her => hwait hwaits e he (hready e her)
  · obtain ⟨r, hr, he⟩ := hin e he
    exact isSome_iff_exists.mpr (h.live s r hr e he)
  · rw [hh]
    exact h.follows src set rs k hrs hk hkraw
  · obtain ⟨r, hr, hk⟩ := hin k hk
    rw [hh]
    exact h.follows src s r k hr hk hkraw

lemma Armed.setMade {s : EventSetHandle} {owner : ServiceHandle}
    (hm : SetMade w s ⟨owner, [], false, false⟩ w') : Armed w' p :=
  h.updateSet_of_same hm.sound hm.event? hm.hardware hm.set? List.nodup_nil nofun
    (by rw [hm.wakes, List.append_nil]) (fun _ _ => rfl) (by rw [hm.wakes]; exact h.published_le s) nofun

lemma armed_add (owner : ServiceHandle) (s : EventSetHandle) (e : EventHandle) (hun : Unshared w (.add owner s e)) :
    wp (add owner s e) (fun _ w' => Armed w' p) (fun _ w' => Armed w' p) w := by
  refine wp_mono (wp_add h.sound owner s e) ?_ fun _ w' ha => h.alike ha
  rintro - w' ⟨hs, r, re, he, -, hr, -, hwait, hnew, hev, hset, hhw, hwakes⟩
  have hraw : ∀ src, (w'.hardware src).eventRaw = (w.hardware src).eventRaw := by
    intro src
    rw [hhw, bound]
    split <;> rfl
  have hpend : ∀ src, (w'.hardware src).pending = (w.hardware src).pending := by
    intro src
    rw [hhw, bound]
    split <;> rfl
  refine h.updateSet hs (fun k hk => by rwa [hev]) hset ?_ ?_ hraw ?_ ?_ (fun k => ready_of_same hev hraw hpend)
    (by rw [hwakes, List.append_nil]) (fun _ _ => rfl) (by rw [hwakes]; exact h.published_le s) ?_
  · exact List.nodup_append.mpr ⟨h.nodup s r hr, by simp, fun a ha b hb => by
      rw [List.mem_singleton.mp hb]
      rintro rfl
      exact hnew ha⟩
  · intro k hk
    rcases List.mem_append.mp hk with hk | hk
    · exact isSome_iff_exists.mpr (h.live s r hr k hk)
    · rw [List.mem_singleton.mp hk, he]
      rfl
  · intro src set rs k hne hrs hk hkraw
    have hke : (w.hardware src).eventRaw ≠ e.raw := by
      intro heq
      rw [← raw_inj.mp (heq.symm.trans hkraw)] at hk
      exact hun ⟨src, heq⟩ set rs hrs hk
    rw [hhw, bound, if_neg hke]
    exact h.follows src set rs k hrs hk hkraw
  · intro src k hk hkraw
    rw [hhw, bound]
    split
    · rfl
    · rename_i hke
      rcases List.mem_append.mp hk with hk | hk
      · exact h.follows src s r k hr hk hkraw
      · rw [List.mem_singleton.mp hk] at hkraw
        exact absurd hkraw hke
  · intro hw
    rw [hwait] at hw
    cases hw

lemma armed_remove (owner : ServiceHandle) (s : EventSetHandle) (e : EventHandle) :
    wp (remove owner s e) (fun _ w' => Armed w' p) (fun _ w' => Armed w' p) w := by
  refine wp_mono (wp_remove h.sound owner s e) ?_ fun _ w' ha => h.alike ha
  rintro - w' ⟨hs, r, hr, -, hwait, hev, hset, hhw, hwakes⟩
  have hraw : ∀ src, (w'.hardware src).eventRaw = (w.hardware src).eventRaw := by
    intro src
    rw [hhw, unbound]
    split <;> rfl
  have hpend : ∀ src, (w'.hardware src).pending = (w.hardware src).pending := by
    intro src
    rw [hhw, unbound]
    split <;> rfl
  refine h.updateSet hs (fun k hk => by rwa [hev]) hset ((h.nodup s r hr).erase e) ?_ hraw ?_ ?_
    (fun k => ready_of_same hev hraw hpend) (by rw [hwakes, List.append_nil]) (fun _ _ => rfl)
    (by rw [hwakes]; exact h.published_le s) ?_
  · exact fun k hk => isSome_iff_exists.mpr (h.live s r hr k (List.mem_of_mem_erase hk))
  · intro src set rs k hne hrs hk hkraw
    have hfollow := h.follows src set rs k hrs hk hkraw
    rw [hhw, unbound, if_neg, hfollow]
    rintro ⟨-, hsraw⟩
    exact hne (raw_inj.mp (hfollow.symm.trans hsraw))
  · intro src k hk hkraw
    have hfollow := h.follows src s r k hr (List.mem_of_mem_erase hk) hkraw
    rw [hhw, unbound, if_neg, hfollow]
    rintro ⟨heraw, -⟩
    rw [raw_inj.mp (hkraw.symm.trans heraw)] at hk
    exact (h.nodup s r hr).not_mem_erase hk
  · intro hw
    rw [hwait] at hw
    cases hw

/-- A signal wakes every set that waits for the event. -/
theorem Armed.signaled (hsig : Signaled w e w') : Armed w' p := by
  obtain ⟨re, hre, hev⟩ := hsig.event?
  refine h.carried_of_same hsig.sound hsig.set? hsig.hardware hsig.wakes (fun k rk hk => ?_) fun set r k hr hwait hk hk' => ?_
  · rw [hev, update_apply]
    split
    · exact ⟨_, rfl⟩
    · exact ⟨rk, hk⟩
  · by_cases hke : k = e
    · exact .inr ((mem_waiters h.sound).mpr ⟨r, hr, hwait, hke ▸ hk⟩)
    · rw [hev, update_of_ne hke] at hk'
      exact .inl hk'

/-- A device that fires wakes the only set its event is in. -/
theorem armed_signalHardwareEvent (source : HardwareEventSource) :
    wp (signalHardwareEvent source) (fun _ w' => Armed w' p) (fun _ w' => Armed w' p) w := by
  refine wp_mono (wp_signalHardwareEvent source w) ?_ fun _ _ hf => hf.elim
  rintro - w' (rfl | ⟨-, hreg, hhw, hwakes⟩)
  · exact h
  have hev : w'.event? = w.event? := by unfold event?; rw [hreg]
  have hset : w'.set? = w.set? := by unfold set?; rw [hreg]
  have hraw : ∀ src, (w'.hardware src).eventRaw = (w.hardware src).eventRaw ∧
      (w'.hardware src).setRaw = (w.hardware src).setRaw := by
    intro src
    rw [hhw]
    split
    · rename_i hsrc
      rw [hsrc]
      exact ⟨rfl, rfl⟩
    · exact ⟨rfl, rfl⟩
  refine h.carried (by constructor <;> rw [hreg]; exacts [h.sound.events, h.sound.sets, h.sound.seed]) hwakes (fun src => ?_)
    fun set r hr => ?_
  · rw [hev, (hraw src).1]
    exact h.bound src
  rw [hset] at hr
  refine ⟨r, hr, .refl _, id, fun k hk => ⟨by rw [hev]; exact h.live set r hr k hk, fun src hkraw => ?_, fun hready _ => ?_⟩⟩
  · exact ⟨(hraw src).1 ▸ hkraw, (hraw src).2⟩
  by_cases hsrc : (w.hardware source).eventRaw = k.raw
  · rw [h.follows source set r k hr hk hsrc, fromRaw_raw (generation_ne_zero_of_resolve h.sound.sets hr)]
    simp
  refine .inl (ready_of (fun rk hrk hs => ⟨rk, hev ▸ hrk, hs⟩) (fun src h1 h2 => ?_) hready)
  rw [(hraw src).1] at h1
  have hne : src ≠ source := by
    rintro rfl
    exact hsrc h1
  rw [hhw, if_neg hne] at h2
  exact ⟨h1, h2⟩

end

lemma consumed_fields (e : EventHandle) (b : HardwareBinding) :
    (consumed e b).eventRaw = b.eventRaw ∧ (consumed e b).setRaw = b.setRaw ∧
      ((consumed e b).pending = true → b.pending = true) := by
  unfold consumed
  split
  · exact ⟨rfl, rfl, nofun⟩
  · exact ⟨rfl, rfl, id⟩

/-- `wait_any` publishes a wait only over members that are not ready. -/
theorem armed_waitAny (h : Armed w p) (owner : ServiceHandle) (s : EventSetHandle) (now : ℕ) (deadline : Option ℕ) :
    wp (waitAny owner s now deadline)
      (fun result w' => Armed w' (if result = .pending then update p s w'.wakes.length else p))
      (fun _ w' => Armed w' p) w := by
  refine wp_mono (wp_waitAny h.sound owner s now deadline) ?_ fun _ w' hw => hw ▸ h
  rintro result w' ⟨r, hr, -, -, hwaited⟩
  have hmemlive : ∀ e ∈ r.members, (w.event? e).isSome := fun e he =>
    isSome_iff_exists.mpr (h.live s r hr e he)
  cases hwaited with
  | @ready e re w' hmem he hs hev hset hhw hwakes =>
    refine h.updateSet hs (fun k hk => ?_) hset (h.nodup s r hr) hmemlive (fun src => ?_) ?_ ?_ (fun k => ?_)
      (by rw [hwakes, List.append_nil]) (fun _ _ => rfl) (by rw [hwakes]; exact h.published_le s)
      nofun
    · rw [hev, update_apply]
      split
      · rfl
      · exact hk
    · rw [hhw]
      exact (consumed_fields e _).1
    · intro src set rs k _ hrs hk hkraw
      rw [hhw, (consumed_fields e _).2.1]
      exact h.follows src set rs k hrs hk hkraw
    · intro src k hk hkraw
      rw [hhw, (consumed_fields e _).2.1]
      exact h.follows src s r k hr hk hkraw
    · refine ready_of (fun rk hrk hsig => ?_) (fun src h1 h2 => ?_)
      · rcases eq_some_of_update hev hrk with ⟨-, rfl⟩ | ⟨-, hrk⟩
        · cases hsig
        · exact ⟨rk, hrk, hsig⟩
      · rw [hhw] at h1 h2
        rw [(consumed_fields e _).1] at h1
        exact ⟨h1, (consumed_fields e _).2.2 h2⟩
  | idle hres hidle hs hev hset hhw hwakes =>
    refine h.updateSet_of_same hs hev hhw hset (h.nodup s r hr) (fun e he => ⟨r, hr, he⟩)
      (by rw [hwakes, List.append_nil]) (fun set hne => ?_) ?_ fun _ => hidle
    · split
      · exact update_of_ne hne _ _
      · rfl
    · split
      · rw [update_self]
      · rw [hwakes]
        exact h.published_le s

lemma armed_cancelWait (h : Armed w p) (owner : ServiceHandle) (s : EventSetHandle) :
    wp (cancelWait owner s) (fun _ w' => Armed w' p) (fun _ w' => Armed w' p) w := by
  refine wp_mono (wp_cancelWait h.sound owner s) ?_ fun _ w' hw => hw ▸ h
  rintro - w' ⟨hs, r, l, hr, -, hev, hset, hhw, hwakes⟩
  exact h.updateSet_of_same hs hev hhw hset (h.nodup s r hr) (fun e he => ⟨r, hr, he⟩) hwakes (fun _ _ => rfl)
    (h.published hwakes s) nofun

lemma mem_members_without : k ∈ (r.without e).members ↔ k ∈ r.members ∧ k ≠ e := by
  unfold without
  split <;> simp

lemma members_without_sublist : (r.without e).members.Sublist r.members := by
  unfold without
  split <;> exact List.filter_sublist

lemma waiting_of_without (h : (r.without e).waiting = true) : r.waiting = true := by
  unfold without at h
  split at h
  · cases h
  · exact h

lemma cleared_of_raw {b : HardwareBinding} (hk : (cleared e b).eventRaw = k.raw)
    (h0 : k.raw ≠ 0) : cleared e b = b ∧ b.eventRaw = k.raw := by
  unfold cleared at *
  split at hk
  · exact absurd hk.symm h0
  · rename_i hne
    rw [if_neg hne]
    exact ⟨rfl, hk⟩

lemma Armed.eventGone (h : Armed w p) (hg : EventGone w e w') : Armed w' p := by
  refine h.carried hg.sound hg.wakes (fun src => ?_) fun set r' hr' => ?_
  · rw [hg.hardware, cleared]
    split
    · exact .inl rfl
    rename_i hne
    refine (h.bound src).imp_right ?_
    rintro ⟨k, rk, hk, hraw⟩
    refine ⟨k, rk, ?_, hraw⟩
    rw [hg.event?, update_of_ne, hk]
    rintro rfl
    exact hne hraw
  rw [hg.set?] at hr'
  obtain ⟨r, hr, rfl⟩ := map_eq_some_iff.mp hr'
  refine ⟨r, hr, members_without_sublist, waiting_of_without, fun k hk => ?_⟩
  obtain ⟨hk, hke⟩ := mem_members_without.mp hk
  obtain ⟨rk, hrk⟩ := h.live set r hr k hk
  have h0 : k.raw ≠ 0 := raw_ne_zero (Nat.pos_of_ne_zero (generation_ne_zero_of_resolve h.sound.events hrk))
  -- What a surviving member is bound to has not been touched.
  have hsame : ∀ src, (w'.hardware src).eventRaw = k.raw →
      w'.hardware src = w.hardware src ∧ (w.hardware src).eventRaw = k.raw := by
    intro src hraw
    rw [hg.hardware] at hraw ⊢
    exact cleared_of_raw hraw h0
  have hev : w'.event? k = w.event? k := by rw [hg.event?, update_of_ne hke]
  refine ⟨⟨rk, hev.trans hrk⟩, fun src hraw => ?_, fun hready _ => .inl ?_⟩
  · obtain ⟨heq, hraw⟩ := hsame src hraw
    rw [heq]
    exact ⟨hraw, rfl⟩
  · refine ready_of (fun rk hrk hs => ⟨rk, hev ▸ hrk, hs⟩) (fun src h1 h2 => ?_) hready
    obtain ⟨heq, hraw⟩ := hsame src h1
    exact ⟨hraw, heq ▸ h2⟩

lemma Armed.setGone (h : Armed w p) {s : EventSetHandle} (hg : SetGone w s r w') : Armed w' p := by
  have hback : ∀ set rs, w'.set? set = some rs → set ≠ s ∧ w.set? set = some rs := by
    intro set rs hrs
    rw [hg.set?, update_apply] at hrs
    split at hrs
    · cases hrs
    · rename_i hne
      exact ⟨hne, hrs⟩
  have hraw : ∀ src, (w'.hardware src).eventRaw = (w.hardware src).eventRaw := fun src => by
    rw [hg.hardware]
    exact (foldl_unbound s r.members _).1
  have hpend : ∀ src, (w'.hardware src).pending = (w.hardware src).pending := fun src => by
    rw [hg.hardware]
    exact (foldl_unbound s r.members _).2.1
  refine h.carried hg.sound hg.wakes (fun src => ?_) fun set rs hrs => ?_
  · rw [hraw, hg.event?]
    exact h.bound src
  obtain ⟨hne, hrs⟩ := hback set rs hrs
  refine ⟨rs, hrs, .refl _, id, fun k hk => ⟨by rw [hg.event?]; exact h.live set rs hrs k hk, fun src hkraw => ?_,
    fun hready _ => .inl (ready_of_same hg.event? hraw hpend hready)⟩⟩
  rw [hraw] at hkraw
  refine ⟨hkraw, ?_⟩
  rw [hg.hardware, (foldl_unbound s r.members _).2.2]
  rw [h.follows src set rs k hrs hk hkraw]
  exact fun heq => hne (raw_inj.mp heq)

/-! ## Runs -/

/-- **One call.**  A call that shares no event bound to a device keeps the session armed. -/
theorem armed_run (h : Armed w p) (call : EventCall) (hun : Unshared w call) : wp call.run
      (fun published w' => Armed w' (match published with
        | some set => update p set w'.wakes.length
        | none => p))
      (fun _ w' => Armed w' p) w := by
  cases call with
  | createEvent owner =>
    refine wp_step (wp_createEventWithFlags h.sound owner 0) ?_ fun _ _ ha => h.alike ha
    exact fun e w' hm => h.eventMade hm.2
  | createHardwareEvent owner source =>
    refine wp_step (wp_createHardwareEvent h.sound owner source) ?_ fun _ _ ha => h.alike ha
    rintro e - ⟨w1, flags, hm, rfl⟩
    have he : w1.event? e = some ⟨owner, flags, false⟩ := by rw [hm.event?, update_self]
    refine (h.eventMade hm).boundAnew he (fun set r hr hmem => ?_) source
    rw [hm.set?] at hr
    exact h.ne_fresh hm.fresh hr hmem rfl
  | createSet owner =>
    refine wp_step (wp_createSet h.sound owner) ?_ fun _ _ ha => h.alike ha
    exact fun s w' hm => h.setMade hm
  | add owner set event => exact wp_bind.mpr (armed_add h owner set event hun)
  | remove owner set event => exact wp_bind.mpr (armed_remove h owner set event)
  | signal owner event =>
    refine wp_step (wp_signal h.sound owner event) ?_ fun _ _ hw => hw ▸ h
    exact fun _ w' hsig => h.signaled hsig
  | signalIrq event =>
    refine wp_step (wp_signalIrq h.sound event) ?_ fun _ _ hw => hw ▸ h
    exact fun _ w' hsig => h.signaled hsig
  | signalHardwareEvent source => exact wp_bind.mpr (armed_signalHardwareEvent h source)
  | waitAny owner set now deadline =>
    refine wp_seq (armed_waitAny h owner set now deadline) ?_
    intro result w' ha
    by_cases hres : result = .pending <;> simpa [hres] using ha
  | cancelWait owner set => exact wp_bind.mpr (armed_cancelWait h owner set)
  | destroyEvent owner event =>
    refine wp_step (wp_destroyEvent h.sound owner event) ?_ fun _ _ hw => hw.1 ▸ h
    exact fun _ w' hg => h.eventGone hg.2
  | destroySet owner set =>
    refine wp_step (wp_destroySet h.sound owner set) ?_ fun _ _ hw => hw.1 ▸ h
    rintro - w' ⟨r, -, -, hg⟩
    exact h.setGone hg

namespace WaitSession

variable {s : WaitSession}

lemma armed_step (h : Armed s.world s.published) {call : EventCall} (hun : Unshared s.world call)
    (answers : List Bool) : Armed (s.step call answers).world (s.step call answers).published := by
  have h' : Armed { s.world with heap := answers } s.published :=
    h.alike ⟨rfl, rfl, rfl, rfl, fun hs => ⟨hs.events, hs.sets, hs.seed⟩⟩
  have hun' : Unshared { s.world with heap := answers } call := by
    cases call <;> exact hun
  have hwp := armed_run h' call hun'
  unfold step
  rcases hrun : call.run { s.world with heap := answers } with ⟨_ | _ | set, w'⟩
  · have herr := wp_error hwp hrun
    exact herr
  · have hok := wp_ok hwp hrun
    exact hok
  · have hok := wp_ok hwp hrun
    exact hok

lemma armed_of_reached {generation : UInt32} (h : Reached Unshared generation s) : Armed s.world s.published := by
  induction h with
  | start => exact Armed.start generation
  | step _ call answers hcall ih => exact armed_step ih hcall answers

/-- **No published wait is missed** in a session that never adds an event bound to a device to a second set: a set with
a published wait and a ready member has been woken since the wait was published, and `wait_any` reports `Pending` or
`Timeout` only when no member is ready. -/
theorem no_published_wait_is_missed {generation : UInt32} {s : WaitSession} (h : Reached Unshared generation s) :
    s.NoMissedWait := by
  have ha := armed_of_reached h
  refine ⟨ha.woken, fun owner set now deadline result w' hrun hres r hr e he => ?_⟩
  obtain ⟨r', hr', -, -, hwaited⟩ := wp_ok (wp_waitAny ha.sound owner set now deadline) hrun
  rw [hr] at hr'
  cases hr'
  cases hwaited with
  | ready => rcases hres with hres | hres <;> cases hres
  | idle _ hidle => exact hidle e he

/-- The session after a list of calls in which the allocator refuses nothing. -/
def runAll (s : WaitSession) (calls : List EventCall) : WaitSession := calls.foldl (fun s call => s.step call []) s

lemma reached_runAll {generation : UInt32} (h : Reached (fun _ _ => True) generation s) :
    ∀ calls : List EventCall, Reached (fun _ _ => True) generation (s.runAll calls) := by
  intro calls
  induction calls generalizing s with
  | nil => exact h
  | cons call calls ih => exact ih (h.step call [] trivial)

/-- Two sets of one service share the event of the network device; the first set waits, and the device fires. -/
def sharedRun : List EventCall :=
  let owner : ServiceHandle := ⟨2 ^ 32 + 4⟩
  let event : EventHandle := ⟨2 ^ 32⟩
  let first : EventSetHandle := ⟨2 ^ 32⟩
  let second : EventSetHandle := ⟨2 ^ 32 + 1⟩
  [.createHardwareEvent owner .network, .createSet owner, .createSet owner, .add owner first event,
    .add owner second event, .waitAny owner first 1 none, .signalHardwareEvent .network]

/-- The first set sleeps on although its member is ready: only the second set was woken. -/
theorem shared_hardware_event_misses_a_wait : ∃ s, Reached (fun _ _ => True) 1 s ∧ ¬ s.NoMissedWait := by
  refine ⟨_, reached_runAll .start sharedRun, fun h => ?_⟩
  have hset : ((start 1).runAll sharedRun).world.set? ⟨2 ^ 32⟩ =
      some ⟨⟨2 ^ 32 + 4⟩, [⟨2 ^ 32⟩], true, false⟩ := by decide +kernel
  have hready : ((start 1).runAll sharedRun).world.hardwareEventIsPending ⟨2 ^ 32⟩ = true := by decide +kernel
  have hwoken : (⟨2 ^ 32⟩ : EventSetHandle) ∉
      ((start 1).runAll sharedRun).world.wakes.drop (((start 1).runAll sharedRun).published ⟨2 ^ 32⟩) := by
    decide +kernel
  exact hwoken (h.woken _ _ _ hset rfl (by simp) (.inr hready))

/-- The same calls without the second membership are a session in which the wait is woken. -/
theorem no_published_wait_is_missed_with_one_set :
    ∃ s, Reached Unshared 1 s ∧ s.NoMissedWait ∧ s.WokenSince ⟨2 ^ 32⟩ := by
  let owner : ServiceHandle := ⟨2 ^ 32 + 4⟩
  have h0 : Reached Unshared 1 (start 1) := .start
  have h1 := h0.step (.createHardwareEvent owner .network) [] trivial
  have h2 := h1.step (.createSet owner) [] trivial
  have h3 := h2.step (.add owner ⟨2 ^ 32⟩ ⟨2 ^ 32⟩) [] (by
    intro _ set r hr hmem
    have hvalues : (((start 1).step (.createHardwareEvent owner .network) []).step (.createSet owner) []).world.registry.sets.values
        = [⟨owner, [], false, false⟩] := by decide +kernel
    have hval := SlotTable.mem_values_iff.mpr ⟨_, _, hr⟩
    rw [hvalues, List.mem_singleton] at hval
    rw [hval] at hmem
    cases hmem)
  have h4 := h3.step (.waitAny owner ⟨2 ^ 32⟩ 1 none) [] trivial
  have h5 := h4.step (.signalHardwareEvent .network) [] trivial
  exact ⟨_, h5, no_published_wait_is_missed h5, by unfold WokenSince; decide +kernel⟩

end WaitSession

end LogOS.Kernel
