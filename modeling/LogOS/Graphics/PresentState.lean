import LogOS.Lib.SequenceLock
import LogOS.Graphics.Rect

/-!
# The present state between Display and the GPU

`FramebufferPresentState` of the ABI: Display publishes the rectangles of a frame and the cursor, each under a sequence
number of its own, and the kernel takes snapshots of them.  Every atomic load, store and `fetch_add` is one step.

The sequence number is advanced after the payload is stored, so a snapshot that is taken while a publication is under way may
see the old sequence number twice with part of the new payload in between.  Otherwise a snapshot is what was published.
-/

namespace LogOS.Graphics

open Lib.Interleaving Lib.SequenceLock List

/-! ## Packed rectangles and positions -/

/-- `FramebufferPresentRect::store`, the word of the position. -/
def packPosition (rect : GuiRect) : UInt64 := rect.x.toUInt32.toUInt64 ||| (rect.y.toUInt32.toUInt64 <<< 32)

/-- `FramebufferPresentRect::store`, the word of the size. -/
def packSize (rect : GuiRect) : UInt64 := rect.width.toUInt64 ||| (rect.height.toUInt64 <<< 32)

/-- `FramebufferPresentRect::load`. -/
def unpackRect (position size : UInt64) : GuiRect where
  x := position.toUInt32.toInt32
  y := (position >>> 32).toUInt32.toInt32
  width := size.toUInt32
  height := (size >>> 32).toUInt32

lemma low_of_packed (low high : UInt32) : (low.toUInt64 ||| (high.toUInt64 <<< 32)).toUInt32 = low := by
  apply UInt32.toBitVec_inj.mp
  simp

lemma high_of_packed (low high : UInt32) : ((low.toUInt64 ||| (high.toUInt64 <<< 32)) >>> 32).toUInt32 = high := by
  apply UInt32.toBitVec_inj.mp
  ext i hi
  have hlow : 32 + i < 64 := by omega
  simp [hlow, BitVec.getLsbD_eq_getElem hi]

lemma unpackRect_pack (rect : GuiRect) : unpackRect (packPosition rect) (packSize rect) = rect := by
  simp only [unpackRect, packPosition, packSize, low_of_packed, high_of_packed, Int32.toInt32_toUInt32]

def packCursor (x y : Int16) : UInt32 := x.toUInt16.toUInt32 ||| (y.toUInt16.toUInt32 <<< 16)

def cursorX (position : UInt32) : Int16 := position.toUInt16.toInt16

def cursorY (position : UInt32) : Int16 := (position >>> 16).toUInt16.toInt16

lemma cursorX_pack (x y : Int16) : cursorX (packCursor x y) = x := by
  have hlow : (packCursor x y).toUInt16 = x.toUInt16 := by
    apply UInt16.toBitVec_inj.mp
    simp [packCursor]
  rw [cursorX, hlow, Int16.toInt16_toUInt16]

lemma cursorY_pack (x y : Int16) : cursorY (packCursor x y) = y := by
  have hhigh : (packCursor x y >>> 16).toUInt16 = y.toUInt16 := by
    apply UInt16.toBitVec_inj.mp
    ext i hi
    have hlow : 16 + i < 32 := by omega
    simp [packCursor, hlow, BitVec.getLsbD_eq_getElem hi]
  rw [cursorY, hhigh, Int16.toInt16_toUInt16]

/-! ## Registers -/

def maxPresentRects : ℕ := 8

inductive Channel where
  | frame
  | cursor
  deriving DecidableEq

/-- The fields of `FramebufferPresentState` beside the sequence numbers. -/
inductive Cell where
  | full
  | count
  | position (index : Fin maxPresentRects)
  | size (index : Fin maxPresentRects)
  | cursorPosition
  | cursorVisible
  | cursorPressed
  deriving DecidableEq

abbrev CellVal : Cell → Type
  | .full => Bool
  | .count => UInt32
  | .position _ => UInt64
  | .size _ => UInt64
  | .cursorPosition => UInt32
  | .cursorVisible => Bool
  | .cursorPressed => Bool

instance : ∀ a, DecidableEq (CellVal a)
  | .full => inferInstanceAs (DecidableEq Bool)
  | .count => inferInstanceAs (DecidableEq UInt32)
  | .position _ => inferInstanceAs (DecidableEq UInt64)
  | .size _ => inferInstanceAs (DecidableEq UInt64)
  | .cursorPosition => inferInstanceAs (DecidableEq UInt32)
  | .cursorVisible => inferInstanceAs (DecidableEq Bool)
  | .cursorPressed => inferInstanceAs (DecidableEq Bool)

def Cell.channel : Cell → Channel
  | .full => .frame
  | .count => .frame
  | .position _ => .frame
  | .size _ => .frame
  | .cursorPosition => .cursor
  | .cursorVisible => .cursor
  | .cursorPressed => .cursor

/-- `FramebufferPresentState::new`. -/
def newCells : ∀ a, CellVal a
  | .full => false
  | .count => 0
  | .position _ => 0
  | .size _ => 0
  | .cursorPosition => 0
  | .cursorVisible => false
  | .cursorPressed => false

/-! ## Publications -/

inductive Publication where
  | publish (full : Bool) (rects : List GuiRect)
  | publishCursor (visible : Bool) (x y : Int16) (pressed : Bool)
  deriving DecidableEq

def Publication.channel : Publication → Channel
  | .publish _ _ => .frame
  | .publishCursor _ _ _ _ => .cursor

/-- The stores of `FramebufferPresentRect::store`. -/
def storeRect (index : Fin maxPresentRects) (rect : GuiRect) : List ((a : Cell) × CellVal a) :=
  [⟨.position index, packPosition rect⟩, ⟨.size index, packSize rect⟩]

/-- The stores of the loop over `rects`. -/
def storeRects (rects : List GuiRect) : List ((a : Cell) × CellVal a) :=
  (List.finRange maxPresentRects).flatMap fun index => (rects[index.val]?).toList.flatMap (storeRect index)

/-- A frame with more rectangles than there is room for is published as a full one. -/
def publishFull (full : Bool) (rects : List GuiRect) : Bool := full || decide (maxPresentRects < rects.length)

def publishCount (full : Bool) (rects : List GuiRect) : ℕ := if publishFull full rects then 0 else rects.length

/-- What `publish` and `publish_cursor` store before they advance the sequence number. -/
def Publication.stores : Publication → List ((a : Cell) × CellVal a)
  | .publish full rects => storeRects (rects.take (publishCount full rects)) ++
      [⟨.full, publishFull full rects⟩, ⟨.count, UInt32.ofNat (publishCount full rects)⟩]
  | .publishCursor visible x y pressed =>
      [⟨.cursorPosition, packCursor x y⟩, ⟨.cursorVisible, visible⟩, ⟨.cursorPressed, pressed⟩]

/-! ## Snapshots -/

inductive Snapshot where
  | snapshot
  | cursorSnapshot
  deriving DecidableEq

def Snapshot.channel : Snapshot → Channel
  | .snapshot => .frame
  | .cursorSnapshot => .cursor

/-- What a snapshot returns beside the sequence number. -/
inductive Taken where
  | frame (full : Bool) (rects : List GuiRect)
  | cursor (visible : Bool) (x y : Int16) (pressed : Bool)
  deriving DecidableEq

/-- The loop that loads the rectangles with the given indices. -/
def loadRects : List (Fin maxPresentRects) → (List GuiRect → Query CellVal Taken) → Query CellVal Taken
  | [], next => next []
  | index :: rest, next => .load (.position index) fun position => .load (.size index) fun size =>
      loadRects rest fun rects => next (unpackRect position size :: rects)

def emptyRects (count : ℕ) : List GuiRect := List.replicate count .empty

def Snapshot.query : Snapshot → Query CellVal Taken
  | .snapshot => .load .full fun full => .load .count fun count =>
      let count := min count.toNat maxPresentRects
      if full then .done (.frame full (emptyRects maxPresentRects))
      else loadRects ((List.finRange maxPresentRects).take count) fun rects =>
        .done (.frame full (rects ++ emptyRects (maxPresentRects - count)))
  | .cursorSnapshot => .load .cursorPosition fun position => .load .cursorVisible fun visible =>
      .load .cursorPressed fun pressed => .done (.cursor visible (cursorX position) (cursorY position) pressed)

/-- What is returned when four attempts failed. -/
def Snapshot.fallback : Snapshot → Taken
  | .snapshot => .frame true (emptyRects maxPresentRects)
  | .cursorSnapshot => .cursor false 0 0 false

/-! ## The protocol -/

lemma mem_storeRects {rects : List GuiRect} {e : (a : Cell) × CellVal a} :
    e ∈ storeRects rects ↔ ∃ index rect, rects[index.val]? = some rect ∧ e ∈ storeRect index rect := by
  simp [storeRects]

lemma nodup_storeRects (rects : List GuiRect) : ((storeRects rects).map Sigma.fst).Nodup := by
  unfold storeRects
  rw [map_flatMap, nodup_flatMap]
  constructor
  · intro index _
    cases rects[index.val]? <;> simp [storeRect]
  · refine (nodup_finRange maxPresentRects).imp fun {i j} hij => ?_
    intro a hi hj
    cases hri : rects[i.val]? <;> cases hrj : rects[j.val]? <;> simp [hri, hrj, storeRect] at hi hj
    rcases hi with rfl | rfl <;> simp [hij] at hj

lemma Publication.channel_of_mem_stores (w : Publication) : ∀ e ∈ w.stores, e.1.channel = w.channel := by
  cases w with
  | publish full rects =>
    intro e he
    rcases mem_append.mp he with he | he
    · obtain ⟨index, rect, -, he⟩ := mem_storeRects.mp he
      simp only [storeRect, mem_cons, not_mem_nil, or_false] at he
      rcases he with rfl | rfl <;> rfl
    · simp only [mem_cons, not_mem_nil, or_false] at he
      rcases he with rfl | rfl <;> rfl
  | publishCursor visible x y pressed => simp [stores, Cell.channel, channel]

lemma Publication.nodup_stores (w : Publication) : (w.stores.map Sigma.fst).Nodup := by
  cases w with
  | publish full rects =>
    rw [stores, map_append, nodup_append]
    refine ⟨nodup_storeRects _, by simp, ?_⟩
    intro a ha b hb
    obtain ⟨e, he, rfl⟩ := mem_map.mp ha
    obtain ⟨index, rect, -, he⟩ := mem_storeRects.mp he
    simp only [storeRect, mem_cons, not_mem_nil, or_false] at he
    simp only [map_cons, map_nil, mem_cons, not_mem_nil, or_false] at hb
    rcases he with rfl | rfl <;> rcases hb with rfl | rfl <;> exact nofun
  | publishCursor visible x y pressed => simp [stores]

lemma within_loadRects {next : List GuiRect → Query CellVal Taken}
    (hnext : ∀ rects, (next rects).Within fun a => a.channel = .frame) (indices : List (Fin maxPresentRects)) :
    (loadRects indices next).Within fun a => a.channel = .frame := by
  induction indices generalizing next with
  | nil => exact hnext []
  | cons index rest ih => exact ⟨rfl, fun _ => ⟨rfl, fun _ => ih fun _ => hnext _⟩⟩

lemma Snapshot.query_within (r : Snapshot) : r.query.Within fun a => a.channel = r.channel := by
  cases r with
  | snapshot =>
    refine ⟨rfl, fun full => ⟨rfl, fun count => ?_⟩⟩
    split
    · trivial
    · refine within_loadRects (fun rects => ?_) _
      trivial
  | cursorSnapshot => exact ⟨rfl, fun _ => ⟨rfl, fun _ => ⟨rfl, fun _ => trivial⟩⟩⟩

/-- One publisher that runs `publish` and `publish_cursor`, and one reader that runs `snapshot` and `cursor_snapshot`. -/
def presentState : Protocol Channel Cell CellVal Publication Snapshot Taken where
  channel := Cell.channel
  writes := Publication.channel
  stores := Publication.stores
  reads := Snapshot.channel
  query := Snapshot.query
  fallback := Snapshot.fallback
  tries := 4
  stores_channel := Publication.channel_of_mem_stores
  stores_nodup := Publication.nodup_stores
  query_within := Snapshot.query_within

/-! ## What a snapshot returns -/

lemma eval_loadRects (m : ∀ a, CellVal a) (next : List GuiRect → Query CellVal Taken) (indices : List (Fin maxPresentRects)) :
    (loadRects indices next).eval m =
      (next (indices.map fun index => unpackRect (m (.position index)) (m (.size index)))).eval m := by
  induction indices generalizing next with
  | nil => rfl
  | cons index rest ih => simp [loadRects, Query.eval, ih]

/-- The cells of a publication that is not full hold its rectangles. -/
theorem map_loadRects {m : ∀ a, CellVal a} {rects : List GuiRect} (hlen : rects.length ≤ maxPresentRects)
    (hm : ∀ e ∈ storeRects rects, m e.1 = e.2) :
    ((finRange maxPresentRects).take rects.length).map (fun index => unpackRect (m (.position index)) (m (.size index))) =
      rects := by
  refine ext_getElem (by simpa using hlen) fun i hi hi' => ?_
  have hrect : rects[i]? = some rects[i] := getElem?_eq_getElem hi'
  have hindex : i < maxPresentRects := lt_of_lt_of_le hi' hlen
  have hpos := hm ⟨.position ⟨i, hindex⟩, packPosition rects[i]⟩
    (mem_storeRects.mpr ⟨⟨i, hindex⟩, rects[i], hrect, mem_cons_self⟩)
  have hsize := hm ⟨.size ⟨i, hindex⟩, packSize rects[i]⟩
    (mem_storeRects.mpr ⟨⟨i, hindex⟩, rects[i], hrect, mem_cons_of_mem _ mem_cons_self⟩)
  have hi'' : i < ((finRange maxPresentRects).take rects.length).length := by simpa using hi
  have hfin : ((finRange maxPresentRects).take rects.length)[i] = ⟨i, hindex⟩ := by simp
  rw [getElem_map, hfin, hpos, hsize, unpackRect_pack]

/-- A snapshot of the cells of one publication. -/
theorem eval_snapshot {m : ∀ a, CellVal a} {full : Bool} {rects : List GuiRect}
    (hm : ∀ e ∈ (Publication.publish full rects).stores, m e.1 = e.2) {taken : List GuiRect}
    (h : Snapshot.snapshot.query.eval m = .frame false taken) :
    full = false ∧ rects.length ≤ maxPresentRects ∧ taken = rects ++ emptyRects (maxPresentRects - rects.length) := by
  have hfull : m .full = publishFull full rects := hm ⟨.full, _⟩ (mem_append_right _ mem_cons_self)
  have hcount : m .count = UInt32.ofNat (publishCount full rects) :=
    hm ⟨.count, _⟩ (mem_append_right _ (mem_cons_of_mem _ mem_cons_self))
  simp only [Snapshot.query, Query.eval, hfull, hcount] at h
  cases hpub : publishFull full rects with
  | true => simp [hpub, Query.eval] at h
  | false =>
    have hsmall : full = false ∧ rects.length ≤ maxPresentRects := by simpa [publishFull] using hpub
    have hn : publishCount full rects = rects.length := by simp [publishCount, hpub]
    have hrects : ∀ e ∈ storeRects rects, m e.1 = e.2 := by
      intro e he
      refine hm e (mem_append_left _ ?_)
      rwa [hn, take_length]
    have hbound : rects.length < 2 ^ 32 := lt_of_le_of_lt hsmall.2 (by decide)
    have hmin : min (UInt32.ofNat rects.length).toNat maxPresentRects = rects.length := by
      rw [UInt32.toNat_ofNat', Nat.mod_eq_of_lt hbound]
      exact Nat.min_eq_left hsmall.2
    simp only [hpub, hn, hmin, Bool.false_eq_true, if_false, eval_loadRects, map_loadRects hsmall.2 hrects, Query.eval,
      Taken.frame.injEq, true_and] at h
    exact ⟨hsmall.1, hsmall.2, h.symm⟩

lemma eval_cursorSnapshot {m : ∀ a, CellVal a} {visible pressed : Bool} {x y : Int16}
    (hm : ∀ e ∈ (Publication.publishCursor visible x y pressed).stores, m e.1 = e.2) :
    Snapshot.cursorSnapshot.query.eval m = .cursor visible x y pressed := by
  have hposition : m .cursorPosition = packCursor x y := hm ⟨.cursorPosition, _⟩ mem_cons_self
  have hvisible : m .cursorVisible = visible := hm ⟨.cursorVisible, _⟩ (mem_cons_of_mem _ mem_cons_self)
  have hpressed : m .cursorPressed = pressed :=
    hm ⟨.cursorPressed, _⟩ (mem_cons_of_mem _ (mem_cons_of_mem _ mem_cons_self))
  simp [Snapshot.query, Query.eval, hposition, hvisible, hpressed, cursorX_pack, cursorY_pack]

/-- A run of the publisher and the reader. -/
abbrev PresentRun : Type :=
  System Party (Reg Channel Cell) (Val CellVal) Empty (Call Publication Snapshot) (Option (UInt32 × Taken))

/-- The snapshots of a log are what was published: the one with the sequence number `s` has the rectangles, and the position
and the state of the button, that were passed to the `s`-th publication on its channel. -/
structure Exact (log : List (LogEntry Channel CellVal Publication Snapshot Taken)) : Prop where
  frame : ∀ s rects, .returned .reader (.read .snapshot) (some (s, .frame false rects)) ∈ log →
    (s = 0 ∧ rects = emptyRects maxPresentRects) ∨
    ∃ passed, 0 < s.toNat ∧
      (presentState.begun .frame log)[s.toNat - 1]? = some (.publish false passed) ∧
      passed.length ≤ maxPresentRects ∧ rects = passed ++ emptyRects (maxPresentRects - passed.length)
  cursor : ∀ s x y pressed, .returned .reader (.read .cursorSnapshot) (some (s, .cursor true x y pressed)) ∈ log →
    0 < s.toNat ∧ (presentState.begun .cursor log)[s.toNat - 1]? = some (.publishCursor true x y pressed)

lemma eval_snapshot_new {m : ∀ a, CellVal a} (hm : ∀ a, Cell.channel a = .frame → m a = newCells a) :
    Snapshot.snapshot.query.eval m = .frame false (emptyRects maxPresentRects) := by
  simp only [Snapshot.query, Query.eval, hm .full rfl, hm .count rfl]
  rfl

lemma eval_cursorSnapshot_new {m : ∀ a, CellVal a} (hm : ∀ a, Cell.channel a = .cursor → m a = newCells a) :
    Snapshot.cursorSnapshot.query.eval m = .cursor false 0 0 false := by
  simp only [Snapshot.query, Query.eval, hm .cursorPosition rfl, hm .cursorVisible rfl, hm .cursorPressed rfl]
  rfl

/-- A snapshot was taken of the new state, or of the publication that its sequence number names. -/
theorem holding_take {ch : Channel} {ws : List Publication} {n : ℕ} {m : ∀ a, CellVal a} (hn : n ≤ ws.length)
    (h : presentState.Holding newCells ch (ws.take n) m) :
    (n = 0 ∧ ∀ a, Cell.channel a = ch → m a = newCells a) ∨
    ∃ w, 0 < n ∧ ws[n - 1]? = some w ∧ ∀ e ∈ w.stores, m e.1 = e.2 := by
  unfold Protocol.Holding at h
  rcases Nat.eq_zero_or_pos n with rfl | hpos
  · exact .inl ⟨rfl, h⟩
  · have hlast : (ws.take n).getLast? = ws[n - 1]? := by
      rw [getLast?_eq_getElem?, length_take, Nat.min_eq_left hn, getElem?_take_of_lt (by omega)]
    obtain ⟨w, hw⟩ : ∃ w, ws[n - 1]? = some w := ⟨_, getElem?_eq_getElem (by omega)⟩
    rw [hlast, hw] at h
    exact .inr ⟨w, hpos, hw, h⟩

/-- **Snapshots are not torn** in the runs in which no snapshot makes its second load of the sequence number while a
publication on the same channel is under way. -/
theorem snapshots_exact {run : PresentRun}
    (h : Reached presentState.code presentState.whenIdle (start newCells) run) : Exact run.shared.log where
  frame := fun s rects hmem => by
    rcases Protocol.answer_of_reached h hmem with hfall | ⟨hle, m, hm, hout⟩
    · cases hfall
    rcases holding_take hle hm with ⟨hs, hnew⟩ | ⟨w, hpos, hw, hstores⟩
    · rw [show presentState.query .snapshot = Snapshot.snapshot.query from rfl, eval_snapshot_new hnew] at hout
      cases hout
      exact .inl ⟨UInt32.toNat_inj.mp hs, rfl⟩
    have hch : w.channel = .frame := Protocol.writes_of_mem_begun (List.mem_of_getElem? hw)
    cases w with
    | publishCursor visible x y pressed => cases hch
    | publish full passed =>
      obtain ⟨rfl, hlen, hrects⟩ := eval_snapshot hstores hout.symm
      exact .inr ⟨passed, hpos, hw, hlen, hrects⟩
  cursor := fun s x y pressed hmem => by
    rcases Protocol.answer_of_reached h hmem with hfall | ⟨hle, m, hm, hout⟩
    · cases hfall
    rcases holding_take hle hm with ⟨hs, hnew⟩ | ⟨w, hpos, hw, hstores⟩
    · rw [show presentState.query .cursorSnapshot = Snapshot.cursorSnapshot.query from rfl,
        eval_cursorSnapshot_new hnew] at hout
      cases hout
    have hch : w.channel = .cursor := Protocol.writes_of_mem_begun (List.mem_of_getElem? hw)
    cases w with
    | publish full passed => cases hch
    | publishCursor visible x' y' pressed' =>
      rw [show presentState.query .cursorSnapshot = Snapshot.cursorSnapshot.query from rfl,
        eval_cursorSnapshot hstores] at hout
      cases hout
      exact ⟨hpos, hw⟩

/-! ## Two runs -/

instance (s : State Channel CellVal Publication Snapshot Taken) (t : Party) (c : Call Publication Snapshot) :
    Decidable (presentState.whenIdle.mayCall s t c) := inferInstanceAs (Decidable (presentState.MayCall s t c))

instance (s : State Channel CellVal Publication Snapshot Taken) (t : Party) (c : Call Publication Snapshot)
    (a : Action (Reg Channel Cell) (Val CellVal)) :
    Decidable (presentState.whenIdle.mayAct s t c a) := inferInstanceAs (Decidable (presentState.MayAct s t a))

instance (s : State Channel CellVal Publication Snapshot Taken) (t : Party) (c : Call Publication Snapshot) :
    Decidable (presentState.anyTime.mayCall s t c) := inferInstanceAs (Decidable (presentState.MayCall s t c))

instance (s : State Channel CellVal Publication Snapshot Taken) (t : Party) (c : Call Publication Snapshot)
    (a : Action (Reg Channel Cell) (Val CellVal)) : Decidable (presentState.anyTime.mayAct s t c a) := instDecidableTrue

def runOf (moves : List (Move Party (Call Publication Snapshot))) : PresentRun :=
  moves.foldl (System.step presentState.code) (.start (start newCells))

/-- The last snapshot that was taken. -/
def lastTaken : List (LogEntry Channel CellVal Publication Snapshot Taken) → Option (Snapshot × UInt32 × Taken)
  | [] => none
  | .returned .reader (.read r) (some reply) :: _ => some (r, reply)
  | _ :: log => lastTaken log

lemma mem_of_lastTaken {log : List (LogEntry Channel CellVal Publication Snapshot Taken)} {r : Snapshot}
    {reply : UInt32 × Taken} (h : lastTaken log = some (r, reply)) : .returned .reader (.read r) (some reply) ∈ log := by
  fun_induction lastTaken log with
  | case1 => cases h
  | case2 r' reply' log =>
    cases h
    exact mem_cons_self
  | case3 e log _ ih => exact mem_cons_of_mem _ (ih h)

/-- A rectangle is published and read. -/
def quietSchedule : List (Move Party (Call Publication Snapshot)) :=
  .call .writer (.write (.publish false [⟨0, 0, 1, 1⟩])) :: List.replicate 6 (.run .writer) ++
    .call .reader (.read .snapshot) :: List.replicate 7 (.run .reader)

theorem snapshots_exact_quiet :
    lastTaken (runOf quietSchedule).shared.log = some (.snapshot, 1, .frame false (⟨0, 0, 1, 1⟩ :: emptyRects 7)) ∧
      Exact (runOf quietSchedule).shared.log :=
  ⟨by decide +kernel, snapshots_exact (Reached.schedule quietSchedule .start (by decide +kernel))⟩

/-- A second rectangle is published, and read after the first of its two words was stored. -/
def tornSchedule : List (Move Party (Call Publication Snapshot)) :=
  .call .writer (.write (.publish false [⟨0, 0, 1, 1⟩])) :: List.replicate 6 (.run .writer) ++
    [.call .writer (.write (.publish false [⟨7, 0, 2, 2⟩])), .run .writer] ++
    .call .reader (.read .snapshot) :: List.replicate 7 (.run .reader)

/-- The snapshot has the position of the second rectangle, the size of the first and the sequence number of the first. -/
theorem torn_snapshot : Reached presentState.code presentState.anyTime (start newCells) (runOf tornSchedule) ∧
      lastTaken (runOf tornSchedule).shared.log = some (.snapshot, 1, .frame false (⟨7, 0, 1, 1⟩ :: emptyRects 7)) ∧
      ¬ Exact (runOf tornSchedule).shared.log := by
  have htaken : lastTaken (runOf tornSchedule).shared.log =
      some (.snapshot, 1, .frame false (⟨7, 0, 1, 1⟩ :: emptyRects 7)) := by decide +kernel
  have hfirst : (presentState.begun .frame (runOf tornSchedule).shared.log)[0]? =
      some (.publish false [⟨0, 0, 1, 1⟩]) := by decide +kernel
  refine ⟨Reached.schedule tornSchedule .start (by decide +kernel), htaken, fun hexact => ?_⟩
  rcases hexact.frame 1 _ (mem_of_lastTaken htaken) with ⟨h, -⟩ | ⟨passed, -, hpassed, -, hrects⟩
  · exact absurd h (by decide)
  · obtain rfl : [⟨0, 0, 1, 1⟩] = passed := by
      have hsome := hfirst.symm.trans hpassed
      cases hsome
      rfl
    exact absurd hrects (by decide)

end LogOS.Graphics
