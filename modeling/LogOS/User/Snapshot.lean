import LogOS.User.Catalog

/-!
# The snapshot of the user catalog

The catalog as bytes: a header, the slots of the users and of the roles, each of a fixed size, and the settings of Atrium at the
end.  A snapshot is read back record by record and then checked as a whole.  The length of a name is read from the snapshot and
used to cut the name out of its field before anything checks it, so a length that is too large makes the reader panic; where the
lengths are in range, every snapshot is either refused or gives a catalog that is in order.
-/

namespace LogOS.User

open Lib Op Slots UserCatalog List

def userSnapshotBytes : ℕ := 12 * 1024
def snapshotMagic : List UInt8 := "LOGUSR01".toUTF8.data.toList
def snapshotVersion : ℕ := 1
def encodedUserBytes : ℕ := 212
def encodedRoleBytes : ℕ := 158

/-! ## Writing -/

def boolByte (b : Bool) : UInt8 := if b then 1 else 0

/-- A name in its field of 32 bytes. -/
def nameField (room : ℕ) (name : List UInt8) : List UInt8 := name ++ List.replicate (room - name.length) 0

def encodeUser (user : UserRecord) : List UInt8 :=
  leBytes 8 user.id.value ++ leBytes 4 user.id.generation ++ [UInt8.ofNat user.name.bytes.length] ++
    nameField userMaxUserNameBytes user.name.bytes ++ [UInt8.ofNat user.verifier.version] ++ user.verifier.salt.toList ++
    user.verifier.output.toList ++ leBytes 8 user.home.object ++ leBytes 4 user.home.generation ++
    [UInt8.ofNat user.roleCount] ++ [boolByte user.admin] ++
    (user.roles.toList.flatMap fun role => leBytes 8 role.value ++ leBytes 4 role.generation) ++ leBytes 8 user.nextLineage

def encodeTemplate (template : Option CapabilityTemplate) : List UInt8 :=
  let body := template.getD ⟨.empty, .none⟩
  [boolByte template.isSome] ++ leBytes 8 body.root.object ++ leBytes 4 body.root.generation ++ [body.rights.bits]

def encodeRole (role : RoleRecord) : List UInt8 :=
  leBytes 8 role.id.value ++ leBytes 4 role.id.generation ++ [UInt8.ofNat role.name.bytes.length] ++
    nameField userMaxRoleNameBytes role.name.bytes ++ [UInt8.ofNat role.templateCount] ++
    role.templates.entries.flatMap encodeTemplate

/-- A slot of `size` bytes behind the byte that says whether it is taken. -/
def encodeSlot {α : Type} (size : ℕ) (encode : α → List UInt8) (slot : Option α) : List UInt8 :=
  match slot with
  | some a => 1 :: encode a
  | none => 0 :: List.replicate size 0

def UserCatalog.encodeSnapshot (c : UserCatalog) : List UInt8 :=
  snapshotMagic ++ leBytes 2 snapshotVersion ++ [boolByte c.claimed] ++ List.replicate 5 0 ++ leBytes 8 c.nextUser ++
    leBytes 8 c.nextRole ++ leBytes 8 c.nextLineage ++ c.users.entries.flatMap (encodeSlot encodedUserBytes encodeUser) ++
    c.roles.entries.flatMap (encodeSlot encodedRoleBytes encodeRole) ++ c.atriumSettings.toList

/-! ## Reading -/

/-- The end of a computation that does not return: an error of the source, or a panic. -/
inductive Fault where
  | error (error : UserError)
  | panic
  deriving DecidableEq, Repr

/-- A reader at an offset in the input. -/
abbrev Reader := Op ℕ Fault

def corrupt {α : Type} : Reader α := Op.fail (.error .corrupt)

def readBytes (input : List UInt8) (count : ℕ) : Reader (List UInt8) := do
  let offset ← Op.get
  if offset + count ≤ input.length then
    Op.modify fun offset => offset + count
    return slice input offset (offset + count)
  else corrupt

def readU8 (input : List UInt8) : Reader ℕ := do
  let offset ← Op.get
  match input[offset]? with
  | some byte =>
    Op.modify fun offset => offset + 1
    return byte.toNat
  | none => corrupt

def readLe (input : List UInt8) (width : ℕ) : Reader ℕ := do
  let bytes ← readBytes input width
  return leVal bytes

def readU32 (input : List UInt8) : Reader ℕ := readLe input 4
def readU64 (input : List UInt8) : Reader ℕ := readLe input 8

def readArray (input : List UInt8) (count : ℕ) : Reader (Bytes count) := do
  let bytes ← readBytes input count
  return (Bytes.zeros count).splice 0 bytes

/-- `&bytes[..len]`: a length past the end is a panic. -/
def cut (bytes : List UInt8) (len : ℕ) : Except Fault (List UInt8) :=
  if len ≤ bytes.length then .ok (bytes.take len) else .error .panic

def raised {α : Type} (x : Except UserError α) : Except Fault α :=
  match x with
  | .ok a => .ok a
  | .error e => .error (.error e)

def readRoleId (input : List UInt8) : Reader RoleId := do
  let value ← readU64 input
  let generation ← readU32 input
  if value = 0 ∧ generation = 0 then return RoleId.empty
  else Op.orFail (RoleId.new value generation) (.error .corrupt)

/-- `match read_u8()? { 0 => false, 1 => true, _ => Corrupt }`. -/
def readFlag (input : List UInt8) : Reader Bool := do
  let byte ← readU8 input
  if byte = 0 then return false
  else if byte = 1 then return true
  else corrupt

def decodeUser (input : List UInt8) : Reader UserRecord := do
  let value ← readU64 input
  let generation ← readU32 input
  let id ← Op.orFail (UserId.new value generation) (.error .corrupt)
  let nameLen ← readU8 input
  let nameBytes ← readArray input userMaxUserNameBytes
  let nameSlice ← Op.lift (cut nameBytes.toList nameLen)
  let name ← Op.lift (raised (UserName.parse nameSlice))
  let version ← readU8 input
  let salt ← readArray input userArgon2SaltBytes
  let output ← readArray input userArgon2OutputBytes
  let object ← readU64 input
  let homeGeneration ← readU32 input
  let home ← Op.orFail (NamespaceRoot.new object homeGeneration) (.error .corrupt)
  let roleCount ← readU8 input
  Op.guard (decide (roleCount ≤ maxRoleGrants)) (.error .corrupt)
  let admin ← readFlag input
  let roles ← Op.times (readRoleId input) maxRoleGrants
  let nextLineage ← readU64 input
  Op.guard (nextLineage != 0) (.error .corrupt)
  return ⟨id, name, ⟨version, salt, output⟩, home, roles, roleCount, nextLineage, admin⟩

def readTemplate (input : List UInt8) : Reader (Option CapabilityTemplate) := do
  let present ← readU8 input
  let object ← readU64 input
  let generation ← readU32 input
  let bits ← readU8 input
  let rights : NamespaceRights := ⟨UInt8.ofNat bits⟩
  if present > 1 ∨
      (present = 1 ∧ (rights.isValid = false ∨ (object ≠ 0 ∧ generation = 0) ∨ (object = 0 ∧ generation ≠ 0))) ∨
      (present = 0 ∧ (rights ≠ .none ∨ object ≠ 0 ∨ generation ≠ 0)) then corrupt
  else if present = 1 then
    if object = 0 then return some ⟨.empty, rights⟩
    else
      let root ← Op.orFail (NamespaceRoot.new object generation) (.error .corrupt)
      return some ⟨root, rights⟩
  else return none

def decodeRole (input : List UInt8) : Reader RoleRecord := do
  let value ← readU64 input
  let generation ← readU32 input
  let id ← Op.orFail (RoleId.new value generation) (.error .corrupt)
  let nameLen ← readU8 input
  let nameBytes ← readArray input userMaxRoleNameBytes
  let nameSlice ← Op.lift (cut nameBytes.toList nameLen)
  let name ← Op.lift (raised (RoleName.parse nameSlice))
  let templateCount ← readU8 input
  Op.guard (decide (templateCount ≤ maxRoleTemplates)) (.error .corrupt)
  let templates ← Op.times (readTemplate input) maxRoleTemplates
  return ⟨id, name, ⟨templates.toList, templates.length_toList⟩, templateCount⟩

/-- One slot of the snapshot; the record of an empty slot is skipped unread. -/
def readSlot {α : Type} (input : List UInt8) (size : ℕ) (decode : Reader α) : Reader (Option α) := do
  let present ← readU8 input
  if present > 1 then corrupt
  else if present = 1 then
    let record ← decode
    return some record
  else
    Op.modify fun offset => offset + size
    return none

def readSlots {α : Type} (input : List UInt8) (size : ℕ) (decode : Reader α) (count : ℕ) : Reader (Slots count α) := do
  let slots ← Op.times (readSlot input size decode) count
  return ⟨slots.toList, slots.length_toList⟩

/-! ## The check of the whole catalog -/

namespace UserCatalog

variable (c : UserCatalog)

def userIsValid (slot : ℕ) (user : UserRecord) : Bool :=
  decide (user.id.value < c.nextUser) && user.verifier.version == argon2Version && decide (user.roleCount ≤ maxRoleGrants) &&
    user.nextLineage != 0 &&
    !((c.users.entries.take slot).reduceOption.any fun other => decide (other.id = user.id) || decide (other.name = user.name)) &&
    user.roles.toList.zipIdx.all fun entry =>
      if entry.2 < user.roleCount then
        entry.1.isValid && c.roles.values.any fun record => record.id = entry.1
      else !entry.1.isValid

def templateIsValid (template : CapabilityTemplate) : Bool :=
  template.rights.isValid && (decide (template.root = .empty) || template.root.isValid)

def roleIsValid (slot : ℕ) (role : RoleRecord) : Bool :=
  decide (role.id.value < c.nextRole) && decide (role.templateCount ≤ maxRoleTemplates) &&
    !((c.roles.entries.take slot).reduceOption.any fun other => decide (other.id = role.id) || decide (other.name = role.name)) &&
    role.templates.entries.zipIdx.all fun entry =>
      if entry.2 < role.templateCount then entry.1.any templateIsValid else entry.1.isNone

def snapshotIsValid : Bool :=
  (c.users.entries.zipIdx.all fun entry => entry.1.all (c.userIsValid entry.2)) &&
    c.claimed == !c.users.values.isEmpty &&
    c.roles.entries.zipIdx.all fun entry => entry.1.all (c.roleIsValid entry.2)

end UserCatalog

/-- The records of a snapshot. -/
def readRecords (input : List UInt8) : Reader (Slots maxUsers UserRecord × Slots maxRoles RoleRecord) := do
  let users ← readSlots input encodedUserBytes (decodeUser input) maxUsers
  let roles ← readSlots input encodedRoleBytes (decodeRole input) maxRoles
  return (users, roles)

/-- The catalog that a snapshot describes, without sessions and settings, and the offset behind its last role. -/
def decodeSnapshot (input : List UInt8) : Except Fault (UserCatalog × ℕ) :=
  if input.length < 40 ∨ input.take 8 ≠ snapshotMagic then .error (.error .corrupt)
  else if getLe input 8 2 ≠ snapshotVersion then .error (.error .corrupt)
  else
    let nextUser := getLe input 16 8
    let nextRole := getLe input 24 8
    let nextLineage := getLe input 32 8
    if nextUser = 0 ∨ nextRole = 0 ∨ nextLineage = 0 then .error (.error .corrupt)
    else
      match readRecords input 40 with
      | (.error fault, _) => .error fault
      | (.ok (users, roles), offset) =>
        let restored : UserCatalog :=
          { UserCatalog.new with claimed := input.getD 10 0 != 0, nextUser, nextRole, nextLineage, users, roles }
        if restored.snapshotIsValid then .ok (restored, offset) else .error (.error .corrupt)

def restoreSnapshot (input : List UInt8) : Op UserCatalog Fault Unit := fun c =>
  match decodeSnapshot input with
  | .error fault => (.error fault, c)
  | .ok (restored, offset) =>
    let settings := slice input offset (offset + atriumSettingsRecordBytes)
    (.ok (),
      { c with
        claimed := restored.claimed, nextUser := restored.nextUser, nextRole := restored.nextRole,
        nextLineage := restored.nextLineage, users := restored.users, roles := restored.roles,
        atriumSettings :=
          if settings.length = atriumSettingsRecordBytes then (Bytes.zeros _).splice 0 settings else Bytes.zeros _,
        sessionGenerations := c.sessionGenerations.map fun generation => max ((generation + 1) % 2 ^ 32) 1,
        sessions := .empty _ _ })

/-! ## Readers that do not panic -/

/-- The reader goes from `o` to `o'` and returns something that satisfies `P`, or it fails without a panic. -/
structure Reads {α : Type} (m : Reader α) (o o' : ℕ) (P : α → Prop) : Prop where
  run : wp m (fun a s => P a ∧ s = o') (fun fault _ => fault ≠ .panic) o

section Reads

variable {α β : Type} {m : Reader α} {o o₁ o₂ : ℕ} {P : α → Prop} {R : β → Prop} {input : List UInt8}

lemma Reads.bind {f : α → Reader β} (hm : Reads m o o₁ P) (hf : ∀ a, P a → Reads (f a) o₁ o₂ R) :
    Reads (m >>= f) o o₂ R := by
  constructor
  refine wp_seq hm.run ?_
  rintro a s ⟨ha, rfl⟩
  exact (hf a ha).run

lemma Reads.of_error (h : Reads m o o₁ P) {fault : Fault} {s : ℕ} (hm : m o = (.error fault, s)) : fault ≠ .panic := by
  have herror := wp_error h.run hm
  exact herror

lemma Reads.of_ok (h : Reads m o o₁ P) {a : α} {s : ℕ} (hm : m o = (.ok a, s)) : P a := (wp_ok h.run hm).1

lemma Reads.to (h : Reads m o o₁ P) (ho : o₁ = o₂) : Reads m o o₂ P := ho ▸ h

lemma Reads.mono {P' : α → Prop} (h : Reads m o o₁ P) (hP : ∀ a, P a → P' a) : Reads m o o₁ P' :=
  ⟨wp_mono h.run (fun a _ ha => ⟨hP a ha.1, ha.2⟩) fun _ _ h => h⟩

lemma reads_pure {a : α} (h : P a) : Reads (pure a) o o P := ⟨⟨h, rfl⟩⟩

lemma reads_corrupt : Reads (corrupt : Reader α) o o₁ P := ⟨Fault.noConfusion⟩

lemma reads_guard (p : Bool) (e : UserError) : Reads (Op.guard p (.error e)) o o fun _ => p = true := by
  constructor
  rw [wp_guard]
  exact ⟨fun h => ⟨h, rfl⟩, fun _ => Fault.noConfusion⟩

lemma reads_orFail (x : Option α) (e : UserError) : Reads (Op.orFail x (.error e)) o o fun a => x = some a := by
  constructor
  rw [wp_orFail]
  exact ⟨fun a h => ⟨h, rfl⟩, fun _ => Fault.noConfusion⟩

lemma reads_raised (x : Except UserError α) : Reads (Op.lift (raised x)) o o fun a => x = .ok a := by
  cases x with
  | ok a => exact ⟨⟨rfl, rfl⟩⟩
  | error e => exact ⟨Fault.noConfusion⟩

lemma reads_cut {bytes : List UInt8} {len : ℕ} (h : len ≤ bytes.length) :
    Reads (Op.lift (cut bytes len)) o o fun name => name = bytes.take len := by
  unfold cut
  rw [if_pos h]
  exact ⟨⟨rfl, rfl⟩⟩

lemma reads_readBytes (count : ℕ) :
    Reads (readBytes input count) o (o + count) fun bytes => bytes = slice input o (o + count) := by
  constructor
  unfold readBytes
  rw [wp_bind, wp_get, wp_ite]
  refine ⟨fun _ => ?_, fun _ => Fault.noConfusion⟩
  exact ⟨rfl, rfl⟩

lemma reads_readU8 : Reads (readU8 input) o (o + 1) fun n => ∃ byte, input[o]? = some byte ∧ n = byte.toNat := by
  constructor
  unfold readU8
  rw [wp_bind, wp_get]
  split
  · rename_i byte hbyte
    exact ⟨⟨byte, hbyte, rfl⟩, rfl⟩
  · exact Fault.noConfusion

lemma reads_readLe (width : ℕ) : Reads (readLe input width) o (o + width) fun _ => True :=
  (reads_readBytes width).bind fun _ _ => reads_pure trivial

lemma reads_readArray (count : ℕ) : Reads (readArray input count) o (o + count) fun _ => True :=
  (reads_readBytes count).bind fun _ _ => reads_pure trivial

lemma reads_readFlag : Reads (readFlag input) o (o + 1) fun flag => flag = true ↔ input[o]? = some 1 := by
  refine reads_readU8.bind ?_
  rintro n ⟨byte, hbyte, rfl⟩
  have hone : byte.toNat = 1 ↔ byte = 1 := by
    rw [← UInt8.toNat_inj]
    rfl
  split
  · rename_i hzero
    refine reads_pure ?_
    rw [hbyte, Option.some.injEq, ← hone, hzero]
    simp
  · split
    · rename_i h1
      refine reads_pure ?_
      rw [hbyte, Option.some.injEq, ← hone, h1]
      simp
    · exact reads_corrupt

/-- A record of `size` bytes, read `n` times. -/
theorem reads_times {R : ℕ → α → Prop} (size n : ℕ) (h : ∀ i < n, Reads m (o + i * size) (o + (i + 1) * size) (R i)) :
    Reads (Op.times m n) o (o + n * size) fun v => ∀ i (hi : i < n), R i v[i] := by
  constructor
  refine wp_times (fun i s => s = o + i * size) R o (by rw [zero_mul, add_zero]) n ?_
  rintro i s hi rfl
  exact (h i hi).run

lemma reads_readRoleId : Reads (readRoleId input) o (o + 12) fun _ => True := by
  refine (reads_readLe 8).bind fun value _ => (reads_readLe 4).bind fun generation _ => ?_
  split
  · exact reads_pure trivial
  · exact (reads_orFail _ _).mono fun _ _ => trivial

lemma reads_readTemplate : Reads (readTemplate input) o (o + 14) fun _ => True := by
  refine reads_readU8.bind fun present _ => (reads_readLe 8).bind fun object _ => (reads_readLe 4).bind fun generation _ =>
    reads_readU8.bind fun bits _ => ?_
  dsimp only
  split
  · exact reads_corrupt
  · split
    · split
      · exact reads_pure trivial
      · exact (reads_orFail _ _).bind fun _ _ => reads_pure trivial
    · exact reads_pure trivial

/-- A user record is 212 bytes long; only a name longer than its field makes it panic. -/
theorem reads_decodeUser (hname : ∀ byte, input[o + 12]? = some byte → byte.toNat ≤ userMaxUserNameBytes) :
    Reads (decodeUser input) o (o + encodedUserBytes) fun user => user.admin = true ↔ input[o + 107]? = some 1 := by
  refine (reads_readLe 8).bind fun value _ => (reads_readLe 4).bind fun generation _ => (reads_orFail _ _).bind fun id _ => ?_
  refine reads_readU8.bind ?_
  rintro nameLen ⟨byte, hbyte, rfl⟩
  refine (reads_readArray _).bind fun nameBytes _ => (reads_cut ?_).bind fun nameSlice _ => ?_
  · rw [Vector.length_toList]
    exact hname byte hbyte
  refine (reads_raised _).bind fun name _ => reads_readU8.bind fun version _ => (reads_readArray _).bind fun salt _ => ?_
  refine (reads_readArray _).bind fun output _ => (reads_readLe 8).bind fun object _ => (reads_readLe 4).bind fun _ _ => ?_
  refine (reads_orFail _ _).bind fun home _ => reads_readU8.bind fun roleCount _ => (reads_guard _ _).bind fun _ _ => ?_
  refine reads_readFlag.bind fun admin hadmin => ?_
  refine (reads_times (R := fun _ _ => True) 12 maxRoleGrants ?_).bind fun roles _ => ?_
  · intro i _
    exact reads_readRoleId.to (by omega)
  refine (reads_readLe 8).bind fun _ _ => (reads_guard _ _).bind fun _ _ => ?_
  exact Reads.to (reads_pure hadmin) rfl

lemma reads_decodeRole (hname : ∀ byte, input[o + 12]? = some byte → byte.toNat ≤ userMaxRoleNameBytes) :
    Reads (decodeRole input) o (o + encodedRoleBytes) fun _ => True := by
  refine (reads_readLe 8).bind fun value _ => (reads_readLe 4).bind fun generation _ => (reads_orFail _ _).bind fun id _ => ?_
  refine reads_readU8.bind ?_
  rintro nameLen ⟨byte, hbyte, rfl⟩
  refine (reads_readArray _).bind fun nameBytes _ => (reads_cut ?_).bind fun nameSlice _ => ?_
  · rw [Vector.length_toList]
    exact hname byte hbyte
  refine (reads_raised _).bind fun name _ => reads_readU8.bind fun templateCount _ => (reads_guard _ _).bind fun _ _ => ?_
  refine (reads_times (R := fun _ _ => True) 14 maxRoleTemplates ?_).bind fun templates _ => ?_
  · intro i _
    exact reads_readTemplate.to (by omega)
  exact Reads.to (reads_pure trivial) rfl

/-- What a slot of the snapshot holds: a record where its first byte is `1`. -/
def SlotRead (input : List UInt8) (o : ℕ) (P : α → Prop) (slot : Option α) : Prop :=
  (slot.isSome = true ↔ input[o]? = some 1) ∧ ∀ a, slot = some a → P a

lemma reads_readSlot {size : ℕ} (hdecode : input[o]? = some 1 → Reads m (o + 1) (o + 1 + size) P) :
    Reads (readSlot input size m) o (o + 1 + size) (SlotRead input o P) := by
  refine reads_readU8.bind ?_
  rintro present ⟨byte, hbyte, rfl⟩
  have hone : byte.toNat = 1 ↔ byte = 1 := by
    rw [← UInt8.toNat_inj]
    rfl
  split
  · exact reads_corrupt
  split
  · rename_i h1
    have htaken : input[o]? = some 1 := by rw [hbyte, hone.mp h1]
    refine (hdecode htaken).bind fun a ha => reads_pure ⟨?_, ?_⟩
    · simp [htaken]
    · rintro b hb
      rw [← Option.some.inj hb]
      exact ha
  · rename_i hne
    refine ⟨⟨?_, ?_⟩, rfl⟩
    · rw [hbyte, Option.some.injEq, ← hone]
      simp [hne]
    · exact nofun

lemma reads_readSlots {P : ℕ → α → Prop} (size count : ℕ)
    (hdecode : ∀ i < count, input[o + i * (1 + size)]? = some 1 →
      Reads m (o + i * (1 + size) + 1) (o + i * (1 + size) + 1 + size) (P i)) :
    Reads (readSlots input size m count) o (o + count * (1 + size)) fun slots =>
      ∀ i < count, SlotRead input (o + i * (1 + size)) (P i) (slots.get i) := by
  have htimes : Reads (Op.times (readSlot input size m) count) o (o + count * (1 + size)) fun v =>
      ∀ i (hi : i < count), SlotRead input (o + i * (1 + size)) (P i) v[i] := by
    refine reads_times (1 + size) count fun i hi => ?_
    exact (reads_readSlot (hdecode i hi)).to (by ring)
  refine htimes.bind fun v hv => reads_pure ?_
  intro i hi
  have hget : Slots.get ⟨v.toList, v.length_toList⟩ i = v[i] := by
    rw [Slots.get, Vector.getElem?_toList, Vector.getElem?_eq_getElem hi]
    rfl
  rw [hget]
  exact hv i hi

end Reads

/-! ## Snapshots that can be read -/

def userOffset (slot : ℕ) : ℕ := 40 + slot * (1 + encodedUserBytes)
def roleOffset (slot : ℕ) : ℕ := 40 + maxUsers * (1 + encodedUserBytes) + slot * (1 + encodedRoleBytes)

/-- The names that the snapshot gives fit their fields, and where it has users, one of them is an administrator. -/
structure Legible (input : List UInt8) : Prop where
  users : ∀ slot < maxUsers, input[userOffset slot]? = some 1 →
    ∀ byte, input[userOffset slot + 13]? = some byte → byte.toNat ≤ userMaxUserNameBytes
  roles : ∀ slot < maxRoles, input[roleOffset slot]? = some 1 →
    ∀ byte, input[roleOffset slot + 13]? = some byte → byte.toNat ≤ userMaxRoleNameBytes
  admin : ∀ slot < maxUsers, input[userOffset slot]? = some 1 →
    ∃ other < maxUsers, input[userOffset other]? = some 1 ∧ input[userOffset other + 108]? = some 1

/-- A catalog in order, with nobody logged in. -/
structure InOrder (c : UserCatalog) : Prop where
  sessions : c.sessions.values = []
  userIds : (c.users.values.map UserRecord.id).Nodup
  userNames : (c.users.values.map UserRecord.name).Nodup
  roleIds : (c.roles.values.map RoleRecord.id).Nodup
  roleNames : (c.roles.values.map RoleRecord.name).Nodup
  held : ∀ user ∈ c.users.values, user.roleCount ≤ maxRoleGrants ∧
    ∀ id ∈ user.held, ∃ role ∈ c.roles.values, role.id = id
  names : (∀ user ∈ c.users.values, validName userMaxUserNameBytes user.name.bytes = true) ∧
    ∀ role ∈ c.roles.values, validName userMaxRoleNameBytes role.name.bytes = true
  templates : ∀ role ∈ c.roles.values, role.templateCount ≤ maxRoleTemplates ∧
    ∀ template ∈ role.templates.values, UserCatalog.templateIsValid template = true
  counters : (∀ user ∈ c.users.values, user.id.value < c.nextUser) ∧ ∀ role ∈ c.roles.values, role.id.value < c.nextRole
  claimed : c.claimed = true ↔ ∃ user ∈ c.users.values, user.admin = true

section Valid

variable {c : UserCatalog}

lemma userIsValid_of_get (h : c.snapshotIsValid = true) {slot : ℕ} {user : UserRecord} (hget : c.users.get slot = some user) :
    c.userIsValid slot user = true := by
  have hentry : c.users.entries[slot]? = some (some user) := Option.join_eq_some_iff.mp hget
  have hall := (Bool.and_eq_true_iff.mp (Bool.and_eq_true_iff.mp h).1).1
  have hmem : (some user, slot) ∈ c.users.entries.zipIdx := mem_zipIdx_iff_getElem?.mpr hentry
  exact all_eq_true.mp hall _ hmem

lemma roleIsValid_of_get (h : c.snapshotIsValid = true) {slot : ℕ} {role : RoleRecord} (hget : c.roles.get slot = some role) :
    c.roleIsValid slot role = true := by
  have hentry : c.roles.entries[slot]? = some (some role) := Option.join_eq_some_iff.mp hget
  have hall := (Bool.and_eq_true_iff.mp h).2
  have hmem : (some role, slot) ∈ c.roles.entries.zipIdx := mem_zipIdx_iff_getElem?.mpr hentry
  exact all_eq_true.mp hall _ hmem

/-- What the check of one user gives. -/
theorem of_userIsValid {slot : ℕ} {user : UserRecord} (h : c.userIsValid slot user = true) :
    user.id.value < c.nextUser ∧ user.roleCount ≤ maxRoleGrants ∧
      (∀ other ∈ (c.users.entries.take slot).reduceOption, other.id ≠ user.id ∧ other.name ≠ user.name) ∧
      ∀ id ∈ user.held, ∃ role ∈ c.roles.values, role.id = id := by
  simp only [userIsValid, Bool.and_eq_true, decide_eq_true_eq, Bool.not_eq_true', any_eq_false, Bool.or_eq_true, not_or] at h
  obtain ⟨⟨⟨⟨⟨hid, -⟩, hcount⟩, -⟩, hfresh⟩, hroles⟩ := h
  refine ⟨hid, hcount, hfresh, ?_⟩
  intro id hheld
  obtain ⟨index, hindex⟩ := mem_iff_getElem?.mp hheld
  have hlt : index < user.roleCount := by
    by_contra hge
    rw [UserRecord.held, getElem?_eq_none (by rw [length_take]; omega)] at hindex
    cases hindex
  rw [UserRecord.held, getElem?_take_of_lt hlt] at hindex
  have hchecked := all_eq_true.mp hroles (id, index) (mem_zipIdx_iff_getElem?.mpr hindex)
  rw [if_pos hlt] at hchecked
  obtain ⟨role, hrole, hsame⟩ := any_eq_true.mp (Bool.and_eq_true_iff.mp hchecked).2
  exact ⟨role, hrole, of_decide_eq_true hsame⟩

/-- What the check of one role gives. -/
theorem of_roleIsValid {slot : ℕ} {role : RoleRecord} (h : c.roleIsValid slot role = true) :
    role.id.value < c.nextRole ∧ role.templateCount ≤ maxRoleTemplates ∧
      (∀ other ∈ (c.roles.entries.take slot).reduceOption, other.id ≠ role.id ∧ other.name ≠ role.name) ∧
      ∀ template ∈ role.templates.values, templateIsValid template = true := by
  simp only [roleIsValid, Bool.and_eq_true, decide_eq_true_eq, Bool.not_eq_true', any_eq_false, Bool.or_eq_true, not_or] at h
  obtain ⟨⟨⟨hid, hcount⟩, hfresh⟩, htemplates⟩ := h
  refine ⟨hid, hcount, hfresh, ?_⟩
  intro template htemplate
  obtain ⟨index, hindex⟩ := mem_values_iff.mp htemplate
  have hentry : role.templates.entries[index]? = some (some template) := Option.join_eq_some_iff.mp hindex
  have hchecked := all_eq_true.mp htemplates (some template, index) (mem_zipIdx_iff_getElem?.mpr hentry)
  split at hchecked
  · exact hchecked
  · cases hchecked

lemma claimed_iff_of_snapshotIsValid (h : c.snapshotIsValid = true) : c.claimed = true ↔ c.users.values ≠ [] := by
  have hclaimed := (Bool.and_eq_true_iff.mp (Bool.and_eq_true_iff.mp h).1).2
  rw [beq_iff_eq] at hclaimed
  rw [hclaimed]
  simp

/-- **A catalog that passes the check is in order.** -/
theorem inOrder_of_snapshotIsValid (h : c.snapshotIsValid = true) (hsessions : c.sessions.values = [])
    (hadmin : c.users.values ≠ [] → ∃ user ∈ c.users.values, user.admin = true) : InOrder c := by
  have husers : ∀ user ∈ c.users.values, ∃ slot, c.userIsValid slot user = true := by
    intro user huser
    obtain ⟨slot, hget⟩ := mem_values_iff.mp huser
    exact ⟨slot, userIsValid_of_get h hget⟩
  have hroles : ∀ role ∈ c.roles.values, ∃ slot, c.roleIsValid slot role = true := by
    intro role hrole
    obtain ⟨slot, hget⟩ := mem_values_iff.mp hrole
    exact ⟨slot, roleIsValid_of_get h hget⟩
  constructor
  case sessions => exact hsessions
  case userIds =>
    exact nodup_map_values _ fun slot user hget other hother =>
      ((of_userIsValid (userIsValid_of_get h hget)).2.2.1 other hother).1
  case userNames =>
    exact nodup_map_values _ fun slot user hget other hother =>
      ((of_userIsValid (userIsValid_of_get h hget)).2.2.1 other hother).2
  case roleIds =>
    exact nodup_map_values _ fun slot role hget other hother =>
      ((of_roleIsValid (roleIsValid_of_get h hget)).2.2.1 other hother).1
  case roleNames =>
    exact nodup_map_values _ fun slot role hget other hother =>
      ((of_roleIsValid (roleIsValid_of_get h hget)).2.2.1 other hother).2
  case held =>
    intro user huser
    obtain ⟨slot, hvalid⟩ := husers user huser
    exact ⟨(of_userIsValid hvalid).2.1, (of_userIsValid hvalid).2.2.2⟩
  case names => exact ⟨fun user _ => user.name.valid, fun role _ => role.name.valid⟩
  case templates =>
    intro role hrole
    obtain ⟨slot, hvalid⟩ := hroles role hrole
    exact ⟨(of_roleIsValid hvalid).2.1, (of_roleIsValid hvalid).2.2.2⟩
  case counters =>
    constructor
    · intro user huser
      obtain ⟨slot, hvalid⟩ := husers user huser
      exact (of_userIsValid hvalid).1
    · intro role hrole
      obtain ⟨slot, hvalid⟩ := hroles role hrole
      exact (of_roleIsValid hvalid).1
  case claimed =>
    rw [claimed_iff_of_snapshotIsValid h]
    constructor
    · exact hadmin
    · rintro ⟨user, huser, -⟩ hnil
      rw [hnil] at huser
      cases huser

end Valid

/-! ## Restoring -/

section Restore

variable {input : List UInt8}

/-- The users of a legible snapshot are read without a panic, each with the flag that its slot holds. -/
theorem reads_users (h : Legible input) :
    Reads (readSlots input encodedUserBytes (decodeUser input) maxUsers) 40 (40 + maxUsers * (1 + encodedUserBytes)) fun slots =>
      ∀ slot < maxUsers, SlotRead input (40 + slot * (1 + encodedUserBytes))
        (fun user => user.admin = true ↔ input[userOffset slot + 108]? = some 1) (slots.get slot) := by
  refine reads_readSlots encodedUserBytes maxUsers fun slot hslot htaken => ?_
  have hname := h.users slot hslot htaken
  exact reads_decodeUser hname

lemma reads_roles (h : Legible input) :
    Reads (readSlots input encodedRoleBytes (decodeRole input) maxRoles) (40 + maxUsers * (1 + encodedUserBytes))
      (40 + maxUsers * (1 + encodedUserBytes) + maxRoles * (1 + encodedRoleBytes)) fun _ => True := by
  refine (reads_readSlots (P := fun _ _ => True) encodedRoleBytes maxRoles fun slot hslot htaken => ?_).mono fun _ _ => trivial
  have hname := h.roles slot hslot htaken
  exact reads_decodeRole hname

/-- The users that the snapshot gives have the flags that their slots hold. -/
def Flagged (input : List UInt8) (users : Slots maxUsers UserRecord) : Prop :=
  ∀ slot < maxUsers, SlotRead input (40 + slot * (1 + encodedUserBytes))
    (fun user => user.admin = true ↔ input[userOffset slot + 108]? = some 1) (users.get slot)

lemma reads_readRecords (h : Legible input) :
    Reads (readRecords input) 40 (40 + maxUsers * (1 + encodedUserBytes) + maxRoles * (1 + encodedRoleBytes))
      fun records => Flagged input records.1 :=
  (reads_users h).bind fun _ husers => (reads_roles h).bind fun _ _ => reads_pure husers

/-- Where a legible snapshot has a user, it has an administrator. -/
theorem exists_admin (h : Legible input) {slots : Slots maxUsers UserRecord}
    (hread : Flagged input slots) (hsome : slots.values ≠ []) : ∃ user ∈ slots.values, user.admin = true := by
  obtain ⟨user, huser⟩ := exists_mem_of_ne_nil _ hsome
  obtain ⟨slot, hget⟩ := Slots.mem_values_iff.mp huser
  have hslot : slot < maxUsers := by
    by_contra hge
    rw [Slots.get, getElem?_eq_none (by rw [slots.length_eq]; omega)] at hget
    cases hget
  have htaken := (hread slot hslot).1.mp (by rw [hget]; rfl)
  obtain ⟨other, hother, hpresent, hflag⟩ := h.admin slot hslot htaken
  obtain ⟨admin, hadmin⟩ := Option.isSome_iff_exists.mp ((hread other hother).1.mpr hpresent)
  exact ⟨admin, Slots.mem_values_iff.mpr ⟨other, hadmin⟩, ((hread other hother).2 admin hadmin).mpr hflag⟩

/-- A snapshot that was refused without a panic, or a catalog in order. -/
def Harmless : Except Fault (UserCatalog × ℕ) → Prop
  | .error fault => fault ≠ .panic
  | .ok result => InOrder result.1

lemma harmless_corrupt : Harmless (.error (.error .corrupt)) := Fault.noConfusion

lemma decodeSnapshot_legible (h : Legible input) : Harmless (decodeSnapshot input) := by
  unfold decodeSnapshot
  split
  · exact harmless_corrupt
  split
  · exact harmless_corrupt
  dsimp only
  split
  · exact harmless_corrupt
  have hreads := reads_readRecords h
  generalize hread : readRecords input 40 = result
  rcases result with ⟨fault | ⟨users, roles⟩, offset⟩
  · exact hreads.of_error hread
  dsimp only
  split
  · rename_i hvalid
    exact inOrder_of_snapshotIsValid hvalid values_empty (exists_admin h (hreads.of_ok hread))
  · exact harmless_corrupt

/-- The head of a snapshot with one user record, whose name is said to have `length` bytes. -/
def headSnapshot (length : UInt8) : List UInt8 :=
  snapshotMagic ++ leBytes 2 snapshotVersion ++ [1] ++ List.replicate 5 0 ++ leBytes 8 2 ++ leBytes 8 1 ++ leBytes 8 1 ++
    [1] ++ leBytes 8 1 ++ leBytes 4 1 ++ [length, 97] ++ List.replicate 31 0 ++ [1] ++ List.replicate 48 0 ++ leBytes 8 5 ++
    leBytes 4 1 ++ [0, 1] ++ List.replicate 96 0 ++ leBytes 8 1

end Restore

end LogOS.User
