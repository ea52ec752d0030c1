import LogOS.Lib.Op
import LogOS.Package.Manifest

/-!
# Version ranges

What the text of a version range says: a grammar, and the interval that each form of it stands for.  The parser accepts
only what the grammar allows.  The upper bounds of `^` and `~` are computed with an addition that saturates, so a range is
matched as its text says only where the number to be increased is not the largest one.
-/

namespace LogOS.Package

open Lib

/-! ## The texts -/

def decimal (digits : List UInt8) (value : ℕ) : ℕ := digits.foldl (fun value d => value * 10 + (d.toNat - 48)) value

/-- A number in decimal digits, without leading zeros. -/
structure Number (digits : List UInt8) (n : ℕ) : Prop where
  nonempty : digits ≠ []
  plain : digits.length > 1 → digits.head? ≠ some 48
  digit : ∀ d ∈ digits, 48 ≤ d ∧ d ≤ 57
  value : decimal digits 0 = n

/-- Three numbers with dots between them. -/
def Version (text : List UInt8) (v : SemanticVersion) : Prop :=
  ∃ a b c, Number a v.major ∧ Number b v.minor ∧ Number c v.patch ∧ text = a ++ 46 :: (b ++ 46 :: c)

/-- The text of a range. -/
inductive Spells : List UInt8 → VersionRange → Prop
  | any {text} : isWildcard text = true → Spells text .any
  | major {a m} : Number a m → Spells a (.major m)
  | majorOnly {a m w} : Number a m → isWildcard w = true → Spells (a ++ 46 :: w) (.major m)
  | minor {a b m n} : Number a m → Number b n → Spells (a ++ 46 :: b) (.minor m n)
  | minorOnly {a b m n w} : Number a m → Number b n → isWildcard w = true → Spells (a ++ 46 :: (b ++ 46 :: w)) (.minor m n)
  | exact {text v} : Version text v → Spells text (.exact v)
  | caret {text v} : Version text v → Spells (94 :: text) (.caret v)
  | tilde {text v} : Version text v → Spells (126 :: text) (.tilde v)
  | gte {text v} : Version text v → Spells (62 :: 61 :: text) (.gte v)
  | gt {text v} : Version text v → Spells (62 :: text) (.gt v)
  | lte {text v} : Version text v → Spells (60 :: 61 :: text) (.lte v)
  | lt {text v} : Version text v → Spells (60 :: text) (.lt v)

/-- `v` agrees with `required` up to its first field that is not zero. -/
def Agrees (required v : SemanticVersion) : Prop :=
  v.major = required.major ∧ (required.major = 0 → v.minor = required.minor ∧
    (required.minor = 0 → v.patch = required.patch))

/-- The interval of a range. -/
def VersionRange.Holds : VersionRange → SemanticVersion → Prop
  | any, _ => True
  | major m, v => v.major = m
  | minor m n, v => v.major = m ∧ v.minor = n
  | exact required, v => v = required
  | caret required, v => required.ble v = true ∧ Agrees required v
  | tilde required, v => required.ble v = true ∧ v.major = required.major ∧ v.minor = required.minor
  | gte required, v => required.ble v = true
  | gt required, v => required.blt v = true
  | lte required, v => v.ble required = true
  | lt required, v => v.blt required = true

/-- The upper bound can be increased. -/
def VersionRange.Bounded : VersionRange → Prop
  | caret r => (if r.major ≠ 0 then r.major else if r.minor ≠ 0 then r.minor else r.patch) < 2 ^ 32 - 1
  | tilde r => r.minor < 2 ^ 32 - 1
  | _ => True

/-! ## The parser -/

variable {text digits : List UInt8} {n i : ℕ} {v : SemanticVersion} {range : VersionRange}

lemma decimal_of_foldlM {step : ℕ → UInt8 → Except ManifestError ℕ} (hstep : ∀ value d r, step value d = .ok r →
    (48 ≤ d ∧ d ≤ 57) ∧ value * 10 + (d.toNat - 48) = r) {value : ℕ} (h : digits.foldlM step value = .ok n) :
    (∀ d ∈ digits, 48 ≤ d ∧ d ≤ 57) ∧ decimal digits value = n := by
  induction digits generalizing value with
  | nil => exact ⟨nofun, Except.ok.inj h⟩
  | cons d digits ih =>
    obtain ⟨r, hr, h⟩ := bind_eq_ok.mp h
    obtain ⟨hd, rfl⟩ := hstep value d r hr
    obtain ⟨hds, hn⟩ := ih h
    exact ⟨List.forall_mem_cons.mpr ⟨hd, hds⟩, hn⟩

lemma number_of_parse (h : parseNumber digits = .ok n) : Number digits n := by
  rw [parseNumber, ite_eq_ok, not_or, not_and] at h
  obtain ⟨⟨hne, hplain⟩, h⟩ := h
  refine (decimal_of_foldlM (fun value d r hr => ?_) h).elim fun hdigit hvalue => ⟨hne, hplain, hdigit, hvalue⟩
  simp only [ite_eq_ok, ite_eq_ok_of_else, not_not, Except.ok.injEq] at hr
  exact ⟨hr.1, hr.2.2⟩

/-- The text before and behind its first dot. -/
theorem eq_of_findDot (h : findDot text = some i) : text = text.take i ++ 46 :: text.drop (i + 1) := by
  obtain ⟨hi, hdot, -⟩ := List.findIdx?_eq_some_iff_getElem.mp h
  rw [← beq_iff_eq.mp hdot, List.getElem_cons_drop, List.take_append_drop]

lemma version_of_parse (h : SemanticVersion.parse text = .ok v) : Version text v := by
  unfold SemanticVersion.parse at h
  split at h
  · cases h
  rename_i first hfirst
  split at h
  · cases h
  rename_i second hsecond
  obtain ⟨offset, hoffset, rfl⟩ := Option.map_eq_some_iff.mp hsecond
  obtain ⟨-, h⟩ := ite_eq_ok.mp h
  obtain ⟨major, hmajor, h⟩ := bind_eq_ok.mp h
  obtain ⟨minor, hminor, h⟩ := bind_eq_ok.mp h
  obtain ⟨patch, hpatch, h⟩ := bind_eq_ok.mp h
  cases h
  have hrest := eq_of_findDot hoffset
  rw [List.drop_drop] at hrest
  refine ⟨_, _, _, number_of_parse hmajor, number_of_parse hminor, number_of_parse hpatch, (eq_of_findDot hfirst).trans ?_⟩
  rw [slice, Nat.add_sub_cancel_left]
  exact congrArg (text.take first ++ 46 :: ·) hrest

namespace VersionRange

lemma spells_of_parsePlain (h : parsePlain text = .ok range) : Spells text range := by
  unfold parsePlain at h
  split at h
  · obtain ⟨m, hm, h⟩ := bind_eq_ok.mp h
    cases h
    exact .major (number_of_parse hm)
  rename_i first hfirst
  dsimp only at h
  split at h
  · rename_i hw
    obtain ⟨m, hm, h⟩ := bind_eq_ok.mp h
    cases h
    rw [eq_of_findDot hfirst]
    exact .majorOnly (number_of_parse hm) hw
  split at h
  · obtain ⟨m, hm, h⟩ := bind_eq_ok.mp h
    obtain ⟨n, hn, h⟩ := bind_eq_ok.mp h
    cases h
    rw [eq_of_findDot hfirst]
    exact .minor (number_of_parse hm) (number_of_parse hn)
  rename_i offset hoffset
  obtain ⟨-, h⟩ := ite_eq_ok.mp h
  split at h
  · rename_i hw
    obtain ⟨m, hm, h⟩ := bind_eq_ok.mp h
    obtain ⟨n, hn, h⟩ := bind_eq_ok.mp h
    cases h
    rw [eq_of_findDot hfirst, eq_of_findDot hoffset]
    exact .minorOnly (number_of_parse hm) (number_of_parse hn) hw
  · obtain ⟨v, hv, h⟩ := bind_eq_ok.mp h
    cases h
    exact .exact (version_of_parse hv)

lemma spells_of_parse (h : parse text = .ok range) : Spells text range := by
  unfold parse at h
  split at h
  · rename_i hw
    cases h
    exact .any hw
  split at h
  case h_7 => exact spells_of_parsePlain h
  all_goals
    obtain ⟨v, hv, h⟩ := bind_eq_ok.mp h
    cases h
    constructor
    exact version_of_parse hv

/-! ## The intervals -/

lemma blt_iff {r v : SemanticVersion} : r.blt v = true ↔
    r.major < v.major ∨ (r.major = v.major ∧ (r.minor < v.minor ∨ (r.minor = v.minor ∧ r.patch < v.patch))) := by
  simp [SemanticVersion.blt]

lemma ble_iff {r v : SemanticVersion} : r.ble v = true ↔
    r.major < v.major ∨ (r.major = v.major ∧ (r.minor < v.minor ∨ (r.minor = v.minor ∧ r.patch ≤ v.patch))) := by
  have heq : r = v ↔ r.major = v.major ∧ r.minor = v.minor ∧ r.patch = v.patch := by
    cases r
    cases v
    simp
  rw [SemanticVersion.ble, Bool.or_eq_true, blt_iff, beq_iff_eq, heq]
  omega

lemma matches_iff_holds (h : range.Bounded) : range.matchesVersion v = true ↔ range.Holds v := by
  cases range with
  | any => simp [matchesVersion, Holds]
  | caret r =>
    simp only [Bounded, matchesVersion, Holds, Agrees, Bool.and_eq_true, ble_iff, blt_iff,
      caretUpperBound, saturatingSucc] at *
    split_ifs at h ⊢ <;> dsimp only <;> omega
  | tilde r =>
    simp only [Bounded, matchesVersion, Holds, Bool.and_eq_true, ble_iff, blt_iff, tildeUpperBound, saturatingSucc] at *
    omega
  | _ => simp [matchesVersion, Holds]

end VersionRange

end LogOS.Package
