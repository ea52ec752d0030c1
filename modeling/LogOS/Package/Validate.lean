import LogOS.Package.Manifest
import LogOS.Storage.Catalog.Format

/-!
# Package headers and validation

The two header formats of a package, and the validation of a whole package through a reader: the header is decoded, its
length is compared with that of the package, and the checksum of the payload is computed piece by piece.  What is accepted
depends on the bytes of the package only (`validates_intact_packages`).
-/

namespace LogOS.Package

open Lib Abi Storage.Catalog Op

/-- `LOGOSPKG` -/
def packageMagic : List UInt8 := [0x4c, 0x4f, 0x47, 0x4f, 0x53, 0x50, 0x4b, 0x47]
def packageFormatVersion : ℕ := 1
def packageFormatVersionV2 : ℕ := 2
def packageHeaderBytes : ℕ := 32
def packageHeaderV2Bytes : ℕ := 20 + packageManifestBytes
def maxPackagePayloadBytes : ℕ := maxServiceImageBytes
def maxPackageBytesV2 : ℕ := packageHeaderV2Bytes + maxPackagePayloadBytes

inductive PackageError where
  | reader
  | headerTooSmall
  | invalidMagic
  | unsupportedFormat
  | unsupportedKind
  | invalidService
  | wrongService
  | wrongAbi
  | invalidPayloadLength
  | payloadTooLarge
  | lengthMismatch
  | crcMismatch
  | manifest (e : ManifestError)
  deriving DecidableEq, Repr

structure PackageHeaderV2 where
  manifest : PackageManifest
  payloadLength : ℕ
  payloadCrc32c : ℕ

def PackageHeaderV2.decode (input : List UInt8) : Except PackageError PackageHeaderV2 :=
  if input.length < packageHeaderV2Bytes then .error .headerTooSmall
  else if slice input 0 8 ≠ packageMagic then .error .invalidMagic
  else if getLe input 8 2 ≠ packageFormatVersionV2 then .error .unsupportedFormat
  else if ¬ (slice input 10 12).all (· == 0) then .error (.manifest .invalidEncoding)
  else if getLe input 12 4 = 0 then .error .invalidPayloadLength
  else if getLe input 12 4 > maxPackagePayloadBytes then .error .payloadTooLarge
  else
    match PackageManifest.decode (slice input (packageHeaderV2Bytes - packageManifestBytes) packageHeaderV2Bytes) with
    | .error e => .error (.manifest e)
    | .ok manifest => .ok ⟨manifest, getLe input 12 4, getLe input 16 4⟩

structure ServicePackageHeader where
  service : ServiceId
  abiVersion : ℕ
  payloadLength : ℕ
  packageVersion : ℕ
  payloadCrc32c : ℕ

namespace ServicePackageHeader

def decode (input : List UInt8) : Except PackageError ServicePackageHeader :=
  if input.length < packageHeaderBytes then .error .headerTooSmall
  else if slice input 0 8 ≠ packageMagic then .error .invalidMagic
  else if getLe input 8 2 ≠ packageFormatVersion then .error .unsupportedFormat
  else if input.getD 11 0 ≠ 1 then .error .unsupportedKind
  else if ¬ (slice input 14 16).all (· == 0) ∨ ¬ (slice input 28 packageHeaderBytes).all (· == 0) then
    .error .invalidPayloadLength
  else
    match ServiceId.ofByte (input.getD 10 0) with
    | none => .error .invalidService
    | some service =>
      if getLe input 16 4 = 0 then .error .invalidPayloadLength
      else if getLe input 16 4 > maxPackagePayloadBytes then .error .payloadTooLarge
      else .ok ⟨service, getLe input 12 2, getLe input 16 4, getLe input 20 4, getLe input 24 4⟩

def validateFor (header : ServicePackageHeader) (service : ServiceId) (abi : ℕ) : Except PackageError Unit :=
  if header.service ≠ service then .error .wrongService
  else if header.abiVersion ≠ abi then .error .wrongAbi
  else .ok ()

end ServicePackageHeader

/-! ## Reading a package -/

/-- A source of package bytes on a state of type `σ`: its length, and the bytes that a read of the given offset and length
puts into the caller's buffer. -/
structure PackageReader (σ : Type) where
  len : ℕ
  read : ℕ → ℕ → Op σ PackageError (List UInt8)

section Validate

variable {σ : Type}

def readExact (reader : PackageReader σ) (offset length : ℕ) : Op σ PackageError (List UInt8) := do
  let stop ← Op.orFail (checkedAdd offset length) .reader
  Op.guard (stop ≤ reader.len) .reader
  let bytes ← reader.read offset length
  Op.guard (bytes.length == length) .reader
  Op.ret bytes

/-- The loop over the payload from `offset` on, with at most `n` rounds left. -/
def payloadCrc (reader : PackageReader σ) (stop scratch : ℕ) : ℕ → ℕ → UInt32 → Op σ PackageError UInt32
  | 0, _, crc => Op.ret crc
  | n + 1, offset, crc =>
    if offset < stop then do
      let amount := min (stop - offset) scratch
      let bytes ← readExact reader offset amount
      payloadCrc reader stop scratch n (offset + amount) (bytes.foldl crcByte crc)
    else Op.ret crc

/-- The checksum of the bytes from the end of the header on, compared with that of the header. -/
def checkPayload (reader : PackageReader σ) (headerBytes expectedLen scratch expected : ℕ) : Op σ PackageError Unit := do
  let crc ← payloadCrc reader expectedLen scratch (expectedLen - headerBytes) headerBytes (~~~ 0)
  Op.guard ((~~~ crc).toNat == expected) .crcMismatch

def validatePackage (reader : PackageReader σ) (service : ServiceId) (abi scratch : ℕ) :
    Op σ PackageError ServicePackageHeader := do
  Op.guard (scratch != 0) .reader
  Op.guard (!decide (reader.len < packageHeaderBytes)) .headerTooSmall
  let headerBytes ← readExact reader 0 packageHeaderBytes
  let header ← Op.lift (ServicePackageHeader.decode headerBytes)
  Op.lift (header.validateFor service abi)
  let expectedLen := packageHeaderBytes + header.payloadLength
  Op.guard (reader.len == expectedLen) .lengthMismatch
  checkPayload reader packageHeaderBytes expectedLen scratch header.payloadCrc32c
  Op.ret header

def validatePackageV2 (reader : PackageReader σ) (scratch : ℕ) : Op σ PackageError PackageHeaderV2 := do
  Op.guard (scratch != 0) .reader
  Op.guard (!decide (reader.len < packageHeaderV2Bytes)) .headerTooSmall
  let headerBytes ← readExact reader 0 packageHeaderV2Bytes
  let header ← Op.lift (PackageHeaderV2.decode headerBytes)
  let expectedLen := packageHeaderV2Bytes + header.payloadLength
  Op.guard (reader.len == expectedLen) .lengthMismatch
  checkPayload reader packageHeaderV2Bytes expectedLen scratch header.payloadCrc32c
  Op.ret header

end Validate

/-! ## What is accepted -/

section Accepted

variable {σ : Type} {reader : PackageReader σ} {p : List UInt8} {scratch : ℕ}

/-- The reader returns the bytes of `p`, whatever it was asked before. -/
structure PackageReader.Serves (reader : PackageReader σ) (p : List UInt8) : Prop where
  len : reader.len = p.length
  addressable : p.length < 2 ^ 64
  read : ∀ offset length s, offset + length ≤ p.length →
    ∃ s', reader.read offset length s = (.ok (slice p offset (offset + length)), s')

lemma wp_readExact (h : reader.Serves p) {offset length : ℕ} (hin : offset + length ≤ p.length)
    {E : PackageError → σ → Prop} (s : σ) :
    wp (readExact reader offset length) (fun bytes _ => bytes = slice p offset (offset + length)) E s := by
  have hstop : checkedAdd offset length = some (offset + length) :=
    checkedAdd_eq_some.mpr ⟨lt_of_le_of_lt hin h.addressable, rfl⟩
  obtain ⟨s', hread⟩ := h.read offset length s hin
  unfold readExact
  rw [wp_bind, wp_orFail, hstop]
  refine ⟨?_, nofun⟩
  rintro _ ⟨⟩
  refine wp_guard_seq (fun hg => ?_) fun _ => ?_
  · rw [h.len, decide_eq_true hin] at hg
    cases hg
  rw [wp_bind, wp, hread]
  refine wp_guard_seq (fun hg => ?_) fun _ => rfl
  rw [length_slice, beq_eq_false_iff_ne] at hg
  omega

/-- The checksum is that of the whole payload, in pieces of any size. -/
theorem wp_payloadCrc (h : reader.Serves p) (hscratch : 0 < scratch) {stop : ℕ} (hin : stop ≤ p.length)
    {E : PackageError → σ → Prop} : ∀ (n offset : ℕ) (crc : UInt32) (s : σ), stop - offset ≤ n →
    wp (payloadCrc reader stop scratch n offset crc) (fun r _ => r = (slice p offset stop).foldl crcByte crc) E s
  | 0, offset, crc, s, hn => by
    rw [payloadCrc, wp_ret, slice, Nat.le_zero.mp hn, List.take_zero, List.foldl_nil]
  | n + 1, offset, crc, s, hn => by
    rw [payloadCrc]
    by_cases hlt : offset < stop
    · rw [if_pos hlt]
      refine wp_seq (wp_readExact h (show offset + min (stop - offset) scratch ≤ p.length by omega) s) ?_
      rintro _ s1 rfl
      refine wp_mono (wp_payloadCrc h hscratch hin n _ _ s1 (by omega)) ?_ (fun _ _ he => he)
      rintro _ _ rfl
      rw [← List.foldl_append, slice_append_slice (by omega) (by omega)]
    · rw [if_neg hlt, wp_ret, slice, show stop - offset = 0 by omega, List.take_zero, List.foldl_nil]

variable {H : Type} (headerBytes : ℕ) (decode : List UInt8 → Except PackageError H) (check : H → Except PackageError Unit)
  (length crc : H → ℕ)

/-- What validation makes of the string `p`, for headers of one kind. -/
def verdict (p : List UInt8) : Except PackageError H :=
  if p.length < headerBytes then .error .headerTooSmall
  else do
    let header ← decode (slice p 0 headerBytes)
    check header
    if p.length ≠ headerBytes + length header then .error .lengthMismatch
    else if (crc32c (p.drop headerBytes)).toNat ≠ crc header then .error .crcMismatch
    else .ok header

lemma verdict_eq_ok {header : H} : verdict headerBytes decode check length crc p = .ok header ↔
    headerBytes ≤ p.length ∧ decode (slice p 0 headerBytes) = .ok header ∧ check header = .ok () ∧
      p.length = headerBytes + length header ∧ (crc32c (p.drop headerBytes)).toNat = crc header := by
  simp only [verdict, ite_eq_ok, bind_eq_ok, not_lt, not_not]
  constructor
  · rintro ⟨h1, header, h2, _, h3, h4, h5, ⟨⟩⟩
    exact ⟨h1, h2, h3, h4, h5⟩
  · rintro ⟨h1, h2, h3, h4, h5⟩
    exact ⟨h1, header, h2, (), h3, h4, h5, rfl⟩

/-- The code of both validations. -/
theorem fst_validate (h : reader.Serves p) (hscratch : 0 < scratch) (s : σ) :
    ((do
        Op.guard (scratch != 0) .reader
        Op.guard (!decide (reader.len < headerBytes)) .headerTooSmall
        let bytes ← readExact reader 0 headerBytes
        let header ← Op.lift (decode bytes)
        Op.lift (check header)
        Op.guard (reader.len == headerBytes + length header) .lengthMismatch
        checkPayload reader headerBytes (headerBytes + length header) scratch (crc header)
        Op.ret header : Op σ PackageError H) s).1 = verdict headerBytes decode check length crc p := by
  refine fst_of_wp ?_
  unfold verdict
  refine wp_guard_seq (fun hg => absurd hg (by simpa using Nat.pos_iff_ne_zero.mp hscratch)) fun _ => ?_
  rw [h.len]
  by_cases hlen : p.length < headerBytes
  · rw [if_pos hlen, decide_eq_true hlen]
    rfl
  rw [if_neg hlen, decide_eq_false hlen]
  refine wp_guard_seq (nofun) fun _ => ?_
  refine wp_seq (wp_readExact h (by omega) s) ?_
  rintro _ s1 rfl
  rw [zero_add, wp_bind, wp_lift]
  refine ⟨fun header hheader => ?_, fun e he => by rw [he]; rfl⟩
  rw [hheader, ok_bind, wp_bind, wp_lift]
  refine ⟨fun _ hcheck => ?_, fun e he => by rw [he]; rfl⟩
  rw [hcheck]
  by_cases hsize : p.length = headerBytes + length header
  · refine wp_guard_seq (fun hg => absurd hsize (by simpa using hg)) fun _ => ?_
    rw [wp_bind]
    refine wp_seq (wp_payloadCrc h hscratch (by omega) _ _ _ s1 (le_refl _)) ?_
    rintro _ s2 rfl
    have hcrc : ~~~ (slice p headerBytes (headerBytes + length header)).foldl crcByte (~~~ 0) =
        crc32c (p.drop headerBytes) := by
      rw [← hsize, slice, List.take_of_length_le (by simp), crc32c]
    rw [hcrc, wp_guard]
    refine ⟨fun hok => ?_, fun hne => ?_⟩
    · exact (if_neg (not_not.mpr hsize)).trans (if_neg (by simpa using hok))
    · exact (if_neg (not_not.mpr hsize)).trans (if_pos (by simpa using hne))
  · exact wp_guard_seq (fun _ => if_pos hsize) fun hg => absurd (by simpa using hg) hsize

variable (service : ServiceId) (abi : ℕ) (s : σ)

lemma validatePackage_eq (h : reader.Serves p) (hscratch : 0 < scratch) : (validatePackage reader service abi scratch s).1 =
    verdict packageHeaderBytes ServicePackageHeader.decode (·.validateFor service abi) (·.payloadLength)
      (·.payloadCrc32c) p :=
  fst_validate packageHeaderBytes ServicePackageHeader.decode (·.validateFor service abi) (·.payloadLength)
    (·.payloadCrc32c) h hscratch s

lemma validatePackageV2_eq (h : reader.Serves p) (hscratch : 0 < scratch) : (validatePackageV2 reader scratch s).1 =
    verdict packageHeaderV2Bytes PackageHeaderV2.decode (fun _ => .ok ()) (·.payloadLength) (·.payloadCrc32c) p := by
  have := fst_validate packageHeaderV2Bytes PackageHeaderV2.decode (fun _ => .ok ()) (·.payloadLength) (·.payloadCrc32c) h
    hscratch s
  exact this

/-- **Exactly the intact packages are accepted.**  Whatever the size of the buffer: a package is accepted for a service and
an ABI where its front is a header for them, as many bytes follow as the header says, and their checksum is that of the
header.  Nothing of the outcome depends on the buffer, on the reader or on its state. -/
theorem validates_intact_packages (h : reader.Serves p) (hscratch : 0 < scratch) :
    (∀ header, (validatePackage reader service abi scratch s).1 = .ok header ↔
      packageHeaderBytes ≤ p.length ∧ ServicePackageHeader.decode (slice p 0 packageHeaderBytes) = .ok header ∧
      (header.service = service ∧ header.abiVersion = abi) ∧ p.length = packageHeaderBytes + header.payloadLength ∧
      (crc32c (p.drop packageHeaderBytes)).toNat = header.payloadCrc32c) ∧
    (∀ header, (validatePackageV2 reader scratch s).1 = .ok header ↔
      packageHeaderV2Bytes ≤ p.length ∧ PackageHeaderV2.decode (slice p 0 packageHeaderV2Bytes) = .ok header ∧
      p.length = packageHeaderV2Bytes + header.payloadLength ∧
      (crc32c (p.drop packageHeaderV2Bytes)).toNat = header.payloadCrc32c) ∧
    ∀ {τ : Type} {other : PackageReader τ} (_ : other.Serves p) (size : ℕ) (_ : 0 < size) (t : τ),
      (validatePackage other service abi size t).1 = (validatePackage reader service abi scratch s).1 ∧
      (validatePackageV2 other size t).1 = (validatePackageV2 reader scratch s).1 := by
  refine ⟨fun header => ?_, fun header => ?_, fun hother size hsize t => ?_⟩
  · rw [validatePackage_eq service abi s h hscratch, verdict_eq_ok]
    simp only [ServicePackageHeader.validateFor, ite_eq_ok, not_not, and_true]
  · rw [validatePackageV2_eq s h hscratch, verdict_eq_ok]
    simp [true_and]
  · rw [validatePackage_eq service abi s h hscratch, validatePackageV2_eq s h hscratch]
    exact ⟨validatePackage_eq service abi t hother hsize, validatePackageV2_eq t hother hsize⟩

end Accepted

/-- A reader of a string in memory. -/
def stringReader (p : List UInt8) : PackageReader Unit :=
  ⟨p.length, fun offset length => Op.ret (slice p offset (offset + length))⟩

/-- A package of one byte for the first service, read in pieces of one byte. -/
theorem validates_intact_packages_one_byte :
    ∃ p header, (validatePackage (stringReader p) .input 7 1 ()).1 = .ok header ∧ header.payloadLength = 1 ∧
      p.length = 33 := by
  let p : List UInt8 := packageMagic ++ [1, 0, 1, 1, 7, 0, 0, 0, 1, 0, 0, 0, 9, 0, 0, 0, 77, 71, 140, 103, 0, 0, 0, 0, 5]
  have hserves : (stringReader p).Serves p := ⟨rfl, by decide, fun _ _ _ _ => ⟨(), rfl⟩⟩
  refine ⟨p, ⟨.input, 7, 1, 9, 1737246541⟩, ?_, rfl, rfl⟩
  exact ((validates_intact_packages .input 7 () hserves Nat.one_pos).1 _).mpr
    ⟨by decide, by rfl, ⟨rfl, rfl⟩, rfl, by decide +kernel⟩

end LogOS.Package
