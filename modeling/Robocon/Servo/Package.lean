/-
**Packages of the servo bus (`fashion_star_uart_servo.c`).**

`Receiver.byte` is one turn of the loop of `FSUS_RecvPackage`, and `recvPackage` the loop over the
bytes that arrive before it times out.

* `Noise` — the bytes that the loop skips in its search for a header.
* `Arrives` — a whole package is among the bytes, with the checksum that the loop compares with.
* `recvPackage_sound`, `recvPackage_complete` — the loop ends with success exactly on such bytes.

`checksum` of `FSUS_CalcChecksum` has no initial value: what it starts from is a parameter. A size
of `0` makes the loop write past the buffer, which fails.
-/

import Robocon.Lib.Buffer

namespace Robocon.Servo

open Lib

/-! ### The format -/

/-- `FSUS_PACK_REQUEST_HEADER`. -/
def requestHeader : UInt16 := 0x4C12

/-- `FSUS_PACK_RESPONSE_HEADER`. -/
def responseHeader : UInt16 := 0x1C05

/-- `FSUS_CMD_NUM`. -/
def cmdNum : UInt8 := 17

/-- `FSUS_PACK_RESPONSE_MAX_SIZE`. -/
def responseMaxSize : ℕ := 50

/-- `FSUS_STATUS`. -/
inductive Status
  | success
  | fail
  | timeout
  | wrongResponseHeader
  | unkownCmdId
  | sizeTooBig
  | checksumError
  | idNotMatch
  deriving DecidableEq

/-- `PackageTypeDef`. -/
structure Package where
  header : UInt16
  cmdId : UInt8
  size : UInt8
  content : Vector UInt8 responseMaxSize
  checksum : UInt8
  status : UInt8
  deriving DecidableEq

/-- The sum of `FSUS_CalcChecksum`. -/
def sum (start cmdId size : UInt8) (header : UInt16) (content : List UInt8) : UInt8 :=
  content.foldl (· + ·) (start + header.toUInt8 + (header >>> 8).toUInt8 + cmdId + size)

/-- `FSUS_CalcChecksum`. -/
def Package.calcChecksum (pkg : Package) (start : UInt8) : UInt8 :=
  sum start pkg.cmdId pkg.size pkg.header (filled pkg.content pkg.size.toNat)

/-- The bytes of `FSUS_UART_Send` for a package of `FSUS_SendPackage`, which fails on a content that
does not fit. -/
def sendPackage (start cmdId size : UInt8) (content : List UInt8) : Option (List UInt8) :=
  if size.toNat ≤ responseMaxSize ∧ size.toNat ≤ content.length then
    let content := content.take size.toNat
    some ([requestHeader.toUInt8, (requestHeader >>> 8).toUInt8, cmdId, size] ++ content ++
      [sum start cmdId size requestHeader content])
  else none

/-! ### The receiver -/

/-- `FSUS_RECV_FLAG_HEADER`. -/
def flagHeader : UInt8 := 0x01

/-- `FSUS_RECV_FLAG_CMD_ID`. -/
def flagCmdId : UInt8 := 0x02

/-- `FSUS_RECV_FLAG_SIZE`. -/
def flagSize : UInt8 := 0x04

/-- `FSUS_RECV_FLAG_CONTENT`. -/
def flagContent : UInt8 := 0x08

/-- `FSUS_RECV_FLAG_CHECKSUM`. -/
def flagChecksum : UInt8 := 0x10

/-- The variables of `FSUS_RecvPackage`. -/
structure Receiver where
  pkg : Package
  bIdx : UInt8
  header : UInt16

/-- One byte in the loop of `FSUS_RecvPackage`: the loop goes on, or it returns. -/
def Receiver.byte (start : UInt8) (r : Receiver) (tmpdata : UInt8) :
    Option (Receiver ⊕ (Status × Package)) :=
  let pkg := r.pkg
  if pkg.status &&& flagContent ≠ 0 then
    let pkg := { pkg with checksum := tmpdata, status := pkg.status ||| flagChecksum }
    if pkg.calcChecksum start ≠ pkg.checksum then some (.inr (.checksumError, pkg))
    else some (.inr (.success, pkg))
  else if pkg.status &&& flagSize ≠ 0 then
    if inside : r.bIdx.toNat < responseMaxSize then
      let pkg := { pkg with content := pkg.content.set r.bIdx.toNat tmpdata inside }
      let bIdx := r.bIdx + 1
      if bIdx = pkg.size then
        some (.inl { r with
          pkg := { pkg with status := pkg.status ||| flagContent }
          bIdx := bIdx })
      else some (.inl { r with pkg := pkg, bIdx := bIdx })
    else none
  else if pkg.status &&& flagCmdId ≠ 0 then
    let pkg := { pkg with size := tmpdata }
    if responseMaxSize - 5 < pkg.size.toNat then some (.inr (.sizeTooBig, pkg))
    else some (.inl { r with pkg := { pkg with status := pkg.status ||| flagSize } })
  else if pkg.status &&& flagHeader ≠ 0 then
    let pkg := { pkg with cmdId := tmpdata }
    if cmdNum < pkg.cmdId then some (.inr (.unkownCmdId, pkg))
    else some (.inl { r with pkg := { pkg with status := pkg.status ||| flagCmdId } })
  else if r.header = 0 then
    let header := tmpdata.toUInt16
    if header ≠ responseHeader &&& 0x0F then some (.inl { r with header := 0 })
    else some (.inl { r with header := header })
  else if r.header = responseHeader &&& 0x0F then
    let header := r.header ||| (tmpdata.toUInt16 <<< 8)
    if header ≠ responseHeader then some (.inl { r with header := 0 })
    else
      some (.inl { r with
        pkg := { pkg with header := header, status := pkg.status ||| flagHeader }
        header := header })
  else some (.inl { r with header := 0 })

/-- The loop of `FSUS_RecvPackage` over the bytes that arrive before it times out. -/
def Receiver.run (start : UInt8) : Receiver → List UInt8 → Option (Status × Package)
  | r, [] => some (.timeout, r.pkg)
  | r, tmpdata :: bytes =>
    match r.byte start tmpdata with
    | none => none
    | some (.inl r) => r.run start bytes
    | some (.inr returned) => some returned

/-- `FSUS_RecvPackage`. -/
def recvPackage (start : UInt8) (pkg : Package) (bytes : List UInt8) : Option (Status × Package) :=
  Receiver.run start ⟨{ pkg with status := 0 }, 0, 0⟩ bytes

/-! ### What is received -/

/-- Bytes without a header. -/
inductive Noise : List UInt8 → Prop
  | nil : Noise []
  | other {byte : UInt8} {bytes : List UInt8} (differs : byte ≠ 0x05) (rest : Noise bytes) :
      Noise (byte :: bytes)
  | broken {byte : UInt8} {bytes : List UInt8} (differs : byte ≠ 0x1C) (rest : Noise bytes) :
      Noise (0x05 :: byte :: bytes)

/-- The bytes bring a package: after bytes without a header, a header, a known command, a content
that is not empty and not too long, and the checksum. -/
def Arrives (start : UInt8) (bytes : List UInt8) (cmdId : UInt8) (content : List UInt8) : Prop :=
  ∃ noise rest size, Noise noise ∧ size.toNat = content.length ∧
    bytes = noise ++ 0x05 :: 0x1C :: cmdId :: size ::
      (content ++ sum start cmdId size responseHeader content :: rest) ∧
    cmdId ≤ cmdNum ∧ 0 < content.length ∧ content.length ≤ responseMaxSize - 5

section Receive

variable {start : UInt8} {pkg : Package}

/-! ### The header -/

theorem byte_first (zero : pkg.status = 0) :
    Receiver.byte start ⟨pkg, 0, 0⟩ 0x05 = some (.inl ⟨pkg, 0, 0x05⟩) := by
  have header : (0x05 : UInt16) = responseHeader &&& 0x0F := by decide
  simp [Receiver.byte, zero, ← header]

/-- The second byte completes the header exactly if it is `1C`. -/
theorem header_iff (byte : UInt8) :
    (0x05 : UInt16) ||| (byte.toUInt16 <<< 8) = responseHeader ↔ byte = 0x1C := by
  have all : ∀ value : Fin 256,
      (0x05 : UInt16) ||| ((UInt8.ofNat value).toUInt16 <<< 8) = responseHeader ↔
        UInt8.ofNat value = 0x1C := by
    decide +kernel
  have here := all ⟨byte.toNat, byte.toNat_lt⟩
  rwa [UInt8.ofNat_toNat] at here

theorem byte_second (zero : pkg.status = 0) (byte : UInt8) :
    Receiver.byte start ⟨pkg, 0, 0x05⟩ byte =
      if byte = 0x1C then
        some (.inl ⟨{ pkg with header := responseHeader, status := flagHeader }, 0,
          responseHeader⟩)
      else some (.inl ⟨pkg, 0, 0⟩) := by
  have header : (0x05 : UInt16) = responseHeader &&& 0x0F := by decide
  by_cases ends : byte = 0x1C
  · have full := (header_iff byte).mpr ends
    rw [if_pos ends]
    simp [Receiver.byte, zero, ← header, full]
  · have wrong := mt (header_iff byte).mp ends
    rw [if_neg ends]
    simp [Receiver.byte, zero, ← header, wrong]

theorem run_noise (zero : pkg.status = 0) {noise : List UInt8} (quiet : Noise noise)
    (rest : List UInt8) :
    Receiver.run start ⟨pkg, 0, 0⟩ (noise ++ rest) = Receiver.run start ⟨pkg, 0, 0⟩ rest := by
  induction quiet with
  | nil => rfl
  | @other byte bytes differs _ ih =>
    have skipped : Receiver.byte start ⟨pkg, 0, 0⟩ byte = some (.inl ⟨pkg, 0, 0⟩) := by
      have wide : byte.toUInt16 ≠ responseHeader &&& 0x0F := fun same =>
        differs (UInt8.toNat.inj (congrArg UInt16.toNat same))
      simp [Receiver.byte, zero, wide]
    rw [List.cons_append, Receiver.run, skipped]
    exact ih
  | @broken byte bytes differs _ ih =>
    rw [List.cons_append, List.cons_append, Receiver.run, byte_first zero]
    show Receiver.run start ⟨pkg, 0, 0x05⟩ (byte :: (bytes ++ rest)) = _
    rw [Receiver.run, byte_second zero, if_neg differs]
    exact ih

theorem run_header (zero : pkg.status = 0) {noise : List UInt8} (quiet : Noise noise)
    (rest : List UInt8) :
    Receiver.run start ⟨pkg, 0, 0⟩ (noise ++ 0x05 :: 0x1C :: rest) =
      Receiver.run start
        ⟨{ pkg with header := responseHeader, status := flagHeader }, 0, responseHeader⟩ rest := by
  rw [run_noise zero quiet, Receiver.run, byte_first zero]
  show Receiver.run start ⟨pkg, 0, 0x05⟩ (0x1C :: rest) = _
  rw [Receiver.run, byte_second zero, if_pos rfl]

/-- There is a header in the bytes, or the receiver skips them all. -/
theorem noise_or_header : ∀ bytes : List UInt8,
    (∃ noise rest, Noise noise ∧ bytes = noise ++ 0x05 :: 0x1C :: rest) ∨
      ∃ noise, Noise noise ∧ (bytes = noise ∨ bytes = noise ++ [0x05])
  | [] => Or.inr ⟨[], .nil, Or.inl rfl⟩
  | [byte] => by
    by_cases first : byte = 0x05
    · exact Or.inr ⟨[], .nil, Or.inr (by rw [first]; rfl)⟩
    · exact Or.inr ⟨[byte], .other first .nil, Or.inl rfl⟩
  | byte :: second :: bytes => by
    by_cases first : byte = 0x05
    · subst first
      by_cases ends : second = 0x1C
      · subst ends
        exact Or.inl ⟨[], bytes, .nil, rfl⟩
      · rcases noise_or_header bytes with ⟨noise, rest, quiet, rfl⟩ | ⟨noise, quiet, rfl | rfl⟩
        · exact Or.inl ⟨_, rest, .broken ends quiet, rfl⟩
        · exact Or.inr ⟨_, .broken ends quiet, Or.inl rfl⟩
        · exact Or.inr ⟨_, .broken ends quiet, Or.inr rfl⟩
    · rcases noise_or_header (second :: bytes) with
        ⟨noise, rest, quiet, same⟩ | ⟨noise, quiet, same | same⟩
      · exact Or.inl ⟨_, rest, .other first quiet, by rw [same]; rfl⟩
      · exact Or.inr ⟨_, .other first quiet, Or.inl (by rw [same])⟩
      · exact Or.inr ⟨_, .other first quiet, Or.inr (by rw [same]; rfl)⟩

theorem run_quiet (zero : pkg.status = 0) {noise : List UInt8} (quiet : Noise noise) :
    Receiver.run start ⟨pkg, 0, 0⟩ noise = some (.timeout, pkg) ∧
      Receiver.run start ⟨pkg, 0, 0⟩ (noise ++ [0x05]) = some (.timeout, pkg) := by
  refine ⟨?_, ?_⟩
  · have whole : Receiver.run start ⟨pkg, 0, 0⟩ (noise ++ []) = Receiver.run start ⟨pkg, 0, 0⟩ [] :=
      run_noise zero quiet []
    rw [List.append_nil] at whole
    rw [whole]
    rfl
  · rw [run_noise zero quiet, Receiver.run, byte_first zero]
    rfl

/-! ### The content -/

/-- The receiver has a number of bytes of the content. -/
structure Reading (r : Receiver) (count : ℕ) : Prop where
  status : r.pkg.status = flagHeader ||| flagCmdId ||| flagSize
  bIdx : r.bIdx.toNat = count
  more : count < r.pkg.size.toNat
  fits : r.pkg.size.toNat ≤ responseMaxSize - 5

/-- A receiver whose package has the same header, command and size, and the same bytes behind its
content. -/
structure Same (r r' : Receiver) : Prop where
  header : r'.pkg.header = r.pkg.header
  cmdId : r'.pkg.cmdId = r.pkg.cmdId
  size : r'.pkg.size = r.pkg.size
  behind : r'.pkg.content.toList.drop r.pkg.size.toNat = r.pkg.content.toList.drop r.pkg.size.toNat

theorem Reading.byte {r : Receiver} {count : ℕ} (reading : Reading r count) (start value : UInt8) :
    ∃ r', Receiver.byte start r value = some (.inl r') ∧ Same r r' ∧
      filled r'.pkg.content (count + 1) = filled r.pkg.content count ++ [value] ∧
      (count + 1 < r.pkg.size.toNat → Reading r' (count + 1)) ∧
      (count + 1 = r.pkg.size.toNat →
        r'.pkg.status = flagHeader ||| flagCmdId ||| flagSize ||| flagContent) := by
  obtain ⟨status, bIdx, more, fits⟩ := reading
  have small : r.pkg.size.toNat ≤ 45 := fits
  have inside : r.bIdx.toNat < responseMaxSize := by
    unfold responseMaxSize
    omega
  have next : (r.bIdx + 1).toNat = count + 1 := by
    rw [UInt8.toNat_add, bIdx]
    show (count + 1) % 256 = count + 1
    omega
  have first : ¬ (r.pkg.status &&& flagContent ≠ 0) := by rw [status]; decide
  have second : r.pkg.status &&& flagSize ≠ 0 := by rw [status]; decide
  have appended : filled (r.pkg.content.set r.bIdx.toNat value inside) (count + 1) =
      filled r.pkg.content count ++ [value] := by
    subst bIdx
    exact filled_set _ _ inside
  have behind : (r.pkg.content.set r.bIdx.toNat value inside).toList.drop r.pkg.size.toNat =
      r.pkg.content.toList.drop r.pkg.size.toNat := by
    rw [Vector.toList_set, List.drop_set, if_pos (by rw [bIdx]; exact more)]
  unfold Receiver.byte
  simp only [if_neg first, if_pos second, dif_pos inside]
  by_cases last : r.bIdx + 1 = r.pkg.size
  · have total : count + 1 = r.pkg.size.toNat := by rw [← last, next]
    rw [if_pos last]
    refine ⟨_, rfl, ⟨rfl, rfl, rfl, behind⟩, appended, fun less => absurd total less.ne,
      fun _ => ?_⟩
    show r.pkg.status ||| flagContent = _
    rw [status]
  · rw [if_neg last]
    refine ⟨_, rfl, ⟨rfl, rfl, rfl, behind⟩, appended, fun less => ⟨status, next, less, fits⟩,
      fun total => absurd (UInt8.toNat.inj (next.trans total)) last⟩

theorem Reading.run {content : List UInt8} : ∀ {r : Receiver} {count : ℕ}, Reading r count →
    count + content.length = r.pkg.size.toNat → ∀ (start : UInt8) (rest : List UInt8),
      ∃ r', Receiver.run start r (content ++ rest) = Receiver.run start r' rest ∧ Same r r' ∧
        filled r'.pkg.content r.pkg.size.toNat = filled r.pkg.content count ++ content ∧
        r'.pkg.status = flagHeader ||| flagCmdId ||| flagSize ||| flagContent := by
  induction content with
  | nil => exact fun reading total => absurd total reading.more.ne
  | cons value content ih =>
    intro r count reading total start rest
    obtain ⟨middle, step, same, appended, more, last⟩ := reading.byte start value
    have taken : Receiver.run start r (value :: content ++ rest) =
        Receiver.run start middle (content ++ rest) := by
      rw [List.cons_append, Receiver.run, step]
    rw [List.length_cons] at total
    by_cases ends : content = []
    · subst ends
      have full : count + 1 = r.pkg.size.toNat := total
      refine ⟨middle, taken, same, ?_, last full⟩
      rw [← full, appended]
    · have some := List.length_pos_iff.mpr ends
      have reading' := more (by omega)
      have total' : count + 1 + content.length = middle.pkg.size.toNat := by
        rw [same.size]
        omega
      obtain ⟨final, rest', same', filled', status⟩ := ih reading' total' start rest
      have behind := same'.behind
      rw [same.size] at behind
      refine ⟨final, taken.trans rest', ⟨same'.header.trans same.header,
        same'.cmdId.trans same.cmdId, same'.size.trans same.size, behind.trans same.behind⟩,
        ?_, status⟩
      rw [← same.size, filled', appended, List.append_assoc]
      rfl

theorem Reading.short {bytes : List UInt8} : ∀ {r : Receiver} {count : ℕ}, Reading r count →
    count + bytes.length < r.pkg.size.toNat →
      ∃ pkg', Receiver.run start r bytes = some (.timeout, pkg') := by
  induction bytes with
  | nil => exact fun _ _ => ⟨_, rfl⟩
  | cons value bytes ih =>
    intro r count reading less
    obtain ⟨middle, step, same, -, more, -⟩ := reading.byte start value
    rw [List.length_cons] at less
    have less' : count + 1 + bytes.length < middle.pkg.size.toNat := by
      rw [same.size]
      omega
    obtain ⟨pkg', rest⟩ := ih (more (by omega)) less'
    exact ⟨pkg', by rw [Receiver.run, step]; exact rest⟩

/-! ### A size of zero -/

theorem byte_starved {r : Receiver} (status : r.pkg.status = flagHeader ||| flagCmdId ||| flagSize)
    (size : r.pkg.size = 0) (inside : r.bIdx.toNat < responseMaxSize) (tmpdata : UInt8) :
    ∃ r', r.byte start tmpdata = some (.inl r') ∧ r'.pkg.status = r.pkg.status ∧
      r'.pkg.size = 0 ∧ r'.bIdx.toNat = r.bIdx.toNat + 1 := by
  have first : ¬ (r.pkg.status &&& flagContent ≠ 0) := by rw [status]; decide
  have second : r.pkg.status &&& flagSize ≠ 0 := by rw [status]; decide
  have next : (r.bIdx + 1).toNat = r.bIdx.toNat + 1 := by
    unfold responseMaxSize at inside
    rw [UInt8.toNat_add]
    show (r.bIdx.toNat + 1) % 256 = _
    omega
  have passed : r.bIdx + 1 ≠ r.pkg.size := by
    rw [size]
    intro zero
    rw [zero] at next
    exact absurd next.symm (Nat.succ_ne_zero _)
  unfold Receiver.byte
  simp only [if_neg first, if_pos second, dif_pos inside, if_neg passed]
  exact ⟨_, rfl, rfl, size, next⟩

theorem run_starved {bytes : List UInt8} : ∀ {r : Receiver},
    r.pkg.status = flagHeader ||| flagCmdId ||| flagSize → r.pkg.size = 0 →
      r.bIdx.toNat + bytes.length ≤ responseMaxSize →
      ∃ pkg', Receiver.run start r bytes = some (.timeout, pkg') := by
  induction bytes with
  | nil => exact fun {r} _ _ _ => ⟨r.pkg, rfl⟩
  | cons tmpdata bytes ih =>
    intro r status size fits
    rw [List.length_cons] at fits
    obtain ⟨middle, step, status', size', next⟩ :=
      byte_starved status size (by omega) tmpdata
    rw [Receiver.run, step]
    exact ih (status'.trans status) size' (by omega)

theorem run_overflows {bytes : List UInt8} : ∀ {r : Receiver},
    r.pkg.status = flagHeader ||| flagCmdId ||| flagSize → r.pkg.size = 0 →
      responseMaxSize < r.bIdx.toNat + bytes.length → r.bIdx.toNat ≤ responseMaxSize →
      Receiver.run start r bytes = none := by
  induction bytes with
  | nil =>
    intro r _ _ long bound
    exact absurd long (Nat.not_lt.mpr bound)
  | cons tmpdata bytes ih =>
    intro r status size long bound
    rw [List.length_cons] at long
    rw [Receiver.run]
    rcases bound.lt_or_eq with inside | full
    · obtain ⟨middle, step, status', size', next⟩ := byte_starved status size inside tmpdata
      rw [step]
      exact ih (status'.trans status) size' (by omega) (by omega)
    · have first : ¬ (r.pkg.status &&& flagContent ≠ 0) := by rw [status]; decide
      have second : r.pkg.status &&& flagSize ≠ 0 := by rw [status]; decide
      have outside : r.byte start tmpdata = none := by
        unfold Receiver.byte
        simp only [if_neg first, if_pos second, dif_neg full.not_lt]
      rw [outside]

theorem run_empty {r : Receiver} (status : r.pkg.status = flagHeader ||| flagCmdId ||| flagSize)
    (size : r.pkg.size = 0) (inside : r.bIdx.toNat ≤ responseMaxSize) (bytes : List UInt8)
    (pkg' : Package) : Receiver.run start r bytes ≠ some (.success, pkg') := by
  rcases Nat.lt_or_ge responseMaxSize (r.bIdx.toNat + bytes.length) with long | fits
  · rw [run_overflows status size long inside]
    exact fun same => by cases same
  · obtain ⟨last, timeout⟩ := run_starved status size fits
    rw [timeout]
    exact fun same => by cases same

/-! ### The whole package -/

theorem byte_cmdId {r : Receiver} (status : r.pkg.status = flagHeader) (value : UInt8) :
    Receiver.byte start r value =
      if cmdNum < value then some (.inr (.unkownCmdId, { r.pkg with cmdId := value }))
      else some (.inl { r with
        pkg := { r.pkg with cmdId := value, status := flagHeader ||| flagCmdId } }) := by
  have bits : flagHeader &&& flagContent = 0 ∧ flagHeader &&& flagSize = 0 ∧
      flagHeader &&& flagCmdId = 0 ∧ flagHeader &&& flagHeader ≠ 0 := by decide
  unfold Receiver.byte
  simp only [status, bits.1, bits.2.1, bits.2.2.1, ne_eq, bits.2.2.2, not_true, not_false_iff,
    if_true, if_false]

theorem byte_size {r : Receiver} (status : r.pkg.status = flagHeader ||| flagCmdId)
    (value : UInt8) :
    Receiver.byte start r value =
      if responseMaxSize - 5 < value.toNat then
        some (.inr (.sizeTooBig, { r.pkg with size := value }))
      else some (.inl { r with
        pkg := { r.pkg with
          size := value
          status := flagHeader ||| flagCmdId ||| flagSize } }) := by
  have bits : (flagHeader ||| flagCmdId) &&& flagContent = 0 ∧
      (flagHeader ||| flagCmdId) &&& flagSize = 0 ∧
      (flagHeader ||| flagCmdId) &&& flagCmdId ≠ 0 := by decide
  unfold Receiver.byte
  simp only [status, bits.1, bits.2.1, ne_eq, bits.2.2, not_true, not_false_iff, if_true, if_false]

theorem byte_checksum (start : UInt8) {r : Receiver}
    (status : r.pkg.status = flagHeader ||| flagCmdId ||| flagSize ||| flagContent)
    (value : UInt8) :
    ∃ pkg', pkg' = { r.pkg with checksum := value, status := r.pkg.status ||| flagChecksum } ∧
      Receiver.byte start r value =
        if r.pkg.calcChecksum start = value then some (.inr (.success, pkg'))
        else some (.inr (.checksumError, pkg')) := by
  have bit : (flagHeader ||| flagCmdId ||| flagSize ||| flagContent) &&& flagContent ≠ 0 := by
    decide
  refine ⟨_, rfl, ?_⟩
  unfold Receiver.byte
  simp only [status, ne_eq, bit, not_false_iff, if_true]
  by_cases same : r.pkg.calcChecksum start = value
  · rw [if_pos same]
    exact if_neg (not_not.mpr same)
  · rw [if_neg same]
    exact if_pos same

/-- The receiver after a header, a known command and a size that fits. -/
def Receiver.sized (pkg : Package) (cmdId size : UInt8) : Receiver :=
  ⟨{ pkg with
    header := responseHeader
    cmdId := cmdId
    size := size
    status := flagHeader ||| flagCmdId ||| flagSize }, 0, responseHeader⟩

/-- The receiver after a header, a command and a size. -/
theorem run_size (start : UInt8) (pkg : Package) {noise : List UInt8} (quiet : Noise noise)
    (cmdId size : UInt8) (rest : List UInt8) :
    (cmdNum < cmdId ∨ responseMaxSize - 5 < size.toNat →
      ∃ status pkg', status ≠ .success ∧
        recvPackage start pkg (noise ++ 0x05 :: 0x1C :: cmdId :: size :: rest) =
          some (status, pkg')) ∧
    (cmdId ≤ cmdNum → size.toNat ≤ responseMaxSize - 5 →
      recvPackage start pkg (noise ++ 0x05 :: 0x1C :: cmdId :: size :: rest) =
        Receiver.run start (.sized pkg cmdId size) rest) := by
  have zero : ({ pkg with status := 0 } : Package).status = 0 := rfl
  rw [recvPackage, run_header zero quiet, Receiver.run, byte_cmdId rfl]
  refine ⟨fun wrong => ?_, fun known fits => ?_⟩
  · by_cases unknown : cmdNum < cmdId
    · rw [if_pos unknown]
      exact ⟨.unkownCmdId, _, by decide, rfl⟩
    · rw [if_neg unknown]
      show ∃ status pkg', _ ∧ Receiver.run start _ (size :: rest) = _
      rw [Receiver.run, byte_size rfl, if_pos (wrong.resolve_left unknown)]
      exact ⟨.sizeTooBig, _, by decide, rfl⟩
  · rw [if_neg (UInt8.not_lt.mpr known)]
    show Receiver.run start _ (size :: rest) = _
    rw [Receiver.run, byte_size rfl, if_neg (Nat.not_lt.mpr fits)]
    rfl

theorem reading_sized {cmdId size : UInt8} (some : 0 < size.toNat)
    (fits : size.toNat ≤ responseMaxSize - 5) : Reading (.sized pkg cmdId size) 0 :=
  ⟨rfl, rfl, some, fits⟩

/-- The package has a command and a content; behind the content it has what it had before. -/
structure Holds (old : Package) (cmdId : UInt8) (content : List UInt8) (pkg' : Package) :
    Prop where
  cmdId : pkg'.cmdId = cmdId
  size : pkg'.size.toNat = content.length
  content : pkg'.content.toList = content ++ old.content.toList.drop content.length

theorem Holds.filled {cmdId : UInt8} {content : List UInt8} {pkg' : Package}
    (holds : Holds pkg cmdId content pkg') : filled pkg'.content content.length = content := by
  rw [Lib.filled, holds.content, List.take_left]

theorem run_content (start : UInt8) (pkg : Package) (cmdId : UInt8) {size : UInt8}
    {content : List UInt8} (length : content.length = size.toNat) (some : 0 < size.toNat)
    (fits : size.toNat ≤ responseMaxSize - 5) (value : UInt8) (rest : List UInt8) :
    ∃ pkg', Holds pkg cmdId content pkg' ∧
      Receiver.run start (.sized pkg cmdId size) (content ++ value :: rest) =
        if sum start cmdId size responseHeader content = value then .some (.success, pkg')
        else .some (.checksumError, pkg') := by
  have total : 0 + content.length = size.toNat := by rw [Nat.zero_add, length]
  have reading : Reading (.sized pkg cmdId size) 0 := reading_sized some fits
  obtain ⟨r, run, same, received, status⟩ := reading.run total start (value :: rest)
  obtain ⟨pkg', last, step⟩ := byte_checksum start status value
  have got : filled r.pkg.content size.toNat = content := received
  have behind : r.pkg.content.toList.drop size.toNat = pkg.content.toList.drop size.toNat :=
    same.behind
  have whole : r.pkg.content.toList = content ++ pkg.content.toList.drop content.length := by
    rw [length, ← behind, ← got, filled, List.take_append_drop]
  have checksum : r.pkg.calcChecksum start = sum start cmdId size responseHeader content := by
    rw [Package.calcChecksum, same.size, same.cmdId, same.header]
    show sum start cmdId size responseHeader (filled r.pkg.content size.toNat) = _
    rw [got]
  have size' : r.pkg.size.toNat = content.length := by
    rw [same.size]
    exact length.symm
  have holds : Holds pkg cmdId content pkg' := by
    rw [last]
    exact ⟨same.cmdId, size', whole⟩
  refine ⟨pkg', holds, ?_⟩
  rw [run, Receiver.run, step, checksum]
  split_ifs <;> rfl

/-- A content that breaks off, or after which the checksum is missing. -/
theorem run_breaks (start : UInt8) (pkg : Package) (cmdId : UInt8) {size : UInt8}
    (some : 0 < size.toNat) (fits : size.toNat ≤ responseMaxSize - 5) {bytes : List UInt8}
    (short : bytes.length ≤ size.toNat) :
    ∃ pkg', Receiver.run start (.sized pkg cmdId size) bytes = .some (.timeout, pkg') := by
  have reading : Reading (.sized pkg cmdId size) 0 := reading_sized some fits
  rcases Nat.lt_or_eq_of_le short with less | full
  · exact reading.short (by rw [Nat.zero_add]; exact less)
  · obtain ⟨r, run, -⟩ := reading.run (by rw [Nat.zero_add]; exact full) start []
    rw [List.append_nil] at run
    exact ⟨r.pkg, by rw [run]; rfl⟩

/-- **What is received.** A success means that a package arrived, and gives its content. -/
theorem recvPackage_sound {bytes : List UInt8} {pkg' : Package}
    (success : recvPackage start pkg bytes = some (.success, pkg')) :
    ∃ cmdId content, Arrives start bytes cmdId content ∧
      filled pkg'.content content.length = content := by
  have zero : ({ pkg with status := 0 } : Package).status = 0 := rfl
  obtain ⟨noise, rest, quiet, rfl⟩ | ⟨noise, quiet, rfl | rfl⟩ := noise_or_header bytes
  case inr.inl =>
    rw [recvPackage, (run_quiet zero quiet).1] at success
    cases success
  case inr.inr =>
    rw [recvPackage, (run_quiet zero quiet).2] at success
    cases success
  match rest with
  | [] =>
    rw [recvPackage, run_header zero quiet] at success
    cases success
  | [cmdId] =>
    rw [recvPackage, run_header zero quiet, Receiver.run, byte_cmdId rfl] at success
    split_ifs at success <;> cases success
  | cmdId :: size :: rest =>
    obtain ⟨wrong, right⟩ := run_size start pkg quiet cmdId size rest
    by_cases checked : cmdNum < cmdId ∨ responseMaxSize - 5 < size.toNat
    · obtain ⟨status, last, failed, returned⟩ := wrong checked
      rw [returned] at success
      cases success
      exact absurd rfl failed
    obtain ⟨known, fits⟩ := not_or.mp checked
    rw [right (UInt8.not_lt.mp known) (Nat.not_lt.mp fits)] at success
    by_cases empty : size = 0
    · subst empty
      exact absurd success (run_empty rfl rfl (Nat.zero_le _) rest pkg')
    have some : 0 < size.toNat := by
      refine Nat.pos_of_ne_zero fun zero => empty (UInt8.toNat.inj ?_)
      rw [zero]
      rfl
    rcases Nat.lt_or_ge size.toNat rest.length with long | short
    · have bound := Nat.not_lt.mp fits
      have length : (rest.take size.toNat).length = size.toNat := List.length_take_of_le long.le
      obtain ⟨value, after, ends⟩ := List.exists_cons_of_length_pos
        (show 0 < (rest.drop size.toNat).length by rw [List.length_drop]; omega)
      have whole : rest = rest.take size.toNat ++ value :: after := by
        rw [← ends, List.take_append_drop]
      obtain ⟨last, received, run⟩ :=
        run_content start pkg cmdId length some bound value after
      rw [whole, run] at success
      by_cases checksum : sum start cmdId size responseHeader (rest.take size.toNat) = value
      · rw [if_pos checksum] at success
        obtain ⟨-, rfl⟩ := Prod.mk.inj (Option.some.inj success)
        refine ⟨cmdId, rest.take size.toNat, ⟨noise, after, size, quiet, length.symm, ?_,
          UInt8.not_lt.mp known, by rw [length]; exact some, by rw [length]; exact bound⟩,
          received.filled⟩
        rw [checksum, ← whole]
      · rw [if_neg checksum] at success
        cases success
    · obtain ⟨last, timeout⟩ := run_breaks start pkg cmdId some (Nat.not_lt.mp fits) short
      rw [timeout] at success
      cases success

theorem recvPackage_complete {bytes : List UInt8} {cmdId : UInt8} {content : List UInt8}
    (arrives : Arrives start bytes cmdId content) :
    ∃ pkg', recvPackage start pkg bytes = some (.success, pkg') ∧
      filled pkg'.content content.length = content := by
  obtain ⟨noise, rest, size, quiet, length, rfl, known, some, fits⟩ := arrives
  rw [← length] at some fits
  obtain ⟨pkg', received, run⟩ := run_content start pkg cmdId length.symm some fits
    (sum start cmdId size responseHeader content) rest
  refine ⟨pkg', ?_, received.filled⟩
  rw [(run_size start pkg quiet cmdId size _).2 known fits, run, if_pos rfl]

end Receive

end Robocon.Servo
