import Rustcast.Core.Bytes
import Rustcast.Host.Privacy

/-!
# The snapshot file of privacy mode

Before privacy mode changes the display topology, `write_snapshot` of `ccd_display.rs` saves it to a
file, and `read_snapshot` accepts the file only in the boot session that wrote it. A session is
identified by the second in which the machine was started, which both functions compute from the
wall clock and the uptime.
-/

namespace Rustcast.Host.PrivacySnapshot

open Bytes

/-! ## The file format -/

/-- A value of a plain structure, as its memory. -/
structure RawStruct (size : Nat) where
  bytes : List UInt8
  length : bytes.length = size
  deriving DecidableEq

/-- The sizes of `DISPLAYCONFIG_PATH_INFO` and `DISPLAYCONFIG_MODE_INFO`, which the Windows headers
define. -/
structure SnapshotLayout where
  pathSize : Nat
  modeSize : Nat
  pathSize_pos : 0 < pathSize
  modeSize_pos : 0 < modeSize
  pathSize_lt : pathSize < 2 ^ 31
  modeSize_lt : modeSize < 2 ^ 31

structure DisplayConfig (layout : SnapshotLayout) where
  paths : List (RawStruct layout.pathSize)
  modes : List (RawStruct layout.modeSize)
  deriving DecidableEq

def snapshotMagic : List UInt8 := [0x46, 0x4c, 0x55, 0x58, 0x50, 0x52, 0x49, 0x56]

def snapshotVersion : Nat := 1

/-- `boot_session_id`, on a machine that was started `boot` milliseconds after the Unix epoch. A wall
clock before the epoch reads as zero, and the subtraction saturates. -/
def bootSessionId (boot : Int64) (uptimeMs : UInt64) : Nat :=
  let wall := boot.toInt + uptimeMs.toNat
  let now := if wall < 0 then 0 else wall.toNat / 1000
  now - uptimeMs.toNat / 1000

/-- What `append_snapshot_vec` appends. -/
def snapshotVec {size : Nat} (values : List (RawStruct size)) : List UInt8 :=
  leBytes 4 (values.length % 2 ^ 32) ++ values.flatMap RawStruct.bytes

section

variable (layout : SnapshotLayout) (boot : Int64) (uptimeMs : UInt64)

def snapshotBytes (config : DisplayConfig layout) : List UInt8 :=
  snapshotMagic ++ (leBytes 4 snapshotVersion ++ (leBytes 4 (layout.pathSize % 2 ^ 32) ++
    (leBytes 4 (layout.modeSize % 2 ^ 32) ++ (leBytes 8 (bootSessionId boot uptimeMs) ++
      (snapshotVec config.paths ++ snapshotVec config.modes)))))

/-- The errors of the file operations of `write_snapshot`. -/
structure SnapshotIo where
  createDir : Option String
  write : Option String
  rename : Option String

/-- The content of the snapshot file behind `write_snapshot`, if it succeeds. -/
def writeSnapshot (io : SnapshotIo) (config : DisplayConfig layout) : Except CcdError (List UInt8) :=
  match io.createDir, io.write, io.rename with
  | some source, _, _ => .error (.snapshotIo "create privacy snapshot directory" source)
  | none, some source, _ => .error (.snapshotIo "write privacy topology snapshot" source)
  | none, none, some source => .error (.snapshotIo "commit privacy topology snapshot" source)
  | none, none, none => .ok (snapshotBytes layout boot uptimeMs config)

/-- The two integer readers: the value and the offset behind it. -/
def readSnapshotUint (width : Nat) (bytes : List UInt8) (offset : Nat) : Except CcdError (Nat × Nat) :=
  if 2 ^ 64 ≤ offset + width then .error (.snapshotInvalid "offset overflow")
  else if bytes.length < offset + width then .error (.snapshotInvalid "is truncated")
  else .ok (leNat ((bytes.drop offset).take width), offset + width)

def readSnapshotU32 : List UInt8 → Nat → Except CcdError (Nat × Nat) := readSnapshotUint 4

def readSnapshotU64 : List UInt8 → Nat → Except CcdError (Nat × Nat) := readSnapshotUint 8

/-- Up to `count` values from the front of the bytes. -/
def rawStructs (size : Nat) : (count : Nat) → List UInt8 → List (RawStruct size)
  | 0, _ => []
  | count + 1, bytes =>
    if h : size ≤ bytes.length then
      ⟨bytes.take size, List.length_take_of_le h⟩ :: rawStructs size count (bytes.drop size)
    else []

/-- The values that the loop over `chunks_exact` copies. -/
def chunksExact (size : Nat) (bytes : List UInt8) : List (RawStruct size) :=
  rawStructs size (bytes.length / size) bytes

def readSnapshotVec (size : Nat) (bytes : List UInt8) (offset : Nat) :
    Except CcdError (List (RawStruct size) × Nat) := do
  let (count, offset) ← readSnapshotU32 bytes offset
  if 2 ^ 64 ≤ size * count then .error (.snapshotInvalid "size overflow")
  else if 2 ^ 64 ≤ offset + size * count then .error (.snapshotInvalid "offset overflow")
  else if bytes.length < offset + size * count then .error (.snapshotInvalid "is truncated")
  else .ok (chunksExact size ((bytes.drop offset).take (size * count)), offset + size * count)

/-- The part of `read_snapshot` behind the header. -/
def readSnapshotBody (bytes : List UInt8) (offset : Nat) : Except CcdError (DisplayConfig layout) := do
  let (paths, offset) ← readSnapshotVec layout.pathSize bytes offset
  let (modes, offset) ← readSnapshotVec layout.modeSize bytes offset
  if offset ≠ bytes.length then .error (.snapshotInvalid "contains trailing data")
  else .ok { paths, modes }

/-- `read_snapshot`, on the result of reading the file. -/
def readSnapshot (file : Except String (List UInt8)) : Except CcdError (DisplayConfig layout) := do
  let bytes ← file.mapError (CcdError.snapshotIo "read privacy topology snapshot")
  if bytes.length < 28 ∨ bytes.take 8 ≠ snapshotMagic then
    .error (.snapshotInvalid "has an invalid magic value")
  else
    let (version, offset) ← readSnapshotU32 bytes 8
    if version ≠ snapshotVersion then
      .error (.snapshotInvalid ("version " ++ toString version ++ " is unsupported"))
    else
      let (pathSize, offset) ← readSnapshotU32 bytes offset
      let (modeSize, offset) ← readSnapshotU32 bytes offset
      if pathSize ≠ layout.pathSize ∨ modeSize ≠ layout.modeSize then
        .error (.snapshotInvalid ("struct sizes do not match (path " ++ toString pathSize ++
          ", mode " ++ toString modeSize ++ ")"))
      else
        let (bootSession, offset) ← readSnapshotU64 bytes offset
        let currentBootSession := bootSessionId boot uptimeMs
        if bootSession ≠ currentBootSession then
          .error (.snapshotInvalid ("belongs to boot session " ++ toString bootSession ++
            ", current session is " ++ toString currentBootSession))
        else readSnapshotBody layout bytes offset

end

/-! ## The boot session -/

/-- The milliseconds of the start and of the uptime add up to a full second. -/
def Carries (boot : Int64) (uptimeMs : UInt64) : Prop :=
  1000 ≤ boot.toInt % 1000 + uptimeMs.toNat % 1000

instance (boot : Int64) (uptimeMs : UInt64) : Decidable (Carries boot uptimeMs) :=
  inferInstanceAs (Decidable (_ ≤ _))

/-- The two clocks are rounded down one by one, so the identifier is the second of the start or the
one behind it, depending on the instant at which it is computed. -/
theorem bootSessionId_eq (boot : Int64) (uptimeMs : UInt64) :
    bootSessionId boot uptimeMs =
      if boot.toInt < 0 then 0
      else (boot.toInt / 1000).toNat + if Carries boot uptimeMs then 1 else 0 := by
  unfold bootSessionId
  simp only
  by_cases hboot : boot.toInt < 0
  · -- the wall clock is behind the uptime, so the subtraction saturates
    split <;> omega
  · rw [if_neg hboot, if_neg (by omega)]
    by_cases hcarry : Carries boot uptimeMs
    · rw [if_pos hcarry]
      unfold Carries at hcarry
      omega
    · rw [if_neg hcarry]
      unfold Carries at hcarry
      omega

theorem bootSessionId_lt (boot : Int64) (uptimeMs : UInt64) : bootSessionId boot uptimeMs < 256 ^ 8 := by
  have hboot := boot.toInt_lt
  rw [bootSessionId_eq]
  split <;> try split
  all_goals omega

theorem bootSessionId_eq_iff (boot : Int64) (first second : UInt64) :
    bootSessionId boot first = bootSessionId boot second ↔
      boot < 0 ∨ (Carries boot first ↔ Carries boot second) := by
  have hneg : boot < 0 ↔ boot.toInt < 0 := Int64.lt_iff_toInt_lt
  rw [bootSessionId_eq, bootSessionId_eq, hneg]
  by_cases hboot : boot.toInt < 0
  · simp [hboot]
  · by_cases hfirst : Carries boot first <;> by_cases hsecond : Carries boot second <;>
      simp [hboot, hfirst, hsecond]

/-! ## Reading back -/

section readers

variable {size width n offset : Nat} {bytes rest : List UInt8}

variable {xs : List UInt8} {values : List (RawStruct size)}

theorem drop_behind (hat : bytes.drop offset = xs ++ rest) : bytes.drop (offset + xs.length) = rest := by
  rw [← List.drop_drop, hat, List.drop_left]

theorem length_of_drop (hat : bytes.drop offset = xs ++ rest) (hxs : 0 < xs.length) :
    bytes.length = offset + xs.length + rest.length := by
  have hlength := congrArg List.length hat
  rw [List.length_drop, List.length_append] at hlength
  omega

theorem readSnapshotUint_of_drop (hat : bytes.drop offset = leBytes width n ++ rest)
    (hwidth : 0 < width) (hn : n < 256 ^ width) (hoffset : offset + width < 2 ^ 64) :
    readSnapshotUint width bytes offset = .ok (n, offset + width) := by
  have hlength := length_of_drop hat (by simpa using hwidth)
  rw [length_leBytes] at hlength
  have htake : (bytes.drop offset).take width = leBytes width n := by
    rw [hat]
    exact List.take_left' (length_leBytes width n)
  unfold readSnapshotUint
  rw [if_neg (by omega), if_neg (by omega), htake, leNat_leBytes hn]

theorem length_rawStructs {count : Nat} (h : size * count ≤ bytes.length) :
    (rawStructs size count bytes).length = count := by
  induction count generalizing bytes with
  | zero => rfl
  | succ count ih =>
    rw [Nat.mul_succ] at h
    have hrest : size * count ≤ (bytes.drop size).length := by
      rw [List.length_drop]
      omega
    rw [rawStructs, dif_pos (by omega), List.length_cons, ih hrest]

theorem length_flatMap_bytes (values : List (RawStruct size)) :
    (values.flatMap RawStruct.bytes).length = size * values.length := by
  induction values with
  | nil => rfl
  | cons value values ih =>
    rw [List.flatMap_cons, List.length_append, value.length, List.length_cons, Nat.mul_succ]
    omega

theorem rawStructs_flatMap (values : List (RawStruct size)) :
    rawStructs size values.length (values.flatMap RawStruct.bytes) = values := by
  induction values with
  | nil => rfl
  | cons value values ih =>
    have hlength := value.length
    have htake : (value.bytes ++ values.flatMap RawStruct.bytes).take size = value.bytes :=
      List.take_left' hlength
    have hdrop : (value.bytes ++ values.flatMap RawStruct.bytes).drop size =
        values.flatMap RawStruct.bytes := List.drop_left' hlength
    rw [List.flatMap_cons, List.length_cons, rawStructs, dif_pos (by simp [hlength])]
    simp only [htake, hdrop, ih]

theorem chunksExact_flatMap (hsize : 0 < size) (values : List (RawStruct size)) :
    chunksExact size (values.flatMap RawStruct.bytes) = values := by
  rw [chunksExact, length_flatMap_bytes, Nat.mul_div_cancel_left _ hsize, rawStructs_flatMap]

theorem length_snapshotVec (values : List (RawStruct size)) :
    (snapshotVec values).length = 4 + size * values.length := by
  rw [snapshotVec, List.length_append, length_leBytes, length_flatMap_bytes]

theorem readSnapshotVec_of_drop (hsize : 0 < size) (hat : bytes.drop offset = snapshotVec values ++ rest)
    (hcount : values.length < 2 ^ 32) (hbytes : bytes.length < 2 ^ 64) :
    readSnapshotVec size bytes offset = .ok (values, offset + (snapshotVec values).length) := by
  have hlength := length_of_drop hat (by rw [length_snapshotVec]; omega)
  rw [length_snapshotVec] at hlength ⊢
  unfold snapshotVec at hat
  rw [Nat.mod_eq_of_lt hcount, List.append_assoc] at hat
  have hnumber := readSnapshotUint_of_drop hat (by decide) hcount (by omega)
  have hbehind := drop_behind hat
  rw [length_leBytes] at hbehind
  have htake : (bytes.drop (offset + 4)).take (size * values.length) =
      values.flatMap RawStruct.bytes := by
    rw [hbehind]
    exact List.take_left' (length_flatMap_bytes values)
  unfold readSnapshotVec readSnapshotU32
  rw [hnumber]
  show (if 2 ^ 64 ≤ size * values.length then _ else _) = _
  rw [if_neg (by omega), if_neg (by omega), if_neg (by omega), htake, chunksExact_flatMap hsize,
    Nat.add_assoc]

/-- No vector that is read has more values than its number field can say. -/
theorem length_lt_of_readSnapshotVec (hsize : 0 < size) {offset' : Nat}
    (h : readSnapshotVec size bytes offset = .ok (values, offset')) :
    values.length < 2 ^ 32 := by
  unfold readSnapshotVec readSnapshotU32 readSnapshotUint at h
  split at h
  · cases h
  split at h
  · cases h
  have hlt := leNat_lt ((bytes.drop offset).take 4)
  rw [List.length_take_of_le (by rw [List.length_drop]; omega)] at hlt
  generalize leNat ((bytes.drop offset).take 4) = count at h hlt
  replace h : (if 2 ^ 64 ≤ size * count then _ else _) = _ := h
  split at h
  · cases h
  split at h
  · cases h
  split at h
  · cases h
  cases h
  have hslice : ((bytes.drop (offset + 4)).take (size * count)).length = size * count := by
    apply List.length_take_of_le
    rw [List.length_drop]
    omega
  rw [chunksExact, hslice, Nat.mul_div_cancel_left _ hsize, length_rawStructs (by omega)]
  exact hlt

end readers

variable {layout : SnapshotLayout}

/-- The body of a snapshot is read back unless a count does not fit its field. -/
theorem readSnapshotBody_iff {config : DisplayConfig layout} {bytes : List UInt8} {offset : Nat}
    (hat : bytes.drop offset = snapshotVec config.paths ++ snapshotVec config.modes)
    (hoffset : offset ≤ 28) :
    readSnapshotBody layout bytes offset = .ok config ↔
      config.paths.length < 2 ^ 32 ∧ config.modes.length < 2 ^ 32 := by
  constructor
  · intro h
    unfold readSnapshotBody at h
    cases hpaths : readSnapshotVec layout.pathSize bytes offset with
    | error e =>
      rw [hpaths] at h
      cases h
    | ok paths =>
      rw [hpaths] at h
      replace h : (readSnapshotVec layout.modeSize bytes paths.2 >>= fun _ => _) = _ := h
      cases hmodes : readSnapshotVec layout.modeSize bytes paths.2 with
      | error e =>
        rw [hmodes] at h
        cases h
      | ok modes =>
        rw [hmodes] at h
        replace h : (if modes.2 ≠ bytes.length then _ else _) = _ := h
        split at h <;> cases h
        exact ⟨length_lt_of_readSnapshotVec layout.pathSize_pos hpaths,
          length_lt_of_readSnapshotVec layout.modeSize_pos hmodes⟩
  · rintro ⟨hpaths, hmodes⟩
    have hlength := length_of_drop hat (by rw [length_snapshotVec]; omega)
    rw [length_snapshotVec, length_snapshotVec] at hlength
    -- the counts and the sizes are small enough for 64-bit offsets
    have hpathBytes : layout.pathSize * config.paths.length ≤ (2 ^ 31 - 1) * (2 ^ 32 - 1) :=
      Nat.mul_le_mul (Nat.le_sub_one_of_lt layout.pathSize_lt) (Nat.le_sub_one_of_lt hpaths)
    have hmodeBytes : layout.modeSize * config.modes.length ≤ (2 ^ 31 - 1) * (2 ^ 32 - 1) :=
      Nat.mul_le_mul (Nat.le_sub_one_of_lt layout.modeSize_lt) (Nat.le_sub_one_of_lt hmodes)
    have hbytes : bytes.length < 2 ^ 64 := by omega
    have hbehind := drop_behind hat
    have hfirst := readSnapshotVec_of_drop layout.pathSize_pos hat hpaths hbytes
    have hsecond := readSnapshotVec_of_drop layout.modeSize_pos
      (hbehind.trans (List.append_nil _).symm) hmodes hbytes
    unfold readSnapshotBody
    rw [hfirst]
    show (readSnapshotVec layout.modeSize bytes (offset + (snapshotVec config.paths).length) >>=
      fun _ => _) = _
    rw [hsecond]
    show (if _ ≠ bytes.length then _ else _) = _
    rw [length_snapshotVec, length_snapshotVec, if_neg (by omega)]

/-- The header of a snapshot is accepted in the session that it names. -/
theorem readSnapshot_snapshotBytes (boot boot' : Int64) (first second : UInt64)
    (config : DisplayConfig layout) :
    readSnapshot layout boot' second (.ok (snapshotBytes layout boot first config)) =
      if bootSessionId boot first ≠ bootSessionId boot' second then
        .error (.snapshotInvalid ("belongs to boot session " ++ toString (bootSessionId boot first) ++
          ", current session is " ++ toString (bootSessionId boot' second)))
      else readSnapshotBody layout (snapshotBytes layout boot first config) 28 := by
  have hpath := layout.pathSize_lt
  have hmode := layout.modeSize_lt
  generalize hbytes : snapshotBytes layout boot first config = bytes
  unfold snapshotBytes at hbytes
  rw [Nat.mod_eq_of_lt (by omega), Nat.mod_eq_of_lt (by omega)] at hbytes
  have hmagic : bytes.take 8 = snapshotMagic := by
    rw [← hbytes]
    exact List.take_left' rfl
  -- each field stands where the one before it ends
  have hat : bytes.drop 0 = snapshotMagic ++ _ := hbytes.symm
  have hversion : bytes.drop 8 = leBytes 4 snapshotVersion ++ _ := drop_behind hat
  have hpathSize : bytes.drop 12 = leBytes 4 layout.pathSize ++ _ := drop_behind hversion
  have hmodeSize : bytes.drop 16 = leBytes 4 layout.modeSize ++ _ := drop_behind hpathSize
  have hsession : bytes.drop 20 = leBytes 8 (bootSessionId boot first) ++ _ := drop_behind hmodeSize
  have hlength := length_of_drop hsession (by simp)
  rw [length_leBytes] at hlength
  have hheader : ¬(bytes.length < 28 ∨ bytes.take 8 ≠ snapshotMagic) := by
    rintro (hshort | hother)
    · omega
    · exact hother hmagic
  have hreadVersion : readSnapshotU32 bytes 8 = .ok (snapshotVersion, 12) :=
    readSnapshotUint_of_drop hversion (by decide) (by decide) (by decide)
  have hreadPath : readSnapshotU32 bytes 12 = .ok (layout.pathSize, 16) :=
    readSnapshotUint_of_drop hpathSize (by decide) (by omega) (by decide)
  have hreadMode : readSnapshotU32 bytes 16 = .ok (layout.modeSize, 20) :=
    readSnapshotUint_of_drop hmodeSize (by decide) (by omega) (by decide)
  have hreadSession : readSnapshotU64 bytes 20 = .ok (bootSessionId boot first, 28) :=
    readSnapshotUint_of_drop hsession (by decide) (bootSessionId_lt boot first) (by decide)
  simp only [readSnapshot, Except.mapError, bind, Except.bind, if_neg hheader, hreadVersion,
    hreadPath, hreadMode, hreadSession, ne_eq, not_true_eq_false, or_self, if_false]

/-- Within one boot a snapshot is read back exactly if the milliseconds of the start carry over at
both instants or at neither, or the start is before the epoch, and the counts fit their fields. -/
theorem snapshot_round_trip_iff {config : DisplayConfig layout} {boot : Int64} {first : UInt64}
    {io : SnapshotIo} {bytes : List UInt8}
    (hwritten : writeSnapshot layout boot first io config = .ok bytes) (second : UInt64) :
    readSnapshot layout boot second (.ok bytes) = .ok config ↔
      (boot < 0 ∨ (Carries boot first ↔ Carries boot second)) ∧
        config.paths.length < 2 ^ 32 ∧ config.modes.length < 2 ^ 32 := by
  have hbytes : bytes = snapshotBytes layout boot first config := by
    unfold writeSnapshot at hwritten
    split at hwritten
    all_goals cases hwritten
    rfl
  have hbody : (snapshotBytes layout boot first config).drop 28 =
      snapshotVec config.paths ++ snapshotVec config.modes := by
    unfold snapshotBytes
    simp only [← List.append_assoc]
    rw [List.append_assoc _ (snapshotVec config.paths)]
    exact List.drop_left' (by simp [snapshotMagic])
  rw [hbytes, readSnapshot_snapshotBytes, ← bootSessionId_eq_iff,
    ← readSnapshotBody_iff hbody (Nat.le_refl 28)]
  by_cases hsession : bootSessionId boot first = bootSessionId boot second
  · rw [if_neg (not_not_intro hsession)]
    exact (and_iff_right hsession).symm
  · rw [if_pos hsession]
    constructor
    · intro h
      cases h
    · intro h
      exact absurd h.1 hsession

def windowsLayout : SnapshotLayout where
  pathSize := 72
  modeSize := 64
  pathSize_pos := by decide
  modeSize_pos := by decide
  pathSize_lt := by decide
  modeSize_lt := by decide

/-- A machine that starts at a quarter of a second reads its snapshot half a second later. -/
theorem snapshot_round_trip_quarter : let config : DisplayConfig windowsLayout :=
      ⟨[⟨List.replicate 72 1, rfl⟩], [⟨List.replicate 64 2, rfl⟩, ⟨List.replicate 64 3, rfl⟩]⟩
    readSnapshot windowsLayout 250 700
      (.ok (snapshotBytes windowsLayout 250 200 config)) = .ok config := by
  intro config
  have hwritten : writeSnapshot windowsLayout 250 200 ⟨none, none, none⟩ config =
      .ok (snapshotBytes windowsLayout 250 200 config) := rfl
  exact (snapshot_round_trip_iff hwritten 700).2 (by decide)

/-- A machine that starts at half a second writes a snapshot at once and rejects it half a second
later. -/
theorem snapshot_rejected_in_same_boot :
    ∃ bytes, writeSnapshot windowsLayout 500 0 ⟨none, none, none⟩ ⟨[], []⟩ = .ok bytes ∧
      readSnapshot windowsLayout 500 500 (.ok bytes) =
        .error (.snapshotInvalid "belongs to boot session 0, current session is 1") := by
  refine ⟨_, rfl, ?_⟩
  decide

end Rustcast.Host.PrivacySnapshot
