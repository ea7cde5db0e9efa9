import FieldDiscovery.Lib.Number

/-!
# Disk reserve

`DiskGuard` of `storage.py`. What remains after a write is compared with two thresholds, one in
bytes and one in percent of the disk, and the percentage is the one that the status shows: rounded
to two decimals, with the quotient read as the exact rational. `allowed_iff` says what the guard
asks for in whole numbers, and `keepsReserve_iff` in which band below the threshold this is too
little.
-/

namespace FieldDiscovery.Storage

open Py

/-! ## Paths -/

/-- A `PurePosixPath`: its root, and its other parts. -/
structure Path where
  anchor : Str
  parts : List Str
  deriving DecidableEq

/-- `path.parent` -/
def Path.parent (path : Path) : Path := { path with parts := path.parts.dropLast }

/-- `str(path)` -/
def Path.text (path : Path) : Str :=
  if path.anchor = [] ∧ path.parts = [] then str "." else path.anchor ++ join (str "/") path.parts

/-- `while not candidate.exists() and candidate != candidate.parent`, with
`candidate = candidate.parent` as its body. -/
def nearest (exist : Path → Bool) (candidate : Path) : Path :=
  if !exist candidate ∧ candidate ≠ candidate.parent then nearest exist candidate.parent
  else candidate
termination_by candidate.parts.length
decreasing_by
  next h =>
  have hne : candidate.parts ≠ [] := by
    rintro hnil
    refine h.2 ?_
    rw [Path.parent, hnil, List.dropLast_nil, ← hnil]
  rw [Path.parent, List.length_dropLast]
  exact Nat.sub_lt (List.length_pos_iff.mpr hne) Nat.one_pos

/-! ## The guard -/

/-- What the probe says about a disk. -/
structure Usage where
  total : ℤ
  free : ℤ

/-- `DiskStatus` -/
structure DiskStatus where
  checkedPath : Str
  totalBytes : ℤ
  freeBytes : ℤ
  requiredBytes : ℤ
  remainingBytes : ℤ
  remainingPercent : ℚ
  minimumFreeBytes : ℤ
  minimumFreePercent : ℤ
  allowed : Bool

/-- What the guard raises. -/
inductive GuardError where
  /-- `ValueError` -/
  | value (message : Str)
  /-- `OSError`, of the probe. -/
  | os
  /-- `LowDiskSpace` -/
  | lowDiskSpace (message : Str)

/-- `DiskGuard` -/
structure DiskGuard where
  minimumFreeBytes : ℤ
  minimumFreePercent : ℤ
  usageProbe : Path → Except GuardError Usage

/-- The thresholds that the configuration admits. -/
structure DiskGuard.Configured (g : DiskGuard) : Prop where
  bytes : 1 ≤ g.minimumFreeBytes
  percent : 1 ≤ g.minimumFreePercent ∧ g.minimumFreePercent ≤ 50

/-- The status of a disk of which the usage is known. -/
def DiskGuard.status (g : DiskGuard) (candidate : Path) (usage : Usage) (requiredBytes : ℤ) :
    DiskStatus :=
  let remaining := max 0 (usage.free - requiredBytes)
  let percentage := if usage.total ≠ 0 then round2 (remaining * 100 / usage.total) else 0
  { checkedPath := candidate.text
    totalBytes := usage.total
    freeBytes := usage.free
    requiredBytes
    remainingBytes := remaining
    remainingPercent := percentage
    minimumFreeBytes := g.minimumFreeBytes
    minimumFreePercent := g.minimumFreePercent
    allowed := decide (g.minimumFreeBytes ≤ remaining) &&
      decide (g.minimumFreePercent ≤ percentage) }

/-- `DiskGuard.inspect` -/
def DiskGuard.inspect (g : DiskGuard) (exist : Path → Bool) (path : Path) (requiredBytes : ℤ) :
    Except GuardError DiskStatus := do
  if requiredBytes < 0 then
    .error (.value (str "required_bytes must not be negative"))
  else
    let candidate := nearest exist path
    let usage ← g.usageProbe candidate
    .ok (g.status candidate usage requiredBytes)

/-- `str(n)` of an integer. -/
def intText (n : ℤ) : Str := if n < 0 then str "-" ++ natStr n.natAbs else natStr n.natAbs

/-- `DiskGuard.check` -/
def DiskGuard.check (g : DiskGuard) (exist : Path → Bool) (path : Path) (requiredBytes : ℤ) :
    Except GuardError DiskStatus := do
  let status ← g.inspect exist path requiredBytes
  if !status.allowed then
    .error (.lowDiskSpace
      (str "artifact-heavy work paused: available disk reserve is below the configured " ++
        intText status.minimumFreeBytes ++ str " byte/" ++ intText status.minimumFreePercent ++
        str "% threshold"))
  else .ok status

section

variable {g : DiskGuard} {exist : Path → Bool} {path : Path} {requiredBytes : ℤ}
  {status : DiskStatus}

theorem inspect_eq_ok_iff : g.inspect exist path requiredBytes = .ok status ↔
    0 ≤ requiredBytes ∧ ∃ usage, g.usageProbe (nearest exist path) = .ok usage ∧
      status = g.status (nearest exist path) usage requiredBytes := by
  unfold DiskGuard.inspect
  by_cases hneg : requiredBytes < 0
  · rw [if_pos hneg]
    simp only [reduceCtorEq, false_iff, not_and]
    intro h
    omega
  · rw [if_neg hneg]
    cases hprobe : g.usageProbe (nearest exist path) with
    | error e => simp [bind, Except.bind, hprobe]
    | ok usage => simp [bind, Except.bind, hprobe, not_lt.mp hneg, eq_comm]

end

/-! ## What the guard asks for -/

section

variable {g : DiskGuard} {candidate : Path} {usage : Usage} {requiredBytes : ℤ}

/-- In whole numbers, the guard asks for the percentage less half a hundredth. -/
theorem allowed_iff (hg : g.Configured) (htotal : 0 < usage.total) :
    (g.status candidate usage requiredBytes).allowed = true ↔
      g.minimumFreeBytes ≤ usage.free - requiredBytes ∧
        200 * g.minimumFreePercent * usage.total ≤
          20000 * (usage.free - requiredBytes) + usage.total := by
  have hcast : (0 : ℚ) < usage.total := Int.cast_pos.mpr htotal
  have hbytes := hg.bytes
  simp only [DiskGuard.status, Bool.and_eq_true, decide_eq_true_eq, if_pos htotal.ne']
  rw [le_max_iff, or_iff_right (by omega)]
  refine and_congr_right fun hmin => ?_
  rw [max_eq_right (by omega), le_round2_iff, le_div_iff₀ hcast, ← Int.cast_le (R := ℚ)]
  push_cast
  constructor
  · intro h
    linarith
  · intro h
    linarith

/-- What the disk holds after the write is above both thresholds. -/
def Reserved (g : DiskGuard) (usage : Usage) (requiredBytes : ℤ) : Prop :=
  g.minimumFreeBytes ≤ usage.free - requiredBytes ∧
    g.minimumFreePercent * usage.total ≤ (usage.free - requiredBytes) * 100

/-- The bytes suffice, and the percentage misses its threshold by no more than half a hundredth. -/
def RoundedUp (g : DiskGuard) (usage : Usage) (requiredBytes : ℤ) : Prop :=
  g.minimumFreeBytes ≤ usage.free - requiredBytes ∧
    (usage.free - requiredBytes) * 100 < g.minimumFreePercent * usage.total ∧
    200 * g.minimumFreePercent * usage.total ≤ 20000 * (usage.free - requiredBytes) + usage.total

/-- A write that is allowed leaves the reserve. -/
def KeepsReserve (g : DiskGuard) (exist : Path → Bool) (path : Path) (usage : Usage)
    (requiredBytes : ℤ) : Prop :=
  ∀ status, g.inspect exist path requiredBytes = .ok status → status.allowed = true →
    Reserved g usage requiredBytes

end

/-! ## Main theorem -/

/-- On a disk with this usage, a write that is allowed leaves the reserve unless the percentage was
rounded up to its threshold. -/
theorem keepsReserve_iff {g : DiskGuard} {exist : Path → Bool} {path : Path} {usage : Usage}
    {requiredBytes : ℤ} (hg : g.Configured)
    (hprobe : g.usageProbe (nearest exist path) = .ok usage) (htotal : 0 < usage.total)
    (hrequired : 0 ≤ requiredBytes) :
    KeepsReserve g exist path usage requiredBytes ↔ ¬ RoundedUp g usage requiredBytes := by
  have hinspect : g.inspect exist path requiredBytes =
      .ok (g.status (nearest exist path) usage requiredBytes) :=
    inspect_eq_ok_iff.mpr ⟨hrequired, usage, hprobe, rfl⟩
  have hallowed := @allowed_iff g (nearest exist path) usage requiredBytes hg htotal
  constructor
  · rintro hkeeps ⟨hmin, hbelow, hband⟩
    have := (hkeeps _ hinspect (hallowed.mpr ⟨hmin, hband⟩)).2
    omega
  · intro hnot status hstatus hok
    rw [hinspect, Except.ok.injEq] at hstatus
    rw [← hstatus, hallowed] at hok
    refine ⟨hok.1, ?_⟩
    by_contra hbelow
    exact hnot ⟨hok.1, by omega, hok.2⟩

namespace Sample

/-- One byte and ten percent, of a disk with 100000 bytes. -/
def guardFor (free : ℤ) : DiskGuard where
  minimumFreeBytes := 1
  minimumFreePercent := 10
  usageProbe _ := .ok ⟨100000, free⟩

theorem guardFor_configured (free : ℤ) : (guardFor free).Configured :=
  ⟨le_refl 1, by norm_num [guardFor]⟩

end Sample

/-- Ten percent are left exactly. -/
theorem keepsReserve_sample : KeepsReserve (Sample.guardFor 10000) (fun _ => true)
    ⟨str "/", [str "data"]⟩ ⟨100000, 10000⟩ 0 :=
  (keepsReserve_iff (Sample.guardFor_configured 10000) rfl (by decide) (by decide)).mpr
    fun h => absurd h.2.1 (by decide)

/-- 9996 of 100000 bytes are 10.00 percent, rounded, and not ten percent. -/
theorem not_keepsReserve : ¬ KeepsReserve (Sample.guardFor 9996) (fun _ => true)
    ⟨str "/", [str "data"]⟩ ⟨100000, 9996⟩ 0 := by
  intro h
  have hinspect := inspect_eq_ok_iff.mpr ⟨le_refl 0, ⟨100000, 9996⟩,
    (rfl : (Sample.guardFor 9996).usageProbe (nearest (fun _ => true) ⟨str "/", [str "data"]⟩) = _),
    rfl⟩
  have hallowed := (@allowed_iff _ (nearest (fun _ => true) ⟨str "/", [str "data"]⟩)
    ⟨100000, 9996⟩ 0 (Sample.guardFor_configured 9996) (by decide)).mpr (by decide)
  exact absurd (h _ hinspect hallowed).2 (by decide)

end FieldDiscovery.Storage
