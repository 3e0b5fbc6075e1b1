import Rustcast.Core.Lts

/-!
# Capture pacing

`CapturePacer` of `pacing.rs`. The due time follows a grid of whole intervals; a delivery after a stall
anchors the grid again, and a late delivery leaves at least half an interval to the next one.
-/

namespace Rustcast.Host

/-- A reading of the monotonic clock, in nanoseconds. There is a largest one, and an addition past
it panics (`none`). -/
structure Instant (limit : Nat) where
  nanos : Nat
  nanos_le : nanos ≤ limit
  deriving DecidableEq

open Instant

namespace Instant

variable {limit : Nat}

/-- `Instant + Duration`, which panics past the largest reading. -/
def add? (t : Instant limit) (d : Nat) : Option (Instant limit) :=
  if h : t.nanos + d ≤ limit then some ⟨t.nanos + d, h⟩ else none

/-- `Instant - Duration`. -/
def sub? (t : Instant limit) (d : Nat) : Option (Instant limit) :=
  if d ≤ t.nanos then some ⟨t.nanos - d, Nat.le_trans (Nat.sub_le _ _) t.nanos_le⟩ else none

/-- `Instant - Instant`, zero if the other reading is the later one. -/
def since (t earlier : Instant limit) : Nat := t.nanos - earlier.nanos

theorem add?_eq_some {t t' : Instant limit} {d : Nat} : t.add? d = some t' ↔ t'.nanos = t.nanos + d := by
  obtain ⟨nanos', hle⟩ := t'
  unfold add?
  split
  next h => simp [eq_comm]
  next h =>
    simp only [reduceCtorEq, false_iff]
    rintro rfl
    exact h hle

theorem add?_eq_none {t : Instant limit} {d : Nat} : t.add? d = none ↔ limit < t.nanos + d := by
  unfold add?
  split
  next h => simpa using h
  next h => simpa using h

def max (t t' : Instant limit) : Instant limit := if t.nanos ≤ t'.nanos then t' else t

theorem le_max_left (t t' : Instant limit) : t.nanos ≤ (t.max t').nanos := by
  unfold max
  split <;> omega

theorem le_max_right (t t' : Instant limit) : t'.nanos ≤ (t.max t').nanos := by
  unfold max
  split <;> omega

end Instant

/-- `CapturePacer`, with the interval in nanoseconds. -/
structure CapturePacer (limit : Nat) where
  interval : Nat
  nextDue : Option (Instant limit)
  deriving DecidableEq

namespace CapturePacer

variable {limit : Nat}

/-! ## The pacer -/

def new (interval : Nat) : CapturePacer limit where
  interval := interval
  nextDue := none

variable (p : CapturePacer limit)

def tolerance : Nat := p.interval / 10

def isDue (now : Instant limit) : Option Bool :=
  match p.nextDue with
  | some nextDue => do
    let reached ← now.add? p.tolerance
    some (decide (nextDue.nanos ≤ reached.nanos))
  | none => some true

def timeUntilDue (now : Instant limit) : Option Nat := do
  if ← p.isDue now then
    some 0
  else
    match p.nextDue with
    | none => some 0
    | some nextDue =>
      let first ← nextDue.sub? p.tolerance
      some (first.since now)

def markDelivered (p : CapturePacer limit) (now : Instant limit) : Option (CapturePacer limit) := do
  let grid ← (p.nextDue.getD now).add? p.interval
  if grid.nanos ≤ now.nanos then
    let next ← now.add? p.interval
    some { p with nextDue := some next }
  else
    let half ← now.add? (p.interval / 2)
    some { p with nextDue := some (grid.max half) }

/-- The readings of one delivery: at `asked` the frame was due, at `now` it is marked delivered. -/
structure Delivery (limit : Nat) where
  asked : Instant limit
  now : Instant limit
  asked_le : asked.nanos ≤ now.nanos
  deriving DecidableEq

/-- A frame is delivered only if it is due: `is_due` at one reading and `mark_delivered` at the same
or a later one, as `next_frame` and `deliver` of `dxgi.rs` call them. -/
def deliver (d : Delivery limit) : Option (CapturePacer limit) := do
  if ← p.isDue d.asked then
    p.markDelivered d.now
  else
    none

/-! ## What one call does -/

variable {p p' : CapturePacer limit} {now : Instant limit} {d : Delivery limit}

variable {nextDue : Instant limit}

theorem isDue_of_nextDue (hnext : p.nextDue = some nextDue) (h : p.isDue now = some true) :
    nextDue.nanos ≤ now.nanos + p.tolerance := by
  simp only [isDue, hnext, Option.bind_eq_bind, Option.bind_eq_some_iff, Option.some.injEq,
    decide_eq_true_eq] at h
  obtain ⟨reached, hadd, hle⟩ := h
  rw [add?_eq_some] at hadd
  omega

/-- `is_due` panics only where the clock ends within the tolerance. -/
theorem isDue_eq_none : p.isDue now = none ↔ p.nextDue.isSome = true ∧ limit < now.nanos + p.tolerance := by
  cases hnext : p.nextDue with
  | none => simp [isDue, hnext]
  | some next =>
    rw [← add?_eq_none]
    cases hadd : now.add? p.tolerance <;> simp [isDue, hnext, hadd]

/-- After a delivery the next due time is one grid step on, and half an interval away. -/
theorem markDelivered_spec (h : p.markDelivered now = some p') :
    p'.interval = p.interval ∧ ∃ next, p'.nextDue = some next ∧
      (p.nextDue.getD now).nanos + p.interval ≤ next.nanos ∧
      now.nanos + p.interval / 2 ≤ next.nanos := by
  simp only [markDelivered, Option.bind_eq_bind, Option.bind_eq_some_iff] at h
  obtain ⟨grid, hgrid, h⟩ := h
  rw [add?_eq_some] at hgrid
  split at h
  next hstall =>
    -- the grid was missed altogether, and starts again at this delivery
    obtain ⟨next, hnext, hp'⟩ := Option.bind_eq_some_iff.mp h
    rw [add?_eq_some] at hnext
    cases hp'
    refine ⟨rfl, next, rfl, ?_, ?_⟩
    · omega
    · omega
  next hgrid' =>
    obtain ⟨half, hhalf, hp'⟩ := Option.bind_eq_some_iff.mp h
    rw [add?_eq_some] at hhalf
    cases hp'
    have hleft := le_max_left grid half
    have hright := le_max_right grid half
    exact ⟨rfl, grid.max half, rfl, by omega, by omega⟩

theorem deliver_eq_some :
    p.deliver d = some p' ↔ p.isDue d.asked = some true ∧ p.markDelivered d.now = some p' := by
  unfold deliver
  cases p.isDue d.asked with
  | none => simp
  | some due => cases due <;> simp

/-- A delivery is never more than the tolerance ahead of the due time, and moves it on by an interval. -/
theorem deliver_of_nextDue (hnext : p.nextDue = some nextDue) (h : p.deliver d = some p') :
    nextDue.nanos ≤ d.now.nanos + p.interval / 10 ∧ p'.interval = p.interval ∧
      ∃ next, p'.nextDue = some next ∧ nextDue.nanos + p.interval ≤ next.nanos := by
  obtain ⟨hdue, hmark⟩ := deliver_eq_some.mp h
  obtain ⟨hinterval, next, hnext', hgrid, -⟩ := markDelivered_spec hmark
  rw [hnext] at hgrid
  have htolerance : nextDue.nanos ≤ d.asked.nanos + p.interval / 10 := isDue_of_nextDue hnext hdue
  have hasked := d.asked_le
  exact ⟨by omega, hinterval, next, hnext', hgrid⟩

/-! ## Runs of deliveries -/

variable {ds : List (Delivery limit)} {d' : Delivery limit} {j k : Nat}

/-- The delivery with index `k` of a run comes after `k` steps of the grid. -/
theorem nextDue_le_delivered (hnext : p.nextDue = some nextDue) (hrun : Lts.run deliver p ds = some p')
    (hk : ds[k]? = some d) : nextDue.nanos + k * p.interval ≤ d.now.nanos + p.interval / 10 := by
  induction ds generalizing p nextDue k with
  | nil => simp at hk
  | cons d₀ ds ih =>
    obtain ⟨p₁, hdeliver, hrest⟩ := Lts.run_cons_eq_some hrun
    obtain ⟨hdue, hinterval, next, hnext', hgrid⟩ := deliver_of_nextDue hnext hdeliver
    cases k with
    | zero =>
      obtain rfl : d₀ = d := by simpa using hk
      omega
    | succ k =>
      have hlater := ih hnext' hrest (by simpa using hk)
      rw [hinterval] at hlater
      rw [Nat.succ_mul]
      omega

/-- The two bounds behind `deliveries_paced`, for a delivery and the ones after it. -/
theorem delivered_after (hrun : Lts.run deliver p (d :: ds) = some p') (hk : ds[k]? = some d') :
    d.now.nanos + k * p.interval + p.interval / 2 ≤ d'.now.nanos + p.interval / 10 ∧
      (p.nextDue = none → d.now.nanos + (k + 1) * p.interval ≤ d'.now.nanos + p.interval / 10) := by
  obtain ⟨p₁, hdeliver, hrest⟩ := Lts.run_cons_eq_some hrun
  obtain ⟨-, hmark⟩ := deliver_eq_some.mp hdeliver
  obtain ⟨hinterval, next, hnext, hgrid, hhalf⟩ := markDelivered_spec hmark
  have hlater := nextDue_le_delivered hnext hrest hk
  rw [hinterval] at hlater
  constructor
  · omega
  · intro hfirst
    rw [hfirst, Option.getD_none] at hgrid
    rw [Nat.succ_mul]
    omega

theorem delivered_apart (hrun : Lts.run deliver p ds = some p') (hjk : j < k)
    (hj : ds[j]? = some d) (hk : ds[k]? = some d') :
    d.now.nanos + (k - j - 1) * p.interval + p.interval / 2 ≤ d'.now.nanos + p.interval / 10 := by
  induction ds generalizing p j k with
  | nil => simp at hj
  | cons d₀ ds ih =>
    obtain ⟨k, rfl⟩ : ∃ k', k = k' + 1 := ⟨k - 1, by omega⟩
    cases j with
    | zero =>
      obtain rfl : d₀ = d := by simpa using hj
      exact (delivered_after hrun (by simpa using hk)).1
    | succ j =>
      obtain ⟨p₁, hdeliver, hrest⟩ := Lts.run_cons_eq_some hrun
      have hlater := ih hrest (Nat.lt_of_succ_lt_succ hjk) (by simpa using hj) (by simpa using hk)
      rw [(markDelivered_spec (deliver_eq_some.mp hdeliver).2).1] at hlater
      rwa [Nat.add_sub_add_right]

/-! ## Waiting until a frame is due -/

/-- Whenever the pacer can tell if a frame is due, it can tell for how long it is not, and a wait of
exactly that long ends when a frame is due. -/
theorem timeUntilDue_exact (hnow : p.isDue now ≠ none) :
    ∃ wait, p.timeUntilDue now = some wait ∧
      ∃ later, now.add? wait = some later ∧ p.isDue later = some true := by
  cases hnext : p.nextDue with
  | none =>
    have hdue : ∀ t, p.isDue t = some true := fun t => by simp [isDue, hnext]
    exact ⟨0, by simp [timeUntilDue, hdue now], now, add?_eq_some.mpr rfl, hdue now⟩
  | some next =>
    have hreached : ∀ t t' : Instant limit, t.add? p.tolerance = some t' →
        p.isDue t = some (decide (next.nanos ≤ t'.nanos)) := by
      intro t t' hadd
      simp [isDue, hnext, hadd]
    have hreading : now.nanos + p.tolerance ≤ limit := by
      by_contra hpast
      exact hnow (isDue_eq_none.mpr ⟨by rw [hnext, Option.isSome_some], Nat.lt_of_not_le hpast⟩)
    have hdue := hreached now ⟨now.nanos + p.tolerance, hreading⟩ (add?_eq_some.mpr rfl)
    by_cases hle : next.nanos ≤ now.nanos + p.tolerance
    · rw [decide_eq_true hle] at hdue
      exact ⟨0, by simp [timeUntilDue, hdue], now, add?_eq_some.mpr rfl, hdue⟩
    · rw [decide_eq_false hle] at hdue
      have hroom : p.tolerance ≤ next.nanos := by omega
      have hbound := next.nanos_le
      refine ⟨next.nanos - p.tolerance - now.nanos, ?_,
        ⟨next.nanos - p.tolerance, Nat.le_trans (Nat.sub_le _ _) hbound⟩, ?_, ?_⟩
      · simp [timeUntilDue, hdue, hnext, sub?, hroom, since]
      · rw [add?_eq_some]
        show next.nanos - p.tolerance = _
        omega
      · -- the tolerance takes the later reading exactly to the due time
        have hexact := hreached ⟨next.nanos - p.tolerance, Nat.le_trans (Nat.sub_le _ _) hbound⟩ next
          (add?_eq_some.mpr (Nat.sub_add_cancel hroom).symm)
        rwa [decide_eq_true (Nat.le_refl _)] at hexact

/-- Deliveries never come in bursts: between any two of them lie all the intervals between them but the
last, and half an interval; and since the first one none of the intervals has been gained. The readings
of different deliveries may be in any order. And `time_until_due` is exactly the time to wait. -/
theorem deliveries_paced (interval : Nat) (ds : List (Delivery limit)) (p : CapturePacer limit)
    (hrun : Lts.run deliver (new interval) ds = some p) :
    (∀ j k d d', j < k → ds[j]? = some d → ds[k]? = some d' →
      d.now.nanos + (k - j - 1) * interval + interval / 2 ≤ d'.now.nanos + interval / 10) ∧
    (∀ k d d', ds[0]? = some d → ds[k]? = some d' →
      d.now.nanos + k * interval ≤ d'.now.nanos + interval / 10) ∧
    (∀ now, p.isDue now ≠ none → ∃ wait, p.timeUntilDue now = some wait ∧
      ∃ later, now.add? wait = some later ∧ p.isDue later = some true) := by
  refine ⟨fun _ _ _ _ => delivered_apart hrun, ?_, fun now => timeUntilDue_exact⟩
  intro k d d' h0 hk
  cases ds with
  | nil => simp at h0
  | cons d₀ ds =>
    obtain rfl : d₀ = d := by simpa using h0
    cases k with
    | zero =>
      obtain rfl : d₀ = d' := by simpa using hk
      omega
    | succ k => exact (delivered_after hrun (by simpa using hk)).2 rfl

/-- A delivery on time, a late one, the one it makes early, and one after a stall. -/
def unevenDeliveries : List (Delivery 10000) :=
  [⟨⟨0, by decide⟩, ⟨5, by decide⟩, by decide⟩, ⟨⟨160, by decide⟩, ⟨160, by decide⟩, by decide⟩,
    ⟨⟨200, by decide⟩, ⟨200, by decide⟩, by decide⟩, ⟨⟨900, by decide⟩, ⟨901, by decide⟩, by decide⟩]

theorem deliveries_paced_uneven :
    (Lts.run deliver (new 100) unevenDeliveries).isSome = true ∧
      ∀ j k d d', j < k → unevenDeliveries[j]? = some d → unevenDeliveries[k]? = some d' →
        d.now.nanos + (k - j - 1) * 100 + 100 / 2 ≤ d'.now.nanos + 100 / 10 := by
  have hrun : Lts.run deliver (new 100) unevenDeliveries = some ⟨100, some ⟨1001, by decide⟩⟩ := by decide
  exact ⟨by rw [hrun, Option.isSome_some], (deliveries_paced 100 unevenDeliveries _ hrun).1⟩

end CapturePacer

end Rustcast.Host
