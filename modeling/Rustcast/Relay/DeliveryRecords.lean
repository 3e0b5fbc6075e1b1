import Rustcast.Core.Lts
import Rustcast.Core.OrderedMap

/-!
# The records of the delivery estimator

For the delays that it judges by, the estimator of `bwe.go` remembers the frames that were sent and not
yet acknowledged. It does so twice: a map from the sequence number to the time of sending answers the
acknowledgements, and a list in the order of sending says what is old. An acknowledgement and a reused
sequence number change the map alone, and the list is only cleaned by the next frame that is sent.
-/

namespace Rustcast.Relay.Delivery

/-! ## The records -/

/-- A second. Times are in nanoseconds. -/
def second : Int := 1000000000

def bweDelayWindow : Int := 10 * second

def bweMaxOutstanding : Nat := 256

structure SentFrame where
  time : Int
  bytes : Int
  deriving DecidableEq

structure SentOrderEntry where
  seq : UInt32
  time : Int
  deriving DecidableEq

structure DelaySample where
  time : Int
  /-- `delayMs`, in nanoseconds -/
  delay : Int
  deriving DecidableEq

/-- The milliseconds that a client reports: any floating-point number. -/
inductive ClientMs
  | nan
  | infinite (negative : Bool)
  | finite (ms : Rat)

/-- `math.IsNaN(clientDoneMs) || math.IsInf(clientDoneMs, 0) || clientDoneMs < 0` -/
def ClientMs.invalid : ClientMs → Bool
  | .nan => true
  | .infinite _ => true
  | .finite ms => decide (ms < 0)

structure DeliveryRecords where
  outstanding : OrderedMap UInt32 SentFrame := .empty
  sendOrder : List SentOrderEntry := []
  delaySamples : List DelaySample := []
  queueEWMA : Int := 0
  haveQueue : Bool := false
  /-- The zero time is `none`. -/
  lastSampleAt : Option Int := none

/-- `sent, ok := outstanding[item.seq]; ok && sent.at.Equal(item.at)` -/
def current (outstanding : OrderedMap UInt32 SentFrame) (item : SentOrderEntry) : Bool :=
  (outstanding.get? item.seq).any fun sent => decide (sent.time = item.time)

/-- One round of the loop over `sendOrder`, with the map and the entries kept so far. -/
def keepRecent (time : Int) (acc : OrderedMap UInt32 SentFrame × List SentOrderEntry)
    (item : SentOrderEntry) : OrderedMap UInt32 SentFrame × List SentOrderEntry :=
  if current acc.1 item ∧ time - item.time ≤ bweDelayWindow then (acc.1, acc.2 ++ [item])
  else if current acc.1 item then (acc.1.delete item.seq, acc.2)
  else acc

/-- The loop that ends `onFrameSent`. -/
def evictOldest : OrderedMap UInt32 SentFrame → List SentOrderEntry →
    OrderedMap UInt32 SentFrame × List SentOrderEntry
  | outstanding, [] => (outstanding, [])
  | outstanding, oldest :: rest =>
    if bweMaxOutstanding < outstanding.size then
      evictOldest (if current outstanding oldest then outstanding.delete oldest.seq else outstanding) rest
    else (outstanding, oldest :: rest)

/-- One round of the loop over the samples: how many are old, and the least delay of the others. -/
def scanSample (time : Int) (acc : Nat × Option Int) (sample : DelaySample) : Nat × Option Int :=
  if time - sample.time ≤ bweDelayWindow then
    (acc.1, some (acc.2.elim sample.delay (min sample.delay)))
  else (acc.1 + 1, acc.2)

/-- The sample of an acknowledgement, unless it is refused. -/
def sampleOf (sent : SentFrame) (clientDoneMs : ClientMs) (time : Int) : Option DelaySample :=
  if time < sent.time ∨ bweDelayWindow < time - sent.time ∨ clientDoneMs.invalid then none
  else some { time, delay := time - sent.time }

namespace DeliveryRecords

variable (r : DeliveryRecords)

def onFrameSent (seq : UInt32) (bytes : Int) (time : Int) : DeliveryRecords :=
  let (outstanding, kept) := r.sendOrder.foldl (keepRecent time) (r.outstanding, [])
  let outstanding := (outstanding.delete seq).set seq { time, bytes }
  let (outstanding, sendOrder) := evictOldest outstanding (kept ++ [{ seq, time }])
  { r with outstanding, sendOrder }

/-- The smoothed delay in the queue. The source computes with floating-point milliseconds. -/
def smoothedQueue (r : DeliveryRecords) (queueDelay : Int) : Int :=
  if r.haveQueue then (3 * r.queueEWMA + queueDelay).tdiv 4 else queueDelay

/-- `onFrameAck` once the sample is accepted. -/
def addSample (sample : DelaySample) : DeliveryRecords :=
  let samples := r.delaySamples ++ [sample]
  let (first, baseline) := samples.foldl (scanSample sample.time) (0, none)
  { r with
    delaySamples := samples.drop first
    lastSampleAt := some sample.time
    queueEWMA := r.smoothedQueue (max 0 (sample.delay - baseline.getD sample.delay))
    haveQueue := true }

def onFrameAck (seq : UInt32) (clientDoneMs : ClientMs) (time : Int) :
    DeliveryRecords :=
  match r.outstanding.get? seq with
  | none => r
  | some sent =>
    let r := { r with outstanding := r.outstanding.delete seq }
    match sampleOf sent clientDoneMs time with
    | none => r
    | some sample => r.addSample sample

def forget (seq : UInt32) : DeliveryRecords :=
  { r with
    outstanding := r.outstanding.delete seq
    sendOrder := r.sendOrder.filter fun item => decide (item.seq ≠ seq) }

end DeliveryRecords

/-! ## The map and the list -/

/-- Every outstanding frame has an entry with its sequence number and its time. The converse does
not hold. -/
def Listed (outstanding : OrderedMap UInt32 SentFrame) (sendOrder : List SentOrderEntry) : Prop :=
  ∀ seq sent, outstanding.get? seq = some sent → { seq, time := sent.time } ∈ sendOrder

variable {sent : SentFrame} {front rest : List SentOrderEntry} {item : SentOrderEntry} {time : Int}

variable {acc : OrderedMap UInt32 SentFrame × List SentOrderEntry} {sample : DelaySample}

section Listed

variable {m : OrderedMap UInt32 SentFrame} {l : List SentOrderEntry}

theorem current_of_get? {seq : UInt32} (h : m.get? seq = some sent) :
    current m { seq, time := sent.time } = true := by
  rw [current, h]
  exact decide_eq_true rfl

theorem get?_of_delete {seq k : UInt32} (h : (m.delete k).get? seq = some sent) :
    seq ≠ k ∧ m.get? seq = some sent := by
  rw [OrderedMap.get?_delete] at h
  split at h
  · cases h
  · exact ⟨‹_›, h⟩

theorem Listed.delete (h : Listed m l) (k : UInt32) : Listed (m.delete k) l :=
  fun seq sent hget => h seq sent (get?_of_delete hget).2

theorem Listed.forget (h : Listed m l) (k : UInt32) :
    Listed (m.delete k) (l.filter fun item => decide (item.seq ≠ k)) := by
  intro seq sent hget
  obtain ⟨hne, hget⟩ := get?_of_delete hget
  exact List.mem_filter.mpr ⟨h seq sent hget, decide_eq_true hne⟩

theorem Listed.send (h : Listed m l) (k : UInt32) (sent : SentFrame) :
    Listed ((m.delete k).set k sent) (l ++ [{ seq := k, time := sent.time }]) := by
  intro seq sent' hget
  rw [OrderedMap.get?_set] at hget
  split at hget
  next hseq =>
    cases hget
    rw [hseq]
    exact List.mem_append_right _ (List.mem_singleton.mpr rfl)
  · exact List.mem_append_left _ (h.delete k seq sent' hget)

namespace Listed

variable (h : Listed m (front ++ item :: rest))

include h

/-- An entry can go if no outstanding frame is left that is its own. -/
theorem remove {m' : OrderedMap UInt32 SentFrame}
    (hleft : ∀ seq sent, m'.get? seq = some sent → m.get? seq = some sent ∧
      { seq, time := sent.time } ≠ item) : Listed m' (front ++ rest) := by
  intro seq sent hget
  obtain ⟨hget, hne⟩ := hleft seq sent hget
  have hmem := h seq sent hget
  simp only [List.mem_append, List.mem_cons, hne, false_or] at hmem ⊢
  exact hmem

theorem remove_deleted : Listed (m.delete item.seq) (front ++ rest) := by
  refine h.remove fun seq sent hget => ?_
  obtain ⟨hne, hget⟩ := get?_of_delete hget
  exact ⟨hget, fun heq => hne (congrArg SentOrderEntry.seq heq)⟩

theorem remove_stale (hstale : ¬current m item) : Listed m (front ++ rest) := by
  refine h.remove fun seq sent hget => ⟨hget, ?_⟩
  rintro rfl
  exact hstale (current_of_get? hget)

end Listed

theorem listed_keepRecent (h : Listed acc.1 (acc.2 ++ item :: rest)) :
    Listed (keepRecent time acc item).1 ((keepRecent time acc item).2 ++ rest) := by
  unfold keepRecent
  split
  · rw [List.append_assoc]
    exact h
  · split
    · exact h.remove_deleted
    · exact h.remove_stale ‹_›

/-- The loop over the list, which deletes from the map as it goes. -/
theorem listed_foldl_keepRecent (h : Listed acc.1 (acc.2 ++ l)) :
    Listed (l.foldl (keepRecent time) acc).1 (l.foldl (keepRecent time) acc).2 := by
  induction l generalizing acc with
  | nil => rwa [List.append_nil] at h
  | cons item rest ih => exact ih (listed_keepRecent h)

theorem Listed.evict {oldest : SentOrderEntry} (h : Listed m (oldest :: l)) :
    Listed (if current m oldest then m.delete oldest.seq else m) l := by
  have h : Listed m ([] ++ oldest :: l) := h
  split
  · exact h.remove_deleted
  · exact h.remove_stale ‹_›

theorem listed_evictOldest (h : Listed m l) : Listed (evictOldest m l).1 (evictOldest m l).2 := by
  induction l generalizing m with
  | nil => exact h
  | cons oldest rest ih =>
    rw [evictOldest]
    split
    · exact ih h.evict
    · exact h

theorem Listed.size_eq_zero (h : Listed m []) : m.size = 0 := by
  rw [OrderedMap.size_eq_zero, List.eq_nil_iff_forall_not_mem]
  rintro ⟨seq, sent⟩ hmem
  exact List.not_mem_nil (h seq sent (OrderedMap.get?_of_mem hmem))

/-- The loop can only run out of entries when there is no frame left. -/
theorem size_evictOldest (h : Listed m l) : (evictOldest m l).1.size ≤ bweMaxOutstanding := by
  induction l generalizing m with
  | nil =>
    rw [evictOldest, h.size_eq_zero]
    exact Nat.zero_le _
  | cons oldest rest ih =>
    rw [evictOldest]
    split
    · exact ih h.evict
    · exact Nat.le_of_not_lt ‹_›

end Listed

/-! ## The samples -/

/-- At least as many elements as satisfy `P` are cut off the front; if `P` holds of a beginning of the
list alone, these are the ones. -/
theorem drop_countP {α : Type} {P : α → Bool} {l : List α}
    (hfront : l.Pairwise fun x y => P y = true → P x = true) :
    l.drop (l.countP P) = l.filter fun x => !P x := by
  induction l with
  | nil => rfl
  | cons x rest ih =>
    obtain ⟨hx, hrest⟩ := List.pairwise_cons.mp hfront
    cases hP : P x with
    | true =>
      rw [List.countP_cons_of_pos hP, List.drop_succ_cons, ih hrest, List.filter_cons_of_neg (by simp [hP])]
    | false =>
      have hnone : ∀ y ∈ rest, P y = false := fun y hy => by
        cases hy' : P y with
        | true => exact (hx y hy hy').symm.trans hP
        | false => rfl
      have hcount : rest.countP P = 0 := List.countP_eq_zero.mpr fun y hy => by simp [hnone y hy]
      rw [List.countP_cons_of_neg (by simp [hP]), hcount, List.drop_zero, List.filter_eq_self.mpr]
      intro y hy
      rcases List.mem_cons.mp hy with rfl | hy
      · simp [hP]
      · simp [hnone y hy]

/-- A sample that is not within the window before `time`. -/
def old (time : Int) (sample : DelaySample) : Bool := decide (bweDelayWindow < time - sample.time)

theorem fst_scanSample (time : Int) (acc : Nat × Option Int) (sample : DelaySample) :
    (scanSample time acc sample).1 = acc.1 + if old time sample then 1 else 0 := by
  rw [scanSample, old]
  split
  · rw [if_neg (by simp; omega)]
    rfl
  · rw [if_pos (by simp; omega)]

theorem fst_foldl_scanSample (time : Int) (samples : List DelaySample) (acc : Nat × Option Int) :
    (samples.foldl (scanSample time) acc).1 = acc.1 + samples.countP (old time) := by
  induction samples generalizing acc with
  | nil => rfl
  | cons sample rest ih =>
    rw [List.foldl_cons, ih, fst_scanSample, List.countP_cons]
    omega

/-- Cutting as many samples off the front as there are old ones leaves the recent ones, as they are
in the order of time. -/
theorem delaySamples_addSample (r : DeliveryRecords) (sample : DelaySample)
    (hsorted : (r.delaySamples ++ [sample]).Pairwise fun x y => x.time ≤ y.time) :
    (r.addSample sample).delaySamples =
      (r.delaySamples ++ [sample]).filter fun x => !old sample.time x := by
  have hdrop : (r.addSample sample).delaySamples =
      (r.delaySamples ++ [sample]).drop ((r.delaySamples ++ [sample]).countP (old sample.time)) := by
    rw [← Nat.zero_add (List.countP _ _), ← fst_foldl_scanSample sample.time _ (0, none)]
    rfl
  rw [hdrop]
  refine drop_countP (hsorted.imp fun {x y} hxy hold => ?_)
  rw [old, decide_eq_true_eq] at hold ⊢
  omega

/-- The samples of a list that are within the window before the last of them. -/
def recent (samples : List DelaySample) : List DelaySample :=
  match samples.getLast? with
  | none => []
  | some latest => samples.filter fun x => !old latest.time x

theorem recent_concat (samples : List DelaySample) (sample : DelaySample) :
    recent (samples ++ [sample]) = (samples ++ [sample]).filter fun x => !old sample.time x := by
  rw [recent, List.getLast?_concat]

/-- What was old once stays old. -/
theorem filter_recent {samples : List DelaySample} (htime : ∀ x ∈ samples, x.time ≤ time) :
    (recent samples).filter (fun x => !old time x) = samples.filter fun x => !old time x := by
  rcases List.eq_nil_or_concat samples with rfl | ⟨front, latest, rfl⟩
  · rfl
  · rw [List.concat_eq_append] at htime ⊢
    rw [recent_concat, List.filter_filter]
    refine List.filter_congr fun x _ => ?_
    have hlatest := htime latest (by simp)
    simp only [old, ← decide_not, ← Bool.decide_and, decide_eq_decide]
    omega

/-! ## Sequences of calls -/

inductive Call
  | onFrameSent (seq : UInt32) (bytes : Int) (time : Int)
  | onFrameAck (seq : UInt32) (clientDoneMs : ClientMs) (time : Int)
  | forget (seq : UInt32)

structure Bookkeeping where
  records : DeliveryRecords := {}
  /-- The times of all acknowledgements. -/
  ackTimes : List Int := []
  /-- The samples of those that were accepted. -/
  accepted : List DelaySample := []

namespace Bookkeeping

def step (s : Bookkeeping) : Call → Option Bookkeeping
  | .onFrameSent seq bytes time => some { s with records := s.records.onFrameSent seq bytes time }
  | .onFrameAck seq clientDoneMs time =>
    let sample := (s.records.outstanding.get? seq).bind (sampleOf · clientDoneMs time)
    some {
      records := s.records.onFrameAck seq clientDoneMs time
      ackTimes := s.ackTimes ++ [time]
      accepted := s.accepted ++ sample.toList }
  | .forget seq => some { s with records := s.records.forget seq }

structure Inv (s : Bookkeeping) : Prop where
  listed : Listed s.records.outstanding s.records.sendOrder
  bounded : s.records.outstanding.size ≤ bweMaxOutstanding
  ackTimes : (s.accepted.map DelaySample.time).Sublist s.ackTimes
  delaySamples : s.ackTimes.Pairwise (· ≤ ·) → s.records.delaySamples = recent s.accepted

variable {s : Bookkeeping}

theorem inv_onFrameSent (hinv : Inv s) (seq : UInt32) (bytes time : Int) :
    Inv { s with records := s.records.onFrameSent seq bytes time } := by
  have hkept : Listed (s.records.sendOrder.foldl (keepRecent time) (s.records.outstanding, [])).1
      (s.records.sendOrder.foldl (keepRecent time) (s.records.outstanding, [])).2 :=
    listed_foldl_keepRecent hinv.listed
  have hsent := hkept.send seq ⟨time, bytes⟩
  exact ⟨listed_evictOldest hsent, size_evictOldest hsent, hinv.ackTimes, hinv.delaySamples⟩

theorem inv_forget (hinv : Inv s) (seq : UInt32) : Inv { s with records := s.records.forget seq } :=
  ⟨hinv.listed.forget seq, Nat.le_trans (List.length_filter_le _ _) hinv.bounded, hinv.ackTimes,
    hinv.delaySamples⟩

/-- An acknowledgement without a sample. -/
theorem inv_refused (hinv : Inv s) {records : DeliveryRecords} (time : Int)
    (hlisted : Listed records.outstanding records.sendOrder)
    (hbounded : records.outstanding.size ≤ bweMaxOutstanding)
    (hsamples : records.delaySamples = s.records.delaySamples) :
    Inv { records, ackTimes := s.ackTimes ++ [time], accepted := s.accepted } where
  listed := hlisted
  bounded := hbounded
  ackTimes := hinv.ackTimes.trans (List.sublist_append_left _ _)
  delaySamples hsorted := hsamples.trans (hinv.delaySamples (List.pairwise_append.mp hsorted).1)

theorem delaySamples_accepted (hinv : Inv s) {r : DeliveryRecords}
    (hr : r.delaySamples = s.records.delaySamples)
    (hsorted : (s.ackTimes ++ [sample.time]).Pairwise (· ≤ ·)) :
    (r.addSample sample).delaySamples = recent (s.accepted ++ [sample]) := by
  obtain ⟨hbefore, -, hlast⟩ := List.pairwise_append.mp hsorted
  have hle : ∀ x ∈ s.accepted, x.time ≤ sample.time := fun x hx =>
    hlast _ (hinv.ackTimes.subset (List.mem_map_of_mem hx)) _ (List.mem_singleton.mpr rfl)
  have haccepted : s.accepted.Pairwise fun x y => x.time ≤ y.time :=
    List.pairwise_map.mp (hbefore.sublist hinv.ackTimes)
  have hrecent : (recent s.accepted).Sublist s.accepted := by
    unfold recent
    split
    · exact List.nil_sublist _
    · exact List.filter_sublist
  have hkept : (r.delaySamples ++ [sample]).Pairwise fun x y => x.time ≤ y.time := by
    rw [hr, hinv.delaySamples hbefore]
    refine List.pairwise_append.mpr ⟨haccepted.sublist hrecent, List.pairwise_singleton _ _, ?_⟩
    intro x hx y hy
    obtain rfl := List.mem_singleton.mp hy
    exact hle x (hrecent.subset hx)
  rw [delaySamples_addSample r sample hkept, recent_concat, hr, hinv.delaySamples hbefore,
    List.filter_append, List.filter_append, filter_recent hle]

theorem sampleOf_time {clientDoneMs : ClientMs} (h : sampleOf sent clientDoneMs time = some sample) :
    sample.time = time := by
  rw [sampleOf, Option.ite_none_left_eq_some] at h
  exact congrArg DelaySample.time (Option.some.inj h.2).symm

theorem inv_onFrameAck (hinv : Inv s) (seq : UInt32) (clientDoneMs : ClientMs) (time : Int) :
    ∀ s', step s (.onFrameAck seq clientDoneMs time) = some s' → Inv s' := by
  intro s' hstep
  cases hstep
  have hbounded : (s.records.outstanding.delete seq).size ≤ bweMaxOutstanding :=
    Nat.le_trans (List.length_filter_le _ _) hinv.bounded
  dsimp only [DeliveryRecords.onFrameAck]
  cases hget : s.records.outstanding.get? seq with
  | none =>
    rw [Option.bind_none, Option.toList_none, List.append_nil]
    exact inv_refused hinv time hinv.listed hinv.bounded rfl
  | some sent =>
    dsimp only [Option.bind_some]
    cases hsample : sampleOf sent clientDoneMs time with
    | none =>
      rw [Option.toList_none, List.append_nil]
      exact inv_refused hinv time (hinv.listed.delete seq) hbounded rfl
    | some sample =>
      obtain rfl := sampleOf_time hsample
      refine ⟨hinv.listed.delete seq, hbounded, ?_, delaySamples_accepted hinv rfl⟩
      rw [List.map_append]
      exact hinv.ackTimes.append (.refl _)

theorem inv_step (s : Bookkeeping) (call : Call) (s' : Bookkeeping) (hinv : Inv s)
    (hstep : step s call = some s') : Inv s' := by
  cases call with
  | onFrameSent seq bytes time =>
    cases hstep
    exact inv_onFrameSent hinv seq bytes time
  | onFrameAck seq clientDoneMs time => exact inv_onFrameAck hinv seq clientDoneMs time s' hstep
  | forget seq =>
    cases hstep
    exact inv_forget hinv seq

theorem inv_start : Inv {} where
  listed seq sent hget := by cases hget
  bounded := Nat.zero_le _
  ackTimes := .refl _
  delaySamples _ := rfl

/-- **The records are bounded and exact.** After every sequence of calls, at most 256 frames are
outstanding, each of them has its entry in the list, and if the acknowledgements came in the order of
their times the samples are those of the accepted acknowledgements within ten seconds of the last. -/
theorem delivery_bookkeeping (calls : List Call) :
    Lts.Throughout step
      (fun s =>
        s.records.outstanding.size ≤ 256 ∧
          (∀ seq sent, s.records.outstanding.get? seq = some sent →
            { seq, time := sent.time } ∈ s.records.sendOrder) ∧
          (s.ackTimes.Pairwise (· ≤ ·) → s.records.delaySamples = recent s.accepted))
      {} calls :=
  (Lts.throughout_of_invariant inv_step inv_start).mono fun _ hinv =>
    ⟨hinv.bounded, hinv.listed, hinv.delaySamples⟩

end Bookkeeping

end Rustcast.Relay.Delivery
