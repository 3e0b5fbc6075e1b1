import Rustcast.Core.DecodeChain
import Rustcast.Core.Lts
import Rustcast.Relay.Steps

/-!
# Continuity of what the relay writes

Two frames written to the viewer one after the other should enclose a dropped frame only
if the second is an IDR frame. The relay does not keep this promise: `latestFrame` prefers
an older IDR frame over the newer frames it discards, and `queueFrame` evicts frames
without setting `needsIDR` (`relay_skips_dropped_frame`). It does keep it in every run in
which frames leave the queue unwritten only while `needsIDR` is set, and no frame newer
than the IDR frame that clears the flag was dropped (`writes_linked`).

The invariant is a guard for each program counter of the pusher (`Guard`): if a frame
behind the last written one was dropped, then the flag is set, or the pusher knows of the
drop and is about to set it, or the frame it is writing is on the near side of the hole.
-/

namespace Rustcast.Relay

open Upstream

/-! ## Histories -/

def LogEntry.wrote? : LogEntry → Option FrameMsg
  | .wrote f => some f
  | _ => none

def LogEntry.dropped? : LogEntry → Option FrameMsg
  | .dropped f => some f
  | _ => none

def LogEntry.refused? : LogEntry → Option FrameMsg
  | .refused f => some f
  | _ => none

/-- The frames written to the viewer, in order. -/
def written (log : List LogEntry) : List FrameMsg := log.filterMap LogEntry.wrote?

/-- The frames that were dropped inside the relay, or because their write failed. -/
def dropped (log : List LogEntry) : List FrameMsg := log.filterMap LogEntry.dropped?

/-- The frames that arrived after `stop`. -/
def refused (log : List LogEntry) : List FrameMsg := log.filterMap LogEntry.refused?

section Concat

variable {log : List LogEntry} {e : LogEntry} {f : LogEntry → Option FrameMsg} {frame : FrameMsg}

theorem filterMap_concat (h : f e = some frame) :
    (log ++ [e]).filterMap f = log.filterMap f ++ [frame] := by
  rw [List.filterMap_append, List.filterMap_cons_some h, List.filterMap_nil]

/-- Entries of another kind leave a projection of the log as it is. -/
theorem filterMap_skip (h : f e = none) : (log ++ [e]).filterMap f = log.filterMap f := by
  rw [List.filterMap_append, List.filterMap_cons_none h, List.filterMap_nil, List.append_nil]

theorem written_skip (h : e.wrote? = none) : written (log ++ [e]) = written log := filterMap_skip h

theorem dropped_skip (h : e.dropped? = none) : dropped (log ++ [e]) = dropped log := filterMap_skip h

theorem refused_skip (h : e.refused? = none) : refused (log ++ [e]) = refused log := filterMap_skip h

end Concat

/-- No dropped frame was received between `a` and `b`. -/
def NothingLost (lost : List FrameMsg) (a b : FrameMsg) : Prop :=
  ∀ k ∈ lost, ¬(a.number < k.number ∧ k.number < b.number)

/-- The property of a state: between two frames written one after the other, the second
not an IDR frame, nothing was dropped. -/
def WritesLinked (u : Upstream) : Prop :=
  Linked FrameMsg.isIDR (NothingLost (dropped u.log ++ refused u.log)) (written u.log)

/-! ## The frames inside the relay -/

def ReaderPc.frame? : ReaderPc → Option FrameMsg
  | .idle => none
  | .full f => some f
  | .sending f _ => some f

/-- The frames the pusher has not taken yet, oldest first. -/
def Upstream.waiting (u : Upstream) : List FrameMsg := u.frameChan ++ u.reader.frame?.toList

/-- Everything received and neither written nor dropped yet, oldest first. -/
def Upstream.pipeline (u : Upstream) : List FrameMsg := u.pusher.msg?.toList ++ u.waiting

/-! ## The invariant -/

/-- A frame behind number `n` was dropped. -/
def LostAfter (lost : List FrameMsg) (n : Nat) : Prop := ∃ k ∈ lost, n < k.number

/-- A frame behind the last written one was dropped. -/
def Gap (done lost : List FrameMsg) : Prop := ∃ w ∈ done.getLast?, LostAfter lost w.number

/-- A frame behind the last written one, or behind the frame `m` in hand, was dropped. -/
def Hole (done lost : List FrameMsg) (m : FrameMsg) : Prop :=
  Gap done lost ∨ LostAfter lost m.number

def Guard (pc : PusherPc) (v : Viewer) (done lost : List FrameMsg) : Prop :=
  match pc with
  | .idle => Gap done lost → v.needsIDR = true ∨ v.phase ≠ .bound
  | .taken m =>
    (Gap done lost → v.needsIDR = true ∨ v.phase ≠ .bound) ∧ (LostAfter lost m.number → v.needsIDR = true)
  | .draining m _ skipped =>
    (Gap done lost → v.needsIDR = true ∨ skipped = true ∨ v.phase ≠ .bound) ∧
      (LostAfter lost m.number → v.needsIDR = true ∨ skipped = true)
  | .chosen m _ skipped =>
    (Gap done lost → v.needsIDR = true ∨ skipped = true ∨ v.phase ≠ .bound) ∧
      (LostAfter lost m.number → v.needsIDR = true ∨ skipped = true)
  | .attached m _ skipped => Hole done lost m → v.needsIDR = true ∨ skipped = true
  | .ready m _ => Hole done lost m → v.needsIDR = true
  | .checked _ _ => True
  | .clearing _ _ => True
  | .opening m idr _ =>
    (idr = false → ∀ w ∈ done.getLast?, NothingLost lost w m) ∧
      (LostAfter lost m.number → v.needsIDR = true)
  | .writing m idr _ _ =>
    (idr = false → ∀ w ∈ done.getLast?, NothingLost lost w m) ∧
      (LostAfter lost m.number → v.needsIDR = true)
  | .exited => True

variable {pc : PusherPc} {v : Viewer} {m old : FrameMsg} {rest : List FrameMsg} {now : Nat}

variable {done lost : List FrameMsg} {k msg : FrameMsg} {reader : ReaderPc} {idr ok : Bool}

/-- Setting `needsIDR` and clearing the session keep every guard. -/
theorem Guard.mono {v' : Viewer} (hneeds : v.needsIDR = true → v'.needsIDR = true)
    (hphase : v.phase ≠ .bound → v'.phase ≠ .bound) (h : Guard pc v done lost) : Guard pc v' done lost := by
  cases pc with
  | idle => exact fun hgap => (h hgap).imp hneeds hphase
  | taken m => exact ⟨fun hgap => (h.1 hgap).imp hneeds hphase, fun hlost => hneeds (h.2 hlost)⟩
  | draining m idr skipped | chosen m idr skipped =>
    exact ⟨fun hgap => (h.1 hgap).imp hneeds (.imp_right hphase), fun hlost => (h.2 hlost).imp_left hneeds⟩
  | attached m idr skipped => exact fun hgap => (h hgap).imp_left hneeds
  | ready m idr => exact fun hgap => hneeds (h hgap)
  | opening m idr start | writing m idr start chunks => exact ⟨h.1, fun hlost => hneeds (h.2 hlost)⟩
  | checked _ _ | clearing _ _ | exited => trivial

/-- A frame behind the pusher's own may be dropped while `needsIDR` is set, or while nobody
will be written to. -/
def Awaiting (u : Upstream) : Prop :=
  u.viewer.needsIDR = true ∨ (u.viewer.phase ≠ .bound ∧ u.pusher = .idle) ∨ u.pusher = .exited

theorem Guard.lose (h : Guard pc v done lost) (hk : ∀ m, pc.msg? = some m → m.number < k.number)
    (hawait : v.needsIDR = true ∨ (v.phase ≠ .bound ∧ pc = .idle) ∨ pc = .exited) :
    Guard pc v done (lost ++ [k]) := by
  -- what is being written is older than `k`, so `k` is not in front of it
  have hbefore : ∀ m w, pc.msg? = some m → NothingLost lost w m → NothingLost (lost ++ [k]) w m := by
    intro m w hm hno k' hk'
    rcases List.mem_append.mp hk' with hk' | hk'
    · exact hno k' hk'
    · rw [List.mem_singleton.mp hk']
      have := hk m hm
      omega
  rcases hawait with hneeds | ⟨hphase, rfl⟩ | rfl
  · cases pc with
    | idle => exact fun _ => .inl hneeds
    | taken m => exact ⟨fun _ => .inl hneeds, fun _ => hneeds⟩
    | draining m idr skipped | chosen m idr skipped =>
      exact ⟨fun _ => .inl hneeds, fun _ => .inl hneeds⟩
    | attached m idr skipped => exact fun _ => .inl hneeds
    | ready m idr => exact fun _ => hneeds
    | opening m idr start | writing m idr start chunks =>
      exact ⟨fun hidr w hw => hbefore m w rfl (h.1 hidr w hw), fun _ => hneeds⟩
    | checked _ _ | clearing _ _ | exited => trivial
  · exact fun _ => .inr hphase
  · trivial

structure ChainInv (u : Upstream) : Prop where
  ordered : u.pipeline.Pairwise fun a b => a.number < b.number
  fresh : ∀ f ∈ u.pipeline, f.number < u.received
  above : ∀ w ∈ written u.log, ∀ f ∈ u.pipeline, w.number < f.number
  old : ∀ w ∈ written u.log, w.number < u.received
  passed : ∀ k ∈ dropped u.log, ∀ f ∈ u.waiting, k.number < f.number
  gone : ∀ k ∈ dropped u.log, k.number < u.received
  refused : ∀ k ∈ refused u.log, u.stopped = true ∧
    (∀ f ∈ u.pipeline, f.number < k.number) ∧ ∀ w ∈ written u.log, w.number < k.number
  linked : WritesLinked u
  guard : Guard u.pusher u.viewer (written u.log) (dropped u.log)
  unseen : u.viewer.phase = .unbound → written u.log = []

variable {u u' : Upstream}

namespace ChainInv

variable (h : ChainInv u)

include h

/-- A step that writes nothing and queues nothing: frames may only leave the pipeline, and only
they can be dropped. A frame that is refused is the newest. What is left to show is about the
pusher's new program counter. -/
theorem of_sublist (hpipe : u'.pipeline.Sublist u.pipeline)
    (hpassed : ∀ k ∈ dropped u'.log, ∀ f ∈ u'.waiting, k.number < f.number)
    (hreceived : u.received ≤ u'.received) (hstopped : u.stopped = true → u'.stopped = true)
    (hwritten : written u'.log = written u.log)
    (hrefused : ∀ k ∈ Relay.refused u'.log,
      k ∈ Relay.refused u.log ∨ u.stopped = true ∧ k.number = u.received)
    (hdropped : ∀ k ∈ dropped u'.log, k ∈ dropped u.log ∨ k ∈ u.pipeline)
    (hguard : Guard u'.pusher u'.viewer (written u.log) (dropped u'.log))
    (hphase : u'.viewer.phase = .unbound → u.viewer.phase = .unbound) : ChainInv u' where
  ordered := h.ordered.sublist hpipe
  fresh := fun f hf => Nat.lt_of_lt_of_le (h.fresh f (hpipe.subset hf)) hreceived
  above := fun w hw f hf => h.above w (hwritten ▸ hw) f (hpipe.subset hf)
  old := fun w hw => Nat.lt_of_lt_of_le (h.old w (hwritten ▸ hw)) hreceived
  passed := hpassed
  gone := fun k hk => Nat.lt_of_lt_of_le ((hdropped k hk).elim (h.gone k) (h.fresh k)) hreceived
  refused := by
    intro k hk
    rw [hwritten]
    rcases hrefused k hk with hk | ⟨hs, hnew⟩
    · obtain ⟨hs, hp, hw⟩ := h.refused k hk
      exact ⟨hstopped hs, fun f hf => hp f (hpipe.subset hf), hw⟩
    · rw [hnew]
      exact ⟨hstopped hs, fun f hf => h.fresh f (hpipe.subset hf), h.old⟩
  linked := by
    unfold WritesLinked
    rw [hwritten]
    refine h.linked.imp_of_mem fun a b _ hb hab k hk => ?_
    rcases List.mem_append.mp hk with hk | hk
    · rcases hdropped k hk with hk | hk
      · exact hab k (List.mem_append_left _ hk)
      · have := h.above b hb k hk
        omega
    · rcases hrefused k hk with hk | ⟨-, hnew⟩
      · exact hab k (List.mem_append_right _ hk)
      · have := h.old b hb
        omega
  guard := hwritten ▸ hguard
  unseen := fun hunbound => hwritten ▸ h.unseen (hphase hunbound)

theorem of_drop (hk : k ∈ u.pipeline) (hpipe : u'.pipeline.Sublist u.pipeline)
    (hwaiting : u'.waiting.Sublist u.waiting) (hbehind : ∀ f ∈ u'.waiting, k.number < f.number)
    (hlog : u'.log = u.log ++ [.dropped k]) (hreceived : u'.received = u.received)
    (hstopped : u'.stopped = u.stopped)
    (hguard : Guard u'.pusher u'.viewer (written u.log) (dropped u.log ++ [k]))
    (hphase : u'.viewer.phase = .unbound → u.viewer.phase = .unbound) : ChainInv u' := by
  have hdropped : dropped u'.log = dropped u.log ++ [k] := hlog ▸ filterMap_concat rfl
  refine h.of_sublist hpipe ?_ (Nat.le_of_eq hreceived.symm) hstopped.trans
    (hlog ▸ written_skip rfl) (fun k hk => ?_) ?_ (hdropped ▸ hguard) hphase
  · intro k' hk' f hf
    rw [hdropped, List.mem_append, List.mem_singleton] at hk'
    rcases hk' with hk' | rfl
    · exact h.passed k' hk' f (hwaiting.subset hf)
    · exact hbehind f hf
  · rw [hlog, refused_skip rfl] at hk
    exact .inl hk
  · intro k' hk'
    rw [hdropped, List.mem_append, List.mem_singleton] at hk'
    rcases hk' with hk' | rfl
    · exact .inl hk'
    · exact .inr hk

/-- A step that records something else. -/
theorem of_entry {e : LogEntry} (hlog : u'.log = u.log ++ [e]) (hwritten : e.wrote? = none)
    (hdropped : e.dropped? = none) (hrefused : e.refused? = none) (hpipe : u'.pipeline = u.pipeline)
    (hwaiting : u'.waiting = u.waiting) (hreceived : u'.received = u.received)
    (hstopped : u'.stopped = u.stopped) (hguard : Guard u'.pusher u'.viewer (written u.log) (dropped u.log))
    (hphase : u'.viewer.phase = u.viewer.phase) : ChainInv u' := by
  have hsame : dropped u'.log = dropped u.log := hlog ▸ dropped_skip hdropped
  refine h.of_sublist (hpipe ▸ .refl _) ?_ (Nat.le_of_eq hreceived.symm)
    hstopped.trans (hlog ▸ written_skip hwritten) ?_ ?_ (hsame ▸ hguard) (hphase ▸ id)
  · rw [hsame, hwaiting]
    exact h.passed
  · rw [hlog, refused_skip hrefused]
    exact fun _ => .inl
  · rw [hsame]
    exact fun _ => .inl

/-- Changes of the flags, of the command channel and of `stopped`. -/
theorem update (c : HostCommands) {stopped : Bool} (hstopped : u.stopped = true → stopped = true)
    (hneeds : u.viewer.needsIDR = true → v.needsIDR = true)
    (hphase : u.viewer.phase ≠ .bound → v.phase ≠ .bound)
    (hunbound : v.phase = .unbound → u.viewer.phase = .unbound) :
    ChainInv { u with viewer := v, commands := c, stopped } :=
  h.of_sublist (.refl _) h.passed (Nat.le_refl _) hstopped rfl (fun _ => .inl) (fun _ => .inl)
    (h.guard.mono hneeds hphase) hunbound

theorem requestIDR (now : Nat) : ChainInv (u.requestIDR now) :=
  h.update _ id id id id

theorem needIDR : ChainInv (u.setNeedsIDR true) :=
  h.update u.commands id (fun _ => rfl) id id

theorem requestInitialIDR (now : Nat) : ChainInv (u.requestInitialIDR now) := by
  obtain ⟨v, c, heq, hneeds, hphase⟩ := requestInitialIDR_eq u now
  rw [heq]
  exact h.update c id hneeds.trans (fun hp => hphase ▸ hp) hphase.symm.trans

theorem releaseNow : ChainInv u.releaseNow := by
  obtain ⟨v, heq, hneeds, hunbound, hbound⟩ := releaseNow_eq u
  rw [heq]
  exact h.update u.commands id hneeds.trans hbound hunbound

theorem guard_at (hpusher : u.pusher = pc) :
    Guard pc u.viewer (written u.log) (dropped u.log) := hpusher ▸ h.guard

/-- A newly bound viewer was written nothing yet, so no hole is in front of it. -/
theorem bind (hp : PusherInv u) (hunbound : u.viewer.phase = .unbound) :
    ChainInv { u with viewer := { u.viewer with phase := .bound } } := by
  have hnogap : ¬Gap (written u.log) (dropped u.log) := by
    rw [h.unseen hunbound]
    exact fun ⟨_, hw, _⟩ => nomatch hw
  refine h.of_sublist (.refl _) h.passed (Nat.le_refl _) id rfl (fun _ => .inl) (fun _ => .inl) ?_
    (fun hv => nomatch hv)
  cases hpc : u.pusher with
  | idle => exact fun hgap => absurd hgap hnogap
  | taken m | draining m idr skipped | chosen m idr skipped =>
    exact ⟨fun hgap => absurd hgap hnogap, (h.guard_at hpc).2⟩
  | exited => trivial
  | attached _ _ _ | ready _ _ | checked _ _ | clearing _ _ | opening _ _ _ | writing _ _ _ _ =>
    exact absurd hunbound (hp.held (by rw [hpc]; rfl))

theorem move {pc' : PusherPc} (hpusher : u.pusher = pc) (hmsg : pc'.msg? = pc.msg?)
    (hguard : Guard pc u.viewer (written u.log) (dropped u.log) →
      Guard pc' u.viewer (written u.log) (dropped u.log)) : ChainInv { u with pusher := pc' } := by
  refine h.of_sublist ?_ h.passed (Nat.le_refl _) id rfl (fun _ => .inl) (fun _ => .inl)
    (hguard (h.guard_at hpusher)) id
  show (pc'.msg?.toList ++ u.waiting).Sublist _
  rw [pipeline, hpusher, hmsg]

/-- The pusher's frame is older than everything it has not taken yet. -/
theorem msg_lt_waiting {f : FrameMsg} (hm : u.pusher.msg? = some m) (hf : f ∈ u.waiting) :
    m.number < f.number := by
  have hordered := h.ordered
  unfold pipeline at hordered
  rw [List.pairwise_append] at hordered
  exact hordered.2.2 m (by simp [hm]) f hf

theorem giveUp (hpusher : u.pusher = pc) (hpc : pc.msg? = some m)
    (hquiet : u.viewer.needsIDR = true ∨ u.viewer.phase ≠ .bound) :
    ChainInv ({ u with pusher := .idle }.drop m) := by
  have hmsg : u.pusher.msg? = some m := hpusher ▸ hpc
  have hmem : m ∈ u.pipeline := by simp [pipeline, hmsg]
  refine h.of_drop hmem ?_ (.refl _) (fun _ => h.msg_lt_waiting hmsg) rfl rfl rfl (fun _ => hquiet) id
  exact List.sublist_append_right _ _

end ChainInv

theorem waiting_of_cons (hchan : u.frameChan = old :: rest) :
    u.waiting = old :: (rest ++ u.reader.frame?.toList) := by
  simp [waiting, hchan]

namespace ChainInv

variable (h : ChainInv u)

include h

theorem head_lt {f : FrameMsg} (hwaiting : u.waiting = old :: rest) (hf : f ∈ rest) :
    old.number < f.number := by
  have hordered := h.ordered.sublist (List.sublist_append_right _ u.waiting)
  rw [hwaiting, List.pairwise_cons] at hordered
  exact hordered.1 f hf

/-- The head of the queue is dropped while the viewer waits for an IDR frame anyway. -/
theorem loseHead (hchan : u.frameChan = old :: rest) (hawait : Awaiting u)
    (hreader : reader.frame? = u.reader.frame?) :
    ChainInv ({ u with frameChan := rest, reader }.drop old) := by
  have hwaiting := waiting_of_cons hchan
  have hold : old ∈ u.waiting := by simp [hwaiting]
  have hrest : ({ u with frameChan := rest, reader }.drop old).waiting =
      rest ++ u.reader.frame?.toList := by
    show rest ++ reader.frame?.toList = _
    rw [hreader]
  have hsub : (rest ++ u.reader.frame?.toList).Sublist u.waiting := by
    rw [hwaiting]
    exact List.sublist_cons_self _ _
  refine h.of_drop (List.mem_append_right _ hold) ?_ (hrest ▸ hsub) ?_ rfl rfl rfl
    (h.guard.lose (fun m hm => h.msg_lt_waiting hm hold) hawait) id
  · show (u.pusher.msg?.toList ++ (rest ++ reader.frame?.toList)).Sublist _
    rw [hreader]
    exact .append_left hsub _
  · rw [hrest]
    exact fun _ => h.head_lt hwaiting

/-! ## The steps of the reader -/

/-- A frame enters the pipeline: into the queue, or with the reader that found it full. -/
theorem receive {f : FrameMsg} (hf : f.number = u.received) (hlive : u.stopped = false)
    (hwaiting : u'.waiting = u.waiting ++ [f]) (hreceived : u'.received = u.received + 1)
    (hlog : u'.log = u.log ++ [.received f]) (hpusher : u'.pusher = u.pusher)
    (hviewer : u'.viewer = u.viewer) : ChainInv u' := by
  have hwritten : written u'.log = written u.log := hlog ▸ written_skip rfl
  have hdropped : dropped u'.log = dropped u.log := hlog ▸ dropped_skip rfl
  have hrefused : Relay.refused u'.log = Relay.refused u.log := hlog ▸ refused_skip rfl
  have hpipe : u'.pipeline = u.pipeline ++ [f] := by
    unfold pipeline
    rw [hpusher, hwaiting, List.append_assoc]
  constructor
  case ordered =>
    rw [hpipe, List.pairwise_append]
    refine ⟨h.ordered, List.pairwise_singleton _ _, fun a ha b hb => ?_⟩
    rw [List.mem_singleton.mp hb, hf]
    exact h.fresh a ha
  case fresh =>
    rw [hpipe, hreceived]
    refine List.forall_mem_append.mpr ⟨fun a ha => Nat.lt_succ_of_lt (h.fresh a ha), ?_⟩
    rw [List.forall_mem_singleton]
    omega
  case above =>
    rw [hwritten, hpipe]
    refine fun w hw => List.forall_mem_append.mpr ⟨h.above w hw, ?_⟩
    rw [List.forall_mem_singleton, hf]
    exact h.old w hw
  case old =>
    rw [hwritten, hreceived]
    exact fun w hw => Nat.lt_succ_of_lt (h.old w hw)
  case passed =>
    rw [hdropped, hwaiting]
    refine fun k hk => List.forall_mem_append.mpr ⟨h.passed k hk, ?_⟩
    rw [List.forall_mem_singleton, hf]
    exact h.gone k hk
  case gone =>
    rw [hdropped, hreceived]
    exact fun k hk => Nat.lt_succ_of_lt (h.gone k hk)
  case refused =>
    -- nothing was refused yet, because the upstream is not stopped
    rw [hrefused]
    intro k hk
    have hstop := (h.refused k hk).1
    rw [hlive] at hstop
    cases hstop
  case linked =>
    unfold WritesLinked
    rw [hwritten, hdropped, hrefused]
    exact h.linked
  case guard =>
    rw [hwritten, hdropped, hpusher, hviewer]
    exact h.guard
  case unseen =>
    rw [hwritten, hviewer]
    exact h.unseen

/-- A frame that arrives after `stop` is newer than everything the relay will still write. -/
theorem refuse {f : FrameMsg} (hf : f.number = u.received) (hstopped : u.stopped = true) :
    ChainInv { u with
      received := u.received + 1, log := u.log ++ [.received f] ++ [.refused f] } := by
  have hdropped : dropped (u.log ++ [.received f] ++ [.refused f]) = dropped u.log :=
    (dropped_skip rfl).trans (dropped_skip rfl)
  refine h.of_sublist (.refl _) ?_ (Nat.le_succ _) id ((written_skip rfl).trans (written_skip rfl))
    (fun k hk => ?_) ?_ ?_ id
  · rw [hdropped]
    exact h.passed
  · rw [Relay.refused, filterMap_concat rfl, List.mem_append, List.mem_singleton] at hk
    rcases hk with hk | rfl
    · rw [filterMap_skip rfl] at hk
      exact .inl hk
    · exact .inr ⟨hstopped, hf⟩
  · rw [hdropped]
    exact fun _ => .inl
  · rw [hdropped]
    exact h.guard

theorem dispatchFrame (hidle : u.reader = .idle) (header : FrameHeader) (payload : List UInt8) (now : Nat) :
    ChainInv (u.dispatchFrame header payload now) := by
  rcases dispatchFrame_cases u header payload now with
    heq | ⟨f, hf, ⟨hstopped, heq⟩ | ⟨hlive, heq⟩ | ⟨hlive, heq⟩⟩
  · rw [heq]
    exact h
  · rw [heq]
    exact h.refuse hf hstopped
  all_goals
    rw [heq]
    refine h.receive hf hlive ?_ rfl rfl rfl rfl
    simp [waiting, hidle, ReaderPc.frame?]

theorem readQUICStream (hidle : u.reader = .idle) (bytes : List UInt8) (ending : StreamEnd) (now : Nat) :
    ChainInv (u.readQUICStream bytes ending now) := by
  unfold Upstream.readQUICStream
  split
  · exact h.dispatchFrame hidle _ _ now
  · split
    · -- the reset of a host stream is only recorded
      exact h.of_entry rfl rfl rfl rfl rfl rfl rfl rfl h.guard rfl
    · exact h

theorem rearrange {chan : List FrameMsg} (hwaiting : chan ++ reader.frame?.toList = u.waiting) :
    ChainInv { u with frameChan := chan, reader } := by
  refine h.of_sublist ?_ ?_ (Nat.le_refl _) id rfl (fun _ => .inl) (fun _ => .inl) h.guard id
  · show (u.pusher.msg?.toList ++ (chan ++ reader.frame?.toList)).Sublist _
    rw [hwaiting]
    exact .refl _
  · show ∀ k ∈ dropped u.log, ∀ f ∈ chan ++ reader.frame?.toList, k.number < f.number
    rw [hwaiting]
    exact h.passed

theorem evict (hawait : u.frameChan ≠ [] → Awaiting u) (hstep : u.evict = some u') : ChainInv u' := by
  obtain ⟨frame, hreader, ⟨hchan, rfl⟩ | ⟨old, rest, hchan, rfl⟩⟩ := evict_cases hstep
  · exact h.rearrange (by simp [waiting, hreader, ReaderPc.frame?])
  · exact h.loseHead hchan (hawait (by simp [hchan])) (by rw [hreader]; rfl)

theorem enqueue (hstep : u.enqueue now = some u') : ChainInv u' := by
  obtain ⟨frame, lost, hreader, rfl⟩ := enqueue_cases hstep
  have hqueued : ChainInv { u with frameChan := u.frameChan ++ [frame], reader := .idle } :=
    h.rearrange (by simp [waiting, hreader, ReaderPc.frame?])
  cases lost with
  | true => exact hqueued.requestIDR now
  | false => exact hqueued

theorem stopTake (hawait : Awaiting u) (hstep : u.stopTake = some u') : ChainInv u' := by
  obtain ⟨old, rest, hchan, rfl⟩ := stopTake_cases hstep
  exact h.loseHead hchan hawait rfl

/-! ## The steps of the pusher -/

theorem take (hstep : u.take = some u') : ChainInv u' := by
  obtain ⟨msg, rest, hpusher, hchan, rfl⟩ := take_cases hstep
  have hwaiting := waiting_of_cons hchan
  refine h.of_sublist ?_ ?_ (Nat.le_refl _) id rfl (fun _ => .inl) (fun _ => .inl) ?_ id
  · unfold pipeline
    rw [hpusher, hwaiting]
    exact .refl _
  · intro k hk f hf
    exact h.passed k hk f (hwaiting ▸ List.mem_cons_of_mem _ hf)
  · -- what was dropped so far is older than the frame that was at the head
    refine ⟨h.guard_at hpusher, fun ⟨k, hk, hlt⟩ => ?_⟩
    have := h.passed k hk msg (by simp [hwaiting])
    omega

theorem nextFrame (hstep : u.nextFrame now = some u') : ChainInv u' := by
  obtain ⟨msg, hpusher, heq⟩ := nextFrame_cases hstep
  rcases heq with rfl | rfl <;>
    exact h.move hpusher rfl fun hguard =>
      ⟨fun hgap => (hguard.1 hgap).imp_right .inr, fun hlost => .inl (hguard.2 hlost)⟩

/-- A round of `latestFrame` drops one of two frames, but it remembers that it did. -/
theorem latestFrame (hstep : u.latestFrame = some u') : ChainInv u' := by
  obtain ⟨current, idr, skipped, hpusher, ⟨-, rfl⟩ | ⟨newer, rest, hchan, hdrop⟩⟩ := latestFrame_cases hstep
  · exact h.move hpusher rfl id
  have hmsg : u.pusher.msg? = some current := by rw [hpusher]; rfl
  have hwaiting := waiting_of_cons hchan
  have hpipe : u.pipeline = current :: newer :: (rest ++ u.reader.frame?.toList) := by
    unfold pipeline
    rw [hwaiting, hmsg]
    rfl
  have hsub : (rest ++ u.reader.frame?.toList).Sublist u.waiting := by
    rw [hwaiting]
    exact List.sublist_cons_self _ _
  rcases hdrop with ⟨-, rfl⟩ | ⟨-, rfl⟩
  · refine h.of_drop (by simp [hpipe]) ?_ hsub
      (fun f hf => h.msg_lt_waiting hmsg (hsub.subset hf)) rfl rfl rfl
      ⟨fun _ => .inr (.inl rfl), fun _ => .inr rfl⟩ id
    rw [hpipe]
    exact List.sublist_cons_self _ _
  · refine h.of_drop (by simp [hpipe]) ?_ hsub (fun _ => h.head_lt hwaiting) rfl rfl rfl
      ⟨fun _ => .inr (.inl rfl), fun _ => .inr rfl⟩ id
    rw [hpipe]
    exact .cons_cons _ (List.sublist_cons_self _ _)

theorem currentSession (hstep : u.currentSession = some u') : ChainInv u' := by
  obtain ⟨msg, idr, skipped, hpusher, ⟨hbound, rfl⟩ | ⟨hbound, rfl⟩⟩ := currentSession_cases hstep
  · refine h.move hpusher rfl fun hguard => ?_
    rintro (hgap | hlost)
    · rcases hguard.1 hgap with hneeds | hskipped | hphase
      · exact .inl hneeds
      · exact .inr hskipped
      · exact absurd hbound hphase
    · exact hguard.2 hlost
  · exact h.giveUp hpusher rfl (.inr hbound)

theorem recover (hstep : u.recover now = some u') : ChainInv u' := by
  obtain ⟨msg, idr, skipped, hpusher, ⟨-, rfl⟩ | ⟨hskipped, rfl⟩⟩ := recover_cases hstep
  · have hmoved : ChainInv { u.setNeedsIDR true with pusher := .ready msg idr } :=
      h.needIDR.move hpusher rfl fun _ _ => rfl
    exact hmoved.requestIDR now
  · refine h.move hpusher rfl fun hguard hhole => (hguard hhole).resolve_right ?_
    rw [hskipped]
    exact Bool.false_ne_true

/-- The call of `writeFrame`, once the guard of the new program counter is known. -/
theorem startWrite (hmsg : u.pusher.msg? = some msg) {needs : Bool}
    (hguard : Guard (.opening msg idr now) { u.viewer with needsIDR := needs }
      (written u.log) (dropped u.log)) : ChainInv ((u.setNeedsIDR needs).startWrite msg idr now) := by
  refine h.of_entry rfl rfl rfl rfl ?_ rfl rfl rfl hguard rfl
  show (some msg).toList ++ u.waiting = _
  rw [pipeline, hmsg]

theorem loadNeedsIDR (hstep : u.loadNeedsIDR now = some u') : ChainInv u' := by
  obtain ⟨msg, idr, hpusher, ⟨-, rfl⟩ | ⟨hclear, rfl⟩⟩ := loadNeedsIDR_cases hstep
  · exact h.move hpusher rfl fun _ => trivial
  have hguard := h.guard_at hpusher
  -- the flag was clear, so there is no hole
  have hnohole : ¬Hole (written u.log) (dropped u.log) msg := by
    intro hhole
    have := hguard hhole
    rw [hclear] at this
    cases this
  refine h.startWrite (by rw [hpusher]; rfl) ⟨fun _ w hw k hk hbetween => ?_, fun hlost => ?_⟩
  · exact hnohole (.inl ⟨w, hw, k, hk, hbetween.1⟩)
  · exact absurd (.inr hlost) hnohole

theorem skipFrameUntilIDR (hstep : u.skipFrameUntilIDR now = some u') : ChainInv u' := by
  obtain ⟨msg, idr, hpusher, ⟨-, rfl⟩ | ⟨hneeds, -, rfl⟩⟩ := skipFrameUntilIDR_cases hstep
  · exact h.move hpusher rfl fun _ => trivial
  · exact (h.requestIDR now).giveUp hpusher rfl (.inl hneeds)

/-- Clearing the flag needs a frame behind which nothing was dropped. -/
theorem clearNeedsIDR (hp : PusherInv u)
    (hnewest : ∀ m ∈ u.pusher.msg?, ∀ k ∈ dropped u.log, k.number ≤ m.number)
    (hstep : u.clearNeedsIDR now = some u') : ChainInv u' := by
  obtain ⟨msg, idr, hpusher, rfl⟩ := clearNeedsIDR_cases hstep
  have hmsg : u.pusher.msg? = some msg := by rw [hpusher]; rfl
  have hknows := hp.knows
  rw [hpusher] at hknows
  refine h.startWrite hmsg ⟨fun hdelta => ?_, ?_⟩
  · rw [hknows.2] at hdelta
    cases hdelta
  · rintro ⟨k, hk, hlt⟩
    have := hnewest msg hmsg k hk
    omega

theorem writeFailed (hpusher : u.pusher = pc) (hpc : pc.msg? = some m) : ChainInv (u.writeFailed m) :=
  (h.needIDR.giveUp hpusher hpc (.inl rfl)).releaseNow

theorem openStream (hstep : u.openStream ok = some u') : ChainInv u' := by
  obtain ⟨msg, idr, start, hpusher, rfl | rfl⟩ := openStream_cases hstep
  · exact h.move hpusher rfl id
  · exact h.writeFailed hpusher rfl

theorem writeChunk {result : Option Nat} (hstep : u.writeChunk now result = some u') : ChainInv u' := by
  obtain ⟨msg, idr, start, chunks, hpusher, ⟨-, rfl⟩ | rfl | ⟨chunks', rfl⟩⟩ := writeChunk_cases hstep
  · exact (h.needIDR.requestIDR now).giveUp hpusher rfl (.inl rfl)
  · exact h.writeFailed hpusher rfl
  · exact h.move hpusher rfl id

/-- The frame is written: it joins the history, and its own side of the guard becomes the
guard of the idle pusher. -/
theorem wrote (hp : PusherInv u) {start : Nat} {chunks : List Nat}
    (hpusher : u.pusher = .writing msg idr start chunks) :
    ChainInv ({ u with pusher := .idle }.record (.wrote msg)) := by
  have hmsg : u.pusher.msg? = some msg := by rw [hpusher]; rfl
  have hmem : msg ∈ u.pipeline := by simp [pipeline, hmsg]
  have hguard := h.guard_at hpusher
  have hflag := hp.knows
  rw [hpusher] at hflag
  have hwritten : written (u.log ++ [.wrote msg]) = written u.log ++ [msg] := filterMap_concat rfl
  have hdropped : dropped (u.log ++ [.wrote msg]) = dropped u.log := dropped_skip rfl
  have hrefused : Relay.refused (u.log ++ [.wrote msg]) = Relay.refused u.log := refused_skip rfl
  constructor
  case ordered => exact h.ordered.sublist (List.sublist_append_right _ _)
  case fresh => exact fun f hf => h.fresh f (List.mem_append_right _ hf)
  case above =>
    show ∀ w ∈ written (u.log ++ [.wrote msg]), ∀ f ∈ u.waiting, w.number < f.number
    rw [hwritten, List.forall_mem_append, List.forall_mem_singleton]
    exact ⟨fun w hw f hf => h.above w hw f (List.mem_append_right _ hf), fun _ => h.msg_lt_waiting hmsg⟩
  case old =>
    show ∀ w ∈ written (u.log ++ [.wrote msg]), w.number < u.received
    rw [hwritten, List.forall_mem_append, List.forall_mem_singleton]
    exact ⟨h.old, h.fresh msg hmem⟩
  case passed =>
    show ∀ k ∈ dropped (u.log ++ [.wrote msg]), ∀ f ∈ u.waiting, k.number < f.number
    rw [hdropped]
    exact h.passed
  case gone =>
    show ∀ k ∈ dropped (u.log ++ [.wrote msg]), k.number < u.received
    rw [hdropped]
    exact h.gone
  case refused =>
    show ∀ k ∈ Relay.refused (u.log ++ [.wrote msg]), u.stopped = true ∧
      (∀ f ∈ u.waiting, f.number < k.number) ∧ ∀ w ∈ written (u.log ++ [.wrote msg]), w.number < k.number
    rw [hrefused, hwritten]
    intro k hk
    obtain ⟨hs, hp, hw⟩ := h.refused k hk
    rw [List.forall_mem_append, List.forall_mem_singleton]
    exact ⟨hs, fun f hf => hp f (List.mem_append_right _ hf), hw, hp msg hmem⟩
  case linked =>
    show Linked _ (NothingLost (dropped (u.log ++ [.wrote msg]) ++
      Relay.refused (u.log ++ [.wrote msg]))) (written (u.log ++ [.wrote msg]))
    rw [hdropped, hrefused, hwritten]
    refine h.linked.snoc fun hdelta w hw k hk => ?_
    rcases List.mem_append.mp hk with hk | hk
    · exact hguard.1 (hflag.trans hdelta) w hw k hk
    · -- a refused frame is newer than the one written
      have := (h.refused k hk).2.1 msg hmem
      omega
  case guard =>
    show Gap (written (u.log ++ [.wrote msg])) (dropped (u.log ++ [.wrote msg])) → _
    rw [hwritten, hdropped]
    rintro ⟨w, hw, hlost⟩
    simp only [List.getLast?_concat, Option.mem_def, Option.some.injEq] at hw
    subst hw
    exact .inl (hguard.2 hlost)
  case unseen => exact fun hv => absurd hv (hp.held (by rw [hpusher]; rfl))

theorem closeStream (hp : PusherInv u) (hstep : u.closeStream ok = some u') : ChainInv u' := by
  obtain ⟨msg, idr, start, hpusher, rfl | rfl⟩ := closeStream_cases hstep
  · exact h.wrote hp hpusher
  · exact h.writeFailed hpusher rfl

end ChainInv

/-! ## Runs -/

/-- The condition on a step. The queue loses its oldest frame only while `needsIDR` is set
(or nobody will be written to), and the flag is cleared only for a frame that is newer
than everything dropped so far. -/
def ChainSafe (u : Upstream) : RelayEvent → Prop
  | .evict => u.frameChan ≠ [] → Awaiting u
  | .stopTake => Awaiting u
  | .clearNeedsIDR _ => ∀ m ∈ u.pusher.msg?, ∀ k ∈ dropped u.log, k.number ≤ m.number
  | _ => True

instance (u : Upstream) : Decidable (Awaiting u) := inferInstanceAs (Decidable (_ ∨ _ ∨ _))

instance (u : Upstream) (e : RelayEvent) : Decidable (ChainSafe u e) := by
  unfold ChainSafe
  split <;> infer_instance

instance (u : Upstream) : Decidable (WritesLinked u) := by
  unfold WritesLinked Linked NothingLost
  infer_instance

theorem chainInv_step {e : RelayEvent} (h : ChainInv u) (hp : PusherInv u) (hsafe : ChainSafe u e)
    (hstep : u.step e = some u') : ChainInv u' := by
  cases e with
  | quicStream bytes ending now =>
    simp only [step, Option.ite_none_right_eq_some, Option.some.injEq] at hstep
    obtain ⟨hidle, rfl⟩ := hstep
    exact h.readQUICStream hidle bytes ending now
  | tcpFrame header payload now =>
    simp only [step, Option.ite_none_right_eq_some, Option.some.injEq] at hstep
    obtain ⟨hidle, rfl⟩ := hstep
    exact h.dispatchFrame hidle header payload now
  | evict => exact h.evict hsafe hstep
  | enqueue now => exact h.enqueue hstep
  | stop =>
    cases hstep
    exact h.update u.commands (fun _ => rfl) id id id
  | stopTake => exact h.stopTake hsafe hstep
  | take => exact h.take hstep
  | nextFrame now => exact h.nextFrame hstep
  | latestFrame => exact h.latestFrame hstep
  | currentSession => exact h.currentSession hstep
  | recover now => exact h.recover hstep
  | loadNeedsIDR now => exact h.loadNeedsIDR hstep
  | skipFrameUntilIDR now => exact h.skipFrameUntilIDR hstep
  | clearNeedsIDR now => exact h.clearNeedsIDR hp hsafe hstep
  | openStream ok => exact h.openStream hstep
  | writeChunk now result => exact h.writeChunk hstep
  | closeStream ok => exact h.closeStream hp hstep
  | exit =>
    obtain ⟨hidle, rfl⟩ := exit_cases hstep
    exact h.move hidle rfl fun _ => trivial
  | bindSession =>
    obtain ⟨hunbound, rfl⟩ := bindSession_cases hstep
    exact h.bind hp hunbound
  | startVideo now =>
    cases hstep
    exact h.needIDR.requestInitialIDR now
  | keyframeRequest now =>
    cases hstep
    exact h.needIDR.requestIDR now
  | releaseNow =>
    cases hstep
    exact h.releaseNow
  | commandWritten | reconnect =>
    cases hstep
    exact h.update _ id id id id

theorem chainInv_new : ChainInv {} := by
  constructor
  case linked => exact .nil
  case guard => exact fun ⟨_, hw, _⟩ => nomatch hw
  all_goals simp [pipeline, waiting, PusherPc.msg?, ReaderPc.frame?, written, dropped, refused]

/-- In every run whose steps meet `ChainSafe`, whenever two frames were written one directly
after the other and the later one is not an IDR frame, nothing that the relay received
between them was dropped. -/
theorem writes_linked (events : List RelayEvent)
    (hsafe : Lts.Along step ChainSafe {} events) :
    Lts.Throughout step WritesLinked {} events := by
  have hinv : Lts.Throughout step (fun u => PusherInv u ∧ ChainInv u) {} events := by
    refine Lts.throughout_of_along ?_ ⟨pusherInv_new, chainInv_new⟩ hsafe
    intro u e u' ⟨hp, h⟩ hsafe hstep
    exact ⟨pusherInv_step hp hstep, chainInv_step h hp hsafe hstep⟩
  exact hinv.mono fun u h => h.2.linked

/-! ## Where the chain breaks -/

def videoFrame (payload : List UInt8) (now : Nat) : RelayEvent :=
  .tcpFrame { messageType := 0x01, tsMicros := 0, payloadLen := payload.length } payload now

/-- The pusher takes a frame that waited too long and drains one more behind it, decides
for the first, an IDR frame, and clears the flag that it has just set. -/
def staleIdrRun : List RelayEvent :=
  [.bindSession, .startVideo 0, videoFrame idrPayload 0, videoFrame deltaPayload 0,
    .take, .nextFrame (maxRelayBacklog + 1), .latestFrame, .latestFrame, .currentSession,
    .recover 0, .loadNeedsIDR 0, .skipFrameUntilIDR 0, .clearNeedsIDR 0] ++ writeOut 0 ++
  [videoFrame deltaPayload 0] ++ pushDelta ++ writeOut 0

/-- While an IDR frame is written, a burst overflows the queue. -/
def evictionRun : List RelayEvent :=
  [.bindSession, .startVideo 0, videoFrame idrPayload 0] ++ pushIDR ++
  List.replicate (frameCapacity + 1) (videoFrame deltaPayload 0) ++ [.evict, .enqueue 0] ++
  writeOut 0 ++ pushDelta ++ writeOut 0

/-- The relay writes a frame that is not an IDR frame right behind a hole: after
`latestFrame` preferred an older IDR frame, and after `queueFrame` evicted a frame. -/
theorem relay_skips_dropped_frame :
    (¬∀ events, Lts.Throughout step WritesLinked {} events) ∧
      ¬Lts.Throughout step WritesLinked {} staleIdrRun ∧
      ¬Lts.Throughout step WritesLinked {} evictionRun := by
  have hstale : ¬Lts.Throughout step WritesLinked {} staleIdrRun :=
    Lts.not_throughout_of_last (by decide +kernel)
  have hevict : ¬Lts.Throughout step WritesLinked {} evictionRun :=
    Lts.not_throughout_of_last (by decide +kernel)
  exact ⟨fun h => hstale (h staleIdrRun), hstale, hevict⟩

/-- A run that meets the condition: the frame in hand is reset, the flag is set, and what
the queue then loses is made up for by the next IDR frame. -/
def recoveryRun : List RelayEvent :=
  [.bindSession, .startVideo 0, videoFrame idrPayload 0] ++ pushIDR ++ writeOut 0 ++
  [videoFrame deltaPayload 0] ++ pushDelta ++ [.openStream true] ++
  List.replicate (frameCapacity + 1) (videoFrame deltaPayload 0) ++
  [.writeChunk (17 * 1000000) none, .evict, .enqueue 0, videoFrame idrPayload 0, .evict,
    .enqueue 0, .take, .nextFrame (maxRelayBacklog + 1)] ++
  List.replicate frameCapacity .latestFrame ++
  [.currentSession, .recover 0, .loadNeedsIDR 0, .skipFrameUntilIDR 0, .clearNeedsIDR 0] ++
  writeOut 0

theorem writes_linked_recoveryRun :
    Lts.Along step ChainSafe {} recoveryRun ∧
      (Lts.run step {} recoveryRun).map (fun u => (written u.log).map FrameMsg.number) = some [0, 123] ∧
      Lts.Throughout step WritesLinked {} recoveryRun := by
  have hsafe : Lts.Along step ChainSafe {} recoveryRun := by decide +kernel
  exact ⟨hsafe, by decide +kernel, writes_linked recoveryRun hsafe⟩

end Rustcast.Relay
