import Mathlib.Data.List.Forall2
import Mathlib.Data.List.InsertIdx
import Rustcast.Host.MutterClipboard

/-!
# Which schedules keep the clipboard events in order

A schedule is a run of the Mutter clipboard up to the texts. Whether it can go wrong is settled by
trying it with texts that single out one owner change: a client set that comes before its read is done
leaves a stale event behind, and a read that completes after that of the latest owner change overwrites
it for good.
-/

namespace Rustcast.Host.Mutter

open Read Lts Clipboard Mutter

/-! ## The same signals and completions with other texts -/

inductive SameShape : Event → Event → Prop where
  | set {text text' : String} (h : handled true text = handled true text') :
      SameShape (.setClipboard text) (.setClipboard text')
  | change {receivers : Nat} {isOwner : Bool} {mimes : List String} {text text' : String} :
      SameShape (.ownerChanged receivers isOwner mimes text) (.ownerChanged receivers isOwner mimes text')
  | read (i : Nat) : SameShape (.readCompletes i) (.readCompletes i)
  | transfer (mime : String) (serial : Nat) :
      SameShape (.selectionTransfer mime serial) (.selectionTransfer mime serial)

/-- The states agree in everything but the texts. -/
structure Alike (c c' : Clipboard) : Prop where
  reads : c.reads.map Read.change = c'.reads.map Read.change
  account : account c.log = account c'.log

variable {i : Nat} {r : Read}

section

variable {enabled : Bool} {c c' d d' : Clipboard} {e e' : Event} {es es' : List Event}

theorem Alike.settled (h : Alike c c') (hsettled : Settled c) : Settled c' where
  noReads := by
    have hmap := h.reads
    rw [hsettled.noReads] at hmap
    exact List.map_eq_nil_iff.mp hmap.symm
  latestLast := by
    rw [← h.account]
    exact hsettled.latestLast

theorem handled_of_true {text text' : String} (h : handled true text = handled true text') :
    handled enabled text = handled enabled text' := by
  cases enabled with
  | false => rfl
  | true => exact h

namespace Alike

variable (h : Alike c c')

include h

theorem set (text text' : String) : Alike (c.set text) (c'.set text') where
  reads := h.reads
  account := by
    rw [Clipboard.set, Clipboard.set, account_concat, account_concat, h.account]
    rfl

theorem announce (mime text text' : String) : Alike (c.announce mime text) (c'.announce mime text') where
  reads := by
    simp only [Clipboard.announce, List.map_append, List.map_cons, List.map_nil, h.reads, h.account]
  account := by
    rw [Clipboard.announce, Clipboard.announce, account_concat, account_concat, h.account]
    rfl

theorem finish {r' : Read} (hr : r.change = r'.change) : Alike (c.finish i r) (c'.finish i r') where
  reads := by
    rw [finish_reads, finish_reads, ← List.eraseIdx_map, ← List.eraseIdx_map, h.reads]
  account := by rw [finish_account, finish_account, h.account, hr]

theorem step (hshape : SameShape e e') (hstep : step enabled c e = some d) :
    ∃ d', step enabled c' e' = some d' ∧ Alike d d' := by
  cases hshape with
  | set hhandled =>
    have hsame : handled enabled _ = handled enabled _ := handled_of_true hhandled
    cases hstep
    refine ⟨_, rfl, ?_⟩
    rw [← hsame]
    split
    · exact h.set _ _
    · exact h
  | @change receivers isOwner mimes text text' =>
    cases hannounced : announced enabled receivers isOwner mimes with
    | none =>
      rw [step, hannounced] at hstep ⊢
      cases hstep
      exact ⟨c', rfl, h⟩
    | some mime =>
      rw [step, hannounced] at hstep ⊢
      cases hstep
      exact ⟨_, rfl, h.announce mime _ _⟩
  | read i =>
    obtain ⟨r, hr, rfl⟩ := Option.map_eq_some_iff.mp hstep
    have hmap : (c'.reads.map change)[i]? = some r.change := by
      rw [← h.reads, List.getElem?_map, hr]
      rfl
    rw [List.getElem?_map] at hmap
    obtain ⟨r', hr', hchange⟩ := Option.map_eq_some_iff.mp hmap
    refine ⟨c'.finish i r', ?_, h.finish hchange.symm⟩
    rw [step, hr']
    rfl
  | transfer mime serial =>
    -- a transfer may write in one run and not in the other, but it is not in the log
    have hidle : ∀ {x y : Clipboard}, step enabled x (.selectionTransfer mime serial) = some y →
        y.reads = x.reads ∧ y.log = x.log := by
      intro x y hxy
      rw [step] at hxy
      split at hxy <;> cases hxy <;> exact ⟨rfl, rfl⟩
    have hsome : ∃ d', step enabled c' (.selectionTransfer mime serial) = some d' := by
      rw [step]
      split <;> exact ⟨_, rfl⟩
    obtain ⟨d', hd'⟩ := hsome
    obtain ⟨hreads, hlog⟩ := hidle hstep
    obtain ⟨hreads', hlog'⟩ := hidle hd'
    refine ⟨d', hd', ?_, ?_⟩
    · rw [hreads, hreads', h.reads]
    · rw [hlog, hlog', h.account]

/-- A schedule runs with any texts, and the condition on client sets does not depend on them. -/
theorem run (hshape : List.Forall₂ SameShape es es') (hrun : run (Mutter.step enabled) c es = some d)
    (hrun' : run (Mutter.step enabled) c' es' = some d') :
    Alike d d' ∧ (Lts.Along (Mutter.step enabled) (SetsSettled enabled) c es →
      Lts.Along (Mutter.step enabled) (SetsSettled enabled) c' es') := by
  induction hshape generalizing c c' with
  | nil =>
    cases hrun
    cases hrun'
    exact ⟨h, id⟩
  | @cons e e' es es' hhead _ ih =>
    obtain ⟨x, hstep, hrest⟩ := run_cons_eq_some hrun
    obtain ⟨x', hstep', hrest'⟩ := run_cons_eq_some hrun'
    obtain ⟨y, hy, halike⟩ := h.step hhead hstep
    cases hstep'.symm.trans hy
    obtain ⟨hlast, hsets⟩ := ih halike hrest hrest'
    refine ⟨hlast, fun hall => ⟨?_, (forall_step_iff hstep').mpr (hsets (hall.2 x hstep))⟩⟩
    cases hhead with
    | set hhandled =>
      intro hset
      rw [← handled_of_true hhandled] at hset
      exact h.settled (hall.1 hset)
    | change => trivial
    | read i => trivial
    | transfer mime serial => trivial

end Alike

end

/-! ## Settled states are necessary

Every schedule is tried with texts that single out one owner change: its text is `marker`, all the
others are `filler`. -/

def marker : String := "x"

def filler : String := ""

/-- The text of owner change `k` if `m` is the one singled out. -/
def mark (m k : Nat) : String := if k = m then marker else filler

theorem mark_self (m : Nat) : mark m m = marker := if_pos rfl

theorem mark_of_ne {m k : Nat} (h : k ≠ m) : mark m k = filler := if_neg h

theorem filler_ne_marker : some filler ≠ some marker := by decide

/-- The event carries the text that singles out owner change `m`. -/
def Marked (m : Nat) (c : Clipboard) : Event → Prop
  | .setClipboard text => handled true text = true → text = filler
  | .ownerChanged _ _ _ text => text = mark m (account c.log).changes
  | _ => True

theorem exists_marked (m : Nat) (c : Clipboard) (e : Event) : ∃ e', SameShape e e' ∧ Marked m c e' := by
  cases e with
  | setClipboard text =>
    by_cases hhandled : handled true text = true
    · exact ⟨.setClipboard filler, .set (hhandled.trans (by decide)), fun _ => rfl⟩
    · exact ⟨.setClipboard text, .set rfl, fun htrue => absurd htrue hhandled⟩
  | ownerChanged receivers isOwner mimes text => exact ⟨_, .change, rfl⟩
  | readCompletes i => exact ⟨_, .read i, trivial⟩
  | selectionTransfer mime serial => exact ⟨_, .transfer mime serial, trivial⟩

section

variable {enabled : Bool} {m : Nat} {c c' d : Clipboard} {e : Event} {es : List Event}

theorem exists_marked_run (m : Nat) (h : Alike c c') (hrun : run (step enabled) c es = some d) :
    ∃ es' d', List.Forall₂ SameShape es es' ∧ run (step enabled) c' es' = some d' ∧ Alike d d' ∧
      Lts.Along (step enabled) (Marked m) c' es' := by
  induction es generalizing c c' with
  | nil =>
    cases hrun
    exact ⟨[], c', .nil, rfl, h, trivial⟩
  | cons e es ih =>
    obtain ⟨x, hstep, hrest⟩ := run_cons_eq_some hrun
    obtain ⟨e', hshape, hmarked⟩ := exists_marked m c' e
    obtain ⟨x', hstep', halike⟩ := h.step hshape hstep
    obtain ⟨es', d', hshapes, hrun', hlast, hall⟩ := ih halike hrest
    refine ⟨e' :: es', d', .cons hshape hshapes, ?_, hlast, hmarked, (forall_step_iff hstep').mpr hall⟩
    rw [run_cons, hstep']
    exact hrun'

theorem eq_filler_of_marked {text : String} (hmarked : Marked m c (.setClipboard text))
    (h : handled enabled text = true) : text = filler := by
  refine hmarked ?_
  cases enabled with
  | false => cases h
  | true => exact h

/-- The running reads of a marked run. -/
structure MarkedReads (m : Nat) (c : Clipboard) : Prop where
  text : ∀ r ∈ c.reads, r.text = mark m r.change
  lt : ∀ r ∈ c.reads, r.change < (account c.log).changes
  nodup : (c.reads.map Read.change).Nodup

theorem markedReads_start : MarkedReads m {} where
  text r hr := by cases hr
  lt r hr := by cases hr
  nodup := List.nodup_nil

theorem announce_account (c : Clipboard) (mime text : String) :
    account (c.announce mime text).log = { account c.log with changes := (account c.log).changes + 1 } :=
  account_concat c.log (.change text)

theorem set_account (c : Clipboard) (text : String) :
    account (c.set text).log = { account c.log with floor := (account c.log).changes, done := none } :=
  account_concat c.log (.set text)

theorem markedReads_step (h : MarkedReads m c) (hmarked : Marked m c e)
    (hstep : step enabled c e = some c') : MarkedReads m c' := by
  cases step_cases hstep with
  | idle writes => exact { h with }
  | set hhandled =>
    refine ⟨h.text, ?_, h.nodup⟩
    rw [set_account]
    exact h.lt
  | announce =>
    refine ⟨?_, ?_, ?_⟩
    · intro r hr
      rcases List.mem_append.mp hr with hold | hnew
      · exact h.text r hold
      · cases List.mem_singleton.mp hnew
        exact hmarked
    · intro r hr
      rw [announce_account]
      rcases List.mem_append.mp hr with hold | hnew
      · exact Nat.lt_succ_of_lt (h.lt r hold)
      · cases List.mem_singleton.mp hnew
        exact Nat.lt_succ_self _
    · rw [announce, List.map_append, List.nodup_append]
      refine ⟨h.nodup, List.pairwise_singleton _ _, fun a ha b hb => ?_⟩
      obtain ⟨r, hr, rfl⟩ := List.mem_map.mp ha
      cases List.mem_singleton.mp hb
      exact Nat.ne_of_lt (h.lt r hr)
  | finish hr =>
    refine ⟨fun r hr => h.text r (mem_finish_reads hr), ?_, ?_⟩
    · rw [finish_account]
      exact fun r hr => h.lt r (mem_finish_reads hr)
    · rw [finish_reads, ← List.eraseIdx_map]
      exact h.nodup.sublist (List.eraseIdx_sublist _ _)

theorem pending_finish (hr : c.reads[i]? = some r) (hne : r.change ≠ m) (h : m ∈ c.reads.map change) :
    m ∈ (c.finish i r).reads.map change := by
  obtain ⟨r', hr', rfl⟩ := List.mem_map.mp h
  exact List.mem_map_of_mem (mem_finish_reads_of_ne hr hr' fun heq => hne (congrArg change heq.symm))

theorem not_pending_finish (h : MarkedReads m c) (hr : c.reads[i]? = some r) :
    r.change ∉ (c.finish i r).reads.map change := by
  intro hmem
  rw [finish_reads] at hmem
  obtain ⟨r', hr', hchange⟩ := List.mem_map.mp hmem
  obtain ⟨j, hij, hj⟩ := List.mem_eraseIdx_iff_getElem?.mp hr'
  have hi : (c.reads.map change)[i]? = some r.change := by
    rw [List.getElem?_map, hr]
    rfl
  have hj : (c.reads.map change)[j]? = some r.change := by
    rw [List.getElem?_map, hj, ← hchange]
    rfl
  -- two places with one number are one place
  have hlt : j < (c.reads.map change).length := (List.getElem?_eq_some_iff.mp hj).1
  exact hij ((List.getElem?_inj hlt h.nodup).mp (hj.trans hi.symm))

/-! ### A client's text is set while a read is running -/

/-- The singled out read is running and a client set has followed its owner change. -/
structure Overtaken (m : Nat) (c : Clipboard) : Prop where
  running : m ∈ c.reads.map Read.change
  lt_floor : m < (account c.log).floor
  last_ne : c.last ≠ some marker
  marked : MarkedReads m c

theorem log_step (hstep : step enabled c e = some c') : ∃ entries, c'.log = c.log ++ entries := by
  cases step_cases hstep with
  | idle writes => exact ⟨[], (List.append_nil _).symm⟩
  | set hhandled => exact ⟨_, rfl⟩
  | announce => exact ⟨_, rfl⟩
  | @finish i r hr =>
    unfold finish
    dsimp only
    split <;> exact ⟨_, rfl⟩

/-- One step on, the read still runs, or it has sent a stale event. -/
theorem overtaken_step (h : Overtaken m c) (hmarked : Marked m c e)
    (hstep : step enabled c e = some c') : Overtaken m c' ∨ ¬Trace.Historically NotStale c'.log := by
  have hreads := markedReads_step h.marked hmarked hstep
  cases step_cases hstep with
  | idle writes => exact .inl { h with marked := hreads }
  | set hhandled =>
    refine .inl ⟨h.running, ?_, ?_, hreads⟩
    · rw [set_account]
      exact Nat.lt_of_lt_of_le h.lt_floor (account_floor_le c.log)
    · rw [eq_filler_of_marked hmarked hhandled]
      exact filler_ne_marker
  | announce =>
    refine .inl ⟨?_, ?_, h.last_ne, hreads⟩
    · rw [announce, List.map_append]
      exact List.mem_append_left _ h.running
    · rw [announce_account]
      exact h.lt_floor
  | @finish i r hr =>
    have htext := h.marked.text r (List.mem_of_getElem? hr)
    by_cases hm : r.change = m
    · -- the stale text is not the one last seen, so it is sent
      have hne : c.last ≠ some r.text := by
        rw [htext, hm, mark_self]
        exact h.last_ne
      refine .inr fun hall => ?_
      simp only [finish, if_neg hne] at hall
      have hfloor : (account c.log).floor ≤ r.change := (Trace.historically_concat.mp hall).2
      have hlt := h.lt_floor
      omega
    · refine .inl ⟨pending_finish hr hm h.running, ?_, ?_, hreads⟩
      · rw [finish_account]
        exact h.lt_floor
      · rw [finish_last, htext, mark_of_ne hm]
        exact filler_ne_marker

theorem log_run (hrun : run (step enabled) c es = some c') : ∃ entries, c'.log = c.log ++ entries := by
  induction es generalizing c with
  | nil =>
    cases hrun
    exact ⟨[], (List.append_nil _).symm⟩
  | cons e es ih =>
    obtain ⟨x, hstep, hrest⟩ := run_cons_eq_some hrun
    obtain ⟨entries, hlog⟩ := log_step hstep
    obtain ⟨entries', hlog'⟩ := ih hrest
    exact ⟨entries ++ entries', by rw [hlog', hlog, List.append_assoc]⟩

/-- When all reads have completed, the stale event has been sent. -/
theorem stale_of_overtaken (h : Overtaken m c) (hrun : run (step enabled) c es = some c')
    (hmarked : Lts.Along (step enabled) (Marked m) c es) (hdone : c'.reads = []) :
    ¬Trace.Historically NotStale c'.log := by
  induction es generalizing c with
  | nil =>
    cases hrun
    have hrunning := h.running
    rw [hdone] at hrunning
    cases hrunning
  | cons e es ih =>
    obtain ⟨x, hstep, hrest⟩ := run_cons_eq_some hrun
    rcases overtaken_step h hmarked.1 hstep with hstill | hstale
    · exact ih hstill hrest (hmarked.2 x hstep)
    · obtain ⟨entries, hlog⟩ := log_run hrest
      rw [hlog]
      exact fun hall => hstale hall.of_append

/-! ### The read of the latest owner change is not the last to complete -/

/-- How far the singled out read has come, while its owner change is the latest and no client's text
has been set since. -/
inductive Stage (m : Nat) (c : Clipboard) : Prop where
  | running (h : m ∈ c.reads.map Read.change) (hlast : c.last ≠ some marker)
  | sent (h : m ∉ c.reads.map Read.change) (hdone : (account c.log).done = some m)
      (hlast : c.last = some marker) (hsent : lastSent c.log = some marker)
  | overwritten (h : m ∉ c.reads.map Read.change) (hlast : c.last = some filler)
      (hsent : lastSent c.log = some filler)

structure Watched (m : Nat) (c : Clipboard) : Prop where
  marked : MarkedReads m c
  early : (account c.log).changes ≤ m → c.last ≠ some marker ∧ (ideal c.log).current ≠ some marker
  late : (account c.log).changes = m + 1 → (account c.log).floor ≤ m →
    (ideal c.log).expected = some marker ∧ Stage m c

theorem watched_start : Watched m {} where
  marked := markedReads_start
  early _ := by decide
  late h _ := by cases h

theorem stage_finish (h : Stage m c) (hmarked : MarkedReads m c) (hr : c.reads[i]? = some r) :
    Stage m (c.finish i r) := by
  have hmem := List.mem_of_getElem? hr
  have htext := hmarked.text r hmem
  -- a read that is not the singled out one has the other text
  have hother : m ∉ c.reads.map change →
      r.text = filler ∧ m ∉ (c.finish i r).reads.map change := by
    intro hnot
    have hne : r.change ≠ m := fun heq => hnot (heq ▸ List.mem_map_of_mem hmem)
    refine ⟨htext.trans (mark_of_ne hne), fun hfinish => hnot ?_⟩
    obtain ⟨r', hr', hchange⟩ := List.mem_map.mp hfinish
    exact hchange ▸ List.mem_map_of_mem (mem_finish_reads hr')
  cases h with
  | running hrunning hlast =>
    by_cases hm : r.change = m
    · have hmarker : r.text = marker := by rw [htext, hm, mark_self]
      refine .sent (hm ▸ not_pending_finish hmarked hr) ?_ ?_ ?_
      · rw [finish_account, hm]
      · rw [finish_last, hmarker]
      · rw [finish_lastSent, hmarker, if_neg hlast]
    · refine .running (pending_finish hr hm hrunning) ?_
      rw [finish_last, htext, mark_of_ne hm]
      exact filler_ne_marker
  | sent hnot hdone hlast hsent =>
    obtain ⟨hfiller, hgone⟩ := hother hnot
    refine .overwritten hgone ?_ ?_
    · rw [finish_last, hfiller]
    · rw [finish_lastSent, hfiller, hlast, if_neg filler_ne_marker.symm]
  | overwritten hnot hlast hsent =>
    obtain ⟨hfiller, hgone⟩ := hother hnot
    refine .overwritten hgone ?_ ?_
    · rw [finish_last, hfiller]
    · rw [finish_lastSent, hfiller, if_pos hlast, hsent]

theorem set_ideal (c : Clipboard) (text : String) :
    ideal (c.set text).log = ⟨some text, (ideal c.log).expected⟩ :=
  ideal_concat c.log (.set text)

theorem watched_step (h : Watched m c) (hmarked : Marked m c e)
    (hstep : step enabled c e = some c') : Watched m c' := by
  have hreads := markedReads_step h.marked hmarked hstep
  cases step_cases hstep with
  | idle writes =>
    refine ⟨hreads, h.early, fun hchanges hfloor => ⟨(h.late hchanges hfloor).1, ?_⟩⟩
    cases (h.late hchanges hfloor).2 with
    | running hrunning hlast => exact .running hrunning hlast
    | sent hnot hdone hlast hsent => exact .sent hnot hdone hlast hsent
    | overwritten hnot hlast hsent => exact .overwritten hnot hlast hsent
  | @set text hhandled =>
    cases eq_filler_of_marked hmarked hhandled
    refine ⟨hreads, fun _ => ⟨filler_ne_marker, ?_⟩, ?_⟩
    · rw [set_ideal]
      exact filler_ne_marker
    · -- a client set after the change ends the watch
      rw [set_account]
      intro hchanges hfloor
      exact absurd hfloor (by rw [hchanges]; exact Nat.not_succ_le_self m)
  | @announce receivers isOwner mimes text mime =>
    have hideal : ideal (c.announce mime text).log = _ := ideal_concat c.log (.change text)
    have htext : text = mark m (account c.log).changes := hmarked
    refine ⟨hreads, ?_, ?_⟩
    · rw [announce_account]
      intro hle
      have hne : (account c.log).changes ≠ m := Nat.ne_of_lt hle
      refine ⟨(h.early (Nat.le_of_lt hle)).1, ?_⟩
      rw [hideal, next_change_current, htext, mark_of_ne hne]
      exact filler_ne_marker
    · rw [announce_account]
      intro hchanges _
      have hm : (account c.log).changes = m := Nat.succ.inj hchanges
      obtain ⟨hlast, hcurrent⟩ := h.early (Nat.le_of_eq hm)
      have hmarker : text = marker := by rw [htext, hm, mark_self]
      constructor
      · rw [hideal, hmarker, Ideal.next, if_neg hcurrent]
      · refine .running ?_ hlast
        rw [announce, List.map_append, hm]
        exact List.mem_append_right _ (List.mem_singleton_self m)
  | @finish i r hr =>
    refine ⟨hreads, ?_, ?_⟩
    · rw [finish_account, finish_last, finish_ideal]
      intro hle
      have hmem := List.mem_of_getElem? hr
      have hne : r.change ≠ m := Nat.ne_of_lt (Nat.lt_of_lt_of_le (h.marked.lt r hmem) hle)
      rw [h.marked.text r hmem, mark_of_ne hne]
      exact ⟨filler_ne_marker, (h.early hle).2⟩
    · rw [finish_account, finish_ideal]
      intro hchanges hfloor
      obtain ⟨hexpected, hstage⟩ := h.late hchanges hfloor
      exact ⟨hexpected, stage_finish hstage h.marked hr⟩

/-- After the other text was sent last, a client set keeps it so. -/
structure Silent (m : Nat) (c : Clipboard) : Prop where
  lt : m < (account c.log).changes
  reads : ∀ r ∈ c.reads, r.text = filler
  last_eq : c.last = some filler
  lastSent_eq : lastSent c.log = some filler
  ideal_eq : ideal c.log = ⟨some filler, some marker⟩

theorem silent_step (h : Silent m c) (hmarked : Marked m c e)
    (hstep : step enabled c e = some c') : Silent m c' := by
  cases step_cases hstep with
  | idle writes => exact { h with }
  | @set text hhandled =>
    cases eq_filler_of_marked hmarked hhandled
    refine ⟨?_, h.reads, rfl, (lastSent_concat c.log _).trans h.lastSent_eq, ?_⟩
    · rw [set_account]
      exact h.lt
    · rw [set_ideal, h.ideal_eq]
  | @announce receivers isOwner mimes text mime =>
    have htext : text = filler := .trans hmarked (mark_of_ne (Nat.ne_of_gt h.lt))
    refine ⟨?_, ?_, h.last_eq, (lastSent_concat c.log _).trans h.lastSent_eq, ?_⟩
    · rw [announce_account]
      exact Nat.lt_succ_of_lt h.lt
    · intro r hr
      rcases List.mem_append.mp hr with hold | hnew
      · exact h.reads r hold
      · cases List.mem_singleton.mp hnew
        exact htext
    · have hideal : ideal (c.announce mime text).log = _ := ideal_concat c.log (.change text)
      rw [hideal, h.ideal_eq, htext]
      decide
  | @finish i r hr =>
    have htext := h.reads r (List.mem_of_getElem? hr)
    refine ⟨?_, fun r hr => h.reads r (mem_finish_reads hr), ?_, ?_, ?_⟩
    · rw [finish_account]
      exact h.lt
    · rw [finish_last, htext]
    · rw [finish_lastSent, htext, if_pos h.last_eq, h.lastSent_eq]
    · rw [finish_ideal, h.ideal_eq]

end

/-! ## The exact condition -/

section

variable {enabled : Bool} {c d : Clipboard} {before after : List Event} {text : String}

theorem alike_refl (c : Clipboard) : Alike c c := ⟨rfl, rfl⟩

/-- The texts of a schedule can be chosen such that an event is wrong. -/
def Breakable (enabled : Bool) (es : List Event) : Prop :=
  ∃ es' c', List.Forall₂ SameShape es es' ∧ run (step enabled) {} es' = some c' ∧ ¬Ordered c'.log

/-- The marked version of a schedule that goes on with a client set. -/
theorem marked_set_head {m : Nat} {d' c' : Clipboard} {after' : List Event}
    (hset : handled enabled text = true)
    (hshape : List.Forall₂ SameShape (.setClipboard text :: after) after')
    (hrun : run (step enabled) d' after' = some c')
    (hmarked : Lts.Along (step enabled) (Marked m) d' after') :
    ∃ rest, run (step enabled) (d'.set filler) rest = some c' ∧
      Lts.Along (step enabled) (Marked m) (d'.set filler) rest := by
  cases hshape with
  | @cons _ _ _ rest hhead _ =>
    cases hhead with
    | @set _ text' hsame =>
      have hset' : handled enabled text' = true := (handled_of_true hsame).symm.trans hset
      have hstep : step enabled d' (.setClipboard text') = some (d'.set text') := by
        rw [step, if_pos hset']
      obtain ⟨x, hx, hrest⟩ := run_cons_eq_some hrun
      cases hstep.symm.trans hx
      have htail := hmarked.2 _ hstep
      rw [eq_filler_of_marked hmarked.1 hset'] at hrest htail
      exact ⟨rest, hrest, htail⟩

theorem breakable_of_running (hbefore : run (step enabled) {} before = some d)
    (hset : handled enabled text = true)
    (hafter : run (step enabled) d (.setClipboard text :: after) = some c) (hdone : c.reads = [])
    (hreads : d.reads ≠ []) : Breakable enabled (before ++ .setClipboard text :: after) := by
  obtain ⟨r, hr⟩ := List.exists_mem_of_ne_nil _ hreads
  obtain ⟨before', d', hshape, hbefore', hd, hmarked⟩ :=
    exists_marked_run r.change (alike_refl {}) hbefore
  obtain ⟨after', c', hshape', hafter', hc, hmarked'⟩ := exists_marked_run r.change hd hafter
  refine ⟨before' ++ after', c', List.rel_append hshape hshape', run_trans hbefore' hafter',
    fun hordered => ?_⟩
  have hread := (throughout_of_along (fun _ _ _ => markedReads_step) markedReads_start hmarked).last
    hbefore'
  have hrunning : r.change ∈ d'.reads.map change := hd.reads ▸ List.mem_map_of_mem hr
  obtain ⟨r', hr', hchange⟩ := List.mem_map.mp hrunning
  obtain ⟨rest, hrest, htail⟩ := marked_set_head hset hshape' hafter' hmarked'
  have hovertaken : Overtaken r.change (d'.set filler) := by
    refine ⟨hrunning, ?_, filler_ne_marker, hread.text, ?_, hread.nodup⟩
    · rw [set_account, ← hchange]
      exact hread.lt r' hr'
    · rw [set_account]
      exact hread.lt
  have hnone : c'.reads = [] := by
    have hmap := hc.reads
    rw [hdone] at hmap
    exact List.map_eq_nil_iff.mp hmap.symm
  exact stale_of_overtaken hovertaken hrest htail hnone hordered.notStale

/-- With the text of the latest owner change singled out, the other one was sent last. -/
theorem exists_overwritten (hbefore : run (step enabled) {} before = some d)
    (hreads : d.reads = []) (hlt : (account d.log).floor < (account d.log).changes)
    (hdone : (account d.log).done ≠ some ((account d.log).changes - 1)) :
    ∃ before' d', List.Forall₂ SameShape before before' ∧
      run (step enabled) {} before' = some d' ∧ Alike d d' ∧
      lastSent d'.log = some filler ∧ (ideal d'.log).expected = some marker := by
  obtain ⟨before', d', hshape, hbefore', hd, hmarked⟩ :=
    exists_marked_run ((account d.log).changes - 1) (alike_refl {}) hbefore
  have hwatched := (throughout_of_along (fun _ _ _ => watched_step) watched_start hmarked).last hbefore'
  have haccount := hd.account
  obtain ⟨hexpected, hstage⟩ := hwatched.late (by rw [← haccount]; omega) (by rw [← haccount]; omega)
  refine ⟨before', d', hshape, hbefore', hd, ?_⟩
  cases hstage with
  | running hrunning hlast =>
    rw [← hd.reads, hreads] at hrunning
    cases hrunning
  -- it was the last to complete, which the schedule excludes
  | sent hnot hsame hlast hsent => exact absurd (haccount ▸ hsame) hdone
  | overwritten hnot hlast hsent => exact ⟨hsent, hexpected⟩

theorem breakable_of_overwritten_at_end (hrun : run (step enabled) {} before = some d)
    (hreads : d.reads = []) (hlt : (account d.log).floor < (account d.log).changes)
    (hdone : (account d.log).done ≠ some ((account d.log).changes - 1)) : Breakable enabled before := by
  obtain ⟨before', d', hshape, hrun', -, hsent, hexpected⟩ := exists_overwritten hrun hreads hlt hdone
  refine ⟨before', d', hshape, hrun', fun hordered => ?_⟩
  have heq := hordered.lastSent_eq
  rw [hsent, hexpected] at heq
  exact filler_ne_marker heq

theorem breakable_of_overwritten (hbefore : run (step enabled) {} before = some d)
    (hset : handled enabled text = true)
    (hafter : run (step enabled) d (.setClipboard text :: after) = some c)
    (hreads : d.reads = []) (hlt : (account d.log).floor < (account d.log).changes)
    (hdone : (account d.log).done ≠ some ((account d.log).changes - 1)) :
    Breakable enabled (before ++ .setClipboard text :: after) := by
  obtain ⟨before', d', hshape, hbefore', hd, hsent, hexpected⟩ :=
    exists_overwritten hbefore hreads hlt hdone
  obtain ⟨after', c', hshape', hafter', hc, hmarked⟩ :=
    exists_marked_run ((account d.log).changes - 1) hd hafter
  refine ⟨before' ++ after', c', List.rel_append hshape hshape', run_trans hbefore' hafter',
    fun hordered => ?_⟩
  obtain ⟨rest, hrest, htail⟩ := marked_set_head hset hshape' hafter' hmarked
  have hsilent : Silent ((account d.log).changes - 1) (d'.set filler) := by
    refine ⟨?_, ?_, rfl, (lastSent_concat d'.log _).trans hsent, ?_⟩
    · rw [set_account, ← hd.account]
      show (account d.log).changes - 1 < (account d.log).changes
      omega
    · intro r hr
      have hr : r.change ∈ d'.reads.map change := List.mem_map_of_mem hr
      rw [← hd.reads, hreads] at hr
      cases hr
    · rw [set_ideal, hexpected]
  have hend := (throughout_of_along (fun _ _ _ => silent_step) hsilent htail).last hrest
  have heq := hordered.lastSent_eq
  rw [hend.lastSent_eq, hend.ideal_eq] at heq
  exact filler_ne_marker heq

theorem settled_of_not_overwritten (hreads : c.reads = [])
    (hdone : ¬((account c.log).floor < (account c.log).changes ∧
      (account c.log).done ≠ some ((account c.log).changes - 1))) : Settled c :=
  ⟨hreads, fun hlt => not_not.mp fun hne => hdone ⟨hlt, hne⟩⟩

end

/-- The clipboard events towards the client are the right ones, whatever the texts are, exactly for the
schedules in which a client's text is set only when all reads have completed, that of the latest owner
change last, and in which the same holds at the end. -/
theorem clipboard_ordered_iff (enabled : Bool) (es : List Event) (c : Clipboard)
    (hrun : run (step enabled) {} es = some c) (hdone : c.reads = []) :
    (∀ es' c', List.Forall₂ SameShape es es' → run (step enabled) {} es' = some c' →
        Ordered c'.log) ↔
      Lts.Along (step enabled) (SetsSettled enabled) {} es ∧ Settled c := by
  constructor
  · intro hall
    have hsafe : ¬Breakable enabled es := by
      rintro ⟨es', c', hshape, hrun', hnot⟩
      exact hnot (hall es' c' hshape hrun')
    constructor
    · by_contra hsets
      obtain ⟨before, d, e, after, rfl, hbefore, hafter, hnot⟩ := exists_not_ok hrun hsets
      cases e with
      | setClipboard text =>
        -- the first set in an unsettled state: a read is running, or the last one was of an older change
        obtain ⟨hset, hunsettled⟩ := Classical.not_imp.mp hnot
        by_cases hreads : d.reads = []
        · refine hunsettled (settled_of_not_overwritten hreads ?_)
          rintro ⟨hlt, hlast⟩
          exact hsafe (breakable_of_overwritten hbefore hset hafter hreads hlt hlast)
        · exact hsafe (breakable_of_running hbefore hset hafter hdone hreads)
      | ownerChanged receivers isOwner mimes text | readCompletes i | selectionTransfer mime serial => exact hnot trivial
    · refine settled_of_not_overwritten hdone ?_
      rintro ⟨hlt, hlast⟩
      exact hsafe (breakable_of_overwritten_at_end hrun hdone hlt hlast)
  · rintro ⟨hsets, hsettled⟩ es' c' hshape hrun'
    obtain ⟨halike, hsets'⟩ := (alike_refl {}).run hshape hrun hrun'
    exact ordered_of_settled hrun' (hsets' hsets) (halike.settled hsettled)

/-! ## Schedules of either kind -/

theorem sameShape_refl (e : Event) : SameShape e e := by
  cases e with
  | setClipboard text => exact .set rfl
  | ownerChanged receivers isOwner mimes text => exact .change
  | readCompletes i => exact .read i
  | selectionTransfer mime serial => exact .transfer mime serial

def hostCopies (text : String) : Event := .ownerChanged 1 false ["text/plain"] text

def inTurn : List Event :=
  [hostCopies "a", .readCompletes 0, .setClipboard "b", hostCopies "c", .readCompletes 0]

theorem clipboard_ordered_in_turn :
    ∃ c, run (step true) {} inTurn = some c ∧ lastSent c.log = some "c" ∧ Ordered c.log := by
  refine ⟨_, rfl, by decide, ?_⟩
  refine (clipboard_ordered_iff true inTurn _ rfl rfl).mpr (by decide) inTurn _ ?_ rfl
  exact List.forall₂_same.mpr fun e _ => sameShape_refl e

/-- Two ways to go wrong: the second of two texts is read first, so that the client is left with the
first; and the host's text arrives after the client's own text was set. -/
theorem clipboard_unordered :
    (∃ c, run (step true) {} [hostCopies "a", hostCopies "b", .readCompletes 1, .readCompletes 0] =
        some c ∧ c.reads = [] ∧ lastSent c.log = some "a" ∧ (ideal c.log).expected = some "b" ∧
        ¬Ordered c.log) ∧
      ∃ c, run (step true) {} [hostCopies "a", .setClipboard "b", .readCompletes 0] = some c ∧
        c.reads = [] ∧ ¬Trace.Historically NotStale c.log := by
  refine ⟨⟨_, rfl, rfl, by decide, by decide, fun h => ?_⟩, _, rfl, rfl, fun h => ?_⟩
  · exact absurd h.lastSent_eq (by decide)
  · exact absurd ((Trace.scan_iff Trace.historically_nil).mpr h) (by decide)

end Rustcast.Host.Mutter
