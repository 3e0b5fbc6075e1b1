import Mathlib.Data.List.Induction
import Rustcast.Core.Lts
import Rustcast.Core.Trace

/-!
# The clipboard of a Mutter session

The clipboard arms of `forward_commands` in `mutter.rs`. A client's text is announced to Mutter with
`SetSelection`; a change of the selection's owner on the host starts a task that reads the new text and
sends it towards the client, unless it is the text last seen in either direction. The tasks run
concurrently and complete in any order.

A read yields the text that was current when the owner change was signalled. A log, kept next to the
state, records the signals that were acted upon and what became of every read.
-/

namespace Rustcast.Host.Mutter

/-! ## The state and the commands -/

def clipboardMaxBytes : Nat := 1024 * 1024

def textMimes : List String :=
  ["text/plain;charset=utf-8", "text/plain", "UTF8_STRING", "STRING", "TEXT"]

def bestTextMime (mimes : List String) : Option String := textMimes.find? fun m => mimes.contains m

structure ClipboardEvent where
  mime : String
  data : String
  deriving DecidableEq

/-- A task spawned for an owner change. -/
structure Read where
  /-- The number of the owner change. -/
  change : Nat
  mime : String
  text : String
  deriving DecidableEq

/-- What was acted upon, in order. -/
inductive Entry where
  /-- A client's text was announced. -/
  | set (text : String)
  /-- An owner change started a read. -/
  | change (text : String)
  /-- The read of an owner change completed and its text was sent. -/
  | sent (change : Nat) (event : ClipboardEvent)
  /-- The read of an owner change completed with the text last seen. -/
  | dropped (change : Nat)
  deriving DecidableEq

/-- The position in the signals: how many owner changes there were, how many before the last client
set, and whose read has completed last since then. -/
structure Account where
  changes : Nat := 0
  floor : Nat := 0
  done : Option Nat := none
  deriving DecidableEq

def Account.next (a : Account) : Entry → Account
  | .set _ => { a with floor := a.changes, done := none }
  | .change _ => { a with changes := a.changes + 1 }
  | .sent k _ => { a with done := some k }
  | .dropped k => { a with done := some k }

def account (log : List Entry) : Account := log.foldl Account.next {}

/-- `ClipboardState`, the tasks that are running and what was written for `SelectionTransfer`. -/
structure Clipboard where
  pending : Option String := none
  last : Option String := none
  reads : List Read := []
  writes : List (Nat × String) := []
  log : List Entry := []
  deriving DecidableEq

namespace Clipboard

/-- `Cmd::SetClipboard`, for a text that is not dropped. -/
def set (c : Clipboard) (text : String) : Clipboard :=
  { c with last := some text, pending := some text, log := c.log ++ [.set text] }

def announce (c : Clipboard) (mime text : String) : Clipboard :=
  { c with
    reads := c.reads ++ [{ change := (account c.log).changes, mime, text }]
    log := c.log ++ [.change text] }

def finish (c : Clipboard) (i : Nat) (r : Read) : Clipboard :=
  let c := { c with reads := c.reads.eraseIdx i }
  -- all that a task looks at: nothing ties it to the owner change that started it
  if c.last = some r.text then { c with log := c.log ++ [.dropped r.change] }
  else
    { c with
      last := some r.text
      log := c.log ++ [.sent r.change { mime := r.mime, data := r.text }] }

end Clipboard

inductive Event where
  | setClipboard (text : String)
  /-- `SelectionOwnerChanged`, with the number of receivers at that time. -/
  | ownerChanged (receivers : Nat) (isOwner : Bool) (mimes : List String) (text : String)
  /-- The task at this position has its text. -/
  | readCompletes (i : Nat)
  | selectionTransfer (mime : String) (serial : Nat)
  deriving DecidableEq

/-- A client's text is taken: the clipboard is on and the text is not oversized. -/
def handled (enabled : Bool) (text : String) : Bool :=
  if !enabled then false
  else if clipboardMaxBytes < text.utf8ByteSize then false
  else true

/-- The MIME type to read after an owner change, if it starts a read. -/
def announced (enabled : Bool) (receivers : Nat) (isOwner : Bool) (mimes : List String) : Option String :=
  if !enabled || receivers == 0 then none
  -- the change is the echo of the session's own `SetSelection`
  else if isOwner then none
  else bestTextMime mimes

variable (c : Clipboard)

/-- The text to write for a `SelectionTransfer`. -/
def Clipboard.transferred (mime : String) : Option String :=
  if (bestTextMime [mime]).isNone then none else c.pending

def step (enabled : Bool) (c : Clipboard) : Event → Option Clipboard
  | .setClipboard text => some (if handled enabled text then c.set text else c)
  | .ownerChanged receivers isOwner mimes text =>
    match announced enabled receivers isOwner mimes with
    | none => some c
    | some mime => some (c.announce mime text)
  | .readCompletes i => c.reads[i]?.map (c.finish i)
  | .selectionTransfer mime serial =>
    match c.transferred mime with
    | none => some c
    | some text => some { c with writes := c.writes ++ [(serial, text)] }

/-! ## What is promised -/

/-- What the signals alone say: the text that is current, and the text of the latest owner change that
differed from the text then current. -/
structure Ideal where
  current : Option String := none
  expected : Option String := none
  deriving DecidableEq

def Ideal.next (i : Ideal) : Entry → Ideal
  | .set text => { i with current := some text }
  -- a text that is current already makes no event necessary
  | .change text => if i.current = some text then i else { current := some text, expected := some text }
  | .sent _ _ => i
  | .dropped _ => i

def ideal (log : List Entry) : Ideal := log.foldl Ideal.next {}

def sentText (last : Option String) : Entry → Option String
  | .sent _ event => some event.data
  | _ => last

def lastSent (log : List Entry) : Option String := log.foldl sentText none

/-- An event is not about an owner change that a client set has followed by then. -/
def NotStale (past : List Entry) : Entry → Prop
  | .sent k _ => (account past).floor ≤ k
  | _ => True

instance decidableNotStale (past : List Entry) (e : Entry) : Decidable (NotStale past e) := by
  unfold NotStale
  split <;> infer_instance

/-- What the log is to be like. -/
structure Ordered (log : List Entry) : Prop where
  lastSent_eq : lastSent log = (ideal log).expected
  notStale : Trace.Historically NotStale log

section

variable (log : List Entry) (e : Entry)

theorem account_concat : account (log ++ [e]) = (account log).next e := by
  rw [account, List.foldl_append]
  rfl

theorem account_floor_le : (account log).floor ≤ (account log).changes := by
  induction log using List.reverseRecOn with
  | nil => exact Nat.le_refl 0
  | append_singleton log e ih =>
    rw [account_concat]
    cases e with
    | set text => exact Nat.le_refl _
    | change text => exact Nat.le_succ_of_le ih
    | sent k event => exact ih
    | dropped k => exact ih

theorem ideal_concat : ideal (log ++ [e]) = (ideal log).next e := by
  rw [ideal, List.foldl_append]
  rfl

theorem next_change_current (i : Ideal) (text : String) : (i.next (.change text)).current = some text := by
  unfold Ideal.next
  dsimp only
  split
  · assumption
  · rfl

theorem lastSent_concat : lastSent (log ++ [e]) = sentText (lastSent log) e := by
  rw [lastSent, List.foldl_append]
  rfl

end

/-! ## Steps -/

inductive Moves (enabled : Bool) (c : Clipboard) : Event → Clipboard → Prop where
  | idle {e : Event} (writes : List (Nat × String)) : Moves enabled c e { c with writes }
  | set {text : String} (h : handled enabled text = true) :
      Moves enabled c (.setClipboard text) (c.set text)
  | announce {receivers : Nat} {isOwner : Bool} {mimes : List String} {text mime : String} :
      Moves enabled c (.ownerChanged receivers isOwner mimes text) (c.announce mime text)
  | finish {i : Nat} {r : Read} (h : c.reads[i]? = some r) :
      Moves enabled c (.readCompletes i) (c.finish i r)

variable {enabled : Bool} {i : Nat} {r r' : Read}

theorem step_cases {c c' : Clipboard} {e : Event} (h : step enabled c e = some c') :
    Moves enabled c e c' := by
  cases e with
  | setClipboard text =>
    cases hhandled : handled enabled text with
    | true =>
      rw [step, hhandled] at h
      cases h
      exact .set hhandled
    | false =>
      rw [step, hhandled] at h
      cases h
      exact .idle c.writes
  | ownerChanged receivers isOwner mimes text =>
    cases hannounced : announced enabled receivers isOwner mimes with
    | none =>
      rw [step, hannounced] at h
      cases h
      exact .idle c.writes
    | some mime =>
      rw [step, hannounced] at h
      cases h
      exact .announce
  | readCompletes i =>
    obtain ⟨r, hr, rfl⟩ := Option.map_eq_some_iff.mp h
    exact .finish hr
  | selectionTransfer mime serial =>
    cases htransferred : c.transferred mime with
    | none =>
      rw [step, htransferred] at h
      cases h
      exact .idle c.writes
    | some text =>
      rw [step, htransferred] at h
      cases h
      exact .idle _

/-- Whichever way a read ends, its text is the one last seen. -/
theorem finish_last (i : Nat) (r : Read) : (c.finish i r).last = some r.text := by
  unfold Clipboard.finish
  dsimp only
  split
  · assumption
  · rfl

theorem finish_reads (i : Nat) (r : Read) : (c.finish i r).reads = c.reads.eraseIdx i := by
  unfold Clipboard.finish
  dsimp only
  split <;> rfl

theorem finish_account (i : Nat) (r : Read) :
    account (c.finish i r).log = { account c.log with done := some r.change } := by
  unfold Clipboard.finish
  dsimp only
  split <;> exact account_concat _ _

theorem finish_ideal (i : Nat) (r : Read) : ideal (c.finish i r).log = ideal c.log := by
  unfold Clipboard.finish
  dsimp only
  split <;> exact ideal_concat _ _

theorem finish_lastSent (i : Nat) (r : Read) :
    lastSent (c.finish i r).log = if c.last = some r.text then lastSent c.log else some r.text := by
  unfold Clipboard.finish
  dsimp only
  split <;> exact lastSent_concat _ _

theorem mem_finish_reads {c : Clipboard} (h : r' ∈ (c.finish i r).reads) : r' ∈ c.reads := by
  rw [finish_reads] at h
  exact List.mem_of_mem_eraseIdx h

theorem mem_finish_reads_of_ne {c : Clipboard} (hr : c.reads[i]? = some r) (hr' : r' ∈ c.reads)
    (hne : r' ≠ r) : r' ∈ (c.finish i r).reads := by
  obtain ⟨j, hj⟩ := List.mem_iff_getElem?.mp hr'
  have hij : j ≠ i := by
    rintro rfl
    exact hne (Option.some.inj (hj.symm.trans hr))
  rw [finish_reads]
  exact List.mem_eraseIdx_iff_getElem?.mpr ⟨j, hij, hj⟩

/-! ## Settled states suffice -/

/-- All reads have completed, that of the latest owner change since the last client set last. -/
structure Settled (c : Clipboard) : Prop where
  noReads : c.reads = []
  latestLast : (account c.log).floor < (account c.log).changes →
    (account c.log).done = some ((account c.log).changes - 1)

instance decidableSettled (c : Clipboard) : Decidable (Settled c) :=
  decidable_of_iff (c.reads = [] ∧ ((account c.log).floor < (account c.log).changes →
      (account c.log).done = some ((account c.log).changes - 1)))
    ⟨fun h => ⟨h.1, h.2⟩, fun h => ⟨h.noReads, h.latestLast⟩⟩

/-- A client's text is only taken in a settled state. -/
def SetsSettled (enabled : Bool) (c : Clipboard) : Event → Prop
  | .setClipboard text => handled enabled text = true → Settled c
  | _ => True

instance decidableSetsSettled (enabled : Bool) (c : Clipboard) (e : Event) :
    Decidable (SetsSettled enabled c e) := by
  unfold SetsSettled
  split <;> infer_instance

/-- A read that is running, between two client sets. `base` is the text of the first of them, `touched`
says that an owner change since then brought another text. -/
structure Outstanding (log : List Entry) (base : Option String) (touched : Bool) (r : Read) : Prop where
  moves : some r.text ≠ base → touched = true
  fresh : (account log).floor ≤ r.change
  lt : r.change < (account log).changes
  latest : r.change + 1 = (account log).changes → some r.text = (ideal log).current

/-- The state between two client sets; `before` is the last event sent before the first of them. -/
structure Between (c : Clipboard) (base before : Option String) (touched : Bool) : Prop where
  untouched : touched = false → ideal c.log = ⟨base, before⟩
  moved : touched = true → (ideal c.log).expected = (ideal c.log).current
  moved_lt : touched = true → (account c.log).floor < (account c.log).changes
  /-- Either no text but `base` has been read so far, or the last event is the text last seen. -/
  sent : (c.last = base ∧ lastSent c.log = before ∧
      (touched = true → ∃ r ∈ c.reads, some r.text ≠ base)) ∨
    (touched = true ∧ lastSent c.log = c.last)
  reads : ∀ r ∈ c.reads, Outstanding c.log base touched r
  done : ∀ k, (account c.log).done = some k → k < (account c.log).changes ∧
    (k + 1 = (account c.log).changes → c.last = (ideal c.log).current)
  notStale : Trace.Historically NotStale c.log

/-- The invariant of runs that take a client's text in settled states only. -/
def Inv : Prop := ∃ base before touched, Between c base before touched

theorem between_start : Between {} none none false where
  untouched _ := rfl
  moved h := absurd h Bool.false_ne_true
  moved_lt h := absurd h Bool.false_ne_true
  sent := .inl ⟨rfl, rfl, fun h => absurd h Bool.false_ne_true⟩
  reads r hr := by cases hr
  done k hk := by cases hk
  notStale := Trace.historically_nil

section

variable {c : Clipboard} {base before : Option String} {touched : Bool}

/-- In a settled state the last event is the right one. -/
theorem Between.lastSent_eq (h : Between c base before touched) (hsettled : Settled c) :
    lastSent c.log = (ideal c.log).expected := by
  rcases h.sent with ⟨-, hsent, hread⟩ | ⟨htouched, hsent⟩
  · cases touched with
    | false => rw [hsent, h.untouched rfl]
    | true =>
      obtain ⟨r, hr, -⟩ := hread rfl
      rw [hsettled.noReads] at hr
      cases hr
  · -- there was an owner change since the last set, and the read of the latest one was the last
    have hlt := h.moved_lt htouched
    have hdone := h.done _ (hsettled.latestLast hlt)
    rw [hsent, h.moved htouched]
    exact hdone.2 (by omega)

theorem Between.set (h : Between c base before touched) (hsettled : Settled c) (text : String) :
    Between (c.set text) (some text) (ideal c.log).expected false := by
  have haccount : account (c.set text).log = _ := account_concat c.log (.set text)
  have hideal : ideal (c.set text).log = _ := ideal_concat c.log (.set text)
  have hsent : lastSent (c.set text).log = lastSent c.log := lastSent_concat c.log (.set text)
  exact {
    untouched := fun _ => hideal
    moved := fun h => absurd h Bool.false_ne_true
    moved_lt := fun h => absurd h Bool.false_ne_true
    sent := .inl ⟨rfl, hsent.trans (h.lastSent_eq hsettled), fun h => absurd h Bool.false_ne_true⟩
    reads := fun r hr => by
      have hr : r ∈ c.reads := hr
      rw [hsettled.noReads] at hr
      cases hr
    done := fun k hk => by
      rw [haccount] at hk
      cases hk
    notStale := Trace.historically_concat.mpr ⟨h.notStale, trivial⟩ }

/-- A read that is running is not that of the latest owner change any more. -/
theorem Outstanding.change {log : List Entry} {touched' : Bool} (h : Outstanding log base touched r)
    (htouched : touched = true → touched' = true) (text : String) :
    Outstanding (log ++ [.change text]) base touched' r := by
  have haccount : account (log ++ [.change text]) = _ := account_concat log (.change text)
  have hlt := h.lt
  refine ⟨fun hne => htouched (h.moves hne), ?_, ?_, ?_⟩
  · rw [haccount]
    exact h.fresh
  · rw [haccount]
    exact Nat.lt_succ_of_lt hlt
  · rw [haccount]
    intro hlatest
    exact absurd (Nat.succ.inj hlatest) (Nat.ne_of_lt hlt)

theorem outstanding_new (log : List Entry) (mime text : String)
    (htouched : some text ≠ base → touched = true) :
    Outstanding (log ++ [.change text]) base touched ⟨(account log).changes, mime, text⟩ := by
  have haccount : account (log ++ [.change text]) = _ := account_concat log (.change text)
  refine ⟨htouched, ?_, ?_, fun _ => ?_⟩
  · rw [haccount]
    exact account_floor_le log
  · rw [haccount]
    exact Nat.lt_succ_self _
  · rw [ideal_concat, next_change_current]

/-- After an owner change, the text expected is the current one, if some change has differed. -/
theorem Between.expected_change (h : Between c base before touched) {text : String}
    (hmoved : touched = true ∨ some text ≠ base) :
    ((ideal c.log).next (.change text)).expected = some text := by
  by_cases hsame : (ideal c.log).current = some text
  · -- the text is already current, so the change that differed was an earlier one
    have hbefore : touched = true := by
      cases touched with
      | true => rfl
      | false =>
        rw [h.untouched rfl] at hsame
        exact absurd hsame.symm (hmoved.resolve_left Bool.false_ne_true)
    rw [Ideal.next, if_pos hsame, h.moved hbefore, hsame]
  · rw [Ideal.next, if_neg hsame]

/-- The read of a new owner change; `touched` is from now on whether it or an earlier one differs. -/
theorem Between.announce (h : Between c base before touched) (mime text : String) :
    Between (c.announce mime text) base before (touched || decide (some text ≠ base)) := by
  have haccount : account (c.announce mime text).log = _ := account_concat c.log (.change text)
  have hideal : ideal (c.announce mime text).log = _ := ideal_concat c.log (.change text)
  have hsent : lastSent (c.announce mime text).log = lastSent c.log := lastSent_concat c.log (.change text)
  have htouched : (touched || decide (some text ≠ base)) = true ↔ touched = true ∨ some text ≠ base := by
    rw [Bool.or_eq_true, decide_eq_true_eq]
  exact {
    untouched := fun hnot => by
      rw [Bool.or_eq_false_iff, decide_eq_false_iff_not, not_not] at hnot
      have hbefore := h.untouched hnot.1
      rw [hideal, hbefore]
      exact if_pos hnot.2.symm
    moved := fun hmoved => by
      rw [hideal, next_change_current]
      exact h.expected_change (htouched.mp hmoved)
    moved_lt := fun _ => by
      rw [haccount]
      exact Nat.lt_succ_of_le (account_floor_le c.log)
    sent := by
      rw [hsent]
      rcases h.sent with ⟨hlast, hbefore, hread⟩ | ⟨hmoved, hlast⟩
      · refine .inl ⟨hlast, hbefore, fun hmoved => ?_⟩
        rcases htouched.mp hmoved with hold | hnew
        · obtain ⟨r, hr, hne⟩ := hread hold
          exact ⟨r, List.mem_append_left _ hr, hne⟩
        · exact ⟨_, List.mem_append_right _ (List.mem_singleton_self _), hnew⟩
      · exact .inr ⟨htouched.mpr (.inl hmoved), hlast⟩
    reads := fun r hr => by
      rcases List.mem_append.mp hr with hold | hnew
      · exact (h.reads r hold).change (fun hmoved => htouched.mpr (.inl hmoved)) text
      · cases List.mem_singleton.mp hnew
        exact outstanding_new c.log mime text fun hne => htouched.mpr (.inr hne)
    done := fun k hk => by
      rw [haccount] at hk ⊢
      have hlt := (h.done k hk).1
      exact ⟨Nat.lt_succ_of_lt hlt, fun hlatest => absurd (Nat.succ.inj hlatest) (Nat.ne_of_lt hlt)⟩
    notStale := Trace.historically_concat.mpr ⟨h.notStale, trivial⟩ }

theorem Outstanding.finish (h : Outstanding c.log base touched r') (i : Nat) :
    Outstanding (c.finish i r).log base touched r' := by
  refine ⟨h.moves, ?_, ?_, ?_⟩
  · rw [finish_account]
    exact h.fresh
  · rw [finish_account]
    exact h.lt
  · rw [finish_account, finish_ideal]
    exact h.latest

theorem Between.finish (h : Between c base before touched) (hr : c.reads[i]? = some r) :
    Between (c.finish i r) base before touched := by
  have hout := h.reads r (List.mem_of_getElem? hr)
  exact {
    untouched := fun hnot => by rw [finish_ideal, h.untouched hnot]
    moved := fun hmoved => by rw [finish_ideal, h.moved hmoved]
    moved_lt := fun hmoved => by
      rw [finish_account]
      exact h.moved_lt hmoved
    sent := by
      rw [finish_last, finish_lastSent]
      rcases h.sent with ⟨hlast, hbefore, hread⟩ | ⟨hmoved, hlast⟩
      · by_cases hbase : some r.text = base
        · -- nothing is sent, and the read that will be is still running
          rw [if_pos (hlast.trans hbase.symm)]
          refine .inl ⟨hbase, hbefore, fun hmoved => ?_⟩
          obtain ⟨r', hr', hne⟩ := hread hmoved
          exact ⟨r', mem_finish_reads_of_ne hr hr' (fun heq => hne (heq ▸ hbase)), hne⟩
        · rw [if_neg fun heq => hbase (heq.symm.trans hlast)]
          exact .inr ⟨hout.moves hbase, rfl⟩
      · refine .inr ⟨hmoved, ?_⟩
        split
        · rw [hlast]
          assumption
        · rfl
    reads := fun r' hr' => (h.reads r' (mem_finish_reads hr')).finish i
    done := fun k hk => by
      rw [finish_account] at hk ⊢
      rw [finish_last, finish_ideal]
      cases hk
      exact ⟨hout.lt, hout.latest⟩
    notStale := by
      unfold Clipboard.finish
      dsimp only
      split
      · exact Trace.historically_concat.mpr ⟨h.notStale, trivial⟩
      · exact Trace.historically_concat.mpr ⟨h.notStale, hout.fresh⟩ }

end

theorem inv_step {c c' : Clipboard} {e : Event} (hinv : Inv c) (hok : SetsSettled enabled c e)
    (hstep : step enabled c e = some c') : Inv c' := by
  obtain ⟨base, before, touched, h⟩ := hinv
  cases step_cases hstep with
  | idle writes => exact ⟨base, before, touched, { h with }⟩
  | set hhandled => exact ⟨_, _, _, h.set (hok hhandled) _⟩
  | announce => exact ⟨_, _, _, h.announce _ _⟩
  | finish hr => exact ⟨_, _, _, h.finish hr⟩

/-- The events are right if, whenever a client's text is set, all reads have completed, that of the
latest owner change last. -/
theorem ordered_of_settled {es : List Event} {c : Clipboard} (hrun : Lts.run (step enabled) {} es = some c)
    (hsets : Lts.Along (step enabled) (SetsSettled enabled) {} es) (hsettled : Settled c) :
    Ordered c.log := by
  have hstart : Inv {} := ⟨none, none, false, between_start⟩
  have hinv := (Lts.throughout_of_along (fun _ _ _ => inv_step) hstart hsets).last hrun
  obtain ⟨base, before, touched, h⟩ := hinv
  exact ⟨h.lastSent_eq hsettled, h.notStale⟩

end Rustcast.Host.Mutter
