import Mathlib.Data.List.Nodup
import Mathlib.Data.List.Perm.Basic

/-!
# Exactly-once accounting

What a sender owes for the items it has accepted, each under its own key: an item is pending until
it is removed, a removed item has been delivered or is counted as dropped, and the store holds the
pending items. `Ledger.Step` says which changes keep the books; an implementation is sound when
each of its steps is a sequence of such changes.
-/

namespace Rustcast

universe u

variable {κ : Type u}

/-- Deleting keys from a list without duplicates leaves the others, in their order. -/
theorem filter_notMem_eq [BEq κ] [LawfulBEq κ] {keys keep gone : List κ} (hnodup : keys.Nodup)
    (hsub : keep.Sublist keys) (hgone : ∀ k ∈ keys, k ∈ gone ↔ k ∉ keep) :
    keys.filter (· ∉ gone) = keep := by
  induction hsub with
  | slnil => rfl
  | @cons keep keys k hsub ih =>
    obtain ⟨hk, hnodup⟩ := List.nodup_cons.mp hnodup
    have hnew : k ∉ keep := fun hmem => hk (hsub.subset hmem)
    have hdelete : k ∈ gone := (hgone k List.mem_cons_self).mpr hnew
    rw [List.filter_cons_of_neg (by simpa using hdelete)]
    exact ih hnodup fun k' hk' => hgone k' (List.mem_cons_of_mem _ hk')
  | @cons_cons keep keys k hsub ih =>
    obtain ⟨hk, hnodup⟩ := List.nodup_cons.mp hnodup
    have hstay : k ∉ gone := fun hmem =>
      (hgone k List.mem_cons_self).mp hmem List.mem_cons_self
    rw [List.filter_cons_of_pos (by simpa using hstay)]
    refine congrArg (k :: ·) (ih hnodup fun k' hk' => ?_)
    -- `k` occurs once, so it is not the key in question
    have hne : k' ≠ k := fun heq => hk (heq ▸ hk')
    rw [hgone k' (List.mem_cons_of_mem _ hk'), List.mem_cons, not_or]
    exact ⟨And.right, fun hmem => ⟨hne, hmem⟩⟩

/-- Keys without duplicates are split into two parts: a key is in exactly one of them. -/
theorem mem_iff_notMem_of_perm {keys keep gone : List κ} (hnodup : keys.Nodup)
    (hperm : (gone ++ keep).Perm keys) : ∀ k ∈ keys, k ∈ gone ↔ k ∉ keep := by
  intro k hk
  have hdisjoint := List.disjoint_of_nodup_append (hperm.nodup_iff.mpr hnodup)
  constructor
  · exact fun hgone => hdisjoint hgone
  · exact fun hkeep => (List.mem_append.mp (hperm.mem_iff.mpr hk)).resolve_right hkeep

/-- The keys of the accepted items in their order, of those that are pending and stored, and of
those that were delivered and dropped. -/
structure Ledger (κ : Type u) where
  accepted : List κ
  pending : List κ
  stored : List κ
  delivered : List κ
  dropped : List κ

namespace Ledger

structure Sound (l : Ledger κ) : Prop where
  distinct : l.accepted.Nodup
  /-- the pending items are in the order of acceptance -/
  ordered : l.pending.Sublist l.accepted
  stored : l.stored = l.pending
  accounted : ∀ k ∈ l.accepted, k ∈ l.delivered ∨ k ∈ l.pending ∨ k ∈ l.dropped
  /-- a dropped item is counted once, and is not pending any more -/
  counted : l.dropped.Nodup
  settled : ∀ k ∈ l.dropped, k ∈ l.accepted ∧ k ∉ l.pending

variable {l l' : Ledger κ} {keep gone : List κ}

theorem Sound.nodup (h : l.Sound) : l.pending.Nodup := h.ordered.nodup h.distinct

theorem Sound.accept (h : l.Sound) {k : κ} (hfresh : k ∉ l.accepted) :
    Sound { l with
      accepted := l.accepted ++ [k]
      pending := l.pending ++ [k]
      stored := l.stored ++ [k] } where
  distinct := by
    refine h.distinct.append (List.nodup_singleton k) fun k' hk' hmem => ?_
    rw [List.mem_singleton.mp hmem] at hk'
    exact hfresh hk'
  ordered := h.ordered.append (.refl [k])
  stored := congrArg (· ++ [k]) h.stored
  accounted k' hk' := by
    rcases List.mem_append.mp hk' with hk' | hk'
    · refine (h.accounted k' hk').imp_right ?_
      exact .imp_left (List.mem_append_left _)
    · exact .inr (.inl (List.mem_append_right _ hk'))
  counted := h.counted
  settled k' hk' := by
    obtain ⟨haccepted, hpending⟩ := h.settled k' hk'
    refine ⟨List.mem_append_left _ haccepted, fun hmem => ?_⟩
    rcases List.mem_append.mp hmem with hmem | hmem
    · exact hpending hmem
    · rw [List.mem_singleton.mp hmem] at haccepted
      exact hfresh haccepted

variable [BEq κ] [LawfulBEq κ]

inductive Step : Ledger κ → Ledger κ → Prop where
  | accept {l : Ledger κ} (k : κ) (hfresh : k ∉ l.accepted) :
      Step l { l with
        accepted := l.accepted ++ [k]
        pending := l.pending ++ [k]
        stored := l.stored ++ [k] }
  /-- items are given up and counted -/
  | drop {l : Ledger κ} {keep gone : List κ} (hsub : keep.Sublist l.pending)
      (hperm : (gone ++ keep).Perm l.pending) :
      Step l { l with
        pending := keep
        stored := l.stored.filter (· ∉ gone)
        dropped := l.dropped ++ gone }
  /-- items that have been delivered are removed -/
  | acknowledge {l : Ledger κ} {keep gone : List κ} (hsub : keep.Sublist l.pending)
      (hperm : (gone ++ keep).Perm l.pending) (hdelivered : ∀ k ∈ gone, k ∈ l.delivered) :
      Step l { l with
        pending := keep
        stored := l.stored.filter (· ∉ gone) }
  | deliver {l : Ledger κ} {delivered : List κ} (hmore : ∀ k ∈ l.delivered, k ∈ delivered) :
      Step l { l with delivered }

namespace Sound

variable (h : l.Sound)

include h

section

variable (hsub : keep.Sublist l.pending)

include hsub

theorem stored_filter (hperm : (gone ++ keep).Perm l.pending) : l.stored.filter (· ∉ gone) = keep := by
  rw [h.stored]
  exact filter_notMem_eq h.nodup hsub (mem_iff_notMem_of_perm h.nodup hperm)

theorem drop (hperm : (gone ++ keep).Perm l.pending) :
    Sound { l with
      pending := keep
      stored := l.stored.filter (· ∉ gone)
      dropped := l.dropped ++ gone } where
  distinct := h.distinct
  ordered := hsub.trans h.ordered
  stored := h.stored_filter hsub hperm
  accounted k hk := by
    rcases h.accounted k hk with hdelivered | hpending | hdropped
    · exact .inl hdelivered
    · rcases List.mem_append.mp (hperm.mem_iff.mpr hpending) with hgone | hkeep
      · exact .inr (.inr (List.mem_append_right _ hgone))
      · exact .inr (.inl hkeep)
    · exact .inr (.inr (List.mem_append_left _ hdropped))
  counted := by
    have hgone : gone.Nodup := (List.nodup_append.mp (hperm.nodup_iff.mpr h.nodup)).1
    refine h.counted.append hgone fun k hdropped hmem => ?_
    exact (h.settled k hdropped).2 (hperm.mem_iff.mp (List.mem_append_left _ hmem))
  settled k hk := by
    rcases List.mem_append.mp hk with hk | hk
    · obtain ⟨haccepted, hpending⟩ := h.settled k hk
      exact ⟨haccepted, fun hkeep => hpending (hsub.subset hkeep)⟩
    · have hpending : k ∈ l.pending := hperm.mem_iff.mp (List.mem_append_left _ hk)
      exact ⟨h.ordered.subset hpending, (mem_iff_notMem_of_perm h.nodup hperm k hpending).mp hk⟩

theorem acknowledge (hperm : (gone ++ keep).Perm l.pending) (hdelivered : ∀ k ∈ gone, k ∈ l.delivered) :
    Sound { l with
      pending := keep
      stored := l.stored.filter (· ∉ gone) } where
  distinct := h.distinct
  ordered := hsub.trans h.ordered
  stored := h.stored_filter hsub hperm
  accounted k hk := by
    rcases h.accounted k hk with hdone | hpending | hdropped
    · exact .inl hdone
    · rcases List.mem_append.mp (hperm.mem_iff.mpr hpending) with hgone | hkeep
      · exact .inl (hdelivered k hgone)
      · exact .inr (.inl hkeep)
    · exact .inr (.inr hdropped)
  counted := h.counted
  settled k hk := by
    obtain ⟨haccepted, hpending⟩ := h.settled k hk
    exact ⟨haccepted, fun hkeep => hpending (hsub.subset hkeep)⟩

end

theorem step (hstep : Step l l') : l'.Sound := by
  cases hstep with
  | accept k hfresh => exact h.accept hfresh
  | drop hsub hperm => exact h.drop hsub hperm
  | acknowledge hsub hperm hdelivered => exact h.acknowledge hsub hperm hdelivered
  | deliver hmore =>
    exact ⟨h.distinct, h.ordered, h.stored, fun k hk => (h.accounted k hk).imp_left (hmore k),
      h.counted, h.settled⟩

end Sound

abbrev Steps : Ledger κ → Ledger κ → Prop := Relation.ReflTransGen Step

/-- The rule for sequences of changes. -/
theorem Sound.steps (h : l.Sound) (hsteps : Steps l l') : l'.Sound := by
  induction hsteps with
  | refl => exact h
  | tail _ hstep ih => exact ih.step hstep

end Ledger

end Rustcast
