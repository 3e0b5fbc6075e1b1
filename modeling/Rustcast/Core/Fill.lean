import Mathlib.Algebra.Group.Nat.Defs
import Rustcast.Core.Slice

/-!
# Buffers that are filled from the front

A buffer of a fixed length that loops fill with one chunk after another, all of the same length.
-/

namespace Rustcast.Fill

universe u v

variable {α : Type u} {front rest xs : List α} {chunk : Nat → List α} {k n : Nat}

/-- Put `xs` in the place of what is from `start` on, if it fits. -/
def splice? (buf : List α) (start : Nat) (xs : List α) : Option (List α) :=
  if start + xs.length ≤ buf.length then
    some (buf.take start ++ xs ++ buf.drop (start + xs.length))
  else
    none

/-- A write right behind the part that is filled. -/
theorem splice?_append {start : Nat} (hstart : start = front.length) (hfits : xs.length ≤ rest.length) :
    splice? (front ++ rest) start xs = some (front ++ xs ++ rest.drop xs.length) := by
  subst hstart
  rw [splice?, if_pos (by rw [List.length_append]; omega), List.take_left, ← List.drop_drop, List.drop_left]

/-! ## Loops over a range -/

/-- A loop goes through the states that its rounds go through. -/
theorem foldlM_range {m : Type v → Type v} [Monad m] [LawfulMonad m] {σ : Type v} (body : σ → Nat → m σ)
    (state : Nat → σ) (hround : ∀ i < n, body (state i) i = pure (state (i + 1))) :
    (List.range n).foldlM body (state 0) = pure (state n) := by
  induction n with
  | zero => rfl
  | succ n ih =>
    rw [List.range_succ, List.foldlM_append, ih fun i hi => hround i (Nat.lt_succ_of_lt hi), pure_bind,
      List.foldlM_cons, hround n (Nat.lt_succ_self n), pure_bind]
    rfl

theorem mapM_range {m : Type v → Type v} [Monad m] [LawfulMonad m] {β : Type v} {f : Nat → m β} {g : Nat → β}
    (hround : ∀ i < n, f i = pure (g i)) : (List.range n).mapM f = pure ((List.range n).map g) := by
  induction n with
  | zero => rfl
  | succ n ih =>
    rw [List.range_succ, List.mapM_append, ih fun i hi => hround i (Nat.lt_succ_of_lt hi),
      List.mapM_cons, hround n (Nat.lt_succ_self n)]
    simp

/-! ## Chunks of one length -/

variable {i : Nat}

theorem chunk_end (hi : i < n) : i * k + k ≤ n * k := by
  rw [← Nat.succ_mul]
  exact Nat.mul_le_mul_right k hi

/-- What is left begins with a chunk. -/
theorem chunk_left (hi : i < n) : (n - i) * k = k + (n - (i + 1)) * k := by
  rw [Nat.add_comm, ← Nat.succ_mul]
  congr 1
  omega

theorem flatMap_range_succ :
    (List.range (n + 1)).flatMap chunk = (List.range n).flatMap chunk ++ chunk n := by
  rw [List.range_succ, List.flatMap_append, List.flatMap_singleton]

section

variable (hchunk : ∀ i < n, (chunk i).length = k)

include hchunk

theorem length_flatMap_range : ((List.range n).flatMap chunk).length = n * k := by
  induction n with
  | zero => simp
  | succ n ih =>
    rw [flatMap_range_succ, List.length_append, ih fun i hi => hchunk i (Nat.lt_succ_of_lt hi),
      hchunk n (Nat.lt_succ_self n), Nat.succ_mul]

/-- What is at place `j` of chunk `i`. -/
theorem getElem?_flatMap_range {j : Nat} (hi : i < n) (hj : j < k) :
    ((List.range n).flatMap chunk)[i * k + j]? = (chunk i)[j]? := by
  induction n with
  | zero => omega
  | succ n ih =>
    have hfront : ∀ i < n, (chunk i).length = k := fun i hi => hchunk i (Nat.lt_succ_of_lt hi)
    rw [flatMap_range_succ]
    rcases Nat.lt_succ_iff_lt_or_eq.mp hi with hlt | rfl
    · have hend : i * k + k ≤ n * k := chunk_end hlt
      rw [List.getElem?_append_left (by rw [length_flatMap_range hfront]; omega), ih hfront hlt]
    · rw [List.getElem?_append_right (by rw [length_flatMap_range hfront]; omega),
        length_flatMap_range hfront, Nat.add_sub_cancel_left]

theorem slice_flatMap_range (hi : i < n) :
    Slice.get? ((List.range n).flatMap chunk) (i * k) (i * k + k) = some (chunk i) := by
  rw [Slice.get?_of_le (Nat.le_add_right _ _) (by rw [length_flatMap_range hchunk]; exact chunk_end hi),
    Nat.add_sub_cancel_left, Option.some.injEq]
  apply List.ext_getElem?
  intro j
  by_cases hj : j < k
  · rw [List.getElem?_take_of_lt hj, List.getElem?_drop, getElem?_flatMap_range hchunk hi hj]
  · rw [List.getElem?_eq_none (by rw [List.length_take]; omega),
      List.getElem?_eq_none (by rw [hchunk i hi]; omega)]

end

/-- `chunks_exact(k)`: what is too short for a chunk is left out. -/
def chunksExact (k : Nat) (xs : List α) : List (List α) :=
  (List.range (xs.length / k)).map fun i => (xs.drop (i * k)).take k

theorem slice_chunk (hi : i < xs.length / k) :
    Slice.get? xs (i * k) (i * k + k) = some ((xs.drop (i * k)).take k) := by
  have hend := Nat.le_trans (chunk_end hi) (Nat.div_mul_le_self _ _)
  rw [Slice.get?_of_le (Nat.le_add_right _ _) hend, Nat.add_sub_cancel_left]

/-- Writes through `chunks_exact_mut`: the chunks that were visited, in front of what was not. -/
def writeChunks (xs : List α) (chunks : List (List α)) : List α :=
  chunks.flatten ++ xs.drop chunks.flatten.length

theorem writeChunks_map_range (hchunk : ∀ i < n, (chunk i).length = k) :
    writeChunks xs ((List.range n).map chunk) = (List.range n).flatMap chunk ++ xs.drop (n * k) := by
  rw [writeChunks, ← List.flatMap_def, length_flatMap_range hchunk]

/-! ## Loops that fill -/

section Loops

variable {m : Type u → Type u} [Monad m] [LawfulMonad m] {write : List α → Nat → List α → m (List α)}
  {blank : α} {total : Nat}

def Writes (write : List α → Nat → List α → m (List α)) (total : Nat) : Prop :=
  ∀ front rest xs : List α, front.length + rest.length = total → xs.length ≤ rest.length →
    write (front ++ rest) front.length xs = pure (front ++ xs ++ rest.drop xs.length)

omit [LawfulMonad m] in
theorem writes_splice? (total : Nat) : Writes (splice? (α := α)) total :=
  fun _ _ _ _ hfits => splice?_append rfl hfits

/-- A loop that writes chunk after chunk into a blank buffer. -/
theorem foldlM_fill (hwrite : Writes write total) {read : Nat → m (List α)} {start : Nat → Nat}
    {base : List α} {blanks : Nat} (hread : ∀ i < n, read i = pure (chunk i))
    (hchunk : ∀ i < n, (chunk i).length = k) (hstart : ∀ i < n, start i = base.length + i * k)
    (htotal : base.length + blanks = total) (hfits : n * k ≤ blanks) :
    (List.range n).foldlM (fun buf i => read i >>= write buf (start i))
        (base ++ List.replicate blanks blank) =
      pure (base ++ (List.range n).flatMap chunk ++ List.replicate (blanks - n * k) blank) := by
  have hloop := foldlM_range (n := n) (fun buf i => read i >>= write buf (start i))
    (fun i => base ++ (List.range i).flatMap chunk ++ List.replicate (blanks - i * k) blank) ?_
  · simpa using hloop
  · intro i hi
    have hdone : ((List.range i).flatMap chunk).length = i * k :=
      length_flatMap_range fun j hj => hchunk j (Nat.lt_trans hj hi)
    have hend : i * k + k ≤ n * k := chunk_end hi
    have hfront : (base ++ (List.range i).flatMap chunk).length = start i := by
      rw [List.length_append, hdone, hstart i hi]
    rw [hread i hi, pure_bind, ← hfront, hwrite]
    · rw [List.drop_replicate, hchunk i hi, Nat.sub_sub, ← Nat.succ_mul, flatMap_range_succ,
        List.append_assoc base]
    · rw [hfront, List.length_replicate, hstart i hi]
      omega
    · rw [List.length_replicate, hchunk i hi]
      omega

/-- A row of a picture: the chunks that are written, and the blank end. -/
def row (chunk : Nat → List α) (width k pitch : Nat) (blank : α) : List α :=
  (List.range width).flatMap chunk ++ List.replicate (pitch - width * k) blank

variable {chunks : Nat → Nat → List α} {width height pitch : Nat}

theorem length_row (hchunk : ∀ x < width, (chunk x).length = k) (hpitch : width * k ≤ pitch) :
    (row chunk width k pitch blank).length = pitch := by
  rw [row, List.length_append, length_flatMap_range hchunk, List.length_replicate]
  omega

/-- A loop of such loops, one for each row of a picture, whose rows may have a blank end. -/
theorem foldlM_fill_rows (hwrite : Writes write total) (base : List α) (blank : α)
    {read : Nat → Nat → m (List α)} {start : Nat → Nat → Nat}
    (hread : ∀ y < height, ∀ x < width, read y x = pure (chunks y x))
    (hchunk : ∀ y < height, ∀ x < width, (chunks y x).length = k)
    (hstart : ∀ y < height, ∀ x < width, start y x = base.length + y * pitch + x * k)
    (hpitch : width * k ≤ pitch) (htotal : base.length + height * pitch = total) :
    (List.range height).foldlM
        (fun buf y => (List.range width).foldlM (fun buf x => read y x >>= write buf (start y x)) buf)
        (base ++ List.replicate (height * pitch) blank) =
      pure (base ++ (List.range height).flatMap fun y => row (chunks y) width k pitch blank) := by
  have hloop := foldlM_range (n := height)
    (fun buf y => (List.range width).foldlM (fun buf x => read y x >>= write buf (start y x)) buf)
    (fun y => base ++ ((List.range y).flatMap fun y => row (chunks y) width k pitch blank) ++
      List.replicate ((height - y) * pitch) blank) ?_
  · simpa using hloop
  · intro y hy
    have hdone : ((List.range y).flatMap fun y => row (chunks y) width k pitch blank).length = y * pitch :=
      length_flatMap_range fun j hj => length_row (hchunk j (Nat.lt_trans hj hy)) hpitch
    have hleft : (height - y) * pitch = pitch + (height - (y + 1)) * pitch := chunk_left hy
    have hwhole : y * pitch + (height - y) * pitch = height * pitch := by
      rw [← Nat.add_mul]
      congr 1
      omega
    rw [foldlM_fill hwrite (hread y hy) (hchunk y hy)]
    · -- the blanks behind the row's chunks are its blank end and the blank rows
      have hblanks : (height - y) * pitch - width * k =
          (pitch - width * k) + (height - (y + 1)) * pitch := by omega
      rw [hblanks, ← List.replicate_append_replicate, flatMap_range_succ, row]
      simp only [List.append_assoc]
    · intro x hx
      rw [List.length_append, hdone, hstart y hy x hx]
    · rw [List.length_append]
      omega
    · omega

end Loops

end Rustcast.Fill
