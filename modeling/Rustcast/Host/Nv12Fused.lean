import Rustcast.Host.Nv12

/-!
# The fused conversion is the two-pass one

The conversion of packed RGB that reads every block of two by two pixels once, against the definition
that computes all the luma and then all the chroma.
-/

namespace Rustcast.Host.Nv12

open Fill Slice

/-- A picture of packed pixels whose rows are in the data. -/
structure Picture where
  order : ChannelOrder
  data : List UInt8
  stride : Nat
  w : Nat
  h : Nat
  stride_le : w * 4 ≤ stride
  data_le : stride * h ≤ data.length

namespace Picture

/-! ## Pixels and planes -/

section Planes

variable (P : Picture)

def pixel (y x : Nat) : Rgb where
  r := (P.data.getD (y * P.stride + x * 4 + P.order.offsets.1) 0).toNat
  g := (P.data.getD (y * P.stride + x * 4 + P.order.offsets.2.1) 0).toNat
  b := (P.data.getD (y * P.stride + x * 4 + P.order.offsets.2.2) 0).toNat

/-- The truncated average of a block. -/
def average (cy cx : Nat) : Rgb :=
  ((((P.pixel (2 * cy) (2 * cx)).add (P.pixel (2 * cy) (2 * cx + 1))).add
    (P.pixel (2 * cy + 1) (2 * cx))).add (P.pixel (2 * cy + 1) (2 * cx + 1))).quarter

def lumaRow (y n : Nat) : List UInt8 := (List.range n).map fun x => bt601Luma (P.pixel y x)

/-- The luma of one row of block `cx`. -/
def lumaPair (y cx : Nat) : List UInt8 :=
  [bt601Luma (P.pixel y (2 * cx)), bt601Luma (P.pixel y (2 * cx + 1))]

def chromaPair (cy cx : Nat) : List UInt8 := [bt601U (P.average cy cx), bt601V (P.average cy cx)]

/-- The chroma bytes of two rows; of an odd number of columns the last has none. -/
def chromaRow (cy : Nat) : List UInt8 := row (P.chromaPair cy) (P.w / 2) 2 P.w 0

/-- The luma of the first `n` rows. -/
def lumaPlane (n : Nat) : List UInt8 := (List.range n).flatMap fun y => P.lumaRow y P.w

def chromaPlane (n : Nat) : List UInt8 := (List.range n).flatMap P.chromaRow

/-- The bytes of a row, without the padding. -/
def rowBytes (y : Nat) : List UInt8 := (P.data.drop (y * P.stride)).take (P.w * 4)

end Planes

variable {P : Picture} {p t b yt yb uv : List UInt8} {y n cy cx : Nat}

@[simp] theorem length_lumaRow : (P.lumaRow y n).length = n := by
  rw [lumaRow, List.length_map, List.length_range]

theorem lumaRow_succ : P.lumaRow y (n + 1) = P.lumaRow y n ++ [bt601Luma (P.pixel y n)] := by
  rw [lumaRow, List.range_succ, List.map_append]
  rfl

/-- Two pixels at a time. -/
theorem lumaRow_two_mul : P.lumaRow y (2 * n) = (List.range n).flatMap (P.lumaPair y) := by
  induction n with
  | zero => rfl
  | succ n ih =>
    rw [Nat.mul_succ, lumaRow_succ, lumaRow_succ, ih, flatMap_range_succ, List.append_assoc]
    rfl

theorem length_chromaRow : (P.chromaRow cy).length = P.w :=
  length_row (fun _ _ => rfl) (by omega)

theorem length_lumaPlane : (P.lumaPlane n).length = n * P.w :=
  length_flatMap_range fun _ _ => length_lumaRow

theorem length_chromaPlane : (P.chromaPlane n).length = n * P.w :=
  length_flatMap_range fun _ _ => length_chromaRow

/-! ## Reading pixels -/

theorem row_le (hy : y < P.h) : y * P.stride + P.w * 4 ≤ P.data.length := by
  have hrow : y * P.stride + P.stride ≤ P.h * P.stride := chunk_end hy
  have hstride := P.stride_le
  have hdata := P.data_le
  rw [Nat.mul_comm] at hdata
  omega

theorem slice_row (hy : y < P.h) :
    get? P.data (y * P.stride) (y * P.stride + P.w * 4) = some (P.rowBytes y) := by
  rw [get?_of_le (Nat.le_add_right _ _) (row_le hy), Nat.add_sub_cancel_left]
  rfl

theorem length_rowBytes (hy : y < P.h) : (P.rowBytes y).length = P.w * 4 := by
  rw [length_of_get? (slice_row hy), Nat.add_sub_cancel_left]

variable {front : List UInt8} {x k j : Nat}

/-- The three channels of the pixel at `x`, whatever reads the data there. -/
theorem channels_eq {read : Nat → Option UInt8}
    (hread : ∀ c < 4, read c = some (P.data.getD (y * P.stride + x * 4 + c) 0)) :
    (do let r ← read P.order.offsets.1
        let g ← read P.order.offsets.2.1
        let b ← read P.order.offsets.2.2
        some (⟨r.toNat, g.toNat, b.toNat⟩ : Rgb)) = some (P.pixel y x) := by
  have hoffsets : P.order.offsets.1 < 4 ∧ P.order.offsets.2.1 < 4 ∧ P.order.offsets.2.2 < 4 := by
    cases P.order <;> decide
  simp only [hread _ hoffsets.1, hread _ hoffsets.2.1, hread _ hoffsets.2.2, Option.bind_eq_bind,
    Option.bind_some, pixel]

/-- What the closure of the fused version reads. -/
theorem px_of_slice {start stop : Nat} (hslice : get? P.data start stop = some p)
    (hstart : start = y * P.stride + x * 4) (hstop : start + 4 ≤ stop) :
    px P.order p = some (P.pixel y x) := by
  obtain ⟨⟨-, hin⟩, -⟩ := get?_eq_some.mp hslice
  refine channels_eq fun c hc => ?_
  rw [getElem?_of_get? hslice (by omega), getElem?_eq_getD (by omega), hstart]

/-- What the closure of the two passes reads. -/
theorem pxAt_eq (hx : x < P.w) (hy : y < P.h) : pxAt P.order P.data P.stride x y = some (P.pixel y x) := by
  have hrow := row_le hy
  exact channels_eq fun c hc => getElem?_eq_getD (by omega)

/-! ## The fused pass -/

/-- Both bytes of a chunk are written. -/
theorem splice?_pair {xs : List UInt8} (hlength : xs.length = 2) (c d : UInt8) :
    ∃ xs', splice? xs 0 [c] = some xs' ∧ splice? xs' 1 [d] = some [c, d] := by
  refine ⟨c :: xs.drop 1, ?_, ?_⟩
  · simp [splice?, hlength]
  · simp [splice?, hlength]

/-- The chunks of a row are slices of the data. -/
theorem slice_rowChunk {i : Nat} (hy : y < P.h) (hi : i < (P.rowBytes y).length / k) :
    get? P.data (y * P.stride + i * k) (y * P.stride + i * k + k) =
      some (((P.rowBytes y).drop (i * k)).take k) := by
  rw [Nat.add_assoc]
  exact get?_trans (slice_row hy) (slice_chunk hi)

/-- The two pixels of a row of a block. -/
theorem pixels_of_slice
    (ht : get? P.data (y * P.stride + cx * 8) (y * P.stride + cx * 8 + 8) = some t) :
    ∃ p q, get? t 0 4 = some p ∧ get? t 4 t.length = some q ∧
      px P.order p = some (P.pixel y (2 * cx)) ∧ px P.order q = some (P.pixel y (2 * cx + 1)) := by
  have hlength : t.length = 8 := by
    rw [length_of_get? ht, Nat.add_sub_cancel_left]
  have hp := get?_of_le (Nat.zero_le 4) (by omega : 4 ≤ t.length)
  have hq := get?_of_le (by omega : 4 ≤ t.length) (Nat.le_refl _)
  exact ⟨_, _, hp, hq, px_of_slice (get?_trans ht hp) (by omega) (by omega),
    px_of_slice (get?_trans ht hq) (by omega) (by omega)⟩

theorem convertBlock_spec
    (ht : get? P.data (2 * cy * P.stride + cx * 8) (2 * cy * P.stride + cx * 8 + 8) = some t)
    (hb : get? P.data ((2 * cy + 1) * P.stride + cx * 8) ((2 * cy + 1) * P.stride + cx * 8 + 8) = some b)
    (hyt : yt.length = 2) (hyb : yb.length = 2) (huv : uv.length = 2) :
    convertBlock P.order t b yt yb uv =
      some (P.lumaPair (2 * cy) cx, P.lumaPair (2 * cy + 1) cx, P.chromaPair cy cx) := by
  obtain ⟨t0, t1, ht0, ht1, hp0, hp1⟩ := pixels_of_slice ht
  obtain ⟨b0, b1, hb0, hb1, hp2, hp3⟩ := pixels_of_slice hb
  obtain ⟨yt', hyt', hyt''⟩ := splice?_pair hyt (bt601Luma (P.pixel (2 * cy) (2 * cx)))
    (bt601Luma (P.pixel (2 * cy) (2 * cx + 1)))
  obtain ⟨yb', hyb', hyb''⟩ := splice?_pair hyb (bt601Luma (P.pixel (2 * cy + 1) (2 * cx)))
    (bt601Luma (P.pixel (2 * cy + 1) (2 * cx + 1)))
  obtain ⟨uv', huv', huv''⟩ := splice?_pair huv (bt601U (P.average cy cx)) (bt601V (P.average cy cx))
  unfold average at huv' huv''
  simp only [convertBlock, ht0, ht1, hb0, hb1, hp0, hp1, hp2, hp3, hyt', hyt'', hyb', hyb'', huv', huv'',
    Option.bind_eq_bind, Option.bind_some, lumaPair, chromaPair, average]

/-- The blocks of two rows. -/
theorem convertBlocks_spec (hcy : cy < P.h / 2) (hyt : yt.length = P.w) (hyb : yb.length = P.w)
    (huv : uv.length = 2 * (P.w / 2)) :
    convertBlocks P.order (P.rowBytes (2 * cy)) (P.rowBytes (2 * cy + 1)) yt yb uv =
      some (P.lumaRow (2 * cy) (2 * (P.w / 2)) ++ yt.drop (2 * (P.w / 2)),
        P.lumaRow (2 * cy + 1) (2 * (P.w / 2)) ++ yb.drop (2 * (P.w / 2)),
        (List.range (P.w / 2)).flatMap (P.chromaPair cy)) := by
  have htop : 2 * cy < P.h := by omega
  have hbottom : 2 * cy + 1 < P.h := by omega
  have htopLen := length_rowBytes htop
  have hbottomLen := length_rowBytes hbottom
  -- every iterator has a chunk for every block
  obtain ⟨ctop, cbottom, cyt, cyb, cuv⟩ : (P.rowBytes (2 * cy)).length / 8 = P.w / 2 ∧
      (P.rowBytes (2 * cy + 1)).length / 8 = P.w / 2 ∧ yt.length / 2 = P.w / 2 ∧ yb.length / 2 = P.w / 2 ∧
      uv.length / 2 = P.w / 2 := by omega
  have hchunk : ∀ {xs : List UInt8} {i : Nat}, i < xs.length / 2 → ((xs.drop (i * 2)).take 2).length = 2 := by
    intro xs i hi
    rw [length_of_get? (slice_chunk hi), Nat.add_sub_cancel_left]
  have hdone : (blocks (P.rowBytes (2 * cy)) (P.rowBytes (2 * cy + 1)) yt yb uv).mapM
      (fun x => convertBlock P.order x.1.1.1.1 x.1.1.1.2 x.1.1.2 x.1.2 x.2) =
        some ((List.range (P.w / 2)).map fun cx =>
          (P.lumaPair (2 * cy) cx, P.lumaPair (2 * cy + 1) cx, P.chromaPair cy cx)) := by
    unfold blocks chunksExact
    rw [ctop, cbottom, cyt, cyb, cuv, List.zip_map', List.zip_map', List.zip_map', List.zip_map',
      List.mapM_map]
    exact mapM_range fun cx hcx => convertBlock_spec (slice_rowChunk htop (ctop.symm ▸ hcx))
      (slice_rowChunk hbottom (cbottom.symm ▸ hcx)) (hchunk (cyt.symm ▸ hcx)) (hchunk (cyb.symm ▸ hcx))
      (hchunk (cuv.symm ▸ hcx))
  have hluma : ∀ (y : Nat) (xs : List UInt8), writeChunks xs ((List.range (P.w / 2)).map (P.lumaPair y)) =
      P.lumaRow y (2 * (P.w / 2)) ++ xs.drop (2 * (P.w / 2)) := by
    intro y xs
    have hpair : ∀ i < P.w / 2, (P.lumaPair y i).length = 2 := fun _ _ => rfl
    rw [writeChunks_map_range hpair, lumaRow_two_mul, Nat.mul_comm 2]
  have hchroma : writeChunks uv ((List.range (P.w / 2)).map (P.chromaPair cy)) =
      (List.range (P.w / 2)).flatMap (P.chromaPair cy) := by
    have hpair : ∀ i < P.w / 2, (P.chromaPair cy i).length = 2 := fun _ _ => rfl
    rw [writeChunks_map_range hpair, List.drop_of_length_le (by omega), List.append_nil]
  show Option.bind ((blocks _ _ yt yb uv).mapM fun x => convertBlock _ _ _ x.1.1.2 x.1.2 x.2) _ = _
  rw [hdone, Option.bind_some, List.map_map, List.map_map, List.map_map]
  exact congrArg some (Prod.ext (hluma _ yt) (Prod.ext (hluma _ yb) hchroma))

/-- The odd column completes a row. -/
theorem convertOddColumn_spec (hy : y < P.h) :
    convertOddColumn P.order (P.rowBytes y)
        (P.lumaRow y (2 * (P.w / 2)) ++ List.replicate (P.w - 2 * (P.w / 2)) 0) P.w =
      some (P.lumaRow y P.w) := by
  unfold convertOddColumn
  split
  next hodd =>
    obtain ⟨n, hw⟩ : ∃ n, P.w = n + 1 := ⟨P.w - 1, by omega⟩
    have hn : 2 * (P.w / 2) = n := by omega
    have hlength := length_rowBytes hy
    have hpixel := get?_of_le (by omega : n * 4 ≤ (P.rowBytes y).length) (Nat.le_refl _)
    have hpx := px_of_slice (get?_trans (slice_row hy) hpixel) rfl (by omega)
    rw [hn, hw, Nat.add_sub_cancel, convertColumn, hpixel, Option.bind_eq_bind,
      Option.bind_some, hpx, Option.bind_eq_bind, Option.bind_some, lumaRow_succ,
      splice?_append length_lumaRow.symm (by simp)]
    simp
  next heven =>
    have hw : 2 * (P.w / 2) = P.w := by omega
    rw [hw, Nat.sub_self, List.replicate_zero, List.append_nil]

/-! ## The rows -/

/-- The bytes that a round finds in a plane are blank. -/
theorem slice_blank {start blanks : Nat} (hstart : start = front.length) (hk : k ≤ blanks) :
    get? (front ++ List.replicate blanks 0) start (start + k) = some (List.replicate k 0) := by
  subst hstart
  rw [get?_of_le (Nat.le_add_right _ _) (by rw [List.length_append, List.length_replicate]; omega),
    List.drop_left, Nat.add_sub_cancel_left, List.take_replicate, Nat.min_eq_left hk]

/-- Bytes that are written over the blank ones. -/
theorem splice?_blank {xs : List UInt8} {start blanks : Nat} (hstart : start = front.length) :
    splice? (front ++ List.replicate (xs.length + blanks) 0) start xs =
      some (front ++ xs ++ List.replicate blanks 0) := by
  rw [splice?_append hstart (by rw [List.length_replicate]; omega), List.drop_replicate,
    Nat.add_sub_cancel_left]

/-- The planes before round `cy`. -/
def planesAt (P : Picture) (cy : Nat) : List UInt8 × List UInt8 :=
  (P.lumaPlane (2 * cy) ++ List.replicate ((P.h - 2 * cy) * P.w) 0,
    P.chromaPlane cy ++ List.replicate ((P.h / 2 - cy) * P.w) 0)

theorem splice?_luma (hcy : cy < P.h / 2) :
    splice? (P.planesAt cy).1 (2 * cy * P.w) (P.lumaRow (2 * cy) P.w ++ P.lumaRow (2 * cy + 1) P.w) =
      some (P.planesAt (cy + 1)).1 := by
  have hleft : (P.h - 2 * cy) * P.w = (P.lumaRow (2 * cy) P.w ++ P.lumaRow (2 * cy + 1) P.w).length +
      (P.h - 2 * (cy + 1)) * P.w := by
    rw [List.length_append, length_lumaRow, length_lumaRow, chunk_left (by omega), chunk_left (by omega),
      ← Nat.add_assoc, Nat.mul_succ]
  have hplane : P.lumaPlane (2 * (cy + 1)) =
      P.lumaPlane (2 * cy) ++ (P.lumaRow (2 * cy) P.w ++ P.lumaRow (2 * cy + 1) P.w) := by
    rw [Nat.mul_succ, lumaPlane, flatMap_range_succ, flatMap_range_succ, List.append_assoc]
    rfl
  rw [planesAt, planesAt, hleft, splice?_blank length_lumaPlane.symm, hplane]

theorem splice?_chroma (hcy : cy < P.h / 2) :
    splice? (P.planesAt cy).2 (cy * P.w) ((List.range (P.w / 2)).flatMap (P.chromaPair cy)) =
      some (P.planesAt (cy + 1)).2 := by
  have hlength : ((List.range (P.w / 2)).flatMap (P.chromaPair cy)).length = P.w / 2 * 2 :=
    length_flatMap_range fun _ _ => rfl
  -- the blank byte of an odd column is the end of the chroma row
  have hleft : (P.h / 2 - cy) * P.w = ((List.range (P.w / 2)).flatMap (P.chromaPair cy)).length +
      ((P.w - P.w / 2 * 2) + (P.h / 2 - (cy + 1)) * P.w) := by
    rw [chunk_left hcy]
    omega
  have hplane : P.chromaPlane (cy + 1) = P.chromaPlane cy ++ P.chromaRow cy := flatMap_range_succ
  rw [planesAt, planesAt, hleft, splice?_blank length_chromaPlane.symm, ← List.replicate_append_replicate,
    hplane, chromaRow, row]
  simp only [List.append_assoc]

/-- Two rows with their odd column. -/
theorem convertRowPair_spec (hcy : cy < P.h / 2) :
    convertRowPair P.order P.data P.stride P.w (P.planesAt cy) cy = some (P.planesAt (cy + 1)) := by
  have htop : 2 * cy < P.h := by omega
  have hbottom : 2 * cy + 1 < P.h := by omega
  have hyRows : get? (P.planesAt cy).1 (2 * cy * P.w) (2 * cy * P.w + 2 * P.w) =
      some (List.replicate (2 * P.w) 0) :=
    slice_blank length_lumaPlane.symm (Nat.mul_le_mul_right _ (by omega))
  have huvRow : get? (P.planesAt cy).2 (cy * P.w) (cy * P.w + 2 * (P.w / 2)) =
      some (List.replicate (2 * (P.w / 2)) 0) :=
    slice_blank length_chromaPlane.symm (by rw [chunk_left hcy]; omega)
  have hhalves : (List.replicate (2 * P.w) (0 : UInt8)).take P.w = List.replicate P.w 0 ∧
      (List.replicate (2 * P.w) (0 : UInt8)).drop P.w = List.replicate P.w 0 := by
    rw [List.take_replicate, List.drop_replicate]
    constructor <;> congr 1 <;> omega
  have hblocks := convertBlocks_spec hcy (@List.length_replicate _ _ (0 : UInt8))
    (@List.length_replicate _ _ (0 : UInt8)) (@List.length_replicate _ _ (0 : UInt8))
  rw [List.drop_replicate] at hblocks
  simp only [convertRowPair, slice_row htop, slice_row hbottom, hyRows, huvRow, hhalves, hblocks,
    convertOddColumn_spec htop, convertOddColumn_spec hbottom, splice?_luma hcy, splice?_chroma hcy,
    Option.bind_eq_bind, Option.bind_some]

theorem lumaRow_eq_flatMap : P.lumaRow y n = (List.range n).flatMap fun x => [bt601Luma (P.pixel y x)] :=
  List.map_eq_flatMap

theorem convertLastRow_spec (hy : y < P.h) :
    convertLastRow P.order P.data P.stride P.w y (P.lumaPlane y ++ List.replicate P.w 0) =
      some (P.lumaPlane (y + 1)) := by
  have hyRow : get? (P.lumaPlane y ++ List.replicate P.w 0) (y * P.w) (y * P.w + P.w) =
      some (List.replicate P.w 0) := slice_blank length_lumaPlane.symm (Nat.le_refl _)
  have hblank : List.replicate P.w (0 : UInt8) = (List.range P.w).map fun _ => 0 := by
    rw [List.map_const', List.length_range]
  have hcount : (P.rowBytes y).length / 4 = P.w := by
    rw [length_rowBytes hy, Nat.mul_div_cancel _ (by decide)]
  have hdone : ((chunksExact 4 (P.rowBytes y)).zip (List.replicate P.w (0 : UInt8))).mapM
      (fun x => (px P.order x.1).map fun p => [bt601Luma p]) =
        some ((List.range P.w).map fun x => [bt601Luma (P.pixel y x)]) := by
    rw [chunksExact, hcount, hblank, List.zip_map', List.mapM_map]
    refine mapM_range fun x hx => ?_
    show Option.map _ (px P.order _) = _
    rw [px_of_slice (slice_rowChunk hy (hcount.symm ▸ hx)) rfl (Nat.le_refl _)]
    rfl
  have hone : ∀ x < P.w, [bt601Luma (P.pixel y x)].length = 1 := fun _ _ => rfl
  have hsplice := @splice?_blank (P.lumaPlane y) (P.lumaRow y P.w) _ 0 length_lumaPlane.symm
  rw [length_lumaRow, Nat.add_zero, List.replicate_zero, List.append_nil] at hsplice
  rw [convertLastRow, slice_row hy, hyRow]
  show Option.bind (((chunksExact 4 _).zip _).mapM fun x => (px _ x.1).map _) _ = _
  rw [hdone, Option.bind_some, writeChunks_map_range hone, ← lumaRow_eq_flatMap,
    List.drop_replicate, Nat.mul_one, Nat.sub_self, List.replicate_zero, List.append_nil, hsplice, lumaPlane,
    lumaPlane, flatMap_range_succ]

theorem convertRgbRows_spec (P : Picture) :
    convertRgbRows P.order P.data P.stride P.w P.h (List.replicate (P.w * P.h) 0)
      (List.replicate (P.w * (P.h / 2)) 0) = some (P.lumaPlane P.h, P.chromaPlane (P.h / 2)) := by
  have hstart : (List.replicate (P.w * P.h) 0, List.replicate (P.w * (P.h / 2)) 0) = P.planesAt 0 := by
    rw [Nat.mul_comm P.w, Nat.mul_comm P.w]
    rfl
  have hloop : (List.range (P.h / 2)).foldlM (convertRowPair P.order P.data P.stride P.w) (P.planesAt 0) =
      some (P.planesAt (P.h / 2)) :=
    foldlM_range _ _ fun _ => convertRowPair_spec
  rw [convertRgbRows, hstart, hloop, Option.bind_eq_bind, Option.bind_some, planesAt, Nat.sub_self,
    Nat.zero_mul, List.replicate_zero, List.append_nil]
  dsimp only
  split
  next hodd =>
    -- the last row is the one that no pair has
    obtain ⟨y, hy⟩ : ∃ y, P.h = y + 1 := ⟨P.h - 1, by omega⟩
    have hlast : 2 * (P.h / 2) = y := by omega
    rw [hlast, hy, Nat.add_sub_cancel_left, Nat.one_mul, Nat.add_sub_cancel,
      convertLastRow_spec (by omega), Option.bind_eq_bind, Option.bind_some]
  next heven =>
    have hall : 2 * (P.h / 2) = P.h := by omega
    rw [hall, Nat.sub_self, Nat.zero_mul, List.replicate_zero, List.append_nil]

/-! ## The two-pass definition -/

theorem blockSum_pair (hcy : cy < P.h / 2) (hcx : cx < P.w / 2) :
    ((blockSum P.order P.data P.stride cx cy).map fun sum => [bt601U sum.quarter, bt601V sum.quarter]) =
      some (P.chromaPair cy cx) := by
  have hpx : ∀ dx < 2, ∀ dy < 2, pxAt P.order P.data P.stride (cx * 2 + dx) (cy * 2 + dy) =
      some (P.pixel (2 * cy + dy) (2 * cx + dx)) := by
    intro dx hdx dy hdy
    rw [pxAt_eq (by omega) (by omega), Nat.mul_comm cy, Nat.mul_comm cx]
  have hzero : ∀ p : Rgb, Rgb.add ⟨0, 0, 0⟩ p = p := by simp [Rgb.add]
  simp only [blockSum, show List.range 2 = [0, 1] from rfl, List.foldlM_cons, List.foldlM_nil,
    hpx 0 (by decide) 0 (by decide), hpx 1 (by decide) 0 (by decide), hpx 0 (by decide) 1 (by decide),
    hpx 1 (by decide) 1 (by decide), Option.bind_eq_bind, Option.bind_some, Option.pure_def, hzero]
  rfl

theorem twoPassReference_spec (P : Picture) :
    twoPassReference P.data P.stride P.w P.h P.order =
      some (P.lumaPlane P.h ++ P.chromaPlane (P.h / 2)) := by
  have hrow : ∀ y, row (fun x => [bt601Luma (P.pixel y x)]) P.w 1 P.w 0 = P.lumaRow y P.w := by
    intro y
    rw [row, Nat.mul_one, Nat.sub_self, List.replicate_zero, List.append_nil, lumaRow_eq_flatMap]
  have hluma := @foldlM_fill_rows _ 1 _ _ _ _ (P.h * P.w) (fun y x => [bt601Luma (P.pixel y x)]) P.w P.h P.w
    (writes_splice? _) [] 0 (fun y x => (pxAt P.order P.data P.stride x y).map fun p => [bt601Luma p])
    (fun y x => y * P.w + x) ?_ (fun _ _ _ _ => rfl) ?_ (Nat.le_of_eq (Nat.mul_one _)) (Nat.zero_add _)
  · have hchroma := @foldlM_fill_rows _ 2 _ _ _ _ (P.h / 2 * P.w) P.chromaPair (P.w / 2) (P.h / 2) P.w
      (writes_splice? _) [] 0
      (fun cy cx => (blockSum P.order P.data P.stride cx cy).map fun sum =>
        [bt601U sum.quarter, bt601V sum.quarter])
      (fun cy cx => cy * P.w + cx * 2) ?_ (fun _ _ _ _ => rfl) ?_ (Nat.div_mul_le_self _ 2) (Nat.zero_add _)
    · simp only [hrow, List.nil_append] at hluma hchroma
      rw [twoPassReference, Nat.mul_comm P.w, Nat.mul_comm P.w, hluma, hchroma]
      rfl
    · intro cy hcy cx hcx
      exact blockSum_pair hcy hcx
    · intro cy _ cx _
      rw [List.length_nil, Nat.zero_add]
  · intro y hy x hx
    rw [pxAt_eq hx hy]
    rfl
  · intro y _ x _
    rw [List.length_nil, Nat.zero_add, Nat.mul_one]

theorem packedRgbToNv12_spec (P : Picture) :
    packedRgbToNv12 P.data P.stride P.w P.h P.order =
      some (.ok (P.lumaPlane P.h ++ P.chromaPlane (P.h / 2))) := by
  have hstride := P.stride_le
  have hdata := P.data_le
  rw [packedRgbToNv12, if_neg (by omega), convertRgbRows_spec]
  rfl

/-! ## The theorem -/

theorem getElem?_chromaPlane (hcy : cy < n) (hj : j < P.w) :
    (P.chromaPlane n)[cy * P.w + j]? = (P.chromaRow cy)[j]? :=
  getElem?_flatMap_range (fun _ _ => length_chromaRow) hcy hj

theorem getElem?_chromaRow_pair {c : Nat} (hcx : cx < P.w / 2) (hc : c < 2) :
    (P.chromaRow cy)[cx * 2 + c]? = (P.chromaPair cy cx)[c]? := by
  have hlength : ∀ i < P.w / 2, (P.chromaPair cy i).length = 2 := fun _ _ => rfl
  rw [chromaRow, row, List.getElem?_append_left (by rw [length_flatMap_range hlength]; omega),
    getElem?_flatMap_range hlength hcx hc]

/-- The byte behind the pairs of an odd row. -/
theorem getElem?_chromaRow_blank (hpairs : 2 * (P.w / 2) ≤ j) (hj : j < P.w) :
    (P.chromaRow cy)[j]? = some 0 := by
  have hlength : ∀ i < P.w / 2, (P.chromaPair cy i).length = 2 := fun _ _ => rfl
  have hfront := length_flatMap_range hlength
  rw [chromaRow, row, List.getElem?_append_right (by omega), List.getElem?_replicate, if_pos (by omega)]

/-- The fused pass is the two-pass definition, for every size, stride and channel order: both stay inside
of their buffers, and both give the luma of every pixel, for every block the chroma of its truncated
average, and zero in the chroma bytes that no block has. -/
theorem fused_eq_two_pass (P : Picture) :
    ∃ nv12, packedRgbToNv12 P.data P.stride P.w P.h P.order = some (.ok nv12) ∧
      twoPassReference P.data P.stride P.w P.h P.order = some nv12 ∧
      nv12.length = P.w * P.h + P.w * (P.h / 2) ∧
      (∀ y < P.h, ∀ x < P.w, nv12[y * P.w + x]? = some (bt601Luma (P.pixel y x))) ∧
      (∀ cy < P.h / 2, ∀ cx < P.w / 2,
        nv12[P.w * P.h + cy * P.w + cx * 2]? = some (bt601U (P.average cy cx)) ∧
        nv12[P.w * P.h + cy * P.w + cx * 2 + 1]? = some (bt601V (P.average cy cx))) ∧
      (∀ cy < P.h / 2, ∀ j < P.w, 2 * (P.w / 2) ≤ j → nv12[P.w * P.h + cy * P.w + j]? = some 0) := by
  have hsize : (P.lumaPlane P.h).length = P.w * P.h := by
    rw [length_lumaPlane, Nat.mul_comm]
  -- a byte of the second plane
  have hchroma : ∀ i, (P.lumaPlane P.h ++ P.chromaPlane (P.h / 2))[P.w * P.h + i]? =
      (P.chromaPlane (P.h / 2))[i]? := by
    intro i
    rw [List.getElem?_append_right (by omega), hsize, Nat.add_sub_cancel_left]
  refine ⟨_, packedRgbToNv12_spec P, twoPassReference_spec P, ?_, ?_, ?_, ?_⟩
  · rw [List.length_append, hsize, length_chromaPlane, Nat.mul_comm (P.h / 2)]
  · intro y hy x hx
    have hrow : y * P.w + P.w ≤ P.h * P.w := chunk_end hy
    rw [List.getElem?_append_left (by rw [length_lumaPlane]; omega), lumaPlane,
      getElem?_flatMap_range (fun _ _ => length_lumaRow) hy hx, lumaRow, List.getElem?_map,
      List.getElem?_range hx, Option.map_some]
  · intro cy hcy cx hcx
    constructor
    · rw [Nat.add_assoc, hchroma, getElem?_chromaPlane hcy (by omega)]
      exact getElem?_chromaRow_pair hcx (by decide : 0 < 2)
    · rw [Nat.add_assoc (P.w * P.h), Nat.add_assoc (P.w * P.h), Nat.add_assoc (cy * P.w), hchroma,
        getElem?_chromaPlane hcy (by omega)]
      exact getElem?_chromaRow_pair hcx (by decide : 1 < 2)
  · intro cy hcy j hj hpairs
    rw [Nat.add_assoc, hchroma, getElem?_chromaPlane hcy hj, getElem?_chromaRow_blank hpairs hj]

/-- Rows of padded pixels, of which the last column and the last row are in no block. -/
def threeByThree : Picture where
  order := .bgra
  data := (List.range 48).map UInt8.ofNat
  stride := 16
  w := 3
  h := 3
  stride_le := by decide
  data_le := by decide

theorem fused_eq_two_pass_threeByThree :
    ∃ nv12, packedRgbToNv12 threeByThree.data 16 3 3 .bgra = some (.ok nv12) ∧
      twoPassReference threeByThree.data 16 3 3 .bgra = some nv12 ∧ nv12.length = 12 ∧
      nv12[8]? = some (bt601Luma (threeByThree.pixel 2 2)) ∧ nv12[11]? = some 0 := by
  obtain ⟨nv12, hfused, htwo, hlength, hluma, -, hblank⟩ := fused_eq_two_pass threeByThree
  exact ⟨nv12, hfused, htwo, hlength, hluma 2 (by decide) 2 (by decide),
    hblank 0 (by decide) 2 (by decide) (by decide)⟩

end Picture

end Rustcast.Host.Nv12
