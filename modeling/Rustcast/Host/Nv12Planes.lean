import Rustcast.Host.Nv12

/-!
# Formats in planes convert alike

An I420 frame has its chroma in two planes of half the stride, an NV12 frame in one plane with the samples
of both in turns. Of the same picture they make the same packed buffer.
-/

namespace Rustcast.Host.Nv12

open Fill

variable {data planar semi front : List UInt8} {src dst stride w h rows blanks : Nat}

/-! ## Rows -/

def rowAt (data : List UInt8) (src stride w i : Nat) : List UInt8 :=
  (data.drop (src + i * stride)).take w

def RowsIn (data : List UInt8) (src stride w rows : Nat) : Prop :=
  ∀ i < rows, src + i * stride + w ≤ data.length

theorem length_rowAt (hin : RowsIn data src stride w rows) :
    ∀ i < rows, (rowAt data src stride w i).length = w := by
  intro i hi
  have hend := hin i hi
  rw [rowAt, List.length_take, List.length_drop]
  omega

theorem getElem?_rowAt {i j : Nat} (hj : j < w) :
    (rowAt data src stride w i)[j]? = data[src + i * stride + j]? := by
  rw [rowAt, List.getElem?_take_of_lt hj, List.getElem?_drop]

/-- Rows as wide as the stride, one behind the other. -/
theorem rowsIn_of_le (hw : w ≤ stride) (hdata : src + stride * rows ≤ data.length) :
    RowsIn data src stride w rows := by
  intro i hi
  have hrows := Nat.mul_le_mul_left stride (Nat.succ_le_of_lt hi)
  rw [Nat.mul_succ, Nat.mul_comm stride i] at hrows
  omega

/-- What the copy of padded rows leaves. -/
theorem copyRows_spec (hin : RowsIn data src stride w rows) (hdst : dst = front.length)
    (hblanks : rows * w ≤ blanks) :
    copyRows data src stride dst w rows (front ++ List.replicate blanks 0) =
      some (front ++ (List.range rows).flatMap (rowAt data src stride w) ++
        List.replicate (blanks - rows * w) 0) := by
  refine foldlM_fill (writes_splice? _) ?_ (length_rowAt hin) ?_ rfl hblanks
  · intro i hi
    rw [Slice.get?_of_le (Nat.le_add_right _ _) (hin i hi), Nat.add_sub_cancel_left]
    rfl
  · intro i _
    rw [hdst]

/-! ## The two conversions -/

theorem copyRows_luma (hin : RowsIn data 0 stride w h) :
    copyRows data 0 stride 0 w h (List.replicate (w * h + w * (h / 2)) 0) =
      some ((List.range h).flatMap (rowAt data 0 stride w) ++ List.replicate (w * (h / 2)) 0) := by
  have hfits : h * w ≤ w * h + w * (h / 2) := by
    rw [Nat.mul_comm]
    exact Nat.le_add_right _ _
  have hcopy := @copyRows_spec data [] 0 0 stride w h _ hin rfl hfits
  rwa [Nat.mul_comm h w, Nat.add_sub_cancel_left] at hcopy

theorem length_rows (hin : RowsIn data src stride w rows) :
    w * rows = ((List.range rows).flatMap (rowAt data src stride w)).length := by
  rw [length_flatMap_range (length_rowAt hin), Nat.mul_comm]

theorem passthroughNv12_spec (hw : w ≤ stride) (hdata : stride * h + stride * (h / 2) ≤ data.length) :
    passthroughNv12 data stride w h =
      some (.ok ((List.range h).flatMap (rowAt data 0 stride w) ++
        (List.range (h / 2)).flatMap (rowAt data (stride * h) stride w))) := by
  have hluma : RowsIn data 0 stride w h := rowsIn_of_le hw (by omega)
  have hchroma : RowsIn data (stride * h) stride w (h / 2) := rowsIn_of_le hw hdata
  have hcopy := copyRows_spec hchroma (length_rows hluma) (Nat.le_of_eq (Nat.mul_comm (h / 2) w))
  rw [Nat.mul_comm (h / 2) w, Nat.sub_self, List.replicate_zero, List.append_nil] at hcopy
  simp only [passthroughNv12, Nat.max_eq_left hw, if_neg (Nat.not_lt.mpr hdata), copyRows_luma hluma, hcopy,
    Option.bind_eq_bind, Option.bind_some]

/-- The pair of samples that `i420_to_nv12` puts side by side. -/
def planarPair (data : List UInt8) (stride h row col : Nat) : List UInt8 :=
  [data.getD (stride * h + row * (stride / 2) + col) 0,
    data.getD (stride * h + stride / 2 * (h / 2) + row * (stride / 2) + col) 0]

theorem planar_lt {row col : Nat} (hw : w ≤ stride) (hrow : row < h / 2) (hcol : col < w / 2) :
    row * (stride / 2) + col < stride / 2 * (h / 2) := by
  have hrows := Nat.mul_le_mul_left (stride / 2) (Nat.succ_le_of_lt hrow)
  rw [Nat.mul_succ, Nat.mul_comm (stride / 2) row] at hrows
  omega

/-- The converted buffer as a function of the data. -/
theorem i420ToNv12_spec (hw : w ≤ stride) (hdata : stride * h + 2 * (stride / 2 * (h / 2)) ≤ data.length) :
    i420ToNv12 data stride w h =
      some (.ok ((List.range h).flatMap (rowAt data 0 stride w) ++
        (List.range (h / 2)).flatMap fun i => row (planarPair data stride h i) (w / 2) 2 w 0)) := by
  have hluma : RowsIn data 0 stride w h := rowsIn_of_le hw (by omega)
  have hchroma : interleaveRows data (stride * h) (stride * h + stride / 2 * (h / 2)) (stride / 2) (w * h) w
      (w / 2) (h / 2) ((List.range h).flatMap (rowAt data 0 stride w) ++ List.replicate (h / 2 * w) 0) =
        some ((List.range h).flatMap (rowAt data 0 stride w) ++
          (List.range (h / 2)).flatMap fun i => row (planarPair data stride h i) (w / 2) 2 w 0) := by
    refine foldlM_fill_rows (writes_splice? _) _ 0 ?_ (fun _ _ _ _ => rfl) ?_ (Nat.div_mul_le_self w 2) rfl
    · intro row hrow col hcol
      have hlt := planar_lt hw hrow hcol
      rw [getElem?_eq_getD (by omega), getElem?_eq_getD (by omega)]
      rfl
    · intro row _ col _
      rw [← length_rows hluma]
  rw [Nat.mul_comm (h / 2) w] at hchroma
  simp only [i420ToNv12, Nat.max_eq_left hw, if_neg (Nat.not_lt.mpr hdata), copyRows_luma hluma, hchroma,
    Option.bind_eq_bind, Option.bind_some]

/-! ## The same picture in both formats -/

/-- An I420 buffer and an NV12 buffer of the same stride, with the same luma rows; a chroma row of the
second has the samples of the two chroma rows of the first in turns. -/
structure SamePicture (planar semi : List UInt8) (stride w h : Nat) : Prop where
  planar_length : stride * h + 2 * (stride / 2 * (h / 2)) ≤ planar.length
  semi_length : stride * h + stride * (h / 2) ≤ semi.length
  luma : ∀ y < h, ∀ x < w, semi[y * stride + x]? = planar[y * stride + x]?
  chromaU : ∀ cy < h / 2, ∀ cx < w / 2,
    semi[stride * h + cy * stride + cx * 2]? = planar[stride * h + cy * (stride / 2) + cx]?
  chromaV : ∀ cy < h / 2, ∀ cx < w / 2,
    semi[stride * h + cy * stride + (cx * 2 + 1)]? =
      planar[stride * h + stride / 2 * (h / 2) + cy * (stride / 2) + cx]?

theorem luma_agrees (hsame : SamePicture planar semi stride w h) :
    (List.range h).flatMap (rowAt planar 0 stride w) = (List.range h).flatMap (rowAt semi 0 stride w) := by
  rw [List.flatMap_def]
  congr 1
  apply List.map_congr_left
  intro y hy
  apply List.ext_getElem?
  intro x
  by_cases hx : x < w
  · rw [getElem?_rowAt hx, getElem?_rowAt hx, Nat.zero_add]
    exact (hsame.luma y (List.mem_range.mp hy) x hx).symm
  · have hshort : ∀ data : List UInt8, (rowAt data 0 stride w y)[x]? = none := by
      intro data
      rw [List.getElem?_eq_none]
      rw [rowAt, List.length_take]
      omega
    rw [hshort, hshort]

theorem chroma_agrees (hw : w ≤ stride) (hsame : SamePicture planar semi stride w h) {cy j : Nat}
    (hcy : cy < h / 2) (hj : j < 2 * (w / 2)) :
    (row (planarPair planar stride h cy) (w / 2) 2 w 0)[j]? = (rowAt semi (stride * h) stride w cy)[j]? := by
  have hpair : ∀ i < w / 2, (planarPair planar stride h cy i).length = 2 := fun _ _ => rfl
  obtain ⟨cx, c, hcx, hc, rfl⟩ : ∃ cx c, cx < w / 2 ∧ c < 2 ∧ j = cx * 2 + c :=
    ⟨j / 2, j % 2, by omega, by omega, by omega⟩
  have hlt := planar_lt hw hcy hcx
  have hlength := hsame.planar_length
  rw [row, List.getElem?_append_left (by rw [length_flatMap_range hpair]; omega),
    getElem?_flatMap_range hpair hcx hc, getElem?_rowAt (by omega)]
  -- the first byte of a pair is from the first plane, the second one from the second
  obtain rfl | rfl : c = 0 ∨ c = 1 := by omega
  · rw [Nat.add_zero, hsame.chromaU cy hcy cx hcx]
    exact (getElem?_eq_getD (by omega)).symm
  · rw [hsame.chromaV cy hcy cx hcx]
    exact (getElem?_eq_getD (by omega)).symm

/-- The same picture in both formats converts to the same luma, and to the same chroma in all the bytes
that have a sample: of an odd width the last byte of a chroma row has none. -/
theorem planar_agrees (planar semi : List UInt8) (stride w h : Nat) (hw : w ≤ stride)
    (hsame : SamePicture planar semi stride w h) :
    ∃ fromI420 fromNv12, i420ToNv12 planar stride w h = some (.ok fromI420) ∧
      passthroughNv12 semi stride w h = some (.ok fromNv12) ∧
      fromI420.length = w * h + w * (h / 2) ∧ fromNv12.length = w * h + w * (h / 2) ∧
      (∀ i < w * h, fromI420[i]? = fromNv12[i]?) ∧
      ∀ cy < h / 2, ∀ j < 2 * (w / 2), fromI420[w * h + cy * w + j]? = fromNv12[w * h + cy * w + j]? := by
  have hluma : RowsIn semi 0 stride w h := rowsIn_of_le hw (Nat.le_trans (by omega) hsame.semi_length)
  have hchroma : RowsIn semi (stride * h) stride w (h / 2) := rowsIn_of_le hw hsame.semi_length
  have hrow : ∀ i < h / 2, (row (planarPair planar stride h i) (w / 2) 2 w 0).length = w :=
    fun _ _ => length_row (fun _ _ => rfl) (Nat.div_mul_le_self w 2)
  have hsize := length_rows hluma
  refine ⟨_, _, i420ToNv12_spec hw hsame.planar_length, passthroughNv12_spec hw hsame.semi_length, ?_⟩
  rw [luma_agrees hsame]
  refine ⟨?_, ?_, ?_, ?_⟩
  · rw [List.length_append, ← hsize, length_flatMap_range hrow, Nat.mul_comm (h / 2)]
  · rw [List.length_append, ← hsize, ← length_rows hchroma]
  · intro i hi
    rw [List.getElem?_append_left (by omega), List.getElem?_append_left (by omega)]
  · intro cy hcy j hj
    have hjw : j < w := by omega
    rw [Nat.add_assoc, List.getElem?_append_right (by omega), List.getElem?_append_right (by omega), ← hsize,
      Nat.add_sub_cancel_left, getElem?_flatMap_range hrow hcy hjw,
      getElem?_flatMap_range (length_rowAt hchroma) hcy hjw, chroma_agrees hw hsame hcy hj]

/-- Three rows of three columns with a stride of four, in planes and with the chroma samples in turns. -/
def oddPlanar : List UInt8 := [1, 2, 3, 0, 4, 5, 6, 0, 7, 8, 9, 0, 10, 11, 20, 21]

@[inherit_doc oddPlanar]
def oddSemiPlanar : List UInt8 := [1, 2, 3, 0, 4, 5, 6, 0, 7, 8, 9, 0, 10, 20, 11, 21]

theorem planar_agrees_odd :
    ∃ fromI420 fromNv12, i420ToNv12 oddPlanar 4 3 3 = some (.ok fromI420) ∧
      passthroughNv12 oddSemiPlanar 4 3 3 = some (.ok fromNv12) ∧
      ∀ i < 3 * 3, fromI420[i]? = fromNv12[i]? := by
  have hsame : SamePicture oddPlanar oddSemiPlanar 4 3 3 :=
    ⟨by decide, by decide, by decide, by decide, by decide⟩
  obtain ⟨fromI420, fromNv12, hI420, hNv12, -, -, hluma, -⟩ :=
    planar_agrees oddPlanar oddSemiPlanar 4 3 3 (by decide) hsame
  exact ⟨fromI420, fromNv12, hI420, hNv12, hluma⟩

end Rustcast.Host.Nv12
