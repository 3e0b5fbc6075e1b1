import Rustcast.Browser.H264
import Rustcast.Host.QuicFrames
import Rustcast.Relay.HostFrame

/-!
# The three keyframe detectors

`is_idr_frame` of the host, `isIDRFrame` of the relay and `isH264Keyframe` of the browser all
look for an IDR slice in an Annex B stream: `00 00 01` and a byte whose low five bits are 5.
Each scanner is compared with that predicate on the suffixes of the data.
-/

namespace Rustcast.Wire

open Browser Host Relay

/-- Some suffix of the data has the property. -/
def Somewhere {α : Type} (p : List α → Prop) (data : List α) : Prop := ∃ i, p (data.drop i)

variable {α : Type} {p : List α → Prop} {a : α} {index : Nat}

/-- The front of the data, or what is behind it. -/
theorem somewhere_cons {rest : List α} : Somewhere p (a :: rest) ↔ p (a :: rest) ∨ Somewhere p rest := by
  constructor
  · rintro ⟨i, hi⟩
    cases i with
    | zero => exact .inl hi
    | succ i => exact .inr ⟨i, hi⟩
  · rintro (h | ⟨i, hi⟩)
    · exact ⟨0, h⟩
    · exact ⟨i + 1, hi⟩

theorem somewhere_skip {rest : List α} (h : ¬ p (a :: rest)) :
    Somewhere p (a :: rest) ↔ Somewhere p rest := by
  rw [somewhere_cons]
  exact or_iff_right h

/-! ## The slice that makes a keyframe -/

/-- The first byte is the header of an IDR slice. -/
def IdrHeader (data : List UInt8) : Prop := ∃ x rest, data = x :: rest ∧ x &&& 0x1f = 5

/-- The data begins with `00 00 01` and the header of an IDR slice. -/
def IdrHere (data : List UInt8) : Prop := ∃ rest, data = 0 :: 0 :: 1 :: rest ∧ IdrHeader rest

def HasIdr (data : List UInt8) : Prop := Somewhere IdrHere data

/-- An Annex B start code; the one of four bytes ends with the one of three. -/
def HasStartCode (data : List UInt8) : Prop := Somewhere (fun rest => [0, 0, 1] <+: rest) data

variable {rest data : List UInt8} {n fuel : Nat} {start : StartCode}

@[simp] theorem idrHeader_cons {x : UInt8} : IdrHeader (x :: rest) ↔ x &&& 0x1f = 5 := by
  simp [IdrHeader]

@[simp] theorem not_idrHeader_nil : ¬ IdrHeader [] := by simp [IdrHeader]

@[simp] theorem idrHere_cons {a b c : UInt8} :
    IdrHere (a :: b :: c :: rest) ↔ a = 0 ∧ b = 0 ∧ c = 1 ∧ IdrHeader rest := by
  constructor
  · rintro ⟨rest', heq, hidr⟩
    obtain ⟨rfl, rfl, rfl, rfl⟩ := heq
    exact ⟨rfl, rfl, rfl, hidr⟩
  · rintro ⟨rfl, rfl, rfl, hidr⟩
    exact ⟨rest, rfl, hidr⟩

/-- A start code and a header take four bytes. -/
theorem IdrHere.four_le_length (h : IdrHere data) : 4 ≤ data.length := by
  obtain ⟨rest, rfl, x, rest', rfl, -⟩ := h
  simp

theorem not_hasIdr_of_short (h : data.length < 4) : ¬ HasIdr data := by
  rintro ⟨i, hi⟩
  have hlen := hi.four_le_length
  rw [List.length_drop] at hlen
  omega

/-! ## What a scanner may skip -/

theorem not_idrHere_zero_one : ¬ IdrHere (0 :: 1 :: rest) := by
  simp [IdrHere]

theorem not_idrHere_one : ¬ IdrHere (1 :: rest) := by
  simp [IdrHere]

/-- Behind a short start code, the search begins anew. -/
theorem hasIdr_skip_three : HasIdr (0 :: 0 :: 1 :: rest) ↔ IdrHeader rest ∨ HasIdr rest := by
  have hrest : HasIdr (0 :: 1 :: rest) ↔ HasIdr rest :=
    (somewhere_skip not_idrHere_zero_one).trans (somewhere_skip not_idrHere_one)
  have hhere : IdrHere (0 :: 0 :: 1 :: rest) ↔ IdrHeader rest := by simp
  exact (somewhere_cons).trans (or_congr hhere hrest)

/-- Behind a long start code, the search begins anew. -/
theorem hasIdr_skip_four : HasIdr (0 :: 0 :: 0 :: 1 :: rest) ↔ IdrHeader rest ∨ HasIdr rest := by
  have hhere : ¬ IdrHere (0 :: 0 :: 0 :: 1 :: rest) := by simp
  exact (somewhere_skip hhere).trans hasIdr_skip_three

/-! ## The host -/

/-- The host's answer is the predicate. -/
theorem isIdrFrame_iff (data : List UInt8) : isIdrFrame data = true ↔ HasIdr data := by
  fun_induction isIdrFrame data with
  | case1 a b c d rest hcode ih =>
    obtain ⟨rfl, rfl, rfl, rfl⟩ := hcode
    rw [hasIdr_skip_four, Bool.or_eq_true, ih]
    cases rest <;> simp
  | case2 a b c d rest _ hcode ih =>
    obtain ⟨rfl, rfl, rfl⟩ := hcode
    rw [hasIdr_skip_three, Bool.or_eq_true, ih]
    simp
  | case3 a b c d rest _ hcode ih =>
    have hhere : ¬ IdrHere (a :: b :: c :: d :: rest) := by
      rw [idrHere_cons]
      rintro ⟨ha, hb, hc, -⟩
      exact hcode ⟨ha, hb, hc⟩
    rw [ih]
    exact (somewhere_skip hhere).symm
  | case4 data hshort =>
    have hlen : data.length < 4 := by
      rcases data with _ | ⟨a, _ | ⟨b, _ | ⟨c, _ | ⟨d, rest⟩⟩⟩⟩
      · simp
      · simp
      · simp
      · simp
      · exact absurd rfl (hshort a b c d rest)
    simp [not_hasIdr_of_short hlen]

/-! ## The relay -/

/-- What the relay's loop recognises: at least five bytes are left, and they begin with a start
code and the header of an IDR slice. -/
def SeenHere (data : List UInt8) : Prop :=
  5 ≤ data.length ∧ (IdrHere data ∨ ∃ rest, data = 0 :: rest ∧ IdrHere rest)

/-- In fewer than five bytes the relay finds nothing. -/
theorem not_seenHere_of_short (h : data.length < 5) : ¬ Somewhere SeenHere data := by
  rintro ⟨i, hlen, -⟩
  rw [List.length_drop] at hlen
  omega

theorem not_seenHere_one : ¬ SeenHere (1 :: rest) := by
  simp [SeenHere, IdrHere]

theorem not_seenHere_zero_one : ¬ SeenHere (0 :: 1 :: rest) := by
  simp [SeenHere, IdrHere]

theorem seen_skip_zero_one : Somewhere SeenHere (0 :: 1 :: rest) ↔ Somewhere SeenHere rest :=
  (somewhere_skip not_seenHere_zero_one).trans (somewhere_skip not_seenHere_one)

/-- The same step of the relay, which needs two bytes behind the start code. -/
theorem seen_skip_three (h : 2 ≤ rest.length) :
    Somewhere SeenHere (0 :: 0 :: 1 :: rest) ↔ IdrHeader rest ∨ Somewhere SeenHere rest := by
  have hhere : SeenHere (0 :: 0 :: 1 :: rest) ↔ IdrHeader rest := by
    simp [SeenHere, not_idrHere_zero_one, h]
  rw [somewhere_cons, hhere, seen_skip_zero_one]

/-- Here one byte is enough, since the start code is longer. -/
theorem seen_skip_four (h : 1 ≤ rest.length) :
    Somewhere SeenHere (0 :: 0 :: 0 :: 1 :: rest) ↔ IdrHeader rest ∨ Somewhere SeenHere rest := by
  have hfour : SeenHere (0 :: 0 :: 0 :: 1 :: rest) ↔ IdrHeader rest := by
    simp [SeenHere, h]
  -- the start code of three bytes inside is not seen again before the one of four
  have hthree : SeenHere (0 :: 0 :: 1 :: rest) → IdrHeader rest := by
    simp [SeenHere, not_idrHere_zero_one]
  rw [somewhere_cons, somewhere_cons, seen_skip_zero_one]
  tauto

/-- The relay finds the slices that it looks at. -/
theorem isIDRFrame_iff_seen (data : List UInt8) : isIDRFrame data = true ↔ Somewhere SeenHere data := by
  fun_induction isIDRFrame data with
  | case1 a b c d e rest hcode ih =>
    -- the loop has five bytes, so the header behind a code of four bytes is there
    obtain ⟨rfl, rfl, rfl, rfl⟩ := hcode
    rw [seen_skip_four (by simp), Bool.or_eq_true, ih]
    simp
  | case2 a b c d e rest _ hcode ih =>
    obtain ⟨rfl, rfl, rfl⟩ := hcode
    rw [seen_skip_three (by simp), Bool.or_eq_true, ih]
    simp
  | case3 a b c d e rest hfour hthree ih =>
    have hhere : ¬ SeenHere (a :: b :: c :: d :: e :: rest) := by
      rintro ⟨-, hhere | ⟨rest', heq, hhere⟩⟩
      · obtain ⟨ha, hb, hc, -⟩ := idrHere_cons.1 hhere
        exact hthree ⟨ha, hb, hc⟩
      · cases heq
        obtain ⟨hb, hc, hd, -⟩ := idrHere_cons.1 hhere
        exact hfour ⟨rfl, hb, hc, hd⟩
    rw [ih]
    exact (somewhere_skip hhere).symm
  | case4 data hshort =>
    have hlen : data.length < 5 := by
      rcases data with _ | ⟨a, _ | ⟨b, _ | ⟨c, _ | ⟨d, _ | ⟨e, rest⟩⟩⟩⟩⟩
      · simp
      · simp
      · simp
      · simp
      · simp
      · exact absurd rfl (hshort a b c d e rest)
    simp [not_seenHere_of_short hlen]

/-- The slice at position `i` is followed by a further byte, or its start code has four bytes. -/
def Noticed (data : List UInt8) (i : Nat) : Prop :=
  i + 4 < data.length ∨ ∃ j, i = j + 1 ∧ data[j]? = some 0

/-- The relay's loop ends with four bytes left, so it misses a slice of one byte at the end of the
data whose start code has three bytes. -/
theorem isIDRFrame_iff (data : List UInt8) :
    isIDRFrame data = true ↔ ∃ i, IdrHere (data.drop i) ∧ Noticed data i := by
  rw [isIDRFrame_iff_seen]
  constructor
  · rintro ⟨i, hlen, hhere | ⟨rest, hdrop, hhere⟩⟩
    · rw [List.length_drop] at hlen
      exact ⟨i, hhere, .inl (by omega)⟩
    · -- the slice stands one byte behind the start of its start code
      have hrest : data.drop (i + 1) = rest := by
        rw [← List.drop_drop, hdrop]
        rfl
      have hzero : data[i]? = some 0 := by
        rw [← List.head?_drop, hdrop]
        rfl
      refine ⟨i + 1, ?_, .inr ⟨i, rfl, hzero⟩⟩
      rw [hrest]
      exact hhere
  · rintro ⟨i, hhere, hafter | ⟨j, rfl, hzero⟩⟩
    · refine ⟨i, ?_, .inl hhere⟩
      rw [List.length_drop]
      omega
    · have hdrop : data.drop j = 0 :: data.drop (j + 1) := by
        obtain ⟨hlt, heq⟩ := List.getElem?_eq_some_iff.1 hzero
        rw [List.drop_eq_getElem_cons hlt, heq]
      have hfour := hhere.four_le_length
      refine ⟨j, ?_, .inr ⟨_, hdrop, hhere⟩⟩
      rw [hdrop, List.length_cons]
      omega

/-! ## The browser -/

/-- The two start codes. -/
theorem startCodeLength_cases (h : startCodeLength data = some n) :
    ∃ rest, (n = 3 ∧ data = 0 :: 0 :: 1 :: rest) ∨ (n = 4 ∧ data = 0 :: 0 :: 0 :: 1 :: rest) := by
  unfold startCodeLength at h
  split at h
  next a b c rest =>
    split_ifs at h with hzeros hc hfour
    · cases h
      simp only [not_or, not_not] at hzeros
      exact ⟨rest, .inl ⟨rfl, by rw [hzeros.1, hzeros.2, hc]⟩⟩
    · cases h
      simp only [not_or, not_not] at hzeros
      obtain ⟨tail, htail⟩ := List.head?_eq_some_iff.1 hfour.2
      exact ⟨tail, .inr ⟨rfl, by rw [hzeros.1, hzeros.2, hfour.1, htail]⟩⟩
  · cases h

theorem startCodeLength_bounds {k : Nat} (h : startCodeLength (data.drop k) = some n) :
    0 < n ∧ k < data.length := by
  obtain ⟨rest, hshape⟩ := startCodeLength_cases h
  have hlen : 3 ≤ (data.drop k).length := by
    rcases hshape with ⟨-, heq⟩ | ⟨-, heq⟩
    · simp [heq]
    · simp [heq]
  rw [List.length_drop] at hlen
  rcases hshape with ⟨heq, -⟩ | ⟨heq, -⟩ <;> omega

/-- A slice is right behind the start code, or further on. -/
theorem hasIdr_of_startCode (h : startCodeLength data = some n) :
    HasIdr data ↔ IdrHeader (data.drop n) ∨ HasIdr (data.drop n) := by
  obtain ⟨rest, ⟨rfl, rfl⟩ | ⟨rfl, rfl⟩⟩ := startCodeLength_cases h
  · exact hasIdr_skip_three
  · exact hasIdr_skip_four

theorem not_idrHere_of_no_startCode (h : startCodeLength data = none) : ¬ IdrHere data := by
  rintro ⟨rest, rfl, -⟩
  simp [startCodeLength] at h

/-- The scan stops at the first start code, and no slice stands before it. -/
theorem scanStartCode_some {code : StartCode} (h : scanStartCode index data = some code) :
    ∃ k, code.index = index + k ∧ startCodeLength (data.drop k) = some code.length ∧
      (HasIdr data ↔ HasIdr (data.drop k)) := by
  induction data generalizing index with
  | nil => cases h
  | cons byte rest ih =>
    rw [scanStartCode] at h
    cases hlen : startCodeLength (byte :: rest) with
    | some length =>
      rw [hlen] at h
      cases h
      exact ⟨0, rfl, hlen, .rfl⟩
    | none =>
      rw [hlen] at h
      obtain ⟨k, hindex, hcode, hidr⟩ := ih h
      refine ⟨k + 1, ?_, hcode, ?_⟩
      · omega
      · exact (somewhere_skip (not_idrHere_of_no_startCode hlen)).trans hidr

/-- Without a start code there is no slice. -/
theorem scanStartCode_none (h : scanStartCode index data = none) : ¬ HasIdr data ∧ ¬ HasStartCode data := by
  induction data generalizing index with
  | nil => exact ⟨not_hasIdr_of_short (by decide), by rintro ⟨i, hi⟩; simp at hi⟩
  | cons byte rest ih =>
    rw [scanStartCode] at h
    cases hlen : startCodeLength (byte :: rest) with
    | some length =>
      rw [hlen] at h
      cases h
    | none =>
      rw [hlen] at h
      have hcode : ¬ [0, 0, 1] <+: byte :: rest := by
        rintro ⟨tail, heq⟩
        rw [← heq] at hlen
        simp [startCodeLength] at hlen
      obtain ⟨hidr, hstart⟩ := ih h
      refine ⟨?_, ?_⟩
      · exact fun hhas => hidr ((somewhere_skip (not_idrHere_of_no_startCode hlen)).1 hhas)
      · exact fun hhas => hstart ((somewhere_skip hcode).1 hhas)

/-- The unit between two start codes, as the loop cuts it out. -/
def nalOf (data : List UInt8) (payloadStart payloadEnd : Nat) : List UInt8 :=
  ((data.take payloadEnd).drop payloadStart).rdropWhile (· == 0)

def unitsOf : List UInt8 → List H264NalUnit
  | [] => []
  | header :: rest => [{ type := header &&& 0x1f, data := header :: rest }]

/-- The last unit goes to the end of the data. -/
theorem nalUnitsFrom_of_none (h : findStartCode data (start.index + start.length) = none) :
    nalUnitsFrom data (fuel + 1) start = unitsOf (nalOf data (start.index + start.length) data.length) := by
  simp only [nalUnitsFrom, h, nalOf, Option.map_none, Option.getD_none]
  generalize List.rdropWhile (fun x : UInt8 => x == 0) _ = nal
  cases nal <;> rfl

/-- A unit goes to the next start code. -/
theorem nalUnitsFrom_of_some {next : StartCode}
    (h : findStartCode data (start.index + start.length) = some next) :
    nalUnitsFrom data (fuel + 1) start =
      unitsOf (nalOf data (start.index + start.length) next.index) ++ nalUnitsFrom data fuel next := by
  simp only [nalUnitsFrom, h, nalOf, Option.map_some, Option.getD_some]
  generalize List.rdropWhile (fun x : UInt8 => x == 0) _ = nal
  cases nal <;> rfl

/-- A unit counts by its header. -/
theorem any_unitsOf (nal : List UInt8) :
    (unitsOf nal).any (fun nal => nal.type == 5) = true ↔ IdrHeader nal := by
  cases nal <;> simp [unitsOf]

theorem IdrHeader.of_front {a b : List UInt8} (hab : a <+: b) (h : IdrHeader a) : IdrHeader b := by
  obtain ⟨x, rest, rfl, hx⟩ := h
  obtain ⟨tail, rfl⟩ := hab
  exact ⟨x, rest ++ tail, rfl, hx⟩

/-- A unit begins where its payload begins. -/
theorem nalOf_front (data : List UInt8) (payloadStart payloadEnd : Nat) :
    nalOf data payloadStart payloadEnd <+: data.drop payloadStart := by
  have hcut : (data.take payloadEnd).drop payloadStart <+: data.drop payloadStart := by
    rw [List.drop_take]
    exact List.take_prefix _ _
  exact (List.rdropWhile_prefix _ _).trans hcut

/-- Neither the end of the unit nor the removal of trailing zeros touches the header of a
slice. -/
theorem idrHeader_nalOf {payloadStart payloadEnd : Nat}
    (hend : IdrHeader (data.drop payloadStart) → payloadStart < payloadEnd) :
    IdrHeader (nalOf data payloadStart payloadEnd) ↔ IdrHeader (data.drop payloadStart) := by
  constructor
  · exact .of_front (nalOf_front data payloadStart payloadEnd)
  · intro hidr
    have hlt := hend hidr
    obtain ⟨x, rest, hdrop, hx⟩ := hidr
    obtain ⟨n, hn⟩ : ∃ n, payloadEnd - payloadStart = n + 1 := ⟨payloadEnd - payloadStart - 1, by omega⟩
    have hcut : (data.take payloadEnd).drop payloadStart = x :: rest.take n := by
      rw [List.drop_take, hdrop, hn, List.take_succ_cons]
    cases hnal : nalOf data payloadStart payloadEnd with
    | nil =>
      -- the header is not zero, so not everything was cut off
      rw [nalOf, hcut, List.rdropWhile_eq_nil_iff] at hnal
      have hzero := hnal x List.mem_cons_self
      rw [beq_iff_eq] at hzero
      exact absurd hx (by rw [hzero]; decide)
    | cons y tail =>
      have hfront := nalOf_front data payloadStart payloadEnd
      rw [hnal, hdrop, List.cons_prefix_cons] at hfront
      rw [hfront.1]
      exact idrHeader_cons.2 hx

/-- One round of the loop, and then all of them. -/
theorem any_nalUnitsFrom (hpos : 0 < start.length) (hfuel : data.length ≤ start.index + fuel)
    (hstart : start.index < data.length) :
    (nalUnitsFrom data fuel start).any (fun nal => nal.type == 5) = true ↔
      IdrHeader (data.drop (start.index + start.length)) ∨
        HasIdr (data.drop (start.index + start.length)) := by
  -- `hfuel` says that the fuel covers the bytes behind the start code, so it does not run out
  induction fuel generalizing start with
  | zero => omega
  | succ fuel ih =>
    set payloadStart := start.index + start.length
    cases hnext : findStartCode data payloadStart with
    | none =>
      have hidr := (scanStartCode_none hnext).1
      have hheader : IdrHeader (nalOf data payloadStart data.length) ↔
          IdrHeader (data.drop payloadStart) := by
        apply idrHeader_nalOf
        rintro ⟨x, rest, hdrop, -⟩
        have hlen := congrArg List.length hdrop
        simp only [List.length_drop, List.length_cons] at hlen
        omega
      rw [nalUnitsFrom_of_none hnext, any_unitsOf]
      tauto
    | some next =>
      obtain ⟨k, hindex, hcode, hidr⟩ := scanStartCode_some hnext
      rw [List.drop_drop] at hcode hidr
      have hheader : IdrHeader (nalOf data payloadStart next.index) ↔
          IdrHeader (data.drop payloadStart) := by
        apply idrHeader_nalOf
        rintro ⟨x, rest, hdrop, hx⟩
        -- a start code begins with a zero, a slice does not
        rcases Nat.eq_zero_or_pos k with rfl | hk
        · rw [Nat.add_zero, hdrop] at hcode
          obtain ⟨rest', ⟨-, heq⟩ | ⟨-, heq⟩⟩ := startCodeLength_cases hcode
          · cases heq
            exact absurd hx (by decide)
          · cases heq
            exact absurd hx (by decide)
        · omega
      have hbounds := startCodeLength_bounds hcode
      rw [← hindex] at hbounds
      have hrest := ih hbounds.1 (by omega) hbounds.2
      have hsplit := hasIdr_of_startCode hcode
      rw [List.drop_drop, ← hindex] at hsplit
      rw [nalUnitsFrom_of_some hnext, List.any_append, Bool.or_eq_true, any_unitsOf, hheader, hrest,
        hidr, ← hindex, hsplit]

/-- The browser's answer is the predicate, once the data has a start code. -/
theorem isH264Keyframe_iff (h : HasStartCode data) : isH264Keyframe data = true ↔ HasIdr data := by
  unfold isH264Keyframe annexBNalUnits
  cases hfind : findStartCode data 0 with
  | none =>
    have hnone := scanStartCode_none hfind
    exact absurd h hnone.2
  | some start =>
    obtain ⟨k, hindex, hcode, hidr⟩ := scanStartCode_some hfind
    rw [List.drop_drop, Nat.zero_add] at hcode hidr
    rw [List.drop_zero] at hidr
    rw [Nat.zero_add] at hindex
    have hsplit := hasIdr_of_startCode hcode
    have hbounds := startCodeLength_bounds hcode
    rw [← hindex] at hbounds
    rw [List.drop_drop, ← hindex] at hsplit
    rw [any_nalUnitsFrom hbounds.1 (by omega) hbounds.2, hidr, ← hindex, hsplit]

/-! ## Agreement -/

/-- All three detectors answer whether the data has an IDR slice. -/
def DetectorsAgree (data : List UInt8) : Prop :=
  (isIdrFrame data = true ↔ HasIdr data) ∧ (isIDRFrame data = true ↔ HasIdr data) ∧
    (isH264Keyframe data = true ↔ HasIdr data)

/-- The detectors agree unless the only slice is the last byte of the data and its start code
has three bytes. -/
theorem keyframe_detectors_agree_iff {data : List UInt8} (h : HasStartCode data) :
    DetectorsAgree data ↔ ∀ i, IdrHere (data.drop i) → ∃ j, IdrHere (data.drop j) ∧ Noticed data j := by
  unfold DetectorsAgree
  rw [isIDRFrame_iff]
  constructor
  · rintro ⟨-, hrelay, -⟩ i hi
    exact hrelay.2 ⟨i, hi⟩
  · intro hnoticed
    refine ⟨isIdrFrame_iff data, ⟨?_, ?_⟩, isH264Keyframe_iff h⟩
    · rintro ⟨j, hj, -⟩
      exact ⟨j, hj⟩
    · rintro ⟨i, hi⟩
      exact hnoticed i hi

def shortKeyframe : List UInt8 := [0, 0, 1, 0x65, 0x88]

theorem hasStartCode_shortKeyframe : HasStartCode shortKeyframe := ⟨0, [0x65, 0x88], rfl⟩

theorem shortKeyframe_detected : HasStartCode shortKeyframe ∧ HasIdr shortKeyframe ∧
    DetectorsAgree shortKeyframe := by
  have hslice : IdrHere (shortKeyframe.drop 0) := idrHere_cons.2 ⟨rfl, rfl, rfl, idrHeader_cons.2 rfl⟩
  refine ⟨hasStartCode_shortKeyframe, ⟨0, hslice⟩, ?_⟩
  apply (keyframe_detectors_agree_iff hasStartCode_shortKeyframe).2
  exact fun _ _ => ⟨0, hslice, .inl (by decide)⟩

/-- An IDR slice that is only its header, behind a start code of three bytes: the relay's loop
does not look at it. -/
theorem relay_misses_last_slice :
    HasStartCode [0, 0, 1, 0x65] ∧ isIdrFrame [0, 0, 1, 0x65] = true ∧
      isH264Keyframe [0, 0, 1, 0x65] = true ∧ isIDRFrame [0, 0, 1, 0x65] = false ∧
      ¬ DetectorsAgree [0, 0, 1, 0x65] := by
  have hrelay : isIDRFrame [0, 0, 1, 0x65] = false := by decide
  have hhas : HasIdr [0, 0, 1, 0x65] := ⟨0, idrHere_cons.2 ⟨rfl, rfl, rfl, idrHeader_cons.2 rfl⟩⟩
  refine ⟨⟨0, [0x65], rfl⟩, by decide, by decide, hrelay, ?_⟩
  rintro ⟨-, hagree, -⟩
  rw [hagree.2 hhas] at hrelay
  cases hrelay

end Rustcast.Wire
