import Mathlib.Data.UInt
import RtcEgress.Lib.Painter

/-!
# `src/video_frame.cpp` のフレーム

受け取った三つの面のバイトを写し、`AVFrame` に戻す。色差の面の幅と高さは、輝度の半分である。受け入れの検査、確保、写しの
それぞれで、奇数の半分を切り捨てる。
-/

namespace RtcEgress.Media

open RtcEgress.Lib

/-- `initializeFromYUV` の引数。バッファは、読める範囲のバイトである。 -/
structure YuvSource where
  yBuffer : Option (List UInt8)
  uBuffer : Option (List UInt8)
  vBuffer : Option (List UInt8)
  yStride : Int32
  uStride : Int32
  vStride : Int32
  width : UInt32
  height : UInt32
  timestamp : UInt64
  userId : String := ""

structure VideoFrame where
  yData : List UInt8 := []
  uData : List UInt8 := []
  vData : List UInt8 := []
  yStride : Int32 := 0
  uStride : Int32 := 0
  vStride : Int32 := 0
  width : UInt32 := 0
  height : UInt32 := 0
  timestamp : UInt64 := 0
  valid : Bool := false
  userId : String := ""

/-- 面の値は、書かれていなければ `none` である。 -/
structure AVFrame where
  width : Int32
  height : Int32
  pts : Int64
  yPlane : Int × Int → Option UInt8
  uPlane : Int × Int → Option UInt8
  vPlane : Int × Int → Option UInt8

/-- 面ごとの大きさの上限。 -/
def maxFrameSize : Nat := 8 * 1024 * 1024

/-- `static_cast<size_t>(stride) * height`。積は `size_t` に収まる。 -/
def sizeOfRows (stride : Int32) (height : UInt32) : Nat := stride.toInt.toNat * height.toNat

namespace VideoFrame

/-- 大きさが上限を超えたときも、面のほかの値は書き換わる。`allocated` は、メモリを確保できたことである。 -/
def initializeFromYUV (frame : VideoFrame) (allocated : Bool) (s : YuvSource) : Bool × VideoFrame :=
  match s.yBuffer, s.uBuffer, s.vBuffer with
  | some yBuffer, some uBuffer, some vBuffer =>
      if s.width = 0 ∨ s.height = 0 ∨ s.yStride ≤ 0 ∨ s.uStride ≤ 0 ∨ s.vStride ≤ 0 then (false, frame)
      else if s.yStride < s.width.toInt32 ∨ s.uStride < (s.width / 2).toInt32 ∨ s.vStride < (s.width / 2).toInt32 then
        (false, frame)
      else
        let frame := { frame with
          width := s.width, height := s.height, timestamp := s.timestamp, userId := s.userId
          yStride := s.yStride, uStride := s.uStride, vStride := s.vStride }
        let ySize := sizeOfRows s.yStride s.height
        let uSize := sizeOfRows s.uStride s.height / 2
        let vSize := sizeOfRows s.vStride s.height / 2
        if maxFrameSize < ySize ∨ maxFrameSize < uSize ∨ maxFrameSize < vSize then (false, frame)
        else if !allocated then (false, {})
        else
          (true, { frame with
            yData := yBuffer.take ySize, uData := uBuffer.take uSize, vData := vBuffer.take vSize, valid := true })
  | _, _, _ => (false, frame)

/-- 面の `y` 行目の始めから `x` バイト目。行の始めは `uint32_t` で計算する。 -/
def byteAt (data : List UInt8) (stride : Int32) (x y : Int) : Option UInt8 :=
  data[(UInt32.ofNat y.toNat * stride.toUInt32).toNat + x.toNat]?

/-- 新しく確保した面の `height` 行に、`width` バイトずつ写す。 -/
def copyPlane (data : List UInt8) (stride : Int32) (width height : UInt32) : Int × Int → Option UInt8 :=
  writeRows (fun _ => none) ⟨0, 0, width.toNat, height.toNat⟩ (byteAt data stride)

def toAVFrame (frame : VideoFrame) (allocated : Bool) : Option AVFrame :=
  if !frame.valid || !allocated then none
  else some
    { width := frame.width.toInt32
      height := frame.height.toInt32
      pts := frame.timestamp.toInt64
      yPlane := copyPlane frame.yData frame.yStride frame.width frame.height
      uPlane := copyPlane frame.uData frame.uStride (frame.width / 2) (frame.height / 2)
      vPlane := copyPlane frame.vData frame.vStride (frame.width / 2) (frame.height / 2) }

end VideoFrame

/-! ## 読まれる範囲 -/

/-- 半分を切り上げた数。YUV420P の色差の面の幅と高さである。 -/
def halfUp (n : Nat) : Nat := (n + 1) / 2

/-- 間隔 `stride` で並ぶ `rows` 行を、`width` バイトずつ読むときの範囲の長さ。 -/
def readSize (stride : Int32) (width rows : Nat) : Nat := (rows - 1) * stride.toInt.toNat + width

/-- フレームの全体が読める。 -/
structure VideoFrame.Complete (frame : VideoFrame) : Prop where
  luma : readSize frame.yStride frame.width.toNat frame.height.toNat ≤ frame.yData.length
  uStored : readSize frame.uStride (halfUp frame.width.toNat) (halfUp frame.height.toNat) ≤ frame.uData.length
  vStored : readSize frame.vStride (halfUp frame.width.toNat) (halfUp frame.height.toNat) ≤ frame.vData.length
  converted : ∀ allocated avFrame, frame.toAVFrame allocated = some avFrame → ∀ x y : Nat,
    x < halfUp frame.width.toNat → y < halfUp frame.height.toNat →
      (avFrame.uPlane (x, y)).isSome ∧ (avFrame.vPlane (x, y)).isSome

/-- 渡されたバッファは、輝度の `height` 行と、色差の切り上げた半分の行を含む。 -/
structure YuvSource.Covers (s : YuvSource) : Prop where
  y : ∀ b ∈ s.yBuffer, sizeOfRows s.yStride s.height ≤ b.length
  u : ∀ b ∈ s.uBuffer, s.uStride.toInt.toNat * halfUp s.height.toNat ≤ b.length
  v : ∀ b ∈ s.vBuffer, s.vStride.toInt.toNat * halfUp s.height.toNat ≤ b.length

/-! ## 受け入れの検査 -/

theorem toInt_toInt32 {n : UInt32} (h : n.toNat < 2 ^ 31) : n.toInt32.toInt = n.toNat := by
  rw [← Int32.toInt_toBitVec, UInt32.toBitVec_toInt32, BitVec.toInt_eq_toNat_of_lt]
  · simp
  · simpa using (by omega : 2 * n.toNat < 2 ^ 32)

/-- 検査を通った色差の面。 -/
structure ChromaFits (stride : Int32) (width height : UInt32) : Prop where
  pos : 0 < stride.toInt
  wide : ((width.toNat / 2 : Nat) : Int) ≤ stride.toInt
  size : sizeOfRows stride height / 2 ≤ maxFrameSize

/-- 検査を通った引数。 -/
structure YuvSource.Accepted (s : YuvSource) : Prop where
  width_pos : 0 < s.width.toNat
  height_pos : 0 < s.height.toNat
  wide : (s.width.toNat : Int) ≤ s.yStride.toInt
  u : ChromaFits s.uStride s.width s.height
  v : ChromaFits s.vStride s.width s.height

/-- 色差の面の上限から、幅も限られる。幅を符号のある数に直しても、値は変わらない。 -/
theorem ChromaFits.width_lt {stride : Int32} {width height : UInt32} (h : ChromaFits stride width height)
    (hh : 0 < height.toNat) : width.toNat < 2 ^ 31 := by
  have hle : stride.toInt.toNat ≤ sizeOfRows stride height := Nat.le_mul_of_pos_right _ hh
  have hsize := h.size
  have hwide := h.wide
  simp only [maxFrameSize] at hsize
  omega

/-- `initializeFromYUV` が成功したときの、引数とフレーム。 -/
theorem VideoFrame.initializeFromYUV_eq_true {frame frame' : VideoFrame} {allocated : Bool} {s : YuvSource}
    (h : frame.initializeFromYUV allocated s = (true, frame')) :
    s.Accepted ∧ ∃ yBuffer uBuffer vBuffer,
      s.yBuffer = some yBuffer ∧ s.uBuffer = some uBuffer ∧ s.vBuffer = some vBuffer ∧
        frame' = { yData := yBuffer.take (sizeOfRows s.yStride s.height)
                   uData := uBuffer.take (sizeOfRows s.uStride s.height / 2)
                   vData := vBuffer.take (sizeOfRows s.vStride s.height / 2)
                   yStride := s.yStride, uStride := s.uStride, vStride := s.vStride
                   width := s.width, height := s.height, timestamp := s.timestamp
                   valid := true, userId := s.userId } := by
  unfold initializeFromYUV at h
  split at h
  next yBuffer uBuffer vBuffer hy hu hv =>
    simp only at h
    split_ifs at h with hpos hstride hsize halloc
    · simp at h
    · simp at h
    · simp at h
    · simp at h
    · simp only [Prod.mk.injEq, true_and] at h
      refine ⟨?_, yBuffer, uBuffer, vBuffer, hy, hu, hv, h.symm⟩
      simp only [Int32.le_iff_toInt_le, Int32.lt_iff_toInt_lt, Int32.toInt_zero, not_or, not_le, not_lt] at hpos hstride hsize
      obtain ⟨hw, hh, hyp, hup, hvp⟩ := hpos
      obtain ⟨hys, hus, hvs⟩ := hstride
      obtain ⟨-, husize, hvsize⟩ := hsize
      have hhalf : (s.width / 2).toNat = s.width.toNat / 2 := UInt32.toNat_div _ _
      have hhalfLt : (s.width / 2).toNat < 2 ^ 31 := by
        have := s.width.toNat_lt
        omega
      rw [toInt_toInt32 hhalfLt, hhalf] at hus hvs
      have hheight : 0 < s.height.toNat := Nat.pos_of_ne_zero fun h0 => hh (UInt32.toNat_inj.mp h0)
      have hu : ChromaFits s.uStride s.width s.height := ⟨hup, hus, husize⟩
      rw [toInt_toInt32 (hu.width_lt hheight)] at hys
      exact ⟨Nat.pos_of_ne_zero fun h0 => hw (UInt32.toNat_inj.mp h0), hheight, hys, hu, ⟨hvp, hvs, hvsize⟩⟩
  · simp at h

/-! ## 写した面 -/

theorem copyPlane_isSome (data : List UInt8) (stride : Int32) (width height : UInt32) (x y : Nat) :
    (VideoFrame.copyPlane data stride width height (x, y)).isSome ↔
      (x < width.toNat ∧ y < height.toNat) ∧ (VideoFrame.byteAt data stride x y).isSome := by
  rw [VideoFrame.copyPlane, writeRows_apply]
  split
  next h =>
    simp only [Rect.Contains] at h
    simp only [sub_zero]
    exact (and_iff_right (by omega)).symm
  next h =>
    simp only [Rect.Contains] at h
    simp only [Option.isSome_none, Bool.false_eq_true, false_iff, not_and]
    intro hxy
    exact absurd (by omega) h

theorem byteAt_isSome {data : List UInt8} {stride : Int32} (hpos : 0 < stride.toInt) {x y : Nat}
    (hy : y * stride.toInt.toNat < 2 ^ 32) :
    (VideoFrame.byteAt data stride x y).isSome ↔ y * stride.toInt.toNat + x < data.length := by
  have hle : (0 : Int32) ≤ stride := by
    rw [Int32.le_iff_toInt_le, Int32.toInt_zero]
    omega
  have hstride : stride.toUInt32.toNat = stride.toInt.toNat := by
    rw [Int32.toNat_toUInt32_of_le hle]
    rfl
  have hone : 1 ≤ stride.toInt.toNat := by omega
  have hrow : y < 2 ^ 32 := lt_of_le_of_lt (Nat.le_mul_of_pos_right y hone) hy
  have hoffset : (UInt32.ofNat y * stride.toUInt32).toNat = y * stride.toInt.toNat := by
    rw [UInt32.toNat_mul, hstride, UInt32.toNat_ofNat_of_lt' hrow, Nat.mod_eq_of_lt hy]
  simp [VideoFrame.byteAt, hoffset]

section Chroma

variable {data : List UInt8} {stride : Int32} {width height : UInt32}

/-- 色差の値が、切り上げた半分の範囲ですべて写されている。 -/
def ChromaCopied (data : List UInt8) (stride : Int32) (width height : UInt32) : Prop :=
  ∀ x y : Nat, x < halfUp width.toNat → y < halfUp height.toNat →
    (VideoFrame.copyPlane data stride (width / 2) (height / 2) (x, y)).isSome

theorem toNat_half (n : UInt32) : (n / 2).toNat = n.toNat / 2 := UInt32.toNat_div n 2

/-- 右下の値が写されるのは、切り捨てた半分と切り上げた半分が等しいときに限る。 -/
theorem ChromaCopied.even (h : ChromaCopied data stride width height) (hw : 0 < width.toNat) (hh : 0 < height.toNat) :
    2 ∣ width.toNat ∧ 2 ∣ height.toNat := by
  have hcorner := h (halfUp width.toNat - 1) (halfUp height.toNat - 1) (by unfold halfUp; omega) (by unfold halfUp; omega)
  rw [copyPlane_isSome, toNat_half, toNat_half] at hcorner
  simp only [halfUp] at hcorner
  omega

/-- 偶数なら、確保した大きさは、半分の行と間隔の積である。 -/
theorem size_of_even {b : Nat} (hb : height.toNat = 2 * b) : sizeOfRows stride height / 2 = b * stride.toInt.toNat := by
  rw [sizeOfRows, hb, Nat.mul_comm, Nat.mul_assoc]
  exact Nat.mul_div_cancel_left _ (by decide)

theorem ChromaFits.complete_of_even (h : ChromaFits stride width height)
    (hlen : data.length = sizeOfRows stride height / 2) (hh : 0 < height.toNat) (hw2 : 2 ∣ width.toNat)
    (hh2 : 2 ∣ height.toNat) :
    readSize stride (halfUp width.toNat) (halfUp height.toNat) ≤ data.length ∧
      ChromaCopied data stride width height := by
  obtain ⟨a, ha⟩ := hw2
  obtain ⟨b, hb⟩ := hh2
  have hpos := h.pos
  have hwide := h.wide
  have hsize := h.size
  have hxa : halfUp width.toNat = a := by
    unfold halfUp
    omega
  have hyb : halfUp height.toNat = b := by
    unfold halfUp
    omega
  rw [size_of_even hb] at hlen hsize
  -- 行 `y` の値は、`b` 行の中にある
  have hrow {y : Nat} (hy : y < b) : y * stride.toInt.toNat + a ≤ b * stride.toInt.toNat := by
    have hle := Nat.mul_le_mul_right stride.toInt.toNat hy
    rw [Nat.succ_mul] at hle
    omega
  constructor
  · rw [readSize, hxa, hyb, hlen]
    exact hrow (by omega)
  · intro x y hx hy
    rw [hxa] at hx
    rw [hyb] at hy
    have hlt := hrow hy
    simp only [maxFrameSize] at hsize
    rw [copyPlane_isSome, toNat_half, toNat_half, byteAt_isSome h.pos (by omega), hlen]
    omega

end Chroma

/-! ## 主な結果 -/

/-- 受け入れたフレームの全体が読めるのは、幅と高さがともに偶数であるときに限る。 -/
theorem complete_iff_even {frame frame' : VideoFrame} {allocated : Bool} {s : YuvSource}
    (h : frame.initializeFromYUV allocated s = (true, frame')) (hs : s.Covers) :
    frame'.Complete ↔ 2 ∣ s.width.toNat ∧ 2 ∣ s.height.toNat := by
  obtain ⟨hacc, yBuffer, uBuffer, vBuffer, hy, hu, hv, rfl⟩ := VideoFrame.initializeFromYUV_eq_true h
  have hhalf (stride : Int32) : sizeOfRows stride s.height / 2 ≤ stride.toInt.toNat * halfUp s.height.toNat := by
    have hle : sizeOfRows stride s.height ≤ stride.toInt.toNat * halfUp s.height.toNat * 2 := by
      rw [sizeOfRows, Nat.mul_assoc]
      exact Nat.mul_le_mul_left _ (by unfold halfUp; omega)
    omega
  have hylen : (yBuffer.take (sizeOfRows s.yStride s.height)).length = sizeOfRows s.yStride s.height := by
    rw [List.length_take, Nat.min_eq_left (hs.y yBuffer hy)]
  have hulen : (uBuffer.take (sizeOfRows s.uStride s.height / 2)).length = sizeOfRows s.uStride s.height / 2 := by
    rw [List.length_take, Nat.min_eq_left ((hhalf s.uStride).trans (hs.u uBuffer hu))]
  have hvlen : (vBuffer.take (sizeOfRows s.vStride s.height / 2)).length = sizeOfRows s.vStride s.height / 2 := by
    rw [List.length_take, Nat.min_eq_left ((hhalf s.vStride).trans (hs.v vBuffer hv))]
  constructor
  · intro hc
    have hcopied : ChromaCopied (uBuffer.take (sizeOfRows s.uStride s.height / 2)) s.uStride s.width s.height :=
      fun x y hx hy => (hc.converted true _ rfl x y hx hy).1
    exact hcopied.even hacc.width_pos hacc.height_pos
  · rintro ⟨hw2, hh2⟩
    obtain ⟨huStored, huCopied⟩ := hacc.u.complete_of_even hulen hacc.height_pos hw2 hh2
    obtain ⟨hvStored, hvCopied⟩ := hacc.v.complete_of_even hvlen hacc.height_pos hw2 hh2
    refine ⟨?_, huStored, hvStored, fun allocated avFrame hav x y hx hy => ?_⟩
    · -- 輝度の面は、間隔が幅以上であることだけで足りる
      have hwide := hacc.wide
      have hsucc : s.height.toNat = s.height.toNat - 1 + 1 := (Nat.sub_add_cancel hacc.height_pos).symm
      rw [readSize, hylen, sizeOfRows, Nat.mul_comm s.yStride.toInt.toNat, hsucc, Nat.succ_mul]
      simp only [Nat.add_sub_cancel]
      omega
    · cases allocated with
      | false => cases hav
      | true =>
          obtain rfl := Option.some.inj hav
          exact ⟨huCopied x y hx hy, hvCopied x y hx hy⟩

/-- 幅 `width`、高さ `height` で、間隔が `yStride` と `chromaStride` の黒いフレーム。 -/
def blackSource (width height : UInt32) (yStride chromaStride : Int32) : YuvSource where
  yBuffer := some (List.replicate (sizeOfRows yStride height) 16)
  uBuffer := some (List.replicate (chromaStride.toInt.toNat * halfUp height.toNat) 128)
  vBuffer := some (List.replicate (chromaStride.toInt.toNat * halfUp height.toNat) 128)
  yStride := yStride
  uStride := chromaStride
  vStride := chromaStride
  width := width
  height := height
  timestamp := 0

theorem blackSource_covers (width height : UInt32) (yStride chromaStride : Int32) :
    (blackSource width height yStride chromaStride).Covers where
  y := by simp [blackSource]
  u := by simp [blackSource]
  v := by simp [blackSource]

theorem black_complete : ({} : VideoFrame).initializeFromYUV true (blackSource 2 2 2 1) =
      (true, ({} : VideoFrame).initializeFromYUV true (blackSource 2 2 2 1) |>.2) ∧
    ((({} : VideoFrame).initializeFromYUV true (blackSource 2 2 2 1)).2.Complete ↔ 2 ∣ 2 ∧ 2 ∣ 2) :=
  ⟨rfl, @complete_iff_even {} _ true (blackSource 2 2 2 1) rfl (blackSource_covers 2 2 2 1)⟩

/-- 幅 3 の最小の間隔のフレームでは、色差の右端の列が確保されない。 -/
theorem not_complete : ¬∀ (frame frame' : VideoFrame) (allocated : Bool) (s : YuvSource),
    frame.initializeFromYUV allocated s = (true, frame') → s.Covers → frame'.Complete := by
  intro h
  have hstored := (h {} _ true (blackSource 3 2 3 1) rfl (blackSource_covers 3 2 3 1)).uStored
  revert hstored
  decide

end RtcEgress.Media
