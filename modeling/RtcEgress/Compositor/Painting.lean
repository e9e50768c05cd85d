import RtcEgress.Compositor.Order
import RtcEgress.Compositor.Rounding

/-!
# 指定された配置の塗り方

領域を `z` の小さい順に塗るから、画素の値は、その画素を覆う領域のうち最も上のもので決まる。上下は `z` で、同じ `z` では
要求の順で決まる。
-/

namespace RtcEgress.Compositor

open RtcEgress.Lib
open Worker (LayoutRegion)

/-! ## 検査した領域 -/

structure RegionFits (c : VideoCompositor.Config) (r : LayoutRegion) : Prop where
  within : (rectOf r).EvenWithin c.outputWidth c.outputHeight
  size : 2 ≤ r.width ∧ 2 ≤ r.height
  limit : r.width ≤ 8192 ∧ r.height ≤ 8192

theorem regionFits_of_validate {c : VideoCompositor.Config} (h : Sink.VideoCompositor.validate c.toConfig = true)
    {r : LayoutRegion} (hr : r ∈ c.regions) : RegionFits c r := by
  unfold Sink.VideoCompositor.validate at h
  split_ifs at h with hsize _ _
  simp only [Bool.or_eq_true, Bool.not_eq_true', not_or, Bool.not_eq_false] at hsize
  obtain ⟨⟨-, hw⟩, -⟩ := validSize_eq_true.mp hsize.1
  obtain ⟨⟨-, hh⟩, -⟩ := validSize_eq_true.mp hsize.2
  have hvalid := List.all_eq_true.mp h r hr
  simp only [Sink.VideoCompositor.validRegion, Bool.and_eq_true, decide_eq_true_eq, beq_iff_eq] at hvalid
  obtain ⟨⟨⟨⟨⟨⟨⟨⟨⟨⟨-, hx⟩, hy⟩, hwidth⟩, hheight⟩, hxe⟩, hye⟩, hwe⟩, hhe⟩, hright⟩, hbottom⟩ := hvalid
  exact ⟨⟨⟨hx, hxe⟩, ⟨hy, hye⟩, ⟨by simp only [rectOf]; omega, hwe⟩, ⟨by simp only [rectOf]; omega, hhe⟩, hright, hbottom⟩,
    ⟨hwidth, hheight⟩, by omega, by omega⟩

/-! ## 画素の値 -/

section

variable (host : Host) (sws : VideoFrame → Int → Int → Picture) (s : VideoCompositor) (activeUsers : List String)

def VideoCompositor.shownFrame (userId : String) : Option VideoFrame :=
  if userId ∈ activeUsers then (s.frameBuffer.lookup userId).map (·.frame) else none

/-- 領域の中の画素の値。縮尺した画面の外と、フレームのない利用者は、黒になる。 -/
def regionSample (r : LayoutRegion) (plane : Plane) (p : Int × Int) : UInt8 :=
  match s.shownFrame activeUsers r.uid with
  | none => plane.black
  | some frame =>
      let info := s.scaleInfo host frame r
      let rect := copyRect r info plane
      if rect.Contains p then sws frame info.scaledWidth info.scaledHeight plane (p.1 - rect.x) (p.2 - rect.y)
      else plane.black

/-- 領域が、面の画素を覆う。 -/
def CoversSample (plane : Plane) (p : Int × Int) (r : LayoutRegion) : Prop := (fillRect r plane).Contains p

instance (plane : Plane) (p : Int × Int) : DecidablePred (CoversSample plane p) := fun r =>
  inferInstanceAs (Decidable ((fillRect r plane).Contains p))

/-- どの面でも、覆う領域のない画素は黒であり、覆われた画素の値は最も上の領域で決まる。 -/
structure Painted (canvas : Canvas) : Prop where
  uncovered : ∀ plane p, (∀ r ∈ s.config.regions, ¬CoversSample plane p r) → canvas plane p = plane.black
  covered : ∀ plane p, (∃ r ∈ s.config.regions, CoversSample plane p r) →
    ∃ i r, Topmost (·.z) (CoversSample plane p) s.config.regions i r ∧
      canvas plane p = regionSample host sws s activeUsers r plane p
  /-- 塗る矩形は、どれも画面の面に収まる。 -/
  inside : ∀ r ∈ s.config.regions, ∀ plane : Plane,
    (fillRect r plane).Within ⟨0, 0, plane.side s.config.outputWidth, plane.side s.config.outputHeight⟩

end

/-! ## 一つの領域 -/

section Region

variable {host : Host} {sws : VideoFrame → Int → Int → Picture} {s : VideoCompositor} {activeUsers : List String}
  {r : LayoutRegion}

theorem fillRect_within {c : VideoCompositor.Config} (hr : RegionFits c r) (plane : Plane) :
    (fillRect r plane).Within ⟨0, 0, plane.side c.outputWidth, plane.side c.outputHeight⟩ := by
  obtain ⟨hx, hy, hw, hh, hright, hbottom⟩ := id hr.within
  simp only [rectOf] at hx hy hw hh hright hbottom
  rw [fillRect_eq hr.within]
  cases plane <;> constructor <;> simp only [Plane.divisor, Plane.side] <;> omega

/-- 縮尺した画面は、領域の中に写される。 -/
theorem fitsRegion_scaleInfo (hfl : host.fl.Rounded) (hr : RegionFits s.config r) (frame : VideoFrame) :
    FitsRegion s.config.outputWidth s.config.outputHeight r (s.scaleInfo host frame r) :=
  fitsRegion_of_inCell hr.within hr.size
    (fittedSize_rounded hfl frame.width_range frame.height_range ⟨hr.size.1, hr.limit.1⟩ ⟨hr.size.2, hr.limit.2⟩) _

theorem mem_usersWithFrames {userId : String} : userId ∈ s.usersWithFrames activeUsers ↔
    userId ∈ activeUsers ∧ (s.frameBuffer.lookup userId).isSome = true := List.mem_filter

/-- 一つの領域は、覆う画素だけを、領域の値に書き換える。 -/
theorem paintRegion_apply (hfl : host.fl.Rounded) (hscale : ∀ frame w h, host.scale frame w h = some (sws frame w h))
    (hl : s.config.layout = "customized") (hr : RegionFits s.config r) (canvas : Canvas) (plane : Plane) (p : Int × Int) :
    s.paintRegion host (s.usersWithFrames activeUsers) canvas r plane p =
      if CoversSample plane p r then regionSample host sws s activeUsers r plane p else canvas plane p := by
  have hsize : ¬(r.width < 2 ∨ r.height < 2) := by
    have := hr.size
    omega
  have hfilled : VideoCompositor.fillRegion canvas r plane p =
      if CoversSample plane p r then plane.black else canvas plane p := writeRows_apply _ _ _ _
  rw [VideoCompositor.paintRegion, if_neg hsize, if_pos hl]
  by_cases huser : r.uid ∈ s.usersWithFrames activeUsers
  · obtain ⟨hactive, hbuffered⟩ := mem_usersWithFrames.mp huser
    obtain ⟨user, hlookup⟩ := Option.isSome_iff_exists.mp hbuffered
    have hfits := fitsRegion_scaleInfo hfl hr user.frame
    have hshown : s.shownFrame activeUsers r.uid = some user.frame := by
      rw [VideoCompositor.shownFrame, if_pos hactive, hlookup, Option.map_some]
    simp only [if_neg (not_not.mpr huser), hlookup, hscale, VideoCompositor.copyScaled, if_pos (hfits.checked plane)]
    rw [writeRows_apply, hfilled]
    simp only [regionSample, hshown]
    by_cases hcopied : (copyRect r (s.scaleInfo host user.frame r) plane).Contains p
    · have hcovers : CoversSample plane p r := (hfits.within plane).contains hcopied
      rw [if_pos hcopied, if_pos hcovers, if_pos hcopied]
    · rw [if_neg hcopied, if_neg hcopied]
  · have hshown : s.shownFrame activeUsers r.uid = none := by
      unfold VideoCompositor.shownFrame
      split_ifs with hactive
      · rw [Option.map_eq_none_iff, ← Option.not_isSome_iff_eq_none]
        exact fun hbuffered => huser (mem_usersWithFrames.mpr ⟨hactive, hbuffered⟩)
      · rfl
    simp only [if_pos huser, regionSample, hshown]
    exact hfilled

end Region

/-! ## 全体 -/

section Whole

variable {host : Host} {sws : VideoFrame → Int → Int → Picture} {s : VideoCompositor} {activeUsers : List String}

theorem painted_foldl (hfl : host.fl.Rounded) (hscale : ∀ frame w h, host.scale frame w h = some (sws frame w h))
    (hvalid : Sink.VideoCompositor.validate s.config.toConfig = true) (hl : s.config.layout = "customized") :
    Painted host sws s activeUsers ((s.regions host activeUsers).foldl
      (s.paintRegion host (s.usersWithFrames activeUsers)) fun plane _ => plane.black) := by
  have hregions : s.regions host activeUsers = s.config.regions.insertionSort fun a b => a.z ≤ b.z := if_pos hl
  have hmem : ∀ r ∈ s.regions host activeUsers, RegionFits s.config r := by
    rw [hregions]
    exact fun r hr => regionFits_of_validate hvalid ((List.mem_insertionSort _).mp hr)
  have hlast : ∀ plane p, ((s.regions host activeUsers).foldl (s.paintRegion host (s.usersWithFrames activeUsers))
      fun plane _ => plane.black) plane p =
        (((s.regions host activeUsers).reverse.find? (CoversSample plane p)).map
          fun r => regionSample host sws s activeUsers r plane p).getD plane.black := fun plane p =>
    get_foldl_of_covers (fun canvas : Canvas => canvas plane p) _ (CoversSample plane p) _
      (fun r hr canvas => paintRegion_apply hfl hscale hl (hmem r hr) canvas plane p) _
  refine ⟨fun plane p huncovered => ?_, fun plane p hcovered => ?_, fun r hr plane =>
    fillRect_within (regionFits_of_validate hvalid hr) plane⟩
  · have hnone : (s.regions host activeUsers).reverse.find? (CoversSample plane p) = none := by
      rw [hregions, List.find?_eq_none]
      intro r hr
      rw [List.mem_reverse, List.mem_insertionSort] at hr
      simpa using huncovered r hr
    rw [hlast, hnone]
    rfl
  · cases hfound : (s.regions host activeUsers).reverse.find? (CoversSample plane p) with
    | none =>
        obtain ⟨r, hr, hcovers⟩ := hcovered
        rw [hregions, List.find?_eq_none] at hfound
        have hnot := hfound r (List.mem_reverse.mpr ((List.mem_insertionSort _).mpr hr))
        simp [hcovers] at hnot
    | some r =>
        have hvalue := hlast plane p
        rw [hfound] at hvalue
        rw [hregions] at hfound
        obtain ⟨i, hi⟩ := exists_topmost hfound
        exact ⟨i, r, hi, hvalue⟩

/-- 画面は、領域に現れる利用者のフレームだけで決まる。 -/
theorem Painted.unique {s' : VideoCompositor} {activeUsers' : List String} {canvas canvas' : Canvas}
    (h : Painted host sws s activeUsers canvas) (h' : Painted host sws s' activeUsers' canvas')
    (hconfig : s'.config = s.config)
    (hshown : ∀ r ∈ s.config.regions, s'.shownFrame activeUsers' r.uid = s.shownFrame activeUsers r.uid) :
    canvas' = canvas := by
  have hsample : ∀ r ∈ s.config.regions, ∀ plane p,
      regionSample host sws s' activeUsers' r plane p = regionSample host sws s activeUsers r plane p := by
    intro r hr plane p
    have hinfo : ∀ frame, s'.scaleInfo host frame r = s.scaleInfo host frame r := by
      intro frame
      rw [VideoCompositor.scaleInfo, VideoCompositor.scaleInfo, hconfig]
    unfold regionSample
    rw [hshown r hr]
    simp only [hinfo]
  funext plane p
  by_cases hcovered : ∃ r ∈ s.config.regions, CoversSample plane p r
  · obtain ⟨i, r, htop, hvalue⟩ := h.covered plane p hcovered
    obtain ⟨j, r', htop', hvalue'⟩ := h'.covered plane p (hconfig ▸ hcovered)
    rw [hconfig] at htop'
    obtain rfl := htop.unique htop'
    rw [hvalue, hvalue', hsample r (List.mem_of_getElem? htop.get)]
  · push Not at hcovered
    rw [h.uncovered plane p hcovered, h'.uncovered plane p (hconfig ▸ hcovered)]

theorem createComposite_data {currentTime : Nat} {frame : CompositeFrame}
    (h : (s.createCompositeFrameWithoutLock host activeUsers currentTime).2.1 = some frame) :
    frame.data = (s.regions host activeUsers).foldl (s.paintRegion host (s.usersWithFrames activeUsers))
      fun plane _ => plane.black := by
  unfold VideoCompositor.createCompositeFrameWithoutLock at h
  split_ifs at h
  cases h
  rfl

/-- 指定された配置の合成は、領域を上下の順に重ねた画面になる。領域のない利用者は、画面に現れない。 -/
theorem composite_painted (hfl : host.fl.Rounded) (hscale : ∀ frame w h, host.scale frame w h = some (sws frame w h))
    (hwritable : host.writable = true) (hvalid : Sink.VideoCompositor.validate s.config.toConfig = true)
    (hl : s.config.layout = "customized") (hready : s.canComposite = true) (husers : s.usersWithFrames activeUsers ≠ [])
    (currentTime : Nat) :
    ∃ frame, (s.createCompositeFrameWithoutLock host activeUsers currentTime).2.1 = some frame ∧
      Painted host sws s activeUsers frame.data ∧
      ∀ (s' : VideoCompositor) (activeUsers' : List String) (currentTime' : Nat) (frame' : CompositeFrame),
        s'.config = s.config → (s'.createCompositeFrameWithoutLock host activeUsers' currentTime').2.1 = some frame' →
        (∀ r ∈ s.config.regions, s'.shownFrame activeUsers' r.uid = s.shownFrame activeUsers r.uid) →
        frame'.data = frame.data := by
  have hpainted := @painted_foldl host sws s activeUsers hfl hscale hvalid hl
  obtain ⟨frame, hframe⟩ : ∃ frame, (s.createCompositeFrameWithoutLock host activeUsers currentTime).2.1 = some frame := by
    rw [VideoCompositor.createCompositeFrameWithoutLock, if_neg (by simp [hready]), if_neg husers,
      if_neg (by simp [hwritable])]
    exact ⟨_, rfl⟩
  rw [← createComposite_data hframe] at hpainted
  refine ⟨frame, hframe, hpainted, fun s' activeUsers' currentTime' frame' hconfig hframe' hshown => ?_⟩
  have hpainted' := @painted_foldl host sws s' activeUsers' hfl hscale (hconfig ▸ hvalid) (hconfig ▸ hl)
  rw [← createComposite_data hframe'] at hpainted'
  exact hpainted.unique hpainted' hconfig hshown

end Whole

/-! ## 例 -/

/-- 重なる二つの領域。ボブはまだいない。 -/
def layeredCompositor : VideoCompositor where
  config :=
    { outputWidth := 320, outputHeight := 180, layout := "customized"
      regions := [⟨"bob", 80, 0, 160, 180, 1⟩, ⟨"alice", 0, 0, 160, 180, 0⟩] }
  frameBuffer := AList.insert "alice" ⟨plainFrame, 1000⟩ ∅

theorem composite_painted_layered :
    ∃ frame, (layeredCompositor.createCompositeFrameWithoutLock plainHost ["alice"] 1016).2.1 = some frame ∧
      Painted plainHost (fun frame _ _ plane _ _ => frame.data plane 0 0) layeredCompositor ["alice"] frame.data ∧
      ∀ (s' : VideoCompositor) (activeUsers' : List String) (currentTime' : Nat) (frame' : CompositeFrame),
        s'.config = layeredCompositor.config →
        (s'.createCompositeFrameWithoutLock plainHost activeUsers' currentTime').2.1 = some frame' →
        (∀ r ∈ layeredCompositor.config.regions,
          s'.shownFrame activeUsers' r.uid = layeredCompositor.shownFrame ["alice"] r.uid) →
        frame'.data = frame.data :=
  composite_painted FloatOps.exactRounded (fun _ _ _ => rfl) rfl (by decide) rfl (by decide) (by decide) 1016

end RtcEgress.Compositor
