import RtcEgress.Sink.StreamingOutput
import RtcEgress.Wire.Agreement

/-!
# 配置と `VideoCompositor::initialize`

大きさの指定がない配置を、Go は上限の大きさの画面で検査し、ワーカーは部品の大きさの画面で検査する。始めたばかりの
ワーカーの録画と配信の画面は 1280×720 で、静止画の画面は設定ファイルで決まる。
-/

namespace RtcEgress.Sink

open RtcEgress.Lib RtcEgress.Message
open RtcEgress.Wire (Fits32 sameRegion)

/-! ## 合成の設定 -/

/-- `VideoCompositor::Config` のうち、検査する欄。大きさは 32 ビットの自然数である。 -/
structure VideoCompositor.Config where
  outputWidth : Nat
  outputHeight : Nat
  layout : String
  regions : List Worker.LayoutRegion

/-- `int` から `uint32_t` への変換。 -/
def toUInt32 (n : Int) : Nat := (n % 2 ^ 32).toNat

/-- `SnapshotSink::initialize` が作る設定。 -/
def snapshotCompositor (c : Worker.SnapshotConfig) : VideoCompositor.Config :=
  ⟨toUInt32 c.width, toUInt32 c.height, c.layout, c.regions⟩

/-- `RecordingSink::initialize` が作る設定。 -/
def recordingCompositor (c : Worker.RecordingConfig) : VideoCompositor.Config :=
  ⟨toUInt32 c.videoWidth, toUInt32 c.videoHeight, c.layout, c.regions⟩

/-- `StreamingSink::initialize` が作る設定。 -/
def streamingCompositor (msg : Worker.UDSMessage) : VideoCompositor.Config :=
  ⟨toUInt32 (streamingConfig msg).width, toUInt32 (streamingConfig msg).height, msg.layout, msg.regions⟩

/-! ## 検査 -/

def VideoCompositor.validSize (n : Nat) : Bool := 2 ≤ n && n ≤ 8192 && n % 2 == 0

def VideoCompositor.validRegion (width height : Nat) (r : Worker.LayoutRegion) : Bool :=
  r.uid ≠ "" && 0 ≤ r.x && 0 ≤ r.y && 2 ≤ r.width && 2 ≤ r.height && r.x % 2 == 0 && r.y % 2 == 0 &&
    r.width % 2 == 0 && r.height % 2 == 0 && r.x + r.width ≤ width && r.y + r.height ≤ height

/-- `VideoCompositor::initialize` の検査。 -/
def VideoCompositor.validate (c : Config) : Bool :=
  if !validSize c.outputWidth || !validSize c.outputHeight then false
  else if c.layout ∉ ["flat", "spotlight", "customized"] then false
  else if (c.layout = "customized" ∧ c.regions = []) ∨ 32 < c.regions.length ∨
      (c.layout ≠ "customized" ∧ c.regions ≠ []) then false
  else c.regions.all (validRegion c.outputWidth c.outputHeight)

/-! ## 始めたばかりのワーカー -/

/-- 設定ファイルの静止画の大きさ。 -/
structure FreshWorker where
  snapshotWidth : Int := 1280
  snapshotHeight : Int := 720
  fits : Fits32 snapshotWidth ∧ Fits32 snapshotHeight := by decide

/-- ソケットで待ち受けるワーカーの、始めの状態。 -/
def FreshWorker.pipe (w : FreshWorker) : Worker.TaskPipe :=
  .init { width := w.snapshotWidth, height := w.snapshotHeight, intervalInMs := 20000 }
    { videoWidth := 1280, videoHeight := 720 }

/-- 大きさの指定がないときの画面。 -/
def FreshWorker.canvas (w : FreshWorker) : Worker.TaskCmd → Int × Int
  | .snapshot => (w.snapshotWidth, w.snapshotHeight)
  | .record | .rtmp | .whip => (1280, 720)

/-- 最初の開始の伝言から、種類ごとの部品が作る合成の設定。 -/
def FreshWorker.compositorConfig (w : FreshWorker) (msg : Worker.UDSMessage) : VideoCompositor.Config :=
  match msg.cmd with
  | .snapshot => snapshotCompositor (Worker.TaskPipe.updateSnapshotConfig msg w.pipe.snapshotConfig)
  | .record => recordingCompositor (Worker.TaskPipe.updateRecordingConfig msg w.pipe.recordingConfig)
  | .rtmp | .whip => streamingCompositor msg

/-- 配置を運ぶ伝言。 -/
def layoutMessage (layout : String) (n : NativeLayout) (msg : Worker.UDSMessage) : Worker.UDSMessage :=
  { msg with layout, regions := n.regions.map sameRegion, width := n.width, height := n.height }

/-- 指定のない大きさについて、画面の大きさが正しく、領域がその画面に収まる。 -/
def Covers (given canvas : Int) (ends : List Int) : Prop :=
  given ≠ 0 ∨ (2 ≤ canvas ∧ canvas ≤ 8192 ∧ canvas % 2 = 0 ∧ ∀ e ∈ ends, e ≤ canvas)

/-- 配置が、ワーカーの画面に収まる。 -/
structure FitsWorker (w : FreshWorker) (cmd : Worker.TaskCmd) (n : NativeLayout) : Prop where
  width : Covers n.width (w.canvas cmd).1 (n.regions.map fun r => r.x + r.width)
  height : Covers n.height (w.canvas cmd).2 (n.regions.map fun r => r.y + r.height)

/-! ## 検査の一致 -/

theorem toUInt32_of_range {n : Int} (h : 0 ≤ n ∧ n < 2 ^ 32) : (toUInt32 n : Int) = n := by
  unfold toUInt32
  omega

/-- 32 ビットの整数では、負の大きさも検査で拒まれる。 -/
theorem validSize_toUInt32 {n : Int} (h : Fits32 n) :
    VideoCompositor.validSize (toUInt32 n) = true ↔ 2 ≤ n ∧ n ≤ 8192 ∧ n % 2 = 0 := by
  obtain ⟨hlo, hhi⟩ := h
  simp only [VideoCompositor.validSize, Bool.and_eq_true, decide_eq_true_eq, beq_iff_eq]
  unfold toUInt32
  omega

theorem validRegion_iff {width height : Int} {r : Message.LayoutRegion} {cw ch : Nat} (h : r.Fits width height) :
    VideoCompositor.validRegion cw ch (sameRegion r) = true ↔ r.x + r.width ≤ cw ∧ r.y + r.height ≤ ch := by
  obtain ⟨huid, ⟨hx, hy⟩, ⟨hwidth, hheight⟩, -, -, ⟨hxe, hye, hwe, hhe⟩, -⟩ := h
  simp only [VideoCompositor.validRegion, Bool.and_eq_true, decide_eq_true_eq, beq_iff_eq]
  constructor
  · rintro ⟨⟨-, hright⟩, hbottom⟩
    exact ⟨hright, hbottom⟩
  · rintro ⟨hright, hbottom⟩
    exact ⟨⟨⟨⟨⟨⟨⟨⟨⟨⟨huid.1, hx⟩, hy⟩, hwidth⟩, hheight⟩, hxe⟩, hye⟩, hwe⟩, hhe⟩, hright⟩, hbottom⟩

/-- 受け入れた配置の合成の設定は、画面の大きさと、領域の収まりだけが検査に残る。 -/
theorem validate_iff {layout : String} {n : NativeLayout} {cw ch : Nat} (hn : n.Accepted layout)
    (hl : layout ∈ ["flat", "spotlight", "customized"]) :
    VideoCompositor.validate ⟨cw, ch, layout, n.regions.map sameRegion⟩ = true ↔
      (VideoCompositor.validSize cw = true ∧ ∀ r ∈ n.regions, r.x + r.width ≤ cw) ∧
        VideoCompositor.validSize ch = true ∧ ∀ r ∈ n.regions, r.y + r.height ≤ ch := by
  have hcount : ¬((layout = "customized" ∧ n.regions.map sameRegion = []) ∨ 32 < (n.regions.map sameRegion).length ∨
      (layout ≠ "customized" ∧ n.regions.map sameRegion ≠ [])) := by
    have := hn.count
    have := hn.customized
    simp only [ne_eq, List.map_eq_nil_iff, List.length_map]
    rintro (h | h | h)
    · tauto
    · omega
    · tauto
  have hall : (n.regions.map sameRegion).all (VideoCompositor.validRegion cw ch) = true ↔
      ∀ r ∈ n.regions, r.x + r.width ≤ cw ∧ r.y + r.height ≤ ch := by
    simp only [List.all_map, List.all_eq_true]
    exact forall₂_congr fun r hr => validRegion_iff (hn.regions r hr)
  by_cases hw : VideoCompositor.validSize cw = true
  · by_cases hh : VideoCompositor.validSize ch = true
    · rw [VideoCompositor.validate, if_neg (by simp [hw, hh]), if_neg (not_not.mpr hl), if_neg hcount, hall]
      simp only [hw, hh, true_and]
      exact forall₂_and
    · simp [VideoCompositor.validate, hh]
  · simp [VideoCompositor.validate, hw]

/-- 大きさを指定すれば、Go の検査がそのまま成り立つ。 -/
theorem covers_iff {value canvas : Int} {ends : List Int} (hs : Sized value) (hc : Fits32 canvas)
    (hends : ∀ e ∈ ends, e ≤ canvasSize value) :
    (VideoCompositor.validSize (toUInt32 (givenOr value canvas)) = true ∧
      ∀ e ∈ ends, e ≤ toUInt32 (givenOr value canvas)) ↔ Covers value canvas ends := by
  by_cases hv : value = 0
  · have hgiven : givenOr value canvas = canvas := by simp [givenOr, hv]
    have hcovers : Covers value canvas ends ↔ 2 ≤ canvas ∧ canvas ≤ 8192 ∧ canvas % 2 = 0 ∧ ∀ e ∈ ends, e ≤ canvas := by
      simp [Covers, hv]
    rw [hgiven, hcovers, validSize_toUInt32 hc]
    constructor
    · rintro ⟨⟨hlo, hhi, heven⟩, h⟩
      rw [toUInt32_of_range ⟨by omega, by omega⟩] at h
      exact ⟨hlo, hhi, heven, h⟩
    · rintro ⟨hlo, hhi, heven, h⟩
      rw [toUInt32_of_range ⟨by omega, by omega⟩]
      exact ⟨⟨hlo, hhi, heven⟩, h⟩
  · have hrange : 2 ≤ value ∧ value ≤ 8192 ∧ value % 2 = 0 := hs.resolve_left hv
    have hgiven : givenOr value canvas = value := by simp [givenOr, hv]
    have hsize : canvasSize value = value := by simp [canvasSize, hv]
    have hvalid := (validSize_toUInt32 (Wire.fits32_of_sized hs)).mpr hrange
    rw [hgiven, toUInt32_of_range ⟨by omega, by omega⟩]
    rw [hsize] at hends
    exact iff_of_true ⟨hvalid, hends⟩ (Or.inl hv)

/-- 種類ごとの設定は、大きさの指定がなければ画面の大きさを使う。 -/
theorem compositorConfig_layoutMessage (w : FreshWorker) (layout : String) (n : NativeLayout) (msg : Worker.UDSMessage) :
    w.compositorConfig (layoutMessage layout n msg) =
      ⟨toUInt32 (givenOr n.width (w.canvas msg.cmd).1), toUInt32 (givenOr n.height (w.canvas msg.cmd).2), layout,
        n.regions.map sameRegion⟩ := by
  unfold FreshWorker.compositorConfig
  cases hcmd : msg.cmd <;> simp only [layoutMessage, hcmd] <;> rfl

/-- 受け入れた配置をワーカーが描けるのは、配置がその画面に収まるときである。 -/
theorem compositor_validate_iff {layout : String} {n : NativeLayout} (h : validateNativeLayout layout n = none)
    (hl : layout ∈ ["flat", "spotlight", "customized"]) (w : FreshWorker) (msg : Worker.UDSMessage) :
    VideoCompositor.validate (w.compositorConfig (layoutMessage layout n msg)) = true ↔ FitsWorker w msg.cmd n := by
  have hne : layout ≠ "freestyle" := by
    rintro rfl
    exact absurd hl (by decide)
  have hn := (validateNativeLayout_eq_none hne).mp h
  have hdefault : Fits32 1280 ∧ Fits32 720 := by decide
  have hcanvas : Fits32 (w.canvas msg.cmd).1 ∧ Fits32 (w.canvas msg.cmd).2 := by
    cases msg.cmd
    · exact w.fits
    all_goals exact hdefault
  have hright : ∀ e ∈ n.regions.map (fun r => r.x + r.width), e ≤ canvasSize n.width :=
    List.forall_mem_map.mpr fun r hr => (hn.regions r hr).right
  have hbottom : ∀ e ∈ n.regions.map (fun r => r.y + r.height), e ≤ canvasSize n.height :=
    List.forall_mem_map.mpr fun r hr => (hn.regions r hr).bottom
  have hwidth := covers_iff hn.width hcanvas.1 hright
  have hheight := covers_iff hn.height hcanvas.2 hbottom
  rw [List.forall_mem_map] at hwidth hheight
  rw [compositorConfig_layoutMessage, validate_iff hn hl, hwidth, hheight]
  exact ⟨fun h => ⟨h.1, h.2⟩, fun h => ⟨h.width, h.height⟩⟩

/-! ## 最初の開始 -/

/-- 最初の静止画の開始は、接続できれば、この設定で部品を始める。 -/
theorem startSnapshot_config (w : FreshWorker) (msg : Worker.UDSMessage) (o : Worker.Outcome) (hcmd : msg.cmd = .snapshot)
    (hconnect : (w.pipe.ensureConnected msg.channel msg.accessToken o).1 = true) :
    snapshotCompositor (w.pipe.startSnapshot msg o).snapshotConfig = w.compositorConfig msg := by
  have hconfig := (Worker.TaskPipe.ensureConnected_configs w.pipe msg.channel msg.accessToken o).1
  have hcompositor : w.compositorConfig msg =
      snapshotCompositor (Worker.TaskPipe.updateSnapshotConfig msg w.pipe.snapshotConfig) := by
    simp only [FreshWorker.compositorConfig, hcmd]
  unfold Worker.TaskPipe.startSnapshot
  cases hs : w.pipe.ensureConnected msg.channel msg.accessToken o with
  | mk ok s =>
      rw [hs] at hconfig hconnect
      obtain rfl : ok = true := hconnect
      rw [hcompositor, ← hconfig]
      dsimp only
      split_ifs
      · rfl
      · rfl
      · rw [(Worker.TaskPipe.releaseConnection_configs _ _ _).1]
        rfl

/-- 最初の録画の開始は、チャンネルがあれば、この設定で部品を始める。 -/
theorem startRecording_config (w : FreshWorker) (msg : Worker.UDSMessage) (o : Worker.Outcome) (hcmd : msg.cmd = .record)
    (hc : msg.channel ≠ "") :
    recordingCompositor (w.pipe.startRecording msg o).recordingConfig = w.compositorConfig msg := by
  have hcompositor : w.compositorConfig msg =
      recordingCompositor (Worker.TaskPipe.updateRecordingConfig msg w.pipe.recordingConfig) := by
    simp only [FreshWorker.compositorConfig, hcmd]
  unfold Worker.TaskPipe.startRecording
  rw [if_neg hc, hcompositor]
  dsimp only
  generalize hp : Worker.TaskPipe.setDecodeMode _ _ = p
  have hupdated : p.recordingConfig = Worker.TaskPipe.updateRecordingConfig msg w.pipe.recordingConfig := by
    rw [← hp]
    rfl
  have hconfig := (Worker.TaskPipe.ensureConnected_configs p msg.channel msg.accessToken o).2
  cases hs : p.ensureConnected msg.channel msg.accessToken o with
  | mk ok s =>
      rw [hs] at hconfig
      rw [← hupdated, ← hconfig]
      cases ok with
      | false => rfl
      | true =>
          dsimp only
          split_ifs
          · rfl
          · rfl
          · exact congrArg recordingCompositor (Worker.TaskPipe.releaseConnection_configs _ _ _).2

/-! ## 例 -/

/-- 1280×720 の画面を超える領域。大きさの指定はない。 -/
def wideLayout : NativeLayout := { regions := [{ uid := "alice", width := 1920, height := 1080 }] }

/-- 大きさを指定した、同じ領域。 -/
def sizedLayout : NativeLayout := { wideLayout with width := 1920, height := 1080 }

theorem sizedLayout_validate :
    VideoCompositor.validate (FreshWorker.compositorConfig {} (layoutMessage "customized" sizedLayout startMessage)) = true ↔
      FitsWorker {} startMessage.cmd sizedLayout :=
  compositor_validate_iff (by decide) (by decide) {} startMessage

/-- 大きさの指定のない領域は、Go の検査を通っても、ワーカーの画面に収まらない。 -/
theorem not_compositor_validate : validateNativeLayout "customized" wideLayout = none ∧
    VideoCompositor.validate (FreshWorker.compositorConfig {} (layoutMessage "customized" wideLayout startMessage)) = false := by
  decide

end RtcEgress.Sink
