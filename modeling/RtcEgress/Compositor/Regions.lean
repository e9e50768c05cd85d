import RtcEgress.Lib.Rect
import RtcEgress.Sink.VideoCompositor
import Mathlib.Data.List.Sort

/-!
# `VideoCompositor::calculateRegions`

利用者の列から領域の列を作る。`flat` は格子に、`spotlight` は大きな一つと端の列に、画面を分ける。境は偶数に切り捨てる。
格子の大きさを決める `float` の計算は、演算を引数とする。
-/

namespace RtcEgress.Compositor

open RtcEgress.Lib
open Worker (LayoutRegion)
open Sink (VideoCompositor.Config VideoCompositor.validSize)

/-! ## 格子の大きさ -/

structure FloatOps where
  F : Type
  ofInt : Int → F
  literal : Rat → F
  max : F
  add : F → F → F
  sub : F → F → F
  mul : F → F → F
  div : F → F → F
  abs : F → F
  lt : F → F → Bool
  le : F → F → Bool
  /-- `static_cast<int>` -/
  toInt : F → Int

/-- 格子の一つの案の点数。小さいほど良い。 -/
def totalScore (fl : FloatOps) (width height numUsers cols rows : Nat) : fl.F :=
  let cellWidth := fl.div (fl.ofInt width) (fl.ofInt cols)
  let cellHeight := fl.div (fl.ofInt height) (fl.ofInt rows)
  let cellAspect := fl.div cellWidth cellHeight
  let aspectDiff := fl.abs (fl.sub cellAspect (fl.literal 1.778))
  let emptyCells : Int := cols * rows - numUsers
  let wastePenalty := fl.mul (fl.ofInt emptyCells) (fl.literal 0.1)
  fl.add aspectDiff wastePenalty

/-- 最も良い案 `(bestScore, bestCols, bestRows)` を、`cols` 列の案と比べる。 -/
def tryColumns (fl : FloatOps) (width height numUsers : Nat) (best : fl.F × Nat × Nat) (cols : Nat) : fl.F × Nat × Nat :=
  let rows := (numUsers + cols - 1) / cols
  let score := totalScore fl width height numUsers cols rows
  if fl.lt score best.1 then (score, cols, rows) else best

def calculateOptimalLayout (fl : FloatOps) (width height numUsers : Nat) : Nat × Nat :=
  let canvasAspect := fl.div (fl.ofInt width) (fl.ofInt height)
  match numUsers with
  | 0 | 1 => (1, 1)
  | 2 => if fl.le (fl.literal 1.5) canvasAspect then (2, 1) else (1, 2)
  | 3 => if fl.le (fl.literal 1.5) canvasAspect then (3, 1) else (2, 2)
  | 4 => (2, 2)
  | _ => ((List.range' 1 numUsers).foldl (tryColumns fl width height numUsers) (fl.max, 1, numUsers)).2

/-! ## 領域 -/

def flatRect (width height : Nat) (grid : Nat × Nat) (i : Nat) : Rect :=
  let col := i % grid.1
  let row := i / grid.1
  let left := evenFloor (col * width / grid.1)
  let top := evenFloor (row * height / grid.2)
  let right := evenFloor ((col + 1) * width / grid.1)
  let bottom := evenFloor ((row + 1) * height / grid.2)
  ⟨left, top, right - left, bottom - top⟩

/-- 横長の画面の `spotlight` の `i` 番目の領域。最初の領域の右に、残りを縦に並べる。 -/
def landscapeRect (width height count i : Nat) : Rect :=
  let edge := max 2 (width / 8 * 2)
  if i = 0 then ⟨0, 0, width - edge, height⟩
  else
    let top := evenFloor ((i - 1) * height / (count - 1))
    let bottom := evenFloor (i * height / (count - 1))
    ⟨width - edge, top, edge, bottom - top⟩

/-- 縦長の画面の `spotlight` の `i` 番目の領域。最初の領域の下に、残りを横に並べる。 -/
def portraitRect (width height count i : Nat) : Rect :=
  let edge := max 2 (height / 8 * 2)
  if i = 0 then ⟨0, 0, width, height - edge⟩
  else
    let left := evenFloor ((i - 1) * width / (count - 1))
    let right := evenFloor (i * width / (count - 1))
    ⟨left, height - edge, right - left, edge⟩

def spotlightRect (width height count i : Nat) : Rect :=
  if height ≤ width then landscapeRect width height count i else portraitRect width height count i

/-- `spotlight` の分け方をする。一人のときは格子になる。 -/
def Spotlight (c : VideoCompositor.Config) (users : List String) : Prop :=
  c.layout = "spotlight" ∧ 1 < users.length

instance (c : VideoCompositor.Config) (users : List String) : Decidable (Spotlight c users) :=
  inferInstanceAs (Decidable (_ ∧ _))

def automaticRect (c : VideoCompositor.Config) (grid : Nat × Nat) (users : List String) (i : Nat) : Rect :=
  if Spotlight c users then spotlightRect c.outputWidth c.outputHeight users.length i
  else flatRect c.outputWidth c.outputHeight grid i

def place (uid : String) (r : Rect) : LayoutRegion := ⟨uid, r.x, r.y, r.width, r.height, 0⟩

/-- `grid` は、人数に対する `calculateOptimalLayout` の値である。 -/
def calculateRegions (c : VideoCompositor.Config) (grid : Nat → Nat × Nat) (users : List String) : List LayoutRegion :=
  if c.layout = "customized" then c.regions.insertionSort fun a b => a.z ≤ b.z
  else users.mapIdx fun i uid => place uid (automaticRect c (grid users.length) users i)

end RtcEgress.Compositor
