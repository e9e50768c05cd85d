import Mathlib.Data.List.Sort
import RtcEgress.Lib.Float
import RtcEgress.Queue.Protocol

/-!
# `pkg/egress/native_layout.go`

要求の中身から配置を読み、検査する。中身は JSON から復号した写像なので、`[]string` や `int` の値はない。読み取りの
エラーの文は、`encoding/json` の文を除いて残す。
-/

namespace RtcEgress.Message

open RtcEgress.Lib RtcEgress.Queue

/-! ## 欄の読み取り -/

/-- 欄があれば `read` で読む。なければ `default` である。 -/
def readField {α : Type} (payload : Payload) (name : String) (default : α) (read : Json → Option α) : Except String α :=
  match payload.lookup name with
  | none => .ok default
  | some value =>
      match read value with
      | some x => .ok x
      | none => .error ("invalid " ++ name)

/-- `string` への `json.Unmarshal`。`null` は値を変えない。 -/
def unmarshalString (old : String) : Json → Option String
  | .null => some old
  | .str s => some s
  | _ => none

/-- `int` への `json.Unmarshal`。`null` は値を変えない。 -/
def unmarshalInt (old : Int) : Json → Option Int
  | .null => some old
  | .num q => jsonInt q
  | _ => none

/-! ## 配置 -/

structure LayoutRegion where
  uid : String := ""
  x : Int := 0
  y : Int := 0
  width : Int := 0
  height : Int := 0
  z : Int := 0
  deriving DecidableEq

/-- 欄の名前は、大文字と小文字を区別せずに比べる。 -/
def LayoutRegion.setField (r : LayoutRegion) (field : String × Json) : Option LayoutRegion :=
  if equalFold field.1 "uid" then (unmarshalString r.uid field.2).map fun uid => { r with uid }
  else if equalFold field.1 "x" then (unmarshalInt r.x field.2).map fun x => { r with x }
  else if equalFold field.1 "y" then (unmarshalInt r.y field.2).map fun y => { r with y }
  else if equalFold field.1 "width" then (unmarshalInt r.width field.2).map fun width => { r with width }
  else if equalFold field.1 "height" then (unmarshalInt r.height field.2).map fun height => { r with height }
  else if equalFold field.1 "z" then (unmarshalInt r.z field.2).map fun z => { r with z }
  else some r

/-- `json.Marshal` は、写像の欄を名前の順に書く。 -/
def sortFields (fields : Payload) : Payload := fields.insertionSort fun a b => a.1 ≤ b.1

def unmarshalRegion : Json → Option LayoutRegion
  | .null => some {}
  | .obj fields => (sortFields fields).foldlM LayoutRegion.setField {}
  | _ => none

def unmarshalRegions : Json → Option (List LayoutRegion)
  | .null => some []
  | .arr xs => xs.mapM unmarshalRegion
  | _ => none

structure NativeLayout where
  regions : List LayoutRegion := []
  width : Int := 0
  height : Int := 0
  deriving DecidableEq

def readNativeLayout (payload : Payload) : Except String NativeLayout := do
  let regions ← readField payload "regions" [] unmarshalRegions
  let width ← readField payload "width" 0 (unmarshalInt 0)
  let height ← readField payload "height" 0 (unmarshalInt 0)
  return { regions, width, height }

/-! ## 検査 -/

def validateSize (name : String) (value : Int) : Option String :=
  if value ≠ 0 ∧ (value < 2 ∨ 8192 < value ∨ value % 2 ≠ 0) then
    some (name ++ " must be an even integer between 2 and 8192")
  else none

/-- 指定のない大きさは、上限とみなす。 -/
def canvasSize (value : Int) : Int := if value = 0 then 8192 else value

def validateRegion (canvasWidth canvasHeight : Int) (i : Nat) (r : LayoutRegion) : Option String :=
  let region := "regions[" ++ toString i ++ "]"
  if r.uid = "" ∨ 32 < r.uid.utf8ByteSize then some (region ++ ".uid must contain 1 to 32 characters")
  else if r.x < 0 ∨ r.y < 0 ∨ r.width < 2 ∨ r.height < 2 ∨ canvasWidth < r.x ∨ canvasHeight < r.y ∨
      canvasWidth - r.x < r.width ∨ canvasHeight - r.y < r.height then
    some (region ++ " must fit within the output canvas")
  else if r.x % 2 ≠ 0 ∨ r.y % 2 ≠ 0 ∨ r.width % 2 ≠ 0 ∨ r.height % 2 ≠ 0 then
    some (region ++ " coordinates and dimensions must be even for YUV420")
  else if r.z < -2147483648 ∨ 2147483647 < r.z then some (region ++ ".z exceeds the signed 32-bit range")
  else none

/-- `i` 番目からの領域を順に検査する。 -/
def validateRegions (canvasWidth canvasHeight : Int) (i : Nat) : List LayoutRegion → Option String
  | [] => none
  | r :: rs => (validateRegion canvasWidth canvasHeight i r).or (validateRegions canvasWidth canvasHeight (i + 1) rs)

def validateNativeLayout (layout : String) (n : NativeLayout) : Option String :=
  if layout = "freestyle" then none
  else ((validateSize "width" n.width).or (validateSize "height" n.height)).or <|
    if layout = "customized" ∧ n.regions = [] then some "customized layout requires regions"
    else if layout ≠ "customized" ∧ n.regions ≠ [] then some "regions require customized layout"
    else if 32 < n.regions.length then some "regions must contain at most 32 entries"
    else validateRegions (canvasSize n.width) (canvasSize n.height) 0 n.regions

/-! ## 受け入れた配置 -/

/-- 検査を通った大きさ。 -/
def Sized (value : Int) : Prop := value = 0 ∨ (2 ≤ value ∧ value ≤ 8192 ∧ value % 2 = 0)

instance (value : Int) : Decidable (Sized value) := inferInstanceAs (Decidable (_ ∨ _))

theorem canvasSize_le {n : Int} (h : Sized n) : canvasSize n ≤ 8192 := by
  unfold Sized at h
  unfold canvasSize
  split <;> omega

/-- 領域が、`width × height` の画面に収まる。 -/
structure LayoutRegion.Fits (width height : Int) (r : LayoutRegion) : Prop where
  uid : r.uid ≠ "" ∧ r.uid.utf8ByteSize ≤ 32
  origin : 0 ≤ r.x ∧ 0 ≤ r.y
  size : 2 ≤ r.width ∧ 2 ≤ r.height
  right : r.x + r.width ≤ width
  bottom : r.y + r.height ≤ height
  even : r.x % 2 = 0 ∧ r.y % 2 = 0 ∧ r.width % 2 = 0 ∧ r.height % 2 = 0
  z : -2147483648 ≤ r.z ∧ r.z ≤ 2147483647

/-- `freestyle` でない、受け入れた配置。 -/
structure NativeLayout.Accepted (layout : String) (n : NativeLayout) : Prop where
  width : Sized n.width
  height : Sized n.height
  customized : layout = "customized" ↔ n.regions ≠ []
  count : n.regions.length ≤ 32
  regions : ∀ r ∈ n.regions, r.Fits (canvasSize n.width) (canvasSize n.height)

theorem validateSize_eq_none {name : String} {value : Int} : validateSize name value = none ↔ Sized value := by
  unfold validateSize Sized
  grind

theorem validateRegion_eq_none {width height : Int} {i : Nat} {r : LayoutRegion} :
    validateRegion width height i r = none ↔ r.Fits width height := by
  constructor
  · intro h
    simp only [validateRegion] at h
    split_ifs at h with h₁ h₂ h₃ h₄
    simp only [not_or] at h₁ h₂ h₃ h₄
    constructor <;> first | exact h₁.imp_right (by omega) | omega
  · intro ⟨hu, ho, hs, hr, hb, he, hz⟩
    simp only [validateRegion]
    rw [if_neg, if_neg, if_neg, if_neg]
    all_goals first | omega | skip
    rintro (h | h)
    · exact hu.1 h
    · omega

theorem validateRegions_eq_none {width height : Int} {i : Nat} {rs : List LayoutRegion} :
    validateRegions width height i rs = none ↔ ∀ r ∈ rs, r.Fits width height := by
  induction rs generalizing i with
  | nil => simp [validateRegions]
  | cons r rs ih => simp [validateRegions, validateRegion_eq_none, ih]

theorem validateNativeLayout_eq_none {layout : String} {n : NativeLayout} (hl : layout ≠ "freestyle") :
    validateNativeLayout layout n = none ↔ n.Accepted layout := by
  simp only [validateNativeLayout, hl, if_false, Option.or_eq_none_iff, validateSize_eq_none]
  constructor
  · rintro ⟨⟨hw, hh⟩, h⟩
    split_ifs at h with h₁ h₂ h₃
    refine ⟨hw, hh, ?_, by omega, validateRegions_eq_none.mp h⟩
    tauto
  · intro ⟨hw, hh, hc, hn, hr⟩
    refine ⟨⟨hw, hh⟩, ?_⟩
    rw [if_neg (by tauto), if_neg (by tauto), if_neg (by omega)]
    exact validateRegions_eq_none.mpr hr

end RtcEgress.Message
