import RtcEgress.Passthrough.Context
import RtcEgress.Passthrough.Conversion

/-!
# 読み取りの範囲

キーフレームの走査とパラメータセットの読み取りが、配列の中に収まる条件を示す。三バイトに満たないフレームでは、`length - 3` が
巻き戻って外を読む。H.264 の SPS は、大きさを確かめずに三つのバイトを読む。
-/

namespace RtcEgress.Passthrough

open Lib Lib.AnnexB

def spsType (isHevc : Bool) : Nat := if isHevc then 33 else 7

def ppsType (isHevc : Bool) : Nat := if isHevc then 34 else 8

/-- その種類の最初の単位。なければ空である。 -/
def firstUnit (isHevc : Bool) (type : Nat) (data : List UInt8) : List UInt8 :=
  ((unitsBy bodyAfterFirst data).find? fun u => typeOf isHevc u == type).getD []

def HasSets (isHevc : Bool) (data : List UInt8) : Prop :=
  firstUnit isHevc (spsType isHevc) data ≠ [] ∧ firstUnit isHevc (ppsType isHevc) data ≠ []

/-- パラメータセットを範囲の中で読める。 -/
def Readable (isHevc : Bool) (data : List UInt8) : Prop :=
  3 ≤ data.length ∧ (HasSets isHevc data → isHevc = true ∨ 4 ≤ (firstUnit isHevc (spsType isHevc) data).length)

theorem firstUnit_short {isHevc : Bool} {type : Nat} {data : List UInt8} (h : data.length ≤ 3) :
    firstUnit isHevc type data = [] := by
  rw [firstUnit, unitsBy_short h]
  rfl

/-! ## 三バイトに満たない列 -/

variable {data : List UInt8}

theorem read_of_le {i : Nat} (h : data.length ≤ i) : read data i = .error .outOfBounds := by
  unfold read
  rw [List.getElem?_eq_none h]

theorem read_of_lt {i : Nat} (h : i < data.length) : read data i = .ok data[i] := by
  unfold read
  rw [List.getElem?_eq_getElem h]

theorem isByte_cases (i : Nat) (b : UInt8) :
    isByte data i b = .error .outOfBounds ∨ i < data.length ∧ ∃ is, isByte data i b = .ok is := by
  unfold isByte
  cases Nat.lt_or_ge i data.length with
  | inl hlt =>
      rw [read_of_lt hlt]
      exact .inr ⟨hlt, _, rfl⟩
  | inr hge =>
      rw [read_of_le hge]
      exact .inl rfl

/-- 三バイトの符号が収まらなければ、外を読むか、符号が見つからない。 -/
theorem startCodeLen_short {i : Nat} (h : data.length ≤ i + 2) :
    startCodeLen data false i = .error .outOfBounds ∨ i < data.length ∧ startCodeLen data false i = .ok 0 := by
  have hlong : decide (i + 3 < data.length) = false := decide_eq_false (by omega)
  have hthird : isByte data (i + 2) 1 = .error .outOfBounds := by
    rw [isByte, read_of_le h]
    rfl
  unfold startCodeLen
  rw [hlong, both_ok, if_neg (by decide), ok_bind, if_neg (by decide), Bool.not_false, Bool.true_or, both_ok, if_pos rfl]
  cases isByte_cases i 0 with
  | inl herror =>
      rw [herror]
      exact .inl rfl
  | inr hread =>
      obtain ⟨hlt, first, hfirst⟩ := hread
      rw [hfirst, both_ok]
      cases first with
      | false => exact .inr ⟨hlt, rfl⟩
      | true =>
          rw [if_pos rfl]
          cases isByte_cases (i + 1) 0 with
          | inl herror =>
              rw [herror]
              exact .inl rfl
          | inr hread =>
              obtain ⟨_, second, hsecond⟩ := hread
              rw [hsecond, both_ok, hthird]
              cases second with
              | false => exact .inr ⟨hlt, rfl⟩
              | true => exact .inl rfl

theorem parseFrom_short (isHevc : Bool) (h : data.length < 3) (n : Nat) {i : Nat} (hi : i ≤ data.length)
    (hn : data.length - i < n) : parseFrom data isHevc n i = .error .outOfBounds := by
  induction n generalizing i with
  | zero => omega
  | succ n ih =>
      have hwrap : i < sub data.length 3 := by
        unfold sub
        omega
      have hend : data.length ≤ i + 2 := by omega
      rw [parseFrom, if_pos hwrap]
      cases startCodeLen_short hend with
      | inl herror =>
          rw [herror]
          rfl
      | inr hskip =>
          rw [hskip.2, ok_bind, if_pos rfl]
          exact ih hskip.1 (by omega)

theorem parse_short (isHevc : Bool) (h : data.length < 3) : parseAnnexBNalUnits data isHevc = .error .outOfBounds :=
  parseFrom_short isHevc h _ (Nat.zero_le _) (by omega)

/-! ## パラメータセットの読み取り -/

/-- 見つけた後は変わらない。 -/
theorem firstOfType_found {type : Nat} {nalus : List (Nat × List UInt8)} {found : List UInt8} (h : found ≠ []) :
    nalus.foldl (fun found nalu => if nalu.1 == type && found.isEmpty then nalu.2 else found) found = found := by
  have hne : found.isEmpty = false := by rwa [List.isEmpty_eq_false_iff]
  induction nalus with
  | nil => rfl
  | cons nalu nalus ih => rw [List.foldl_cons, hne, Bool.and_false, if_neg (by decide), ih]

/-- 種類が零でない単位は空ではないので、その種類の最初の単位が選ばれる。 -/
theorem firstOfType_eq (isHevc : Bool) {type : Nat} (htype : type ≠ 0) (units : List (List UInt8)) :
    firstOfType type (units.map fun u => (nalType isHevc (u.headD 0), u)) =
      (units.find? fun u => typeOf isHevc u == type).getD [] := by
  unfold firstOfType
  induction units with
  | nil => rfl
  | cons u units ih =>
      rw [List.map_cons, List.foldl_cons, List.find?_cons, nalType_eq, List.isEmpty_nil, Bool.and_true]
      cases hu : typeOf isHevc u == type with
      | false => exact ih
      | true =>
          have hne : u ≠ [] := by
            intro hnil
            rw [hnil, beq_iff_eq] at hu
            cases isHevc <;> exact htype hu.symm
          exact firstOfType_found hne

theorem mapM_read {i : Nat} (n : Nat) (h : i + n ≤ data.length) :
    (List.range n).mapM (fun k => read data (i + k)) = .ok ((data.drop i).take n) := by
  induction n with
  | zero => rfl
  | succ n ih =>
      rw [List.range_succ, List.mapM_append, ih (by omega), ok_bind, List.mapM_cons, read_of_lt (by omega), ok_bind,
        List.take_add_one, List.getElem?_drop, List.getElem?_eq_getElem (by omega)]
      rfl

theorem readProfileTierLevel_eq {sps : List UInt8} (h : 15 < sps.length) :
    readProfileTierLevel sps = .ok {
      generalProfileSpace := (sps[2] >>> 6) &&& 0x03
      generalTierFlag := (sps[2] >>> 5) &&& 0x01
      generalProfileIdc := sps[2] &&& 0x1F
      generalProfileCompatFlags :=
        (sps[3].toUInt32 <<< 24) ||| (sps[4].toUInt32 <<< 16) ||| (sps[5].toUInt32 <<< 8) ||| sps[6].toUInt32
      generalConstraintFlags := (sps.drop 7).take 6
      generalLevelIdc := sps[13] } := by
  have hread (k : Nat) (hk : k < 15) : read sps k = .ok (sps[k]) := read_of_lt (by omega)
  rw [readProfileTierLevel, if_pos h, hread 2 (by decide), hread 3 (by decide), hread 4 (by decide), hread 5 (by decide),
    hread 6 (by decide), hread 13 (by decide), mapM_read 6 (by omega)]
  rfl

theorem hevcRecord_ok (vps sps pps : List UInt8) : ∃ r, hevcRecord vps sps pps = .ok r := by
  unfold hevcRecord
  cases Nat.lt_or_ge 15 sps.length with
  | inl hlong =>
      rw [readProfileTierLevel_eq hlong]
      exact ⟨_, rfl⟩
  | inr hshort =>
      rw [readProfileTierLevel, if_neg (by omega)]
      exact ⟨_, rfl⟩

theorem avcRecord_ok {sps : List UInt8} (pps : List UInt8) (h : 4 ≤ sps.length) : ∃ r, avcRecord sps pps = .ok r := by
  unfold avcRecord
  rw [read_of_lt (by omega), read_of_lt (by omega), read_of_lt (by omega)]
  exact ⟨_, rfl⟩

theorem avcRecord_short {sps : List UInt8} (pps : List UInt8) (h : sps.length < 4) :
    avcRecord sps pps = .error .outOfBounds := by
  match sps, h with
  | [], _ => rfl
  | [_], _ => rfl
  | [_, _], _ => rfl
  | [_, _, _], _ => rfl

theorem findConfig_eq (isHevc : Bool) (hdata : 3 ≤ data.length) (hfits : data.length < 2 ^ 63) :
    findConfig isHevc data =
      let sps := firstUnit isHevc (spsType isHevc) data
      let pps := firstUnit isHevc (ppsType isHevc) data
      if sps.isEmpty || pps.isEmpty then .ok none
      else if isHevc then (hevcRecord (firstUnit isHevc 32 data) sps pps).map some
      else (avcRecord sps pps).map some := by
  unfold findConfig decoderConfig
  rw [parseAnnexBNalUnits_eq isHevc hdata hfits, ok_bind]
  cases isHevc with
  | true => simp only [if_true, firstOfType_eq true (show 32 ≠ 0 by decide), firstOfType_eq true (show 33 ≠ 0 by decide),
      firstOfType_eq true (show 34 ≠ 0 by decide), firstUnit, spsType, ppsType]
  | false => simp only [Bool.false_eq_true, if_false, firstOfType_eq false (show 7 ≠ 0 by decide),
      firstOfType_eq false (show 8 ≠ 0 by decide), firstUnit, spsType, ppsType]

theorem findConfig_none {isHevc : Bool} (hdata : 3 ≤ data.length) (hfits : data.length < 2 ^ 63) (h : ¬HasSets isHevc data) :
    findConfig isHevc data = .ok none := by
  have hempty :
      ((firstUnit isHevc (spsType isHevc) data).isEmpty || (firstUnit isHevc (ppsType isHevc) data).isEmpty) = true := by
    simpa [HasSets, or_iff_not_imp_left] using h
  rw [findConfig_eq isHevc hdata hfits]
  simp only [hempty, if_true]

/-- パラメータセットがあれば、それを記録に写す。 -/
theorem findConfig_sets {isHevc : Bool} (hdata : 3 ≤ data.length) (hfits : data.length < 2 ^ 63) (h : HasSets isHevc data) :
    findConfig isHevc data = if isHevc then
        (hevcRecord (firstUnit isHevc 32 data) (firstUnit isHevc (spsType isHevc) data)
          (firstUnit isHevc (ppsType isHevc) data)).map some
      else (avcRecord (firstUnit isHevc (spsType isHevc) data) (firstUnit isHevc (ppsType isHevc) data)).map some := by
  have hfull :
      ((firstUnit isHevc (spsType isHevc) data).isEmpty || (firstUnit isHevc (ppsType isHevc) data).isEmpty) = false := by
    simpa [HasSets] using h
  rw [findConfig_eq isHevc hdata hfits]
  simp only [hfull, Bool.false_eq_true, if_false]

theorem findConfig_some {isHevc : Bool} (hfits : data.length < 2 ^ 63) (hread : Readable isHevc data)
    (h : HasSets isHevc data) : ∃ extradata, findConfig isHevc data = .ok (some extradata) := by
  rw [findConfig_sets hread.1 hfits h]
  cases hread.2 h with
  | inl hhevc =>
      obtain ⟨r, hr⟩ := hevcRecord_ok (firstUnit isHevc 32 data) (firstUnit isHevc (spsType isHevc) data)
        (firstUnit isHevc (ppsType isHevc) data)
      rw [if_pos hhevc, hr]
      exact ⟨r, rfl⟩
  | inr hfour =>
      cases isHevc with
      | true => exact (hevcRecord_ok _ _ _).imp fun r hr => by rw [if_pos rfl, hr]; rfl
      | false => exact (avcRecord_ok _ hfour).imp fun r hr => by rw [if_neg (by decide), hr]; rfl

theorem findConfig_fault {isHevc : Bool} (hfits : data.length < 2 ^ 63) (h : ¬Readable isHevc data) :
    findConfig isHevc data = .error .outOfBounds := by
  cases Nat.lt_or_ge data.length 3 with
  | inl hshort =>
      rw [findConfig, parse_short isHevc hshort]
      rfl
  | inr hdata =>
      have hbad : HasSets isHevc data ∧ isHevc = false ∧ (firstUnit isHevc (spsType isHevc) data).length < 4 := by
        simpa [Readable, hdata] using h
      obtain ⟨hsets, rfl, hfew⟩ := hbad
      rw [findConfig_sets hdata hfits hsets, if_neg (by decide), avcRecord_short _ hfew]
      rfl

theorem findConfig_total {isHevc : Bool} (hfits : data.length < 2 ^ 63) (h : Readable isHevc data) :
    ∃ config, findConfig isHevc data = .ok config := by
  by_cases hsets : HasSets isHevc data
  · obtain ⟨extradata, hfound⟩ := findConfig_some hfits h hsets
    exact ⟨_, hfound⟩
  · exact ⟨_, findConfig_none h.1 hfits hsets⟩

/-- 設定が見つかるのは、パラメータセットがあり、読めるときだけである。 -/
theorem sets_of_found {isHevc : Bool} {extradata : List UInt8} (hfits : data.length < 2 ^ 63)
    (h : findConfig isHevc data = .ok (some extradata)) : Readable isHevc data ∧ HasSets isHevc data := by
  by_cases hread : Readable isHevc data
  · refine ⟨hread, ?_⟩
    by_contra hsets
    rw [findConfig_none hread.1 hfits hsets] at h
    cases h
  · rw [findConfig_fault hfits hread] at h
    cases h

/-- 見つかった設定は、種類ごとの最初の単位から作った記録である。 -/
theorem record_of_found {isHevc : Bool} {extradata : List UInt8} (hfits : data.length < 2 ^ 63)
    (h : findConfig isHevc data = .ok (some extradata)) :
    (if isHevc then hevcRecord (firstUnit isHevc 32 data) (firstUnit isHevc 33 data) (firstUnit isHevc 34 data)
      else avcRecord (firstUnit isHevc 7 data) (firstUnit isHevc 8 data)) = .ok extradata := by
  have hok {x : Except Fault (List UInt8)} (hx : x.map some = .ok (some extradata)) : x = .ok extradata := by
    cases x with
    | error e => cases hx
    | ok r =>
        cases hx
        rfl
  obtain ⟨hread, hsets⟩ := sets_of_found hfits h
  rw [findConfig_sets hread.1 hfits hsets] at h
  cases isHevc with
  | true => exact hok h
  | false => exact hok h

theorem firstUnit_encode {isHevc : Bool} {units : List (Bool × List UInt8)} (type : Nat) (h : ∀ e ∈ units, WellFormed e.2) :
    firstUnit isHevc type (encode units) = ((units.map Prod.snd).find? fun u => typeOf isHevc u == type).getD [] := by
  rw [firstUnit, unitsBy_encode (fun _ _ => bodyAfterFirst_wellFormed) units h]

/-! ## 一つの呼び出し -/

/-- 読み取りが配列に収まり、走査が終わる。 -/
def InBounds {α : Type} (r : Except Fault α) : Prop := r ≠ .error .outOfBounds ∧ r ≠ .error .unfinished

theorem inBounds_ok {α : Type} (a : α) : InBounds (.ok a : Except Fault α) := ⟨nofun, nofun⟩

theorem inBounds_ite {α : Type} {c : Prop} [Decidable c] {x y : Except Fault α} (hx : InBounds x) (hy : InBounds y) :
    InBounds (if c then x else y) := by
  split
  · exact hx
  · exact hy

theorem inBounds_bind {α β : Type} {x : Except Fault α} {f : α → Except Fault β} (hx : InBounds x)
    (hf : ∀ a, x = .ok a → InBounds (f a)) : InBounds (x >>= f) := by
  cases x with
  | ok a => exact hf a rfl
  | error e =>
      constructor
      · intro h
        cases h
        exact hx.1 rfl
      · intro h
        cases h
        exact hx.2 rfl

variable {out : Output} {o : Outcomes} {frame : Frame} {key : Bool} {ctx : PassthroughContext} {info : EncodedVideoFrameInfo}
  {s : Session}

theorem write_inBounds : InBounds (writePassthroughVideoPacket out o ctx frame key) := by
  unfold writePassthroughVideoPacket
  apply inBounds_bind
  · rw [annexBToAvcc_eq _ frame.fits]
    exact inBounds_ok _
  · intro avcc _
    generalize toInt avcc.length = size
    have hcopy : InBounds (.error .badCopy : Except Fault (Bool × PassthroughContext × List Call)) :=
      ⟨(by intro h; cases h), (by intro h; cases h)⟩
    apply inBounds_ite (inBounds_ok _)
    apply inBounds_ite (inBounds_ok _)
    apply inBounds_ite hcopy
    exact inBounds_ite (inBounds_ok _) (inBounds_ok _)

theorem recordFrame_inBounds (h : ctx.extraDataSet = false → key = true → Readable ctx.isHevc frame.data) :
    InBounds (recordFrame out o frame key ctx) := by
  have hwrite (r : Bool × PassthroughContext × List Call) : InBounds (if !r.1 then .ok r.2 else
      if !r.2.1.headerWritten then .ok r.2
      else writePassthroughVideoPacket out o r.2.1 frame key >>= fun w => .ok (w.2.1, r.2.2 ++ w.2.2)) := by
    apply inBounds_ite (inBounds_ok _)
    apply inBounds_ite (inBounds_ok _)
    exact inBounds_bind write_inBounds fun _ _ => inBounds_ok _
  by_cases hattempt : (!ctx.extraDataSet && key) = true
  · rw [recordFrame, if_pos hattempt]
    rw [Bool.and_eq_true, Bool.not_eq_true'] at hattempt
    obtain ⟨config, hconfig⟩ := findConfig_total frame.fits (h hattempt.1 hattempt.2)
    cases config with
    | none =>
        rw [setup_none hconfig]
        exact hwrite (false, ctx, [])
    | some extradata =>
        obtain ⟨ready, ctx', opening, hsetup, _⟩ := setup_extradata out o hconfig
        rw [hsetup]
        exact hwrite (ready, ctx', opening)
  · rw [recordFrame, if_neg hattempt]
    exact hwrite (true, ctx, [])

theorem recordFrame_fault (hset : ctx.extraDataSet = false) (hkey : key = true) (h : ¬Readable ctx.isHevc frame.data) :
    recordFrame out o frame key ctx = .error .outOfBounds := by
  rw [recordFrame, hset, hkey, Bool.not_false, Bool.and_true, if_pos rfl, setup_error (findConfig_fault frame.fits h)]
  rfl

/-- フレームの設定を試みる。 -/
structure Attempts (out : Output) (o : Outcomes) (frame : Frame) (info : EncodedVideoFrameInfo) (s : Session)
    (ctx : PassthroughContext) : Prop where
  admits : o.admits frame info = true
  context : s.contextFor out o info = some ctx
  unset : ctx.extraDataSet = false
  isKey : info.keyFrame = true

/-- 設定を試みるフレームが読めることが、範囲の中に収まる条件である。 -/
theorem scansInBounds_iff (out : Output) (o : Outcomes) (frame : Frame) (info : EncodedVideoFrameInfo) (s : Session) :
    InBounds (onEncodedVideoFrame out o frame info s) ↔
      ∀ ctx, Attempts out o frame info s ctx → Readable ctx.isHevc frame.data := by
  constructor
  · intro hsafe ctx hattempt
    by_contra hread
    refine hsafe.1 ?_
    rw [onEncoded_admitted hattempt.admits hattempt.context, recordFrame_fault hattempt.unset hattempt.isKey hread]
    rfl
  · intro hread
    cases hadmits : o.admits frame info with
    | false =>
        rw [onEncoded_dropped (.inl hadmits)]
        exact inBounds_ok _
    | true =>
        cases hctx : s.contextFor out o info with
        | none =>
            rw [onEncoded_dropped (.inr hctx)]
            exact inBounds_ok _
        | some ctx =>
            rw [onEncoded_admitted hadmits hctx]
            apply inBounds_bind
            · apply recordFrame_inBounds
              intro hset hkey
              exact hread ctx ⟨hadmits, hctx, hset, hkey⟩
            · exact fun _ _ => inBounds_ok _

/-! ## 一バイトのキーフレーム -/

def ScansInBounds : Prop :=
  ∀ (out : Output) (o : Outcomes) (frame : Frame) (info : EncodedVideoFrameInfo) (s : Session), frame.data ≠ [] →
    info.keyFrame = true → InBounds (onEncodedVideoFrame out o frame info s)

def mp4 : Output where
  noFile := false
  videoWidth := 640
  videoHeight := 480
  rescale ms := ms * 90
  duration := 3000

/-- 外の関数がすべて成功する。 -/
def succeeding (timestampMs : Nat) : Outcomes where
  isRecording := true
  shouldRecordUser := true
  stillRecording := true
  allocOutputContext := true
  newStream := true
  timestampMs
  avioOpen := true
  writeHeader := true
  packetAlloc := true
  malloc := true
  packetFromData := true
  writeFrame := true

def keyFrameInfo (codecType : VideoCodec) : EncodedVideoFrameInfo := ⟨codecType, true, 640, 480⟩

/-- 作ったばかりの H.264 の文脈。 -/
def freshContext : PassthroughContext where
  isHevc := false
  width := 640
  height := 480

theorem not_scansInBounds : ¬ScansInBounds := by
  intro h
  have hsafe := h mp4 (succeeding 0) ⟨[0], by decide⟩ (keyFrameInfo .h264) {} (by decide) rfl
  exact hsafe.1 rfl

end RtcEgress.Passthrough
