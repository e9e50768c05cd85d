import RtcEgress.Wire.Agreement
import RtcEgress.Wire.LineLimit
import RtcEgress.Wire.SaxDom

/-!
# ワーカーに届く伝言

`sendUDSMessageToWorker` が書いたバイトの列を、`TaskPipe::thread_func` が行に分け、JSON に戻し、伝言として処理に渡す。列がどこまで
届き、どう切れていても、処理に渡る伝言は、送った順に、届いた行のものである。初めの長すぎる行で、読み込みは終わる。
-/

namespace RtcEgress.Wire

open RtcEgress.Lib RtcEgress.Lib.Json RtcEgress.Message
open RtcEgress.Queue (Json Payload Task)
open SaxDom (assign stored storedItems storedFields Integral IntegralItems IntegralFields)

/-! ## 受ける側 -/

/-- `command_handlers_` の鍵。 -/
def commandHandlers : List String := ["snapshot", "record", "rtmp", "whip"]

/-- 一行から処理に渡す伝言。読めない行と、知らない命令の伝言は、渡さない。 -/
def dispatched (line : Bytes) : Option UDSMessage := do
  let json ← SaxDom.parse line
  let msg ← fromJson json
  if msg.cmd ∈ commandHandlers then some msg else none

/-- 読み込みのループが処理に渡す伝言。 -/
def threadFunc (reads : List Bytes) : List UDSMessage :=
  (LineMessageBuffer.appendAll {} reads).consumed.filterMap dispatched

/-! ## 鍵の順に並んだ欄 -/

theorem lookup_cons_ite (name : String) (value : Json) (fields : Payload) (k : String) :
    List.lookup k ((name, value) :: fields) = if k = name then some value else fields.lookup k := by
  by_cases hk : k = name
  · simp [hk]
  · simp [List.lookup_cons, hk, beq_false_of_ne hk]

theorem lookup_assign (fields : Payload) (key : String) (v : Json) (k : String) :
    (assign fields key v).lookup k = if k = key then some v else fields.lookup k := by
  induction fields with
  | nil => rw [assign, lookup_cons_ite]
  | cons field rest ih =>
      obtain ⟨name, value⟩ := field
      rw [assign]
      split
      next hname =>
        obtain rfl : name = key := hname
        rw [lookup_cons_ite, lookup_cons_ite]
        split <;> rfl
      next hname =>
        split
        · rw [lookup_cons_ite]
        · rw [lookup_cons_ite, lookup_cons_ite, ih]
          by_cases hk : k = name
          · have hne : k ≠ key := hk ▸ hname
            rw [if_pos hk, if_neg hne, if_pos hk]
          · rw [if_neg hk, if_neg hk]

theorem lookup_storedFields {fields : Payload} (hnodup : (fields.map Prod.fst).Nodup) (acc : Payload) (k : String) :
    (storedFields acc fields).lookup k = ((fields.lookup k).map stored).or (acc.lookup k) := by
  induction fields generalizing acc with
  | nil => simp [storedFields]
  | cons field rest ih =>
      obtain ⟨name, value⟩ := field
      rw [List.map_cons, List.nodup_cons] at hnodup
      rw [storedFields, ih hnodup.2, lookup_assign, lookup_cons_ite]
      by_cases hk : k = name
      · have hrest : rest.lookup k = none := by
          rw [List.lookup_eq_none_iff]
          intro field hfield
          have hne : name ≠ field.1 := fun he => hnodup.1 (List.mem_map.mpr ⟨field, hfield, he.symm⟩)
          simpa [hk] using hne
        rw [hrest, if_pos hk, if_pos hk]
        rfl
      · rw [if_neg hk, if_neg hk]

section
variable {α : Type} {fields : Payload} {get : Json → Option α}

theorem required_stored (hnodup : (fields.map Prod.fst).Nodup) {key : String}
    (hget : ∀ v, fields.lookup key = some v → get (stored v) = get v) :
    required (storedFields [] fields) key get = required fields key get := by
  rw [required, required, lookup_storedFields hnodup]
  cases hkey : fields.lookup key with
  | none => rfl
  | some v => simpa using hget v hkey

theorem optional_stored (hnodup : (fields.map Prod.fst).Nodup) {key : String} {default : α}
    (hget : ∀ v, fields.lookup key = some v → get (stored v) = get v) :
    optional (storedFields [] fields) key default get = optional fields key default get := by
  rw [optional, optional, lookup_storedFields hnodup]
  cases hkey : fields.lookup key with
  | none => rfl
  | some v => simpa using hget v hkey

end

theorem getString_stored (v : Json) : getString (stored v) = getString v := by
  cases v <;> rfl

theorem getInt_stored (v : Json) : getInt (stored v) = getInt v := by
  cases v <;> rfl

theorem getStrings_stored (v : Json) : getStrings (stored v) = getStrings v := by
  have hitems (xs : List Json) : (storedItems xs).mapM getString = xs.mapM getString := by
    induction xs with
    | nil => rfl
    | cons x xs ih => simp only [storedItems, List.mapM_cons, getString_stored, ih]
  cases v with
  | arr xs => exact hitems xs
  | _ => rfl

theorem getRegion_stored {fields : Payload} (hnodup : (fields.map Prod.fst).Nodup) :
    getRegion (stored (.obj fields)) = getRegion (.obj fields) := by
  simp only [stored, getRegion, required_stored hnodup fun v _ => getString_stored v,
    required_stored hnodup fun v _ => getInt_stored v, optional_stored hnodup fun v _ => getInt_stored v]

theorem getRegions_stored (rs : List Message.LayoutRegion) :
    getRegions (stored (.arr (rs.map regionJson))) = getRegions (.arr (rs.map regionJson)) := by
  have hregion (r : Message.LayoutRegion) : getRegion (stored (regionJson r)) = getRegion (regionJson r) :=
    getRegion_stored (by simp)
  simp only [stored, getRegions, iterated]
  induction rs with
  | nil => rfl
  | cons r rs ih => simp only [List.map_cons, storedItems, List.mapM_cons, hregion, ih]

theorem nodup_jsonFields (m : Message.UDSMessage) : ((jsonFields m).map Prod.fst).Nodup :=
  (names_jsonFields m).nodup (by decide)

theorem fromJson_stored_marshal (m : Message.UDSMessage) : fromJson (stored (marshal m)) = some (receivedMessage m) := by
  have hnodup := nodup_jsonFields m
  have hregions : ∀ v, (jsonFields m).lookup "regions" = some v → getRegions (stored v) = getRegions v := by
    intro v hv
    have hlookup : (jsonFields m).lookup "regions" =
        if m.regions = [] then none else some (.arr (m.regions.map regionJson)) := by
      simp [jsonFields, List.lookup_append, lookup_omitEmpty, List.lookup_cons]
    rw [hlookup] at hv
    split at hv
    · cases hv
    · cases hv
      exact getRegions_stored m.regions
  rw [← fromJson_marshal]
  simp only [stored, marshal, fromJson, required_stored hnodup fun v _ => getString_stored v,
    optional_stored hnodup fun v _ => getString_stored v, optional_stored hnodup fun v _ => getInt_stored v,
    optional_stored hnodup fun v _ => getStrings_stored v, optional_stored hnodup hregions]

/-! ## 整数の範囲 -/

def RegionInt64 (r : Message.LayoutRegion) : Prop := ∀ n ∈ [r.x, r.y, r.width, r.height, r.z], inInt64 n = true

theorem RegionInt64.setField {r r' : Message.LayoutRegion} (h : RegionInt64 r) {field : String × Json}
    (hset : r.setField field = some r') : RegionInt64 r' := by
  simp only [RegionInt64, List.mem_cons, List.not_mem_nil, or_false, forall_eq_or_imp, forall_eq] at h ⊢
  obtain ⟨hx, hy, hwidth, hheight, hz⟩ := h
  unfold Message.LayoutRegion.setField at hset
  split_ifs at hset
  case neg =>
    cases hset
    exact ⟨hx, hy, hwidth, hheight, hz⟩
  all_goals
    obtain ⟨value, hvalue, rfl⟩ := Option.map_eq_some_iff.mp hset
  · exact ⟨hx, hy, hwidth, hheight, hz⟩
  · exact ⟨inInt64_unmarshalInt hx hvalue, hy, hwidth, hheight, hz⟩
  · exact ⟨hx, inInt64_unmarshalInt hy hvalue, hwidth, hheight, hz⟩
  · exact ⟨hx, hy, inInt64_unmarshalInt hwidth hvalue, hheight, hz⟩
  · exact ⟨hx, hy, hwidth, inInt64_unmarshalInt hheight hvalue, hz⟩
  · exact ⟨hx, hy, hwidth, hheight, inInt64_unmarshalInt hz hvalue⟩

theorem RegionInt64.foldlM {fields : Payload} {r r' : Message.LayoutRegion} (h : RegionInt64 r)
    (hfold : fields.foldlM Message.LayoutRegion.setField r = some r') : RegionInt64 r' := by
  induction fields generalizing r with
  | nil =>
      cases hfold
      exact h
  | cons field fields ih =>
      rw [List.foldlM_cons, Option.bind_eq_bind, Option.bind_eq_some_iff] at hfold
      obtain ⟨next, hset, hrest⟩ := hfold
      exact ih (h.setField hset) hrest

theorem regionInt64_unmarshalRegion {v : Json} {r : Message.LayoutRegion} (h : unmarshalRegion v = some r) :
    RegionInt64 r := by
  have hzero : RegionInt64 {} := by simp [RegionInt64, inInt64]
  cases v with
  | null =>
      cases h
      exact hzero
  | obj fields => exact hzero.foldlM h
  | _ => cases h

theorem forall_of_mapM {α β : Type} {f : α → Option β} {p : β → Prop} (hf : ∀ x y, f x = some y → p y) {xs : List α}
    {ys : List β} (h : xs.mapM f = some ys) : ∀ y ∈ ys, p y := by
  induction xs generalizing ys with
  | nil =>
      cases h
      simp
  | cons x xs ih =>
      simp only [List.mapM_cons, Option.bind_eq_bind, Option.bind_eq_some_iff] at h
      obtain ⟨y, hy, rest, hrest, heq⟩ := h
      cases heq
      exact List.forall_mem_cons.mpr ⟨hf x y hy, ih hrest⟩

theorem regionInt64_unmarshalRegions {v : Json} {rs : List Message.LayoutRegion} (h : unmarshalRegions v = some rs) :
    ∀ r ∈ rs, RegionInt64 r := by
  cases v with
  | null =>
      cases h
      simp
  | arr xs => exact forall_of_mapM (fun _ _ => regionInt64_unmarshalRegion) h
  | _ => cases h

theorem regionInt64_readNativeLayout {payload : Payload} {n : NativeLayout} (h : readNativeLayout payload = .ok n) :
    ∀ r ∈ n.regions, RegionInt64 r := by
  simp only [readNativeLayout, bind_eq_ok] at h
  obtain ⟨regions, hregions, width, -, height, -, h⟩ := h
  cases h
  unfold readField at hregions
  split at hregions
  · cases hregions
    simp
  · split at hregions
    next hread =>
      cases hregions
      exact regionInt64_unmarshalRegions hread
    · cases hregions

/-- 伝言の数は、Go の `int` に収まる。 -/
structure FitsInt64 (m : Message.UDSMessage) : Prop where
  numbers : ∀ n ∈ [m.workerUid, m.intervalInMs, m.videoDecodeMode, m.width, m.height, m.outputTimeoutMs,
    m.outputReconnectAttempts, m.outputReconnectDelayMs], inInt64 n = true
  regions : ∀ r ∈ m.regions, RegionInt64 r

theorem Sent.fitsInt64 (s : Sent) : FitsInt64 { s.message with taskID := s.taskID } := by
  have hassembled := (built_of_accepted s.valid s.built).assembled
  have hnumbers := numbers_inInt64 hassembled
  exact ⟨hnumbers, regionInt64_readNativeLayout hassembled.native⟩

theorem integralItems_iff {xs : List Json} : IntegralItems xs ↔ ∀ x ∈ xs, Integral x := by
  induction xs with
  | nil => simp [IntegralItems]
  | cons x xs ih => simp [IntegralItems, ih]

theorem integralFields_iff {fields : Payload} : IntegralFields fields ↔ ∀ f ∈ fields, Integral f.2 := by
  induction fields with
  | nil => simp [IntegralFields]
  | cons f fields ih => simp [IntegralFields, ih]

theorem integral_intJson {n : Int} (h : inInt64 n = true) : Integral (intJson n) := ⟨by simp, by simpa using h⟩

theorem integral_regionJson {r : Message.LayoutRegion} (h : RegionInt64 r) : Integral (regionJson r) := by
  simp only [RegionInt64, List.mem_cons, List.not_mem_nil, or_false, forall_eq_or_imp, forall_eq] at h
  obtain ⟨hx, hy, hwidth, hheight, hz⟩ := h
  exact ⟨trivial, integral_intJson hx, integral_intJson hy, integral_intJson hwidth, integral_intJson hheight,
    integral_intJson hz, trivial⟩

theorem integral_marshal {m : Message.UDSMessage} (h : FitsInt64 m) : Integral (marshal m) := by
  have hnumbers := h.numbers
  simp only [List.mem_cons, List.not_mem_nil, or_false, forall_eq_or_imp, forall_eq] at hnumbers
  obtain ⟨hworker, hinterval, hmode, hwidth, hheight, htimeout, hattempts, hdelay⟩ := hnumbers
  refine integralFields_iff.mpr fun f hf => ?_
  simp only [jsonFields, List.mem_append, List.mem_cons, List.not_mem_nil, or_false] at hf
  rcases hf with ((((((((rfl | rfl | rfl | rfl | rfl | rfl | rfl | rfl | rfl | rfl | rfl) | hf) | hf) | hf) | hf) | hf) | hf) |
    rfl | rfl)
  all_goals try obtain ⟨rfl, -⟩ := mem_omitEmpty hf
  · trivial
  · trivial
  · trivial
  · trivial
  · trivial
  · refine integralItems_iff.mpr fun x hx => ?_
    obtain ⟨u, -, rfl⟩ := List.mem_map.mp hx
    trivial
  · trivial
  · trivial
  · exact integral_intJson hworker
  · exact integral_intJson hinterval
  · exact integral_intJson hmode
  · refine integralItems_iff.mpr fun x hx => ?_
    obtain ⟨r, hr, rfl⟩ := List.mem_map.mp hx
    exact integral_regionJson (h.regions r hr)
  · exact integral_intJson hwidth
  · exact integral_intJson hheight
  · trivial
  · trivial
  · exact integral_intJson htimeout
  · exact integral_intJson hattempts
  · exact integral_intJson hdelay

/-! ## 届いた行 -/

/-- 送った値のままの伝言。 -/
structure Arrived (s : Sent) (w : UDSMessage) : Prop where
  taskId : w.taskId = s.taskID
  cmd : w.cmd = s.message.cmd
  action : w.action = s.message.action
  layout : w.layout = s.message.layout
  canvas : w.freestyleCanvasUrl = s.message.freestyleCanvasUrl
  uid : w.uid = s.message.uid
  channel : w.channel = s.message.channel
  accessToken : w.accessToken = s.message.accessToken
  start : s.message.action = "start" → s.message.layout ≠ "freestyle" → Agrees s.message w

def Sent.received (s : Sent) : UDSMessage := receivedMessage { s.message with taskID := s.taskID }

theorem Sent.arrived (s : Sent) : Arrived s s.received := by
  have hbuilt := built_of_accepted s.valid s.built
  refine ⟨rfl, rfl, rfl, rfl, rfl, rfl, rfl, rfl, fun ha hl => ?_⟩
  have hstart : s.task.action = "start" := hbuilt.assembled.action.symm.trans ha
  obtain ⟨payload, haccepted, hassembled, hmessage⟩ := exists_accepted_of_built hstart s.valid s.built
  obtain ⟨hworker, hinterval⟩ := hassembled.ranges hstart haccepted
  have h := receivedMessage_agrees hmessage hl hworker hinterval
  exact ⟨h.cmd, h.action, h.layout, h.uid, h.channel, h.accessToken, h.workerUid, h.intervalInMs, h.videoDecodeMode,
    h.regions, h.width, h.height, h.stream⟩

theorem Sent.dispatched_line (s : Sent) : dispatched s.line = some s.received := by
  have hcmd : s.received.cmd ∈ commandHandlers := by
    have hvalid := (built_of_accepted s.valid s.built).valid
    simp only [validateUDSMessage, ite_some_eq_none, not_not] at hvalid
    exact hvalid.1
  have hparse : SaxDom.parse s.line = some (stored (marshal { s.message with taskID := s.taskID })) :=
    SaxDom.parse_encode (integral_marshal s.fitsInt64)
  rw [dispatched, hparse, Option.bind_eq_bind, Option.bind_some, fromJson_stored_marshal, Option.bind_eq_bind,
    Option.bind_some]
  exact if_pos hcmd

def Sent.fits (s : Sent) : Bool := Wire.fits s.line

/-- 届いた列の、改行で終わった行。 -/
theorem terminated_of_prefix {sent : List Sent} {bytes : Bytes} (h : bytes <+: sentBytes sent) :
    terminated newline bytes = (sent.take (bytes.count newline)).map Sent.line := by
  have hwhole : terminated newline (sentBytes sent) = sent.map Sent.line := by
    have hsplit : (sentBytes sent).splitOn newline = sent.map Sent.line ++ [[]] :=
      splitOn_flatMap Sent.line fun s _ => newline_notMem_line s.taskID s.message
    rw [terminated, hsplit, List.dropLast_concat]
  have hprefix : terminated newline bytes <+: sent.map Sent.line := by
    obtain ⟨rest, hrest⟩ := h
    rw [← hwhole, ← hrest]
    exact terminated_prefix_append bytes rest
  rw [List.prefix_iff_eq_take.mp hprefix, length_terminated, List.map_take]

theorem threadFunc_eq {sent : List Sent} {reads : List Bytes} (h : reads.flatten <+: sentBytes sent) :
    threadFunc reads = ((sent.take (reads.flatten.count newline)).takeWhile Sent.fits).map Sent.received := by
  have hconsumed := congrArg Appended.consumed (LineMessageBuffer.appendAll_eq (b := {}) (by simp) (by simp [fits]) reads)
  rw [List.nil_append, expected, terminated_of_prefix h] at hconsumed
  have hlines (xs : List Sent) : (nonEmpty ((xs.map Sent.line).takeWhile Wire.fits)).filterMap dispatched =
      (xs.takeWhile Sent.fits).map Sent.received := by
    have hne : ∀ s : Sent, s.line ≠ [] := fun s => by simp [Sent.line, line, sendUDSMessageToWorker, marshal, encode]
    have htake : (xs.map Sent.line).takeWhile Wire.fits = (xs.takeWhile Sent.fits).map Sent.line := by
      rw [List.takeWhile_map]
      rfl
    have hkeep : nonEmpty ((xs.takeWhile Sent.fits).map Sent.line) = (xs.takeWhile Sent.fits).map Sent.line := by
      refine List.filter_eq_self.mpr fun l hl => ?_
      obtain ⟨s, -, rfl⟩ := List.mem_map.mp hl
      simpa using hne s
    have hread : dispatched ∘ Sent.line = some ∘ Sent.received := funext Sent.dispatched_line
    rw [htake, hkeep, List.filterMap_map, hread, List.filterMap_eq_map]
  rw [threadFunc, hconsumed, hlines]

/-- 届いた行の伝言を、送った順に、送った値のまま、一度ずつ処理に渡す。初めの長すぎる行からは、何も渡さない。 -/
theorem delivered {sent : List Sent} {reads : List Bytes} (h : reads.flatten <+: sentBytes sent) :
    List.Forall₂ Arrived ((sent.take (reads.flatten.count newline)).takeWhile Sent.fits) (threadFunc reads) := by
  rw [threadFunc_eq h, List.forall₂_map_right_iff]
  exact List.forall₂_same.mpr fun s _ => s.arrived

/-- 二つに切れて届いた、録画の伝言。 -/
theorem delivered_split : ∃ s : Sent, s.message = urlMessage "" ∧
    List.Forall₂ Arrived [s] (threadFunc [s.line.take 7, s.line.drop 7 ++ [newline]]) := by
  obtain ⟨s, htask, hmessage⟩ := exists_sent_urlTask ""
  have hlong : s.line.length ≤ maxMessageSize := by
    refine s.fits_of_checked ?_ ?_ ?_ (.inr ⟨?_, ?_⟩)
    · rw [htask]
      rfl
    · rw [htask]
      rfl
    · rw [htask]
      decide
    · rw [hmessage]
      rfl
    · rw [hmessage]
      rfl
  have hbytes : [s.line.take 7, s.line.drop 7 ++ [newline]].flatten = sentBytes [s] := by
    simp [sentBytes, ← List.append_assoc]
  have hcount : (sentBytes [s]).count newline = 1 := by
    have hline : s.line.count newline = 0 := List.count_eq_zero_of_not_mem (newline_notMem_line s.taskID s.message)
    simp [sentBytes, hline]
  have hprefix : [s.line.take 7, s.line.drop 7 ++ [newline]].flatten <+: sentBytes [s] := by rw [hbytes]
  have h := delivered hprefix
  rw [hbytes, hcount] at h
  have hfits : s.fits = true := by simpa [Sent.fits, fits] using hlong
  refine ⟨s, hmessage, ?_⟩
  simpa [hfits] using h

end RtcEgress.Wire
