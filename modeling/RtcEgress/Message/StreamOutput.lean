import RtcEgress.Lib.NetUrl
import RtcEgress.Message.Layout

/-!
# `pkg/egress/stream_output.go`

配信の設定を要求の中身から読み、検査する。`null` の欄は受け入れない。
-/

namespace RtcEgress.Message

open RtcEgress.Lib RtcEgress.Queue

structure StreamOutputSettings where
  destination : String := ""
  token : String := ""
  timeout : Int := 5000
  attempts : Int := 5
  delay : Int := 1000
  deriving DecidableEq

/-- `null` でない欄だけを読む。 -/
def nonNull {α : Type} (read : Json → Option α) : Json → Option α
  | .null => none
  | value => read value

def readStreamOutput (payload : Payload) : Except String StreamOutputSettings := do
  let destination ← readField payload "output_url" "" (nonNull (unmarshalString ""))
  let token ← readField payload "output_token" "" (nonNull (unmarshalString ""))
  let timeout ← readField payload "output_timeout_ms" 5000 (nonNull (unmarshalInt 5000))
  let attempts ← readField payload "output_reconnect_attempts" 5 (nonNull (unmarshalInt 5))
  let delay ← readField payload "output_reconnect_delay_ms" 1000 (nonNull (unmarshalInt 1000))
  return { destination, token, timeout, attempts, delay }

/-- `strings.ContainsAny(s, "\r\n\t ")`。 -/
def containsBlank (s : String) : Bool := (utf8 s).any (· ∈ utf8 "\r\n\t ")

def isStreamCmd (cmd : String) : Bool := cmd == "rtmp" || cmd == "whip"

/-- 配信の種類ごとのスキーム。 -/
def streamSchemes (cmd : String) : List (List UInt8) :=
  if cmd = "rtmp" then [utf8 "rtmp", utf8 "rtmps"] else [utf8 "http", utf8 "https"]

/-- 宛先の検査。読み取った URL から、種類に合うことを調べる。 -/
def validateDestination (cmd destination : String) : Option String :=
  match NetUrl.parse (utf8 destination) with
  | none => some "output_url must be a valid streaming destination"
  | some parsed =>
      if parsed.hostname = [] ∨ parsed.fragment ≠ [] ∨ containsBlank destination then
        some "output_url must be a valid streaming destination"
      else if cmd = "rtmp" ∧ parsed.scheme ∉ streamSchemes cmd then some "RTMP output_url must use rtmp or rtmps"
      else if cmd = "whip" ∧ parsed.scheme ∉ streamSchemes cmd then some "WHIP output_url must use http or https"
      else none

def validateStreamOutput (cmd layout : String) (settings : StreamOutputSettings) : Option String :=
  if !isStreamCmd cmd then none
  else if layout = "freestyle" then some "native streaming does not support freestyle layout"
  else (validateDestination cmd settings.destination).or <|
    if 1024 < settings.destination.utf8ByteSize then some "output_url must be at most 1024 characters"
    else if 512 < settings.token.utf8ByteSize ∨ containsBlank settings.token then
      some "output_token must contain at most 512 characters without whitespace"
    else if cmd = "rtmp" ∧ settings.token ≠ "" then some "output_token is only supported for WHIP"
    else if settings.timeout < 1000 ∨ 30000 < settings.timeout then
      some "output_timeout_ms must be between 1000 and 30000"
    else if settings.attempts < 0 ∨ 20 < settings.attempts then
      some "output_reconnect_attempts must be between 0 and 20"
    else if settings.delay < 100 ∨ 10000 < settings.delay then
      some "output_reconnect_delay_ms must be between 100 and 10000"
    else none

/-! ## 受け入れた設定 -/

/-- 受け入れた宛先。 -/
structure AcceptedDestination (cmd destination : String) : Prop where
  parsed : ∃ url, NetUrl.parse (utf8 destination) = some url ∧ url.hostname ≠ [] ∧ url.fragment = [] ∧
    url.scheme ∈ streamSchemes cmd
  noBlank : containsBlank destination = false

/-- 配信の種類について、受け入れた設定。 -/
structure StreamOutputSettings.Accepted (cmd layout : String) (s : StreamOutputSettings) : Prop where
  layout : layout ≠ "freestyle"
  destination : AcceptedDestination cmd s.destination
  length : s.destination.utf8ByteSize ≤ 1024
  token : s.token.utf8ByteSize ≤ 512 ∧ containsBlank s.token = false
  rtmp : cmd = "rtmp" → s.token = ""
  timeout : 1000 ≤ s.timeout ∧ s.timeout ≤ 30000
  attempts : 0 ≤ s.attempts ∧ s.attempts ≤ 20
  delay : 100 ≤ s.delay ∧ s.delay ≤ 10000

theorem isStreamCmd_iff {cmd : String} : isStreamCmd cmd = true ↔ cmd = "rtmp" ∨ cmd = "whip" := by
  simp [isStreamCmd]

theorem validateDestination_eq_none {cmd destination : String} (hc : isStreamCmd cmd = true) :
    validateDestination cmd destination = none ↔ AcceptedDestination cmd destination := by
  unfold validateDestination
  constructor
  · intro h
    split at h
    · cases h
    case h_2 url hurl =>
      split_ifs at h with h₁ h₂ h₃
      simp only [not_or, Bool.not_eq_true, not_not] at h₁
      refine ⟨⟨url, hurl, h₁.1, h₁.2.1, ?_⟩, h₁.2.2⟩
      obtain rfl | rfl := isStreamCmd_iff.mp hc
      · exact not_not.mp fun hs => h₂ ⟨rfl, hs⟩
      · exact not_not.mp fun hs => h₃ ⟨rfl, hs⟩
  · intro ⟨⟨url, hurl, hhost, hfragment, hscheme⟩, hblank⟩
    simp [hurl, hhost, hfragment, hblank, hscheme]

theorem validateStreamOutput_eq_none {cmd layout : String} {s : StreamOutputSettings} (hc : isStreamCmd cmd = true) :
    validateStreamOutput cmd layout s = none ↔ s.Accepted cmd layout := by
  simp only [validateStreamOutput, hc, Bool.not_true, Bool.false_eq_true, if_false]
  constructor
  · intro h
    have hl : layout ≠ "freestyle" := by
      rintro rfl
      simp at h
    simp only [hl, if_false, Option.or_eq_none_iff, validateDestination_eq_none hc] at h
    obtain ⟨hd, h⟩ := h
    split_ifs at h with h₁ h₂ h₃ h₄ h₅ h₆
    simp only [not_or, Bool.not_eq_true] at h₂
    exact ⟨hl, hd, by omega, ⟨by omega, h₂.2⟩, fun hr => not_not.mp fun ht => h₃ ⟨hr, ht⟩, by omega, by omega, by omega⟩
  · intro ⟨hl, hd, hlen, htoken, hrtmp, htimeout, hattempts, hdelay⟩
    simp only [hl, if_false, Option.or_eq_none_iff, validateDestination_eq_none hc]
    refine ⟨hd, ?_⟩
    rw [if_neg (by omega), if_neg, if_neg, if_neg (by omega), if_neg (by omega), if_neg (by omega)]
    · exact fun h => h.2 (hrtmp h.1)
    · rintro (h | h)
      · omega
      · simp [htoken.2] at h

end RtcEgress.Message
