import RtcEgress.Message.StreamOutput
import RtcEgress.Worker.TaskPipe

/-!
# `src/streaming_output.cpp` と `src/streaming_sink.cpp` の設定の検査

Go が `net/url` で読んで受け入れた宛先を、ワーカーはバイトの列の探索で検査し直す。FFmpeg の出力の形式の有無は引数で
受け取る。
-/

namespace RtcEgress.Sink

open RtcEgress.Lib RtcEgress.Message
open RtcEgress.Lib.NetUrl (index isCTL)

/-! ## 設定 -/

inductive Protocol where
  | rtmp | whip
  deriving DecidableEq

/-- `StreamingOutput::Config`。 -/
structure StreamingOutput.Config where
  protocol : Protocol
  url : List UInt8
  token : List UInt8
  timeoutMs : Int

/-- `StreamingSink::Config` のうち、検査する欄。 -/
structure StreamingSink.Config where
  output : StreamingOutput.Config
  width : Int := 1280
  height : Int := 720
  fps : Int := 30
  maxDurationSeconds : Int := 28800
  reconnectAttempts : Int
  reconnectDelayMs : Int

/-- 零でなければ指定された大きさ、零ならば既定の大きさ。 -/
def givenOr (value default : Int) : Int := if value ≠ 0 then value else default

/-- `handleStreamingCommand` が伝言から作る設定。 -/
def streamingConfig (msg : Worker.UDSMessage) : StreamingSink.Config where
  output :=
    { protocol := if msg.cmd = .rtmp then .rtmp else .whip
      url := utf8 msg.outputUrl
      token := utf8 msg.outputToken
      timeoutMs := msg.outputTimeoutMs }
  width := givenOr msg.width 1280
  height := givenOr msg.height 720
  reconnectAttempts := msg.outputReconnectAttempts
  reconnectDelayMs := msg.outputReconnectDelayMs

/-! ## 検査 -/

/-- C の `isspace`。 -/
def isspace (b : UInt8) : Bool := b == 0x20 || (0x09 ≤ b && b ≤ 0x0D)

/-- 空白か制御文字。C の `iscntrl` は、Go の制御文字と同じである。 -/
def isBlankOrControl (b : UInt8) : Bool := isspace b || isCTL b

def schemes : Protocol → List (List UInt8)
  | .rtmp => [utf8 "rtmp", utf8 "rtmps"]
  | .whip => [utf8 "http", utf8 "https"]

/-- 宛先が、スキームと `://` で始まる。 -/
def hasScheme (protocol : Protocol) (url : List UInt8) : Bool :=
  (schemes protocol).any fun scheme => (scheme ++ utf8 "://").isPrefixOf url

/-- 最初の `://` のあとから、`/` か `?` の前まで。 -/
def authority (url : List UInt8) : List UInt8 :=
  (url.drop ((index (utf8 "://") url).getD 0 + 3)).takeWhile fun b => b != '/'.toUInt8 && b != '?'.toUInt8

/-- `StreamingOutput::validate`。`muxer` は、形式が見つかり、WHIP ならば `consent_timeout` を持つことである。 -/
def StreamingOutput.validate (muxer : Protocol → Bool) (c : Config) : Bool :=
  if c.url = [] ∨ 1024 < c.url.length ∨ '#'.toUInt8 ∈ c.url ∨ 512 < c.token.length ∨ c.timeoutMs < 1000 ∨
      30000 < c.timeoutMs then false
  else if c.url.any isBlankOrControl || c.token.any isBlankOrControl then false
  else if !hasScheme c.protocol c.url ∨ (c.protocol = .rtmp ∧ c.token ≠ []) then false
  else if authority c.url = [] ∨ (authority c.url).head? = some ':'.toUInt8 ∨ (authority c.url).head? = some '@'.toUInt8 then
    false
  else muxer c.protocol

/-- `StreamingSink::initialize` の、動いていないときの検査。合成の検査は含まない。 -/
def StreamingSink.validate (muxer : Protocol → Bool) (c : Config) : Bool :=
  StreamingOutput.validate muxer c.output && 2 ≤ c.width && 2 ≤ c.height && c.width ≤ 8192 && c.height ≤ 8192 &&
    c.width % 2 == 0 && c.height % 2 == 0 && 1 ≤ c.fps && c.fps ≤ 60 && 1 ≤ c.maxDurationSeconds &&
    0 ≤ c.reconnectAttempts && c.reconnectAttempts ≤ 20 && 100 ≤ c.reconnectDelayMs && c.reconnectDelayMs ≤ 10000

/-! ## 宛先の形 -/

theorem index_scheme {scheme r : List UInt8} (h : ':'.toUInt8 ∉ scheme) :
    index (utf8 "://") (scheme ++ (utf8 "://" ++ r)) = some scheme.length := by
  induction scheme with
  | nil => rfl
  | cons b s ih =>
      rw [List.mem_cons, not_or] at h
      have hne : (utf8 "://").isPrefixOf (b :: (s ++ (utf8 "://" ++ r))) = false := by
        have hw : utf8 "://" = ':'.toUInt8 :: utf8 "//" := rfl
        rw [hw, List.isPrefixOf_cons_cons, beq_false_of_ne h.1, Bool.false_and]
      rw [List.cons_append, index, hne, if_neg (by decide), ih h.2]
      rfl

theorem colon_notMem {scheme : List UInt8} (h : ∀ b ∈ scheme, NetUrl.schemeByte b = true) : ':'.toUInt8 ∉ scheme :=
  fun hc => absurd (h _ hc) (by decide)

theorem authority_eq {scheme r : List UInt8} (h : ':'.toUInt8 ∉ scheme) :
    authority (scheme ++ (utf8 "://" ++ r)) = NetUrl.authority r := by
  have hdrop : (scheme ++ (utf8 "://" ++ r)).drop (scheme.length + 3) = r := by
    rw [List.drop_append, List.drop_eq_nil_of_le (by omega), Nat.add_sub_cancel_left]
    rfl
  rw [authority, index_scheme h, Option.getD_some, hdrop, NetUrl.authority, NetUrl.before, NetUrl.before,
    List.takeWhile_takeWhile]
  congr 1
  funext b
  by_cases hslash : b = '/'.toUInt8 <;> by_cases hquery : b = '?'.toUInt8 <;> simp [hslash, hquery]

/-- 空でないホストの部分の始めのバイトは、`://` の次のバイトである。 -/
theorem head?_authority {r : List UInt8} (h : NetUrl.authority r ≠ []) : (NetUrl.authority r).head? = r.head? := by
  cases r with
  | nil => exact absurd rfl h
  | cons b r =>
      unfold NetUrl.authority NetUrl.before at h ⊢
      rw [List.takeWhile_takeWhile, List.takeWhile_cons] at h ⊢
      split_ifs at h ⊢
      · rfl
      · exact absurd rfl h

theorem isPrefixOf_scheme {word scheme r : List UInt8} (hw : ':'.toUInt8 ∉ word) (hs : ':'.toUInt8 ∉ scheme) :
    (word ++ utf8 "://").isPrefixOf (scheme ++ (utf8 "://" ++ r)) = true ↔ word = scheme := by
  rw [List.isPrefixOf_iff_prefix]
  constructor
  · rintro ⟨t, ht⟩
    have hcons : utf8 "://" = ':'.toUInt8 :: utf8 "//" := rfl
    rw [hcons, List.append_assoc, List.cons_append, List.cons_append] at ht
    rw [← NetUrl.before_append hw (utf8 "//" ++ t), ht, NetUrl.before_append hs]
  · rintro rfl
    exact ⟨r, List.append_assoc _ _ _⟩

theorem map_toLower_of_lower {scheme : List UInt8} (h : ∀ b ∈ scheme, NetUrl.isUpper b = false) :
    scheme.map NetUrl.toLower = scheme := by
  refine (List.map_congr_left fun b hb => ?_).trans (List.map_id scheme)
  simp [NetUrl.toLower, h b hb]

theorem lower_of_mem_schemes {protocol : Protocol} {scheme : List UInt8} (h : scheme ∈ schemes protocol) :
    ':'.toUInt8 ∉ scheme ∧ ∀ b ∈ scheme, NetUrl.isUpper b = false := by
  have hall : ((schemes protocol).all fun word => word.all fun b => b != ':'.toUInt8 && !NetUrl.isUpper b) = true := by
    cases protocol <;> rfl
  have hword := List.all_eq_true.mp hall scheme h
  simp only [List.all_eq_true, Bool.and_eq_true, bne_iff_ne, ne_eq, Bool.not_eq_true'] at hword
  exact ⟨fun hcolon => (hword _ hcolon).1 rfl, fun b hb => (hword b hb).2⟩

/-- 受け入れたスキームがそのまま書かれているのは、大文字を含まないときである。 -/
theorem hasScheme_iff {protocol : Protocol} {scheme r : List UInt8} (hs : ':'.toUInt8 ∉ scheme)
    (hmem : scheme.map NetUrl.toLower ∈ schemes protocol) :
    hasScheme protocol (scheme ++ (utf8 "://" ++ r)) = true ↔ ∀ b ∈ scheme, NetUrl.isUpper b = false := by
  have hiff : hasScheme protocol (scheme ++ (utf8 "://" ++ r)) = true ↔ scheme ∈ schemes protocol := by
    simp only [hasScheme, List.any_eq_true]
    constructor
    · rintro ⟨word, hword, h⟩
      exact (isPrefixOf_scheme (lower_of_mem_schemes hword).1 hs).mp h ▸ hword
    · intro h
      exact ⟨scheme, h, (isPrefixOf_scheme hs hs).mpr rfl⟩
  rw [hiff]
  constructor
  · intro h
    exact (lower_of_mem_schemes h).2
  · intro h
    exact map_toLower_of_lower h ▸ hmem

/-! ## 受け入れた宛先 -/

def Protocol.cmd : Protocol → String
  | .rtmp => "rtmp"
  | .whip => "whip"

def Protocol.taskCmd : Protocol → Worker.TaskCmd
  | .rtmp => .rtmp
  | .whip => .whip

/-- 配信の設定を運ぶ伝言。 -/
def streamMessage (protocol : Protocol) (s : StreamOutputSettings) (msg : Worker.UDSMessage) : Worker.UDSMessage :=
  { msg with
    cmd := protocol.taskCmd
    outputUrl := s.destination
    outputToken := s.token
    outputTimeoutMs := s.timeout
    outputReconnectAttempts := s.attempts
    outputReconnectDelayMs := s.delay }

/-- `://` のあと。 -/
def afterScheme (url : List UInt8) : List UInt8 := url.drop ((NetUrl.before ':'.toUInt8 url).length + 3)

/-- 宛先が `#` を含まず、スキームが小文字で、ホストの部分が `:` と `@` で始まらず、トークンが制御文字を含まない。 -/
structure Publishable (s : StreamOutputSettings) : Prop where
  noFragment : '#'.toUInt8 ∉ utf8 s.destination
  lowerScheme : ∀ b ∈ NetUrl.before ':'.toUInt8 (utf8 s.destination), NetUrl.isUpper b = false
  namedHost : (afterScheme (utf8 s.destination)).head? ≠ some ':'.toUInt8 ∧
    (afterScheme (utf8 s.destination)).head? ≠ some '@'.toUInt8
  printableToken : ∀ b ∈ utf8 s.token, isCTL b = false

theorem isBlankOrControl_eq {b : UInt8} (h : b ∉ utf8 "\r\n\t ") : isBlankOrControl b = isCTL b := by
  have h20 : b ≠ 0x20 := by
    rintro rfl
    exact h (by decide)
  by_cases hb : 0x09 ≤ b ∧ b ≤ 0x0D
  · have hlt : b < 0x20 := Nat.lt_of_le_of_lt hb.2 (by decide)
    simp [isBlankOrControl, isspace, isCTL, hlt]
  · have hspace : isspace b = false := by
      simp only [isspace, Bool.or_eq_false_iff, beq_eq_false_iff_ne, Bool.and_eq_false_iff, decide_eq_false_iff_not]
      exact ⟨h20, not_and_or.mp hb⟩
    simp [isBlankOrControl, hspace]

theorem any_isBlankOrControl {s : String} (h : containsBlank s = false) :
    (utf8 s).any isBlankOrControl = (utf8 s).any isCTL := by
  simp only [containsBlank, List.any_eq_false, decide_eq_true_eq] at h
  rw [Bool.eq_iff_iff, List.any_eq_true, List.any_eq_true]
  exact exists_congr fun b => and_congr_right fun hb => by rw [isBlankOrControl_eq (h b hb)]

theorem streamSchemes_cmd (protocol : Protocol) : streamSchemes protocol.cmd = schemes protocol := by
  cases protocol <;> rfl

theorem isStreamCmd_cmd (protocol : Protocol) : isStreamCmd protocol.cmd = true := by
  cases protocol <;> rfl

theorem StreamingOutput.validate_eq_true {muxer : Protocol → Bool} {c : StreamingOutput.Config} :
    StreamingOutput.validate muxer c = true ↔
      (c.url ≠ [] ∧ c.url.length ≤ 1024 ∧ '#'.toUInt8 ∉ c.url ∧ c.token.length ≤ 512 ∧ 1000 ≤ c.timeoutMs ∧
        c.timeoutMs ≤ 30000) ∧
      (c.url.any isBlankOrControl = false ∧ c.token.any isBlankOrControl = false) ∧
      (hasScheme c.protocol c.url = true ∧ (c.protocol = .rtmp → c.token = [])) ∧
      (authority c.url ≠ [] ∧ (authority c.url).head? ≠ some ':'.toUInt8 ∧
        (authority c.url).head? ≠ some '@'.toUInt8) ∧ muxer c.protocol = true := by
  unfold StreamingOutput.validate
  split_ifs with h₁ h₂ h₃ h₄
  · simp only [false_iff]
    rintro ⟨⟨hne, hlen, hfrag, htoken, hlo, hhi⟩, -⟩
    rcases h₁ with h | h | h | h | h | h
    · exact hne h
    · omega
    · exact hfrag h
    · omega
    · omega
    · omega
  · simp only [false_iff]
    rintro ⟨-, ⟨hurl, htoken⟩, -⟩
    simp [hurl, htoken] at h₂
  · simp only [false_iff]
    rintro ⟨-, -, ⟨hscheme, hrtmp⟩, -⟩
    rcases h₃ with h | h
    · simp [hscheme] at h
    · exact h.2 (hrtmp h.1)
  · simp only [false_iff]
    rintro ⟨-, -, -, ⟨hne, hcolon, hat⟩, -⟩
    rcases h₄ with h | h | h
    · exact hne h
    · exact hcolon h
    · exact hat h
  · simp only [not_or, Bool.or_eq_true, Bool.not_eq_true, Bool.not_eq_true', Bool.not_eq_false, not_and, not_not] at h₁ h₂ h₃ h₄
    obtain ⟨hne, hlen, hfrag, htoken, hlo, hhi⟩ := h₁
    exact ⟨fun hm => ⟨⟨hne, by omega, hfrag, by omega, by omega, by omega⟩, h₂, h₃, h₄, hm⟩, fun h => h.2.2.2.2⟩

theorem ne_nil_of_mem_schemes {protocol : Protocol} {scheme : List UInt8} (h : scheme ∈ schemes protocol) :
    scheme ≠ [] := by
  cases protocol <;> revert scheme <;> decide

theorem givenOr_range {value : Int} (h : Sized value) (default : Int) (hd : 2 ≤ default ∧ default ≤ 8192 ∧ default % 2 = 0) :
    2 ≤ givenOr value default ∧ givenOr value default ≤ 8192 ∧ givenOr value default % 2 = 0 := by
  unfold Sized at h
  unfold givenOr
  split <;> omega

/-- 大きさと再接続の設定は、Go の検査を通ればワーカーの検査も通る。 -/
theorem streamingSink_validate_eq {protocol : Protocol} {s : StreamOutputSettings} {msg : Worker.UDSMessage}
    {muxer : Protocol → Bool} (hwidth : Sized msg.width) (hheight : Sized msg.height)
    (hattempts : 0 ≤ s.attempts ∧ s.attempts ≤ 20) (hdelay : 100 ≤ s.delay ∧ s.delay ≤ 10000) :
    StreamingSink.validate muxer (streamingConfig (streamMessage protocol s msg)) =
      StreamingOutput.validate muxer (streamingConfig (streamMessage protocol s msg)).output := by
  have hw := givenOr_range hwidth 1280 (by decide)
  have hh := givenOr_range hheight 720 (by decide)
  simp only [StreamingSink.validate, streamingConfig, streamMessage]
  simp [hw, hh, hattempts, hdelay]

/-- 受け入れた設定をワーカーが受け入れるのは、宛先とトークンがそのまま使える形のときである。 -/
theorem streamingSink_validate_iff {protocol : Protocol} {layout : String} {s : StreamOutputSettings}
    {msg : Worker.UDSMessage} {muxer : Protocol → Bool} (h : validateStreamOutput protocol.cmd layout s = none)
    (hwidth : Sized msg.width) (hheight : Sized msg.height) (hmuxer : muxer protocol = true) :
    StreamingSink.validate muxer (streamingConfig (streamMessage protocol s msg)) = true ↔ Publishable s := by
  obtain ⟨-, ⟨⟨url, hparse, hhost, hfragment, hscheme⟩, hblank⟩, hlen, ⟨htokenLen, htokenBlank⟩, hrtmp, htimeout, hattempts,
    hdelay⟩ := (validateStreamOutput_eq_none (isStreamCmd_cmd protocol)).mp h
  rw [streamSchemes_cmd] at hscheme
  obtain ⟨-, hctl, scheme, r, hu, hlower, hbytes, hauthority⟩ :=
    NetUrl.parse_shape hparse hhost hfragment (ne_nil_of_mem_schemes hscheme)
  have hprotocol : (streamingConfig (streamMessage protocol s msg)).output.protocol = protocol := by
    cases protocol <;> rfl
  rw [streamingSink_validate_eq hwidth hheight hattempts hdelay, StreamingOutput.validate_eq_true, hprotocol]
  by_cases hfrag : '#'.toUInt8 ∈ utf8 s.destination
  · constructor
    · rintro ⟨⟨-, -, hnot, -⟩, -⟩
      exact absurd hfrag hnot
    · intro hp
      exact absurd hfrag hp.noFragment
  · rw [NetUrl.before_of_notMem hfrag] at hctl hu
    have hcolon := colon_notMem hbytes
    have hbefore : NetUrl.before ':'.toUInt8 (utf8 s.destination) = scheme := by
      rw [hu]
      exact NetUrl.before_append hcolon _
    have hafter : afterScheme (utf8 s.destination) = r := by
      rw [afterScheme, hbefore, hu, List.drop_append, List.drop_eq_nil_of_le (by omega), Nat.add_sub_cancel_left]
      rfl
    have hne : utf8 s.destination ≠ [] := by
      rw [hu]
      exact List.append_ne_nil_of_right_ne_nil _ (List.append_ne_nil_of_left_ne_nil (by decide) _)
    have hurl : (utf8 s.destination).any isBlankOrControl = false := by
      rw [any_isBlankOrControl hblank]
      simpa using hctl
    have htoken : (utf8 s.token).any isBlankOrControl = false ↔ ∀ b ∈ utf8 s.token, isCTL b = false := by
      rw [any_isBlankOrControl htokenBlank]
      simp
    have hlower' : hasScheme protocol (utf8 s.destination) = true ↔ ∀ b ∈ scheme, NetUrl.isUpper b = false := by
      rw [hu]
      exact hasScheme_iff hcolon (hlower ▸ hscheme)
    have hhead : authority (utf8 s.destination) ≠ [] ∧ (authority (utf8 s.destination)).head? = r.head? := by
      rw [hu, authority_eq hcolon]
      exact ⟨hauthority, head?_authority hauthority⟩
    have hrtmp' : protocol = .rtmp → utf8 s.token = [] := by
      intro hp
      rw [hrtmp (by simp [hp, Protocol.cmd])]
      rfl
    constructor
    · rintro ⟨-, ⟨-, ht⟩, ⟨hs, -⟩, ⟨-, hc, ha⟩, -⟩
      exact ⟨hfrag, hbefore ▸ hlower'.mp hs, hafter ▸ hhead.2 ▸ ⟨hc, ha⟩, htoken.mp ht⟩
    · intro hp
      have hs := hp.lowerScheme
      have hc := hp.namedHost
      rw [hbefore] at hs
      rw [hafter, ← hhead.2] at hc
      exact ⟨⟨hne, hlen, hfrag, htokenLen, htimeout.1, htimeout.2⟩, ⟨hurl, htoken.mpr hp.printableToken⟩,
        ⟨hlower'.mpr hs, hrtmp'⟩, ⟨hhead.1, hc⟩, hmuxer⟩

/-! ## 例 -/

def startMessage : Worker.UDSMessage where
  taskId := "a1"
  cmd := .rtmp
  action := .start
  channel := "c1"

theorem localRtmp_validate :
    StreamingSink.validate (fun _ => true)
      (streamingConfig (streamMessage .rtmp { destination := "rtmp://127.0.0.1:1935/live/test" } startMessage)) = true ↔
      Publishable { destination := "rtmp://127.0.0.1:1935/live/test" } :=
  streamingSink_validate_iff (show validateStreamOutput Protocol.rtmp.cmd "flat" _ = none by decide) (by decide) (by decide) rfl

/-- 大文字のスキームは受け入れられるが、ワーカーは配信を始めない。 -/
theorem not_streamingSink_validate : validateStreamOutput "rtmp" "flat" { destination := "RTMP://127.0.0.1/live" } = none ∧
    StreamingSink.validate (fun _ => true)
      (streamingConfig (streamMessage .rtmp { destination := "RTMP://127.0.0.1/live" } startMessage)) = false := by
  decide

end RtcEgress.Sink
