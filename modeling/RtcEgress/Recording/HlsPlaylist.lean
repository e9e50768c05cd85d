import RtcEgress.Lib.M3u8
import RtcEgress.Recording.TargetDuration

/-!
# 再生リストの文

`generateHLSPlaylist` が書く文を、HLS の読み手が読む。時計が戻らなければ、どの呼び出しの列の後でも、読んだ番号と長さは、並んだ
セグメントのものである。
-/

namespace RtcEgress.Recording

open RtcEgress.Lib

/-! ## 文 -/

/-- `std::fixed` と `std::setprecision(3)`。値は、千分の一の数で与える。 -/
def fixed3 (thousandths : Int) : String :=
  (if thousandths < 0 then "-" else "") ++ toString (thousandths.natAbs / 1000) ++ "." ++
    String.ofList ((Nat.toDigits 10 (thousandths.natAbs % 1000)).leftpad 3 '0')

namespace Playlist

def infLine (entry : Int × String) : String := "#EXTINF:" ++ fixed3 entry.1 ++ ","

def header (p : Playlist) : List String :=
  ["#EXTM3U", "#EXT-X-VERSION:3", "#EXT-X-TARGETDURATION:" ++ toString p.targetDuration, "#EXT-X-MEDIA-SEQUENCE:1", ""]

def lines (p : Playlist) : List String :=
  p.header ++ (p.entries.flatMap fun entry => [infLine entry, entry.2]) ++ ["#EXT-X-ENDLIST"]

/-- `generateHLSPlaylist` が書く文。 -/
def text (p : Playlist) : List Char := p.lines.flatMap fun line => line.toList ++ ['\n']

end Playlist

/-! ## 読み取り -/

theorem readNat_leftpad (k n : Nat) : M3u8.readNat ((Nat.toDigits 10 n).leftpad k '0') = some n :=
  M3u8.readNat_replicate_append _ n

theorem length_leftpad_three (n : Nat) : ((Nat.toDigits 10 (n % 1000)).leftpad 3 '0').length = 3 := by
  have hlen : (Nat.toDigits 10 (n % 1000)).length ≤ 3 := by
    rw [Nat.length_toDigits_le_iff (by decide) (by decide)]
    omega
  rw [List.length_leftpad]
  omega

/-- 長さの文は、千分の一まで正しく読める。 -/
theorem readDecimal_fixed3 {n : Int} (h : 0 ≤ n) : M3u8.readDecimal (fixed3 n).toList = some ((n : Rat) / 1000) := by
  obtain ⟨k, rfl⟩ := Int.eq_ofNat_of_zero_le h
  have htext : (fixed3 k).toList = Nat.toDigits 10 (k / 1000) ++ '.' :: (Nat.toDigits 10 (k % 1000)).leftpad 3 '0' := by
    have hneg : ¬(k : Int) < 0 := Int.not_lt.mpr h
    simp [fixed3, hneg]
  have hdiv : (k : Rat) = 1000 * (k / 1000 : Nat) + (k % 1000 : Nat) := by
    exact_mod_cast (Nat.div_add_mod k 1000).symm
  rw [htext, M3u8.readDecimal_fixed (M3u8.readNat_toDigits _) (readNat_leftpad 3 _), length_leftpad_three]
  congr 1
  push_cast
  rw [hdiv]
  ring

theorem notMem_toDigits {c : Char} (hc : c.isDigit = false) (n : Nat) : c ∉ Nat.toDigits 10 n := by
  intro hmem
  rw [Nat.isDigit_of_mem_toDigits (by decide) (by decide) hmem] at hc
  cases hc

/-- 長さの文は、数字と点と符号だけからなる。 -/
theorem notMem_fixed3 {c : Char} (hdigit : c.isDigit = false) (hdot : c ≠ '.') (hsign : c ≠ '-') (n : Int) :
    c ∉ (fixed3 n).toList := by
  have hzero : c ≠ '0' := by
    rintro rfl
    cases hdigit
  have hneg : c ∉ (if n < 0 then "-" else "").toList := by
    split <;> simp [hsign]
  simp [fixed3, List.leftpad, notMem_toDigits hdigit, hneg, hdot, hzero]

theorem toList_toString {n : Int} (h : 0 ≤ n) : (toString n).toList = Nat.toDigits 10 n.toNat := by
  obtain ⟨k, rfl⟩ := Int.eq_ofNat_of_zero_le h
  exact Nat.toList_repr

theorem head?_generateSegmentFilename (n : Nat) : (generateSegmentFilename n).toList.head? = some 's' := by
  simp [generateSegmentFilename]

theorem newline_generateSegmentFilename (n : Nat) : '\n' ∉ (generateSegmentFilename n).toList := by
  have hdigits : '\n' ∉ Nat.toDigits 10 n := notMem_toDigits (by decide) n
  simp [generateSegmentFilename, List.leftpad, hdigits]

namespace Playlist

variable {p : Playlist}

/-- 読める再生リスト。 -/
structure Readable (p : Playlist) : Prop where
  target : 0 ≤ p.targetDuration
  lengths : ∀ entry ∈ p.entries, 0 ≤ entry.1
  named : ∀ entry ∈ p.entries, ∃ n, entry.2 = generateSegmentFilename n

theorem Readable.newline (h : p.Readable) : ∀ line ∈ p.lines, '\n' ∉ line.toList := by
  intro line hline
  simp only [lines, header, List.mem_append, List.mem_cons, List.not_mem_nil, or_false, List.mem_flatMap] at hline
  rcases hline with (hheader | hentry) | rfl
  · rcases hheader with rfl | rfl | rfl | rfl | rfl
    case inr.inr.inl =>
        have htarget := toList_toString h.target
        rw [String.toList_append, htarget]
        simp [notMem_toDigits]
    all_goals simp
  · obtain ⟨entry, hmem, rfl | rfl⟩ := hentry
    · have hfixed := notMem_fixed3 (c := '\n') (by decide) (by decide) (by decide) entry.1
      simp [infLine, hfixed]
    · obtain ⟨n, hn⟩ := h.named entry hmem
      exact hn ▸ newline_generateSegmentFilename n
  · simp

/-- 読んだ一つの組。 -/
def segment (entry : Int × String) : Rat × List Char := ((entry.1 : Rat) / 1000, entry.2.toList)

theorem Readable.readLine_entry (h : p.Readable) : ∀ entry ∈ p.entries,
    M3u8.readLine (infLine entry).toList = some (.inf (segment entry).1) ∧
      M3u8.readLine entry.2.toList = some (.uri (segment entry).2) := by
  intro entry hmem
  constructor
  · have hvalue := readDecimal_fixed3 (h.lengths entry hmem)
    have hcomma : ',' ∉ (fixed3 entry.1).toList := notMem_fixed3 (by decide) (by decide) (by decide) entry.1
    have hline : (infLine entry).toList = "#EXTINF:".toList ++ ((fixed3 entry.1).toList ++ ',' :: []) := by
      simp [infLine]
    rw [hline]
    exact M3u8.readLine_inf hcomma hvalue
  · obtain ⟨n, hn⟩ := h.named entry hmem
    rw [segment, hn]
    exact M3u8.readLine_uri (head?_generateSegmentFilename n) (by decide)

/-- 書いた文は、書いた再生リストとして読める。 -/
theorem Readable.read_text (h : p.Readable) : M3u8.read p.text = some {
    version := 3, targetDuration := some p.targetDuration.toNat, mediaSequence := 1
    segments := p.entries.map segment, ended := true } := by
  have hsplit : p.text.splitOn '\n' = p.lines.map String.toList ++ [[]] := splitOn_flatMap String.toList h.newline
  have htarget : M3u8.readLine ("#EXT-X-TARGETDURATION:" ++ toString p.targetDuration).toList =
      some (.targetDuration p.targetDuration.toNat) := by
    rw [String.toList_append, toList_toString h.target]
    exact M3u8.readLine_targetDuration (M3u8.readNat_toDigits _)
  have hversion : M3u8.readLine "#EXT-X-VERSION:3".toList = some (.version 3) := rfl
  have hsequence : M3u8.readLine "#EXT-X-MEDIA-SEQUENCE:1".toList = some (.mediaSequence 1) := rfl
  have hempty : M3u8.readLine "".toList = some .skipped := rfl
  have hblank : M3u8.readLine [] = some .skipped := rfl
  have hend : M3u8.readLine "#EXT-X-ENDLIST".toList = some .endList := rfl
  have hsegments := M3u8.readLines_segments (fun entry => (infLine entry).toList) (fun entry => entry.2.toList) segment
    h.readLine_entry
  have hentries : (p.entries.flatMap fun entry => [infLine entry, entry.2]).map String.toList =
      p.entries.flatMap fun entry => [(infLine entry).toList, entry.2.toList] := List.map_flatMap ..
  simp only [M3u8.read, hsplit, lines, header, List.map_append, List.map_cons, List.map_nil, List.cons_append, List.nil_append,
    List.append_assoc, M3u8.readLines, M3u8.readLines_append, hversion, htarget, hsequence, hempty, hblank, hend, hentries,
    hsegments, M3u8.Reader.next, Option.bind_eq_bind, Option.bind_some, if_true]
  simp [M3u8.Reader.finish]

end Playlist

/-! ## 丸め -/

theorem abs_roundHalfEven_sub_le (q : Rat) : |(roundHalfEven q : Rat) - q| ≤ 1 / 2 := by
  have hle : (q.floor : Rat) ≤ q := Rat.floor_le q
  have hlt : q < q.floor + 1 := by exact_mod_cast Rat.lt_floor_add_one q
  rw [abs_le]
  unfold roundHalfEven
  split_ifs with hbelow habove
  · constructor <;> linarith
  · constructor <;> push_cast <;> linarith
  · constructor <;> linarith
  · constructor <;> push_cast <;> linarith

theorem roundHalfEven_nonneg {q : Rat} (h : 0 ≤ q) : 0 ≤ roundHalfEven q := by
  obtain ⟨hlow, -⟩ := abs_le.mp (abs_roundHalfEven_sub_le q)
  by_contra hneg
  have hle : (roundHalfEven q : Rat) ≤ -1 := by exact_mod_cast Int.le_sub_one_of_lt (Int.not_le.mp hneg)
  linarith

/-! ## 呼び出しの列 -/

namespace TSSegmentManager

variable {m : TSSegmentManager} {io : SegmentIo}

/-- 再生リストに書く、一つのセグメントの長さと名前。 -/
def entryOf (segment : SegmentInfo) : Int × String := (roundHalfEven (segment.duration * 1000), segment.filename)

/-- 長さは負でなく、最後に書いた再生リストは、並んだセグメントの始めの部分である。 -/
structure Played (m : TSSegmentManager) : Prop where
  lengths : ∀ segment ∈ m.currentSession.segments, 0 ≤ segment.duration
  written : ∀ p ∈ m.playlist, p.targetDuration = m.config.segmentDurationSeconds ∧
    p.entries <+: m.currentSession.segments.map entryOf

theorem Played.generateHLSPlaylist (h : m.Played) (hnumbered : m.Numbered) (opened : Bool) :
    (m.generateHLSPlaylist opened).Played := by
  refine ⟨by simpa using h.lengths, ?_⟩
  rw [generateHLSPlaylist_config, generateHLSPlaylist_currentSession]
  unfold TSSegmentManager.generateHLSPlaylist
  split
  · exact h.written
  · intro p hp
    obtain rfl := Option.some.inj hp
    have hall : m.currentSession.segments.filter (·.isComplete) = m.currentSession.segments :=
      List.filter_eq_self.mpr hnumbered.complete
    rw [hall]
    exact ⟨rfl, List.prefix_rfl⟩

theorem Played.beginSegment (h : m.Played) (io : SegmentIo) : (m.beginSegment io).Played := ⟨h.lengths, h.written⟩

theorem Played.pushed (h : m.Played) (hclock : m.currentSegment.startTime ≤ io.finalizedAt) : (m.pushed io).Played := by
  refine ⟨fun segment hsegment => ?_, fun p hp => ?_⟩
  · cases List.mem_append.mp hsegment with
    | inl hold => exact h.lengths segment hold
    | inr hnew =>
        obtain rfl := List.mem_singleton.mp hnew
        have hcast : (m.currentSegment.startTime : Rat) ≤ io.finalizedAt := by exact_mod_cast hclock
        exact div_nonneg (sub_nonneg.mpr hcast) (by norm_num)
  · obtain ⟨htarget, hentries⟩ := h.written p hp
    refine ⟨htarget, hentries.trans ?_⟩
    rw [TSSegmentManager.pushed, List.map_append]
    exact List.prefix_append _ _

theorem Played.finalizeCurrentSegment (h : m.Played) (hnumbered : m.Numbered)
    (hclock : m.currentSegment.startTime ≤ io.finalizedAt) : (m.finalizeCurrentSegment io).2.Played := by
  rcases m.finalizeCurrentSegment_cases io with ⟨-, heq⟩ | ⟨-, heq⟩ | ⟨hpending, heq⟩ <;> rw [heq]
  · exact h
  · exact h
  · simp only [completeCurrentSegment_eq]
    have hpushed := h.pushed hclock
    split
    · exact hpushed.generateHLSPlaylist (hnumbered.pushed hpending io) io.opened
    · exact hpushed

theorem Played.perform (h : m.Played) (hnumbered : m.Numbered) (hclock : m.currentSegment.startTime ≤ io.finalizedAt)
    (call : SegmentCall) : (call.perform io m).2.Played := by
  have hfinal := h.finalizeCurrentSegment hnumbered hclock
  cases call with
  | finalize => exact hfinal
  | cleanup =>
      simp only [SegmentCall.perform, TSSegmentManager.cleanup, ite_finalizeCurrentSegment]
      exact hfinal
  | rotate =>
      simp only [SegmentCall.perform, rotateToNewSegment, ite_finalizeCurrentSegment]
      split
      · exact hfinal
      · exact hfinal.beginSegment io
  | endSession =>
      simp only [SegmentCall.perform, endCurrentSession, ite_finalizeCurrentSegment]
      split
      · exact hfinal.generateHLSPlaylist (hnumbered.finalizeCurrentSegment io) io.reopened
      · exact hfinal

/-- 再生リストがあるなら、並んだセグメントを全て書いたものである。 -/
def Current (m : TSSegmentManager) : Prop :=
  ∀ p ∈ m.playlist, m.config.generatePlaylist = true ∧ m.playlistPath ≠ "" ∧
    p.entries = m.currentSession.segments.map entryOf

/-- 書けたならば、全てのセグメントを書いたものになる。 -/
theorem Current.generateHLSPlaylist (hnumbered : m.Numbered) (hgenerate : m.config.generatePlaylist = true)
    (hpath : ∀ p ∈ m.playlist, m.playlistPath ≠ "") : (m.generateHLSPlaylist true).Current := by
  by_cases h : m.playlistPath = ""
  · have hsame : m.generateHLSPlaylist true = m := by simp [TSSegmentManager.generateHLSPlaylist, h]
    rw [hsame]
    exact fun p hp => absurd h (hpath p hp)
  · have hall : m.currentSession.segments.filter (·.isComplete) = m.currentSession.segments :=
      List.filter_eq_self.mpr hnumbered.complete
    intro p hp
    simp only [TSSegmentManager.generateHLSPlaylist, h, hall, Bool.not_true, Bool.false_or, decide_false, Bool.false_eq_true,
      if_false] at hp ⊢
    obtain rfl := Option.some.inj hp
    exact ⟨hgenerate, h, rfl⟩

/-- 書けなくても、書き直す前のものが残る。 -/
theorem Current.rewritten (h : m.Current) (hnumbered : m.Numbered) (hgenerate : m.config.generatePlaylist = true)
    (opened : Bool) : (m.generateHLSPlaylist opened).Current := by
  cases opened with
  | false => exact h
  | true => exact .generateHLSPlaylist hnumbered hgenerate fun p hp => (h p hp).2.1

theorem Current.finalizeCurrentSegment (h : m.Current) (hnumbered : m.Numbered) (hopened : io.opened = true) :
    (m.finalizeCurrentSegment io).2.Current := by
  rcases m.finalizeCurrentSegment_cases io with ⟨-, heq⟩ | ⟨-, heq⟩ | ⟨hpending, heq⟩ <;> rw [heq]
  · exact h
  · exact h
  · simp only [completeCurrentSegment_eq, hopened]
    split
    next hgenerate => exact .generateHLSPlaylist (hnumbered.pushed hpending io) hgenerate fun p hp => (h p hp).2.1
    next hgenerate => exact fun p hp => absurd (h p hp).1 hgenerate

theorem Current.perform (h : m.Current) (hnumbered : m.Numbered) (hopened : io.opened = true) (call : SegmentCall) :
    (call.perform io m).2.Current := by
  have hfinal := h.finalizeCurrentSegment hnumbered hopened
  cases call with
  | finalize => exact hfinal
  | cleanup =>
      simp only [SegmentCall.perform, TSSegmentManager.cleanup, ite_finalizeCurrentSegment]
      exact hfinal
  | rotate =>
      simp only [SegmentCall.perform, rotateToNewSegment, ite_finalizeCurrentSegment]
      split
      · exact hfinal
      · exact hfinal
  | endSession =>
      simp only [SegmentCall.perform, endCurrentSession, ite_finalizeCurrentSegment]
      split
      next hwrite =>
        exact hfinal.rewritten (hnumbered.finalizeCurrentSegment io) (Bool.and_eq_true_iff.mp hwrite).1 io.reopened
      next => exact hfinal

@[simp] theorem config_perform (m : TSSegmentManager) (call : SegmentCall) (io : SegmentIo) :
    (call.perform io m).2.config = m.config := by
  cases call with
  | finalize => simp [SegmentCall.perform]
  | cleanup => simp [SegmentCall.perform, TSSegmentManager.cleanup, ite_finalizeCurrentSegment]
  | rotate =>
      simp only [SegmentCall.perform, rotateToNewSegment, ite_finalizeCurrentSegment]
      split <;> simp [TSSegmentManager.beginSegment]
  | endSession =>
      simp only [SegmentCall.perform, endCurrentSession, ite_finalizeCurrentSegment]
      split <;> simp

/-- 最後に書いた再生リストは、読める。 -/
theorem Played.readable (h : m.Played) (hnumbered : m.Numbered) (htarget : 0 ≤ m.config.segmentDurationSeconds)
    {p : Playlist} (hp : m.playlist = some p) : p.Readable := by
  obtain ⟨heq, hentries⟩ := h.written p hp
  have hentry : ∀ entry ∈ p.entries, ∃ segment ∈ m.currentSession.segments, entryOf segment = entry :=
    fun entry hmem => List.mem_map.mp (hentries.subset hmem)
  refine ⟨heq ▸ htarget, fun entry hmem => ?_, fun entry hmem => ?_⟩
  · obtain ⟨segment, hsegment, rfl⟩ := hentry entry hmem
    exact roundHalfEven_nonneg (mul_nonneg (h.lengths segment hsegment) (by norm_num))
  · obtain ⟨segment, hsegment, rfl⟩ := hentry entry hmem
    exact ⟨segment.segmentNumber, hnumbered.named segment hsegment⟩

/-- 書いた `i` 番目の組は、並んだ `i` 番目のセグメントから書いたものである。 -/
theorem Played.segment (h : m.Played) {p : Playlist} (hp : m.playlist = some p) {i : Nat} {s : Rat × List Char}
    (hs : (p.entries.map Playlist.segment)[i]? = some s) :
    ∃ segment, m.currentSession.segments[i]? = some segment ∧ Playlist.segment (entryOf segment) = s := by
  rw [List.getElem?_map] at hs
  obtain ⟨entry, hentry, rfl⟩ := Option.map_eq_some_iff.mp hs
  obtain ⟨later, hlater⟩ := (h.written p hp).2
  have hlisted : (m.currentSession.segments.map entryOf)[i]? = some entry := by
    rw [← hlater, List.getElem?_append_left (List.getElem?_eq_some_iff.mp hentry).1]
    exact hentry
  rw [List.getElem?_map] at hlisted
  obtain ⟨segment, hsegment, rfl⟩ := Option.map_eq_some_iff.mp hlisted
  exact ⟨segment, hsegment, rfl⟩

/-- 並んだ `i` 番目のセグメントの番号は、一から数えて `i` 番目である。 -/
theorem Numbered.segmentNumber_eq (h : m.Numbered) {i : Nat} {segment : SegmentInfo}
    (hi : m.currentSession.segments[i]? = some segment) : segment.segmentNumber = 1 + i := by
  have hmap : (m.currentSession.segments.map (·.segmentNumber))[i]? = some segment.segmentNumber := by
    rw [List.getElem?_map, hi]
    rfl
  rw [h.numbered, List.getElem?_range' (List.getElem?_eq_some_iff.mp hi).1, Nat.one_mul] at hmap
  exact (Option.some.inj hmap).symm

/-- 書いた長さは、ミリ秒に丸めたものである。 -/
theorem abs_segment_sub_le (segment : SegmentInfo) :
    |(Playlist.segment (entryOf segment)).1 - segment.duration| ≤ 1 / 2000 := by
  have hround := abs_le.mp (abs_roundHalfEven_sub_le (segment.duration * 1000))
  rw [abs_le]
  simp only [Playlist.segment, entryOf]
  constructor <;> linarith [hround.1, hround.2]

end TSSegmentManager

/-! ## 主な結果 -/

/-- 単調な時計では、セグメントは、始めた時刻より前に確定しない。 -/
def steady : segmentSystem.Condition := fun op m => m.currentSegment.startTime ≤ op.2.finalizedAt

instance decidableSteady (op : SegmentCall × SegmentIo) (m : TSSegmentManager) : Decidable (steady op m) :=
  inferInstanceAs (Decidable (m.currentSegment.startTime ≤ op.2.finalizedAt))

/-- 確定のたびに、再生リストのファイルを開ける。 -/
def opens : segmentSystem.Condition := fun op _ => op.2.opened = true

instance decidableOpens (op : SegmentCall × SegmentIo) (m : TSSegmentManager) : Decidable (opens op m) :=
  inferInstanceAs (Decidable (op.2.opened = true))

/-- 読んだ再生リストは、並んだセグメントの始めの部分である。 -/
structure ReadsBack (m : TSSegmentManager) (r : M3u8.MediaPlaylist) : Prop where
  header : r.version = 3 ∧ r.targetDuration = some m.config.segmentDurationSeconds.toNat ∧ r.ended = true
  count : r.segments.length ≤ m.currentSession.segments.length
  /-- 読み手の数える番号は、ファイルの名前の番号である。 -/
  named : ∀ (i : Nat) (s : Rat × List Char), r.segments[i]? = some s →
    s.2 = (generateSegmentFilename (r.mediaSequence + i)).toList
  lengths : ∀ (i : Nat) (s : Rat × List Char) (segment : SegmentInfo), r.segments[i]? = some s →
    m.currentSession.segments[i]? = some segment → |s.1 - segment.duration| ≤ 1 / 2000

section Reach

open TSSegmentManager

variable {config : TSSegmentManager.Config} {sessionId : String} {created : Bool} {now : Int} {m : TSSegmentManager}

theorem played_reach (hreach : segmentSystem.Reach steady (startNewSession { config } sessionId created now).2 m) :
    m.Numbered ∧ m.Played ∧ m.config = config := by
  obtain ⟨hstart, -⟩ := numbered_startNewSession config sessionId created now
  have hinit : (startNewSession { config } sessionId created now).2.Played := by
    cases created <;> exact ⟨by simp [startNewSession], by simp [startNewSession]⟩
  have hconfig : (startNewSession { config } sessionId created now).2.config = config := by
    cases created <;> rfl
  exact hreach.invariant (I := fun (m : TSSegmentManager) => m.Numbered ∧ m.Played ∧ m.config = config)
    ⟨hstart, hinit, hconfig⟩ fun op (m : TSSegmentManager) h hclock =>
      ⟨h.1.perform op.1 op.2, h.2.1.perform h.1 hclock op.1, (m.config_perform op.1 op.2).trans h.2.2⟩

theorem current_reach (hreach : segmentSystem.Reach opens (startNewSession { config } sessionId created now).2 m) :
    m.Current := by
  obtain ⟨hstart, -⟩ := numbered_startNewSession config sessionId created now
  have hnone : (startNewSession { config } sessionId created now).2.Current := by
    cases created <;> simp [Current, startNewSession]
  have hboth := hreach.invariant (I := fun (m : TSSegmentManager) => m.Numbered ∧ m.Current) ⟨hstart, hnone⟩
    fun op (m : TSSegmentManager) h hop => ⟨h.1.perform op.1 op.2, h.2.perform h.1 hop op.1⟩
  exact hboth.2

/-- 最後に書いた再生リストを読むと、並んだセグメントの番号と長さが得られる。ファイルを開けなかった確定がなければ、全てが得られる。 -/
theorem playlist_readsBack (htarget : 0 ≤ config.segmentDurationSeconds)
    (hreach : segmentSystem.Reach steady (startNewSession { config } sessionId created now).2 m) {p : Playlist}
    (hp : m.playlist = some p) : ∃ r, M3u8.read p.text = some r ∧ ReadsBack m r ∧
      (segmentSystem.Reach opens (startNewSession { config } sessionId created now).2 m →
        r.segments.length = m.currentSession.segments.length) := by
  obtain ⟨hnumbered, hplayed, hm⟩ := played_reach hreach
  have hreadable := hplayed.readable hnumbered (hm ▸ htarget) hp
  obtain ⟨htargetDuration, hentries⟩ := hplayed.written p hp
  refine ⟨_, hreadable.read_text, ⟨⟨rfl, by rw [htargetDuration], rfl⟩, ?_, fun i s hs => ?_, fun i s segment hs hi => ?_⟩,
    fun hopen => ?_⟩
  · simpa using hentries.length_le
  · obtain ⟨segment, hi, rfl⟩ := hplayed.segment hp hs
    simp only [Playlist.segment, entryOf, hnumbered.named segment (List.mem_of_getElem? hi), hnumbered.segmentNumber_eq hi]
  · obtain ⟨segment', hi', rfl⟩ := hplayed.segment hp hs
    cases hi.symm.trans hi'
    exact abs_segment_sub_le segment
  · simp [(current_reach hopen p hp).2.2]

end Reach

/-- 三つのセグメントを始め、最後のものを確定せずに終える。 -/
def twoRotations : List (SegmentCall × SegmentIo) :=
  [(.rotate, {}), (.rotate, { finalizedAt := 10016666666, rotatedAt := 10016700000 }),
    (.rotate, { finalizedAt := 20033333333, rotatedAt := 20033400000 }),
    (.endSession, { renamed := false, finalizedAt := 25000000000 })]

theorem playlist_readsBack_twoRotations : ∃ (m : TSSegmentManager) (p : Playlist) (r : M3u8.MediaPlaylist),
    segmentSystem.Reach steady (TSSegmentManager.startNewSession { config := {} } "s" true 0).2 m ∧
      p.entries = [(10017, "segment_00001.ts"), (10017, "segment_00002.ts")] ∧ M3u8.read p.text = some r ∧ ReadsBack m r ∧
        r.segments.length = m.currentSession.segments.length := by
  have hplay : (segmentSystem.run twoRotations (TSSegmentManager.startNewSession { config := {} } "s" true 0).2).playlist.map
      (·.entries) = some [(10017, "segment_00001.ts"), (10017, "segment_00002.ts")] := by decide +kernel
  obtain ⟨p, hp, hentries⟩ := Option.map_eq_some_iff.mp hplay
  have hsteady : segmentSystem.AllMeet steady twoRotations (TSSegmentManager.startNewSession { config := {} } "s" true 0).2 := by
    decide
  have hopens : segmentSystem.AllMeet opens twoRotations (TSSegmentManager.startNewSession { config := {} } "s" true 0).2 := by
    decide
  have hreach := System.reach_run hsteady
  obtain ⟨r, hr, hreads, hall⟩ := playlist_readsBack (by decide) hreach hp
  exact ⟨_, p, r, hreach, hentries, hr, hreads, hall (System.reach_run hopens)⟩

end RtcEgress.Recording
