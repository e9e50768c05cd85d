import RtcEgress.Passthrough.Bounds

/-!
# 失敗した開始のやり直し

`extraDataSet` は、ファイルを開く前に立つ。ファイルを開くかヘッダを書くことに失敗すると、設定は二度と始まらず、フレームは書かれない。
-/

namespace RtcEgress.Passthrough

open Lib Lib.AnnexB

/-- 呼び出しの間の文脈の正しさ。 -/
structure Retries (out : Output) (s : Session) : Prop where
  flags : ∀ ctx, s.context = some ctx → ctx.extraDataSet = ctx.headerWritten
  /-- ヘッダを書いていなければ、パラメータセットのあるキーフレームで、再びファイルを開いてヘッダを書こうとする。 -/
  again : ∀ (d : Delivery) ctx s', s.context = some ctx → ctx.headerWritten = false → d.outcomes.admits d.frame d.info = true →
    d.info.keyFrame = true → HasSets ctx.isHevc d.frame.data →
    onEncodedVideoFrame out d.outcomes d.frame d.info s = .ok s' →
    ∃ extradata rest ctx', s'.calls = s.calls ++ (opening out d.outcomes extradata ++ rest) ∧ s'.context = some ctx' ∧
      ctx'.headerWritten = opens out d.outcomes
  /-- ヘッダを書いた後は、パラメータセットの他の単位があるフレームを書く。 -/
  writes : ∀ (d : Delivery) ctx s', s.context = some ctx → ctx.headerWritten = true → d.outcomes.admits d.frame d.info = true →
    d.outcomes.delivers = true → (∃ u ∈ unitsBy body d.frame.data, ¬ParameterSet ctx.isHevc u) →
    onEncodedVideoFrame out d.outcomes d.frame d.info s = .ok s' →
    ∃ packet, s'.calls = s.calls ++ [.writeFrame d.frame packet true]

/-- 読めるパラメータセットで設定を試みるときは、ファイルを開き、ヘッダを書ける。 -/
def opensWhenFound (out : Output) : (recording out).Condition := fun d st =>
  ∀ s ctx, st = .ok s → Attempts out d.outcomes d.frame d.info s ctx → Readable ctx.isHevc d.frame.data →
    HasSets ctx.isHevc d.frame.data → opens out d.outcomes = true

/-! ## 旗 -/

variable {out : Output}

/-- 文脈 `ctx` のすべてで成り立つ。 -/
def EveryContext (P : PassthroughContext → Prop) : Except Fault Session → Prop
  | .error _ => True
  | .ok s => ∀ ctx, s.context = some ctx → P ctx

def HeaderNeedsConfig (ctx : PassthroughContext) : Prop := ctx.headerWritten = true → ctx.extraDataSet = true

namespace HeaderNeedsConfig

variable {ctx : PassthroughContext}

theorem of_unwritten (h : ctx.headerWritten = false) : HeaderNeedsConfig ctx := by
  intro hw
  rw [h] at hw
  cases hw

theorem unwritten (h : HeaderNeedsConfig ctx) (hset : ctx.extraDataSet = false) : ctx.headerWritten = false := by
  rw [Bool.eq_false_iff]
  intro hw
  rw [h hw] at hset
  cases hset

end HeaderNeedsConfig

def FlagsAgree (ctx : PassthroughContext) : Prop := ctx.extraDataSet = ctx.headerWritten

theorem contextFor_every {P : PassthroughContext → Prop} {s : Session} {o : Outcomes} {info : EncodedVideoFrameInfo}
    {ctx : PassthroughContext} (h : ∀ ctx, s.context = some ctx → P ctx)
    (hnew : ctx.headerWritten = false → ctx.extraDataSet = false → P ctx)
    (hctx : s.contextFor out o info = some ctx) : P ctx := by
  cases contextFor_cases hctx with
  | inl hold => exact h ctx hold
  | inr hfresh => exact hnew hfresh.2.2.1 hfresh.2.2.2

theorem headerNeedsConfig_step (d : Delivery) (st : (recording out).State) (h : EveryContext HeaderNeedsConfig st) :
    EveryContext HeaderNeedsConfig ((recording out).step d st) := by
  cases st with
  | error e => trivial
  | ok s =>
      change EveryContext HeaderNeedsConfig (onEncodedVideoFrame out d.outcomes d.frame d.info s)
      cases hstep : onEncodedVideoFrame out d.outcomes d.frame d.info s with
      | error e => trivial
      | ok s' =>
          intro ctx' hctx'
          cases onEncoded_cases hstep with
          | inl hsame => exact h ctx' (hsame ▸ hctx')
          | inr hstep =>
              obtain ⟨ctx, ctx₁, calls, _, hctx, hrecord, rfl⟩ := hstep
              cases hctx'
              have hI := contextFor_every h (fun hheader _ => .of_unwritten hheader) hctx
              cases recorded hI hrecord with
              | waiting => exact hI
              | failed => exact fun hw => absurd hw Bool.false_ne_true
              | started _ _ _ _ _ _ _ kept => exact fun _ => kept.extraDataSet
              | continued _ _ _ kept =>
                  unfold HeaderNeedsConfig at hI ⊢
                  rwa [kept.headerWritten, kept.extraDataSet]

/-- 旗が異なる文脈は、もう進まない。 -/
theorem recordFrame_stuck {o : Outcomes} {frame : Frame} {key : Bool} {ctx : PassthroughContext} (hI : HeaderNeedsConfig ctx)
    (h : ¬FlagsAgree ctx) : recordFrame out o frame key ctx = .ok (ctx, []) := by
  unfold FlagsAgree at h
  cases hheader : ctx.headerWritten with
  | true => exact absurd ((hI hheader).trans hheader.symm) h
  | false =>
      rw [hheader, Bool.not_eq_false] at h
      unfold recordFrame
      rw [h, Bool.not_true, Bool.false_and, if_neg (by decide), ok_bind]
      simp only [hheader, Bool.not_true, Bool.not_false, Bool.false_eq_true, if_false, if_true]
      rfl

theorem flagsAgree_of_step {d : Delivery} {s : Session} (hI : ∀ ctx, s.context = some ctx → HeaderNeedsConfig ctx)
    (h : EveryContext FlagsAgree ((recording out).step d (.ok s))) : ∀ ctx, s.context = some ctx → FlagsAgree ctx := by
  intro ctx hctx
  by_contra hne
  change EveryContext FlagsAgree (onEncodedVideoFrame out d.outcomes d.frame d.info s) at h
  cases hadmits : d.outcomes.admits d.frame d.info with
  | false =>
      rw [onEncoded_dropped (.inl hadmits)] at h
      exact hne (h ctx hctx)
  | true =>
      have hfor : s.contextFor out d.outcomes d.info = some ctx := by rw [Session.contextFor, hctx]
      rw [onEncoded_admitted hadmits hfor, recordFrame_stuck (hI ctx hctx) hne] at h
      exact hne (h ctx rfl)

theorem opens_of_step {d : Delivery} {s : Session} (hI : ∀ ctx, s.context = some ctx → HeaderNeedsConfig ctx)
    (h : EveryContext FlagsAgree ((recording out).step d (.ok s))) : opensWhenFound out d (.ok s) := by
  intro s₀ ctx hs hattempt hread hsets
  cases hs
  have hneeds := contextFor_every hI (fun hheader _ => .of_unwritten hheader) hattempt.context
  have hheader := hneeds.unwritten hattempt.unset
  obtain ⟨extradata, hfound⟩ := findConfig_some d.frame.fits hread hsets
  by_contra hopens
  rw [Bool.not_eq_true] at hopens
  change EveryContext FlagsAgree (onEncodedVideoFrame out d.outcomes d.frame d.info s) at h
  have hsetup := setup_some out d.outcomes hfound hheader
  rw [onEncoded_admitted hattempt.admits hattempt.context, recordFrame, hattempt.unset, hattempt.isKey, Bool.not_false,
    Bool.and_true, if_pos rfl, hsetup, hopens] at h
  exact Bool.false_ne_true (h _ rfl).symm

theorem flagsAgree_step (d : Delivery) (st : (recording out).State) (hI : EveryContext HeaderNeedsConfig st) :
    EveryContext FlagsAgree ((recording out).step d st) ↔ EveryContext FlagsAgree st ∧ opensWhenFound out d st := by
  cases st with
  | error e => exact ⟨fun _ => ⟨trivial, fun _ _ hs => by cases hs⟩, fun _ => trivial⟩
  | ok s =>
      constructor
      · exact fun h => ⟨flagsAgree_of_step hI h, opens_of_step hI h⟩
      · intro ⟨hflags, hopens⟩
        change EveryContext FlagsAgree (onEncodedVideoFrame out d.outcomes d.frame d.info s)
        cases hstep : onEncodedVideoFrame out d.outcomes d.frame d.info s with
        | error e => trivial
        | ok s' =>
            intro ctx' hctx'
            cases onEncoded_cases hstep with
            | inl hsame => exact hflags ctx' (hsame ▸ hctx')
            | inr hstep =>
                obtain ⟨ctx, ctx₁, calls, hadmits, hctx, hrecord, rfl⟩ := hstep
                cases hctx'
                have hheader := contextFor_every hI (fun hheader _ => .of_unwritten hheader) hctx
                have hagree := contextFor_every (P := FlagsAgree) hflags (fun hheader hset => hset.trans hheader.symm) hctx
                cases recorded hheader hrecord with
                | waiting => exact hagree
                | failed extradata unset isKey found closed =>
                    obtain ⟨hread, hsets⟩ := sets_of_found d.frame.fits found
                    rw [hopens s ctx rfl ⟨hadmits, hctx, unset, isKey⟩ hread hsets] at closed
                    cases closed
                | started _ _ _ _ _ _ _ kept => exact kept.extraDataSet.trans kept.headerWritten.symm
                | continued _ _ _ kept => exact kept.extraDataSet.trans (hagree.trans kept.headerWritten.symm)

/-! ## やり直しと、その後のフレーム -/

theorem recordFrame_of_step {d : Delivery} {s s' : Session} {ctx : PassthroughContext} (hctx : s.context = some ctx)
    (hadmits : d.outcomes.admits d.frame d.info = true) (h : onEncodedVideoFrame out d.outcomes d.frame d.info s = .ok s') :
    ∃ ctx' calls, recordFrame out d.outcomes d.frame d.info.keyFrame ctx = .ok (ctx', calls) ∧
      s' = ⟨some ctx', s.calls ++ calls⟩ := by
  have hfor : s.contextFor out d.outcomes d.info = some ctx := by rw [Session.contextFor, hctx]
  rw [onEncoded_admitted hadmits hfor] at h
  obtain ⟨⟨ctx', calls⟩, hrecord, h⟩ := of_bind h
  cases h
  exact ⟨ctx', calls, hrecord, rfl⟩

theorem setsUpAgain {o : Outcomes} {frame : Frame} {ctx ctx' : PassthroughContext} {calls : List Call}
    (hunset : ctx.extraDataSet = false) (hheader : ctx.headerWritten = false) (hsets : HasSets ctx.isHevc frame.data)
    (h : recordFrame out o frame true ctx = .ok (ctx', calls)) :
    ∃ extradata rest, calls = opening out o extradata ++ rest ∧ ctx'.headerWritten = opens out o := by
  have hread : Readable ctx.isHevc frame.data := by
    by_contra hread
    rw [recordFrame_fault hunset rfl hread] at h
    cases h
  cases recorded (HeaderNeedsConfig.of_unwritten hheader) h with
  | waiting _ idle =>
      obtain ⟨extradata, hfound⟩ := findConfig_some frame.fits hread hsets
      rw [hunset, hfound] at idle
      simp at idle
  | failed extradata _ _ _ closed => exact ⟨extradata, [], (List.append_nil _).symm, closed.symm⟩
  | started extradata _ writing _ _ _ opened kept => exact ⟨extradata, writing, rfl, kept.headerWritten.trans opened.symm⟩
  | continued _ _ header =>
      rw [hheader] at header
      cases header

theorem writing_delivers {o : Outcomes} {isHevc : Bool} {frame : Frame} {calls : List Call} (hdelivers : o.delivers = true)
    (hkept : ∃ u ∈ unitsBy body frame.data, ¬ParameterSet isHevc u) (h : Writing o isHevc frame calls) :
    ∃ packet, calls = [.writeFrame frame packet true] := by
  obtain ⟨avcc, havcc, hcalls⟩ := h
  cases hcalls with
  | inl hnone =>
      cases hnone.2 with
      | inr hfail =>
          rw [hdelivers] at hfail
          cases hfail
      | inl hempty =>
          obtain ⟨u, hu, hset⟩ := hkept
          have hmem : u ∈ (unitsBy body frame.data).filter (kept isHevc) := by
            rw [kept_eq]
            exact List.mem_filter.mpr ⟨hu, decide_eq_true hset⟩
          rw [annexBToAvcc_eq isHevc frame.fits, hempty] at havcc
          have hnil := List.flatMap_eq_nil_iff.mp (Except.ok.inj havcc) u hmem
          have hlen := congrArg List.length hnil
          rw [Framing.prefixed, List.length_append, Framing.length_bigEndian, List.length_nil] at hlen
          omega
  | inr hpacket =>
      obtain ⟨packet, _, rfl, _, _⟩ := hpacket
      have hwrite : o.writeFrame = true := (Bool.and_eq_true_iff.mp hdelivers).2
      exact ⟨packet, by rw [hwrite]⟩

theorem retries_of_flags {s : Session} (h : ∀ ctx, s.context = some ctx → FlagsAgree ctx) : Retries out s where
  flags := h
  again d ctx s' hctx hheader hadmits hkey hsets hstep := by
    obtain ⟨ctx', calls, hrecord, rfl⟩ := recordFrame_of_step hctx hadmits hstep
    rw [hkey] at hrecord
    obtain ⟨extradata, rest, rfl, hopens⟩ := setsUpAgain ((h ctx hctx).trans hheader) hheader hsets hrecord
    exact ⟨extradata, rest, ctx', rfl, rfl, hopens⟩
  writes d ctx s' hctx hheader hadmits hdelivers hkept hstep := by
    obtain ⟨ctx', calls, hrecord, rfl⟩ := recordFrame_of_step hctx hadmits hstep
    have hset : ctx.extraDataSet = true := (h ctx hctx).trans hheader
    obtain ⟨_, writes⟩ := recorded_continued hset hheader hrecord
    obtain ⟨packet, rfl⟩ := writing_delivers hdelivers hkept writes
    exact ⟨packet, rfl⟩

/-- どの時点でも旗が一致し、設定をやり直せるのは、見つかったパラメータセットでのファイルの準備が一度も失敗しない列のときである。 -/
theorem retries_iff (out : Output) (ds : List Delivery) :
    (∀ s, (recording out).run ds (.ok {}) = .ok s → Retries out s) ↔
      (recording out).AllMeet (opensWhenFound out) ds (.ok {}) := by
  have hstart : EveryContext HeaderNeedsConfig (.ok {}) := nofun
  have hrun := System.run_iff_of_invariant (S := recording out) (I := EveryContext HeaderNeedsConfig)
    (P := EveryContext FlagsAgree) headerNeedsConfig_step flagsAgree_step ds hstart
  have hempty : EveryContext FlagsAgree (.ok {}) := nofun
  have hcondition := hrun.trans (and_iff_right hempty)
  rw [← hcondition]
  cases hend : (recording out).run ds (.ok {}) with
  | error e => exact ⟨fun _ => trivial, nofun⟩
  | ok s =>
      constructor
      · exact fun h => (h s rfl).flags
      · intro h s' hs'
        cases hs'
        exact retries_of_flags h

/-! ## ファイルを開けない最初のキーフレーム -/

def FailedStartsRetried : Prop :=
  ∀ out ds s, (recording out).run ds (.ok {}) = .ok s → Retries out s

/-- SPS と PPS とスライスの一つずつからなる。 -/
def firstUnits : List (Bool × List UInt8) := [(true, [0x67, 0x42, 0xE0, 0x1F]), (true, [0x68, 0xCE]), (false, [0x65, 0x88])]

def firstKeyFrame : Frame := ⟨encode firstUnits, by decide⟩

theorem not_failedStartsRetried : ¬FailedStartsRetried := by
  intro h
  have hretries := h mp4 [⟨firstKeyFrame, keyFrameInfo .h264, { succeeding 0 with avioOpen := false }⟩] _ rfl
  exact absurd (hretries.flags _ rfl) (by decide)

end RtcEgress.Passthrough
