import Mathlib.Data.Fintype.EquivFin
import RtcEgress.Lib.Alone
import RtcEgress.Queue.Manager

/-!
# 単独の実行のあいだの状態
-/

namespace RtcEgress.Queue

open RtcEgress.Lib

/-- 時間の経過と期限によるリースの消滅のほかは、変わらない。 -/
structure Same (w w' : World) : Prop where
  task : w'.task = w.task
  lists : w'.lists = w.lists
  taskRev : w'.taskRev = w.taskRev
  listRev : w'.listRev = w.listRev
  now : w.now ≤ w'.now

namespace Same

variable {w w₁ w₂ : World}

theorem refl (w : World) : Same w w := ⟨rfl, rfl, rfl, rfl, Nat.le_refl _⟩

theorem trans (h : Same w w₁) (h' : Same w₁ w₂) : Same w w₂ where
  task := h'.task.trans h.task
  lists := h'.lists.trans h.lists
  taskRev := h'.taskRev.trans h.taskRev
  listRev := h'.listRev.trans h.listRev
  now := Nat.le_trans h.now h'.now

theorem of_envSteps (h : EnvSteps machine w w₁) : Same w w₁ := by
  induction h with
  | refl => exact refl w
  | tail _ henv ih =>
      obtain ⟨e, he⟩ := henv
      apply ih.trans
      cases e with
      | tick d =>
          cases he
          exact ⟨rfl, rfl, rfl, rfl, Nat.le_add_right ..⟩
      | leaseExpire id =>
          simp only [Env.apply] at he
          split at he
          · split at he
            · cases he
              exact ⟨rfl, rfl, rfl, rfl, Nat.le_refl _⟩
            · cases he
          · cases he

end Same

/-- どの命令も、状態から決まらない応答を選べば実行できる。 -/
theorem exec_total (c : Cmd) (w : World) : ∃ o r w', exec o c w = some (r, w') := by
  cases c
  case generateTaskID cmd channel requestID =>
    obtain ⟨id, hid⟩ := Infinite.exists_notMem_finset w.used.toFinset
    have hid : id ∉ w.used := by simpa using hid
    exact ⟨{ text := id }, id, _, by simp [exec, Cmd.reply, hid]; rfl⟩
  all_goals exact ⟨{}, _, _, rfl⟩

/-- 始めの命令の応答と、残りの実行。 -/
theorem call_alone {α : Type} {c : Cmd} {k : c.Resp → P α} {w w' : World} {a : α}
    (h : Alone machine (.call c k) w a w') :
    ∃ o r w₁, Same w w₁ ∧ c.reply o w₁ = some r ∧ Alone machine (k r) (c.effect w₁ r) a w' := by
  obtain ⟨o, r, w₁, w₂, henv, hexec, hrest⟩ := Alone.call_inv h
  obtain ⟨r', hr, heq⟩ := Option.map_eq_some_iff.mp hexec
  obtain ⟨rfl, rfl⟩ := Prod.mk.inj heq
  exact ⟨o, r', w₁, .of_envSteps henv, hr, hrest⟩

end RtcEgress.Queue
