import Dialogue.Proofs.Consistency

/-!
# A cursor is good for one move

The epoch grows whenever a line is left and at no other time, and the cursors of a line carry the
epoch in which it came on show. So they are accepted until the line is left and never again, also
when the same line comes on show once more.
-/
namespace Dialogue

namespace Playback

variable {α : Type}

theorem turn_of_stays {p : Playback} {op : Operation α} (h : p.leaves op = false) :
    (p.turn op).playback = p := by
  have he := effect_turn p op
  generalize p.turn op = t at he ⊢
  cases he with
  | kept => rfl
  | emptied leaves | started leaves | moved leaves =>
    rw [h] at leaves
    cases leaves

theorem epoch_lt_turn {p : Playback} {op : Operation α} (h : p.leaves op) :
    p.epoch < (p.turn op).playback.epoch := by
  have he := effect_turn p op
  generalize p.turn op = t at he ⊢
  cases he with
  | kept stays =>
    rw [stays] at h
    cases h
  | emptied _ start =>
    rcases start with rfl | rfl <;> simp only [reset_epoch] <;> omega
  | started _ start =>
    rcases start with rfl | rfl <;> simp only [place_epoch, cue, reset_epoch] <;> omega
  | moved =>
    rw [place_epoch]
    omega

theorem epoch_le_turn (p : Playback) (op : Operation α) :
    p.epoch ≤ (p.turn op).playback.epoch := by
  cases h : p.leaves op with
  | false => exact Nat.le_of_eq (congrArg epoch (turn_of_stays h)).symm
  | true => exact Nat.le_of_lt (epoch_lt_turn h)

theorem not_accepts_of_epoch_lt {p : Playback} {c : Cursor} (h : c.stamp.epoch < p.epoch) :
    p.accepts c = false := by
  cases ha : p.accepts c with
  | false => rfl
  | true =>
    have hs : c.stamp.epoch = p.epoch := congrArg Stamp.epoch (accepts_iff.mp ha).2
    omega

/-- A move that goes through is by a cursor of the present epoch, and leaves the line. -/
theorem leaves_of_cursor? {p : Playback} {op : Operation α} {c : Cursor}
    (hc : p.cursor? op = some c) (hr : (p.turn op).result = .ok ()) :
    p.leaves op ∧ c.stamp = p.stamp := by
  have ha : p.accepts c := by
    cases h : p.accepts c with
    | true => rfl
    | false =>
      rw [turn_eq_advance hc, advance_of_not_accepts h] at hr
      cases hr
  refine ⟨?_, (accepts_iff.mp ha).2⟩
  rw [leaves_eq_isOk hc, ← turn_eq_advance hc, hr]
  rfl

end Playback

namespace Engine

variable {α : Type}

/-- Whether one of the operations leaves the line on show. -/
def departs (e : Engine α) : List (Operation α) → Bool
  | [] => false
  | op :: ops => e.playback.leaves op || (e.perform op).engine.departs ops

/-- The cursors by which a run moves on, in order. -/
def spent (e : Engine α) : List (Operation α) → List Cursor
  | [] => []
  | op :: ops =>
    match (e.perform op).result, e.playback.cursor? op with
    | .ok (), some c => c :: (e.perform op).engine.spent ops
    | _, _ => (e.perform op).engine.spent ops

theorem epoch_le_run (e : Engine α) (ops : List (Operation α)) :
    e.playback.epoch ≤ (e.run ops).playback.epoch := by
  refine run_preserves (P := fun f => e.playback.epoch ≤ f.playback.epoch) ?_ (Nat.le_refl _) ops
  intro f op hf
  have h := Playback.epoch_le_turn f.playback op
  rw [← perform_playback] at h
  exact Nat.le_trans hf h

theorem epoch_lt_run {e : Engine α} {ops : List (Operation α)} (h : e.departs ops) :
    e.playback.epoch < (e.run ops).playback.epoch := by
  induction ops generalizing e with
  | nil => cases h
  | cons op ops ih =>
    rcases Bool.or_eq_true_iff.mp h with hl | hd
    · have h := Playback.epoch_lt_turn hl
      rw [← perform_playback] at h
      exact Nat.lt_of_lt_of_le h (epoch_le_run _ ops)
    · have h := Playback.epoch_le_turn e.playback op
      rw [← perform_playback] at h
      exact Nat.lt_of_le_of_lt h (ih hd)

theorem run_of_not_departs {e : Engine α} {ops : List (Operation α)} (h : e.departs ops = false) :
    (e.run ops).playback = e.playback := by
  induction ops generalizing e with
  | nil => rfl
  | cons op ops ih =>
    obtain ⟨hl, hd⟩ := Bool.or_eq_false_iff.mp h
    rw [run_cons, ih hd, perform_playback, Playback.turn_of_stays hl]

theorem spent_cons (e : Engine α) (op : Operation α) (ops : List (Operation α)) :
    e.spent (op :: ops) = (e.perform op).engine.spent ops ∨
      ∃ c, e.spent (op :: ops) = c :: (e.perform op).engine.spent ops ∧
        c.stamp = e.playback.stamp ∧ e.playback.epoch < (e.perform op).engine.playback.epoch := by
  rw [spent]
  split
  · next c hr hc =>
    rw [perform_result] at hr
    obtain ⟨hl, hs⟩ := Playback.leaves_of_cursor? hc hr
    refine .inr ⟨c, rfl, hs, ?_⟩
    rw [perform_playback]
    exact Playback.epoch_lt_turn hl
  · exact .inl rfl

theorem epoch_le_of_mem_spent {e : Engine α} {ops : List (Operation α)} {c : Cursor}
    (h : c ∈ e.spent ops) : e.playback.epoch ≤ c.stamp.epoch := by
  induction ops generalizing e with
  | nil => cases h
  | cons op ops ih =>
    have hle := epoch_le_run e [op]
    rcases spent_cons e op ops with hs | ⟨d, hs, hd, _⟩
    · rw [hs] at h
      exact Nat.le_trans hle (ih h)
    · rw [hs] at h
      rcases List.mem_cons.mp h with rfl | h
      · exact Nat.le_of_eq (congrArg Stamp.epoch hd).symm
      · exact Nat.le_trans hle (ih h)

/-- No two moves of a run are by cursors of one epoch. -/
theorem spent_pairwise (e : Engine α) (ops : List (Operation α)) :
    (e.spent ops).Pairwise fun c d => c.stamp.epoch < d.stamp.epoch := by
  induction ops generalizing e with
  | nil => exact List.Pairwise.nil
  | cons op ops ih =>
    rcases spent_cons e op ops with hs | ⟨c, hs, hc, hlt⟩
    · rw [hs]
      exact ih _
    · rw [hs]
      refine List.pairwise_cons.mpr ⟨fun d hd => ?_, ih _⟩
      have hle := epoch_le_of_mem_spent hd
      rw [hc]
      exact Nat.lt_of_lt_of_le hlt hle

/-- Of the cursors of one epoch, a run moves on by at most one. -/
theorem countP_spent_le_one (e : Engine α) (ops : List (Operation α)) {cs : List Cursor} {n : Nat}
    (h : ∀ c ∈ cs, c.stamp.epoch = n) : (e.spent ops).countP (· ∈ cs) ≤ 1 := by
  have hp := (spent_pairwise e ops).filter (· ∈ cs)
  have hmem : ∀ c ∈ (e.spent ops).filter (· ∈ cs), c.stamp.epoch = n := by
    intro c hc
    exact h c (by simpa using (List.mem_filter.mp hc).2)
  rw [List.countP_eq_length_filter]
  match hf : (e.spent ops).filter (· ∈ cs) with
  | [] => exact Nat.zero_le _
  | [_] => exact Nat.le_refl _
  | c :: d :: ds =>
    rw [hf] at hp hmem
    have hlt := (List.pairwise_cons.mp hp).1 d (by simp)
    have hc := hmem c (by simp)
    have hd := hmem d (by simp)
    omega

/-- The cursors of a line on show are accepted until the line is left, serve for one move at most,
and are refused for good afterwards. -/
theorem cursors_used_once (id : Nat) (before after : List (Operation α)) {p : Playback}
    {l : CurrentLine} (seen : (Engine.new id).Glimpse before p) (shown : p.current = some l) :
    let e := (Engine.new id).run before
    ((Engine.new id).spent (before ++ after)).countP (· ∈ l.cursors) ≤ 1 ∧
      (e.departs after → ∀ c ∈ l.cursors,
        ((e.run after).advance c).result = .error (.staleCursor c.origin)) ∧
      (e.departs after = false → ∀ q, e.Glimpse after q →
        q.current = some l ∧ ∀ c ∈ l.cursors, q.accepts c) := by
  intro e
  have hp : e.playback.Consistent := Playback.consistent_run (Playback.consistent_new id) before
  rw [eq_of_glimpse seen] at shown
  have haccepts := fun c hc => Playback.accepts_of_mem_current hp shown (c := c) hc
  have hepoch : ∀ c ∈ l.cursors, c.stamp.epoch = e.playback.epoch := by
    intro c hc
    exact congrArg Stamp.epoch (Playback.accepts_iff.mp (haccepts c hc)).2
  refine ⟨countP_spent_le_one _ _ hepoch, ?_, ?_⟩
  · intro hd c hc
    have hlt : c.stamp.epoch < (e.run after).playback.epoch := by
      rw [hepoch c hc]
      exact epoch_lt_run hd
    have hn := Playback.not_accepts_of_epoch_lt hlt
    simp [advance, Playback.advance_of_not_accepts hn, Playback.refuse]
  · intro hd q hq
    rw [eq_of_glimpse hq, run_of_not_departs hd]
    exact ⟨shown, haccepts⟩

/-- A line that jumps to itself: the same line comes on show again, but its cursor is used up. -/
theorem loop_cursor_used_once :
    let s : Script := { lines := [{ text := "Again?", label := some "top", jump := some "top" }] }
    let before : List (Operation Unit) := [.subscribe .all (), .load s]
    let c : Cursor := ⟨⟨0, 2⟩, .main, 0, "Again?", some "top", none⟩
    let e := (Engine.new 0).run before
    (Engine.new 0).Glimpse before e.playback ∧ e.playback.current = some ⟨c, []⟩ ∧
      e.departs [.advanceMain] ∧ (e.run [.advanceMain]).playback.index? = some 0 ∧
      ((e.run [.advanceMain]).advance c).result = .error (.staleCursor 0) := by
  intro s before c e
  have shown : e.playback.current = some ⟨c, []⟩ := rfl
  have left : e.departs [.advanceMain] := rfl
  have used := cursors_used_once 0 before [.advanceMain] (.after before) shown
  exact ⟨.after before, shown, left, rfl, used.2.1 left c List.mem_cons_self⟩

end Engine

end Dialogue
