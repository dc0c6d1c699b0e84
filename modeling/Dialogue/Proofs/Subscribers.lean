import Mathlib.Data.List.Basic
import Dialogue.Proofs.Run
import Dialogue.Transcript

/-!
# Subscribers of an engine

Subscribers are numbered in the order in which they came, so a number stands for one of them. A
recorder is a subscriber that listens to everything and writes an entry for each event.
-/
namespace Dialogue.Engine

variable {α : Type}

/-- The subscribers stand in the order of their numbers, of which none is yet to be given out. -/
structure Numbered (e : Engine α) : Prop where
  increasing : e.subscribers.Pairwise (·.id < ·.id)
  issued : ∀ s ∈ e.subscribers, s.id ≤ e.issued

theorem numbered_new (id : Nat) : (new id : Engine α).Numbered :=
  ⟨List.Pairwise.nil, by simp [new]⟩

theorem numbered_subscribe {e : Engine α} (h : e.Numbered) (channel : Channel) (handler : α) :
    (e.subscribe channel handler).Numbered := by
  constructor
  · refine List.pairwise_append.mpr ⟨h.increasing, List.pairwise_singleton _ _, ?_⟩
    intro s hs t ht
    rw [List.mem_singleton.mp ht]
    exact Nat.lt_succ_of_le (h.issued s hs)
  · intro s hs
    rcases List.mem_append.mp hs with hs | hs
    · exact Nat.le_succ_of_le (h.issued s hs)
    · rw [List.mem_singleton.mp hs]
      exact Nat.le_refl _

theorem numbered_unsubscribe {e : Engine α} (h : e.Numbered) (id : Nat) :
    (e.unsubscribe id).Numbered := by
  constructor
  · exact h.increasing.filter _
  · intro s hs
    exact h.issued s (List.mem_filter.mp hs).1

theorem numbered_perform {e : Engine α} (h : e.Numbered) (op : Operation α) :
    (e.perform op).engine.Numbered := by
  cases op with
  | subscribe channel handler => exact numbered_subscribe h channel handler
  | unsubscribe id => exact numbered_unsubscribe h id
  | _ => exact ⟨h.increasing, h.issued⟩

theorem numbered_run {e : Engine α} (h : e.Numbered) (ops : List (Operation α)) :
    (e.run ops).Numbered := by
  refine run_preserves (P := Numbered) ?_ h ops
  intro f op hf
  exact numbered_perform hf op

/-- A subscriber stays until it is unsubscribed. -/
theorem mem_subscribers_perform {e : Engine α} {s : Subscriber α} (hs : s ∈ e.subscribers)
    {op : Operation α} (stays : op ≠ .unsubscribe s.id) : s ∈ (e.perform op).engine.subscribers := by
  cases op with
  | subscribe channel handler => exact List.mem_append_left _ hs
  | unsubscribe id =>
    have hne : s.id ≠ id := by
      rintro rfl
      exact stays rfl
    exact List.mem_filter.mpr ⟨hs, by simpa using hne⟩
  | _ => exact hs

/-- A number stands for one subscriber only. -/
theorem filter_id_eq {e : Engine α} (h : e.Numbered) {s : Subscriber α} (hs : s ∈ e.subscribers) :
    e.subscribers.filter (·.id = s.id) = [s] := by
  have hp := h.increasing
  generalize e.subscribers = xs at hs hp
  induction xs with
  | nil => cases hs
  | cons x xs ih =>
    obtain ⟨hx, hp⟩ := List.pairwise_cons.mp hp
    rcases List.mem_cons.mp hs with rfl | hs
    · have hnone : xs.filter (·.id = s.id) = [] := by
        refine List.filter_eq_nil_iff.mpr fun y hy => ?_
        have hlt := hx y hy
        simp only [decide_eq_true_eq]
        omega
      simp [hnone]
    · have hlt := hx s hs
      rw [List.filter_cons_of_neg (by simp only [decide_eq_true_eq]; omega), ih hs hp]

/-- What subscriber `n` hears, and in which states. -/
def heardBy (n : Nat) (calls : List (Call α)) : List Moment :=
  (calls.filter (·.subscriber.id = n)).map fun c => ⟨c.event, c.seen.playback⟩

/-- What subscriber `n` writes down if it is a recorder. -/
def recordedBy (n : Nat) (calls : List (Call α)) : List Entry :=
  (calls.filter (·.subscriber.id = n)).map fun c => c.seen.playback.entry c.event

theorem recordedBy_eq_map_heardBy (n : Nat) (calls : List (Call α)) :
    recordedBy n calls = (heardBy n calls).map Moment.entry := by
  simp only [recordedBy, heardBy, List.map_map]
  rfl

theorem heardBy_append (n : Nat) (xs ys : List (Call α)) :
    heardBy n (xs ++ ys) = heardBy n xs ++ heardBy n ys := by
  simp [heardBy]

theorem heardBy_deliver {e : Engine α} (h : e.Numbered) {s : Subscriber α}
    (hs : s ∈ e.subscribers) (m : Moment) :
    heardBy s.id (e.deliver m) = [m].filter (s.channel.hears ·.event) := by
  have hf : (e.subscribers.filter (·.channel.hears m.event)).filter (·.id = s.id) =
      [s].filter (·.channel.hears m.event) := by
    rw [List.filter_comm, filter_id_eq h hs]
  simp only [heardBy, deliver, List.filter_map, Function.comp_def, hf]
  cases hm : s.channel.hears m.event <;> simp [hm]

/-- A subscriber hears of a turn what he listens to, in order. -/
theorem heardBy_moments {e : Engine α} (h : e.Numbered) {s : Subscriber α}
    (hs : s ∈ e.subscribers) (ms : List Moment) :
    heardBy s.id (ms.flatMap e.deliver) = ms.filter (s.channel.hears ·.event) := by
  induction ms with
  | nil => rfl
  | cons m ms ih =>
    rw [List.flatMap_cons, heardBy_append, heardBy_deliver h hs, ih, ← List.filter_append]
    rfl

/-- Who listens to everything hears a turn as it is. -/
theorem heardBy_moments_of_all {e : Engine α} (h : e.Numbered) {s : Subscriber α}
    (hs : s ∈ e.subscribers) (hall : s.channel = .all) (ms : List Moment) :
    heardBy s.id (ms.flatMap e.deliver) = ms := by
  rw [heardBy_moments h hs, hall]
  exact List.filter_eq_self.mpr fun _ _ => rfl

/-- A recorder writes down a turn as it is. -/
theorem recordedBy_broadcast {e : Engine α} (h : e.Numbered) {s : Subscriber α}
    (hs : s ∈ e.subscribers) (hall : s.channel = .all) (t : Turn) :
    recordedBy s.id (e.broadcast t).calls = t.entries := by
  rw [recordedBy_eq_map_heardBy]
  exact congrArg (List.map Moment.entry) (heardBy_moments_of_all h hs hall t.moments)

end Dialogue.Engine
