import Mathlib.Data.List.Perm.Basic
import Dialogue.Proofs.Endings
import Dialogue.Proofs.FreshStart

/-!
# Who is called, and when

The list of an engine holds those who have subscribed and have not been unsubscribed since, in the
order in which they came. For every event the list is taken out of the engine and put back, and
between the two everyone in it who listens to the event is called once, in that order.
-/
namespace Dialogue

/-- The number a subscription is given. -/
def Step.number? {α : Type} (x : Step α) : Option Nat :=
  match x.op with
  | .subscribe _ _ => some x.outcome.engine.issued
  | _ => none

namespace Engine

variable {α : Type}

/-- Calls a subscriber that listens to the event, after those who were called before. -/
def call (seen : Engine α) (event : Event) (calls : List (Call α)) (s : Subscriber α) :
    List (Call α) :=
  if s.channel.hears event then calls ++ [⟨s, event, seen⟩] else calls

/-- Announces one event: the list of subscribers is taken out, they are called one by one, and the
list is put back. -/
def emit (e : Engine α) (m : Moment) : Engine α × List (Call α) :=
  let taken := e.subscribers
  let emptied : Engine α := { e with playback := m.seen, subscribers := [] }
  ({ emptied with subscribers := taken }, taken.foldl (emptied.call m.event) [])

/-- Announces some events. What comes of each is the engine after it and those who were called. -/
def emissions (e : Engine α) : List Moment → List (Engine α × List (Call α))
  | [] => []
  | m :: ms => e.emit m :: (e.emit m).1.emissions ms

theorem foldl_call (seen : Engine α) (event : Event) (ss : List (Subscriber α))
    (calls : List (Call α)) : ss.foldl (seen.call event) calls =
      calls ++ (ss.filter (·.channel.hears event)).map (⟨·, event, seen⟩) := by
  induction ss generalizing calls with
  | nil => simp
  | cons s ss ih =>
    rw [List.foldl_cons, ih]
    cases hs : s.channel.hears event <;> simp [call, hs]

/-- Calling one by one comes to a delivery. -/
theorem emit_calls (e : Engine α) (m : Moment) : (e.emit m).2 = e.deliver m :=
  foldl_call _ m.event e.subscribers []

/-- An emission as it should be: the list is as before, and those of it who listen to the event have
been called in their order, with the engine as it was when the event was announced. -/
structure Emitted (e : Engine α) (m : Moment) (x : Engine α × List (Call α)) : Prop where
  kept : x.1.subscribers = e.subscribers
  called : x.2.map (·.subscriber) = e.subscribers.filter (·.channel.hears m.event)
  told : ∀ c ∈ x.2, c.event = m.event ∧ c.seen.playback = m.seen

theorem emitted_emit (e : Engine α) (m : Moment) : e.Emitted m (e.emit m) where
  kept := rfl
  called := by
    rw [emit_calls, deliver, List.map_map]
    exact List.map_id _
  told := by
    intro c hc
    rw [emit_calls] at hc
    obtain ⟨s, _, _, rfl⟩ := mem_deliver.mp hc
    exact ⟨rfl, rfl⟩

theorem Emitted.congr {e f : Engine α} (h : f.subscribers = e.subscribers) {m : Moment}
    {x : Engine α × List (Call α)} (hx : f.Emitted m x) : e.Emitted m x :=
  ⟨hx.kept.trans h, h ▸ hx.called, hx.told⟩

/-- No emission gets in the way of those after it. -/
theorem emitted_emissions (e : Engine α) (ms : List Moment) :
    List.Forall₂ e.Emitted ms (e.emissions ms) := by
  induction ms generalizing e with
  | nil => exact .nil
  | cons m ms ih =>
    have hlist : (e.emit m).1.subscribers = e.subscribers := rfl
    exact .cons (emitted_emit e m) ((ih (e.emit m).1).imp fun _ _ hx => hx.congr hlist)

theorem deliver_emit (e : Engine α) (m n : Moment) : (e.emit m).1.deliver n = e.deliver n := rfl

theorem emissions_calls (e : Engine α) (ms : List Moment) :
    (e.emissions ms).flatMap (·.2) = ms.flatMap e.deliver := by
  induction ms generalizing e with
  | nil => rfl
  | cons m ms ih =>
    have hlater : (e.emit m).1.deliver = e.deliver := funext (deliver_emit e m)
    rw [emissions, List.flatMap_cons, List.flatMap_cons, ih, emit_calls, hlater]

/-- The numbers given out in a run, in order. -/
def numbers (e : Engine α) (ops : List (Operation α)) : List Nat :=
  (e.steps ops).filterMap Step.number?

theorem numbers_cons (e : Engine α) (op : Operation α) (ops : List (Operation α)) :
    e.numbers (op :: ops) =
      (Step.number? ⟨e, op⟩).toList ++ (e.perform op).engine.numbers ops := by
  rw [numbers, steps, List.filterMap_cons]
  cases Step.number? ⟨e, op⟩ <;> rfl

/-- The numbers go up by one. -/
theorem numbers_eq_range' (e : Engine α) (ops : List (Operation α)) :
    e.numbers ops = List.range' (e.issued + 1) (e.numbers ops).length ∧
      (e.run ops).issued = e.issued + (e.numbers ops).length := by
  induction ops generalizing e with
  | nil => exact ⟨rfl, rfl⟩
  | cons op ops ih =>
    obtain ⟨hnumbers, hissued⟩ := ih (e.perform op).engine
    rw [numbers_cons, run_cons, hissued]
    cases op with
    | subscribe channel handler =>
      refine ⟨congrArg ((e.issued + 1) :: ·) hnumbers, ?_⟩
      simp only [perform, subscribe, Step.number?, Step.outcome, Option.toList_some,
        List.cons_append, List.nil_append, List.length_cons]
      omega
    | _ => exact ⟨hnumbers, rfl⟩

/-- Who is in the list after one operation. -/
theorem mem_subscribers_perform_iff {e : Engine α} {op : Operation α} {s : Subscriber α} :
    s ∈ (e.perform op).engine.subscribers ↔
      s ∈ e.subscribers ∧ op ≠ .unsubscribe s.id ∨
        ∃ channel handler, op = .subscribe channel handler ∧ s = ⟨e.issued + 1, channel, handler⟩ := by
  cases op with
  | subscribe channel handler =>
    simp [perform, subscribe]
  | unsubscribe id =>
    simp [perform, unsubscribe, @eq_comm _ id]
  | _ =>
    change s ∈ e.subscribers ↔ _
    simp

/-- Who is in the list after a run: those who were in it or have subscribed, and have not been
unsubscribed since. -/
theorem mem_subscribers_run_iff {e : Engine α} {ops : List (Operation α)} {s : Subscriber α} :
    s ∈ (e.run ops).subscribers ↔
      (s ∈ e.subscribers ∧ ∀ op ∈ ops, op ≠ .unsubscribe s.id) ∨
        ∃ before channel handler after, ops = before ++ .subscribe channel handler :: after ∧
          s = ⟨(e.run before).issued + 1, channel, handler⟩ ∧
          ∀ op ∈ after, op ≠ .unsubscribe s.id := by
  induction ops generalizing e with
  | nil => simp
  | cons op ops ih =>
    rw [run_cons, ih, mem_subscribers_perform_iff]
    constructor
    · rintro (⟨⟨hs, hop⟩ | ⟨channel, handler, rfl, rfl⟩, hops⟩ | h)
      · exact .inl ⟨hs, List.forall_mem_cons.mpr ⟨hop, hops⟩⟩
      · exact .inr ⟨[], channel, handler, ops, rfl, rfl, hops⟩
      · obtain ⟨before, channel, handler, after, rfl, rfl, hafter⟩ := h
        exact .inr ⟨op :: before, channel, handler, after, rfl, rfl, hafter⟩
    · rintro (⟨hs, hops⟩ | ⟨before, channel, handler, after, hsplit, rfl, hafter⟩)
      · obtain ⟨hop, hops⟩ := List.forall_mem_cons.mp hops
        exact .inl ⟨.inl ⟨hs, hop⟩, hops⟩
      · cases before with
        | nil =>
          obtain ⟨rfl, rfl⟩ := List.cons.inj hsplit
          exact .inl ⟨.inr ⟨channel, handler, rfl, rfl⟩, hafter⟩
        | cons o before =>
          obtain ⟨rfl, rfl⟩ := List.cons.inj hsplit
          exact .inr ⟨before, channel, handler, after, rfl, rfl, hafter⟩

theorem subscribed_iff {e : Engine α} {n : Nat} :
    e.subscribed n ↔ ∃ s ∈ e.subscribers, s.id = n := by
  simp [subscribed]

/-- A subscriber is taken off the list and leaves no other trace. -/
theorem unsubscribe_of_split {e : Engine α} (h : e.Numbered) {s : Subscriber α}
    {xs ys : List (Subscriber α)} (hs : e.subscribers = xs ++ s :: ys) :
    (e.unsubscribe s.id).subscribers = xs ++ ys := by
  have hp := h.increasing
  rw [hs] at hp
  obtain ⟨-, hys, hxs⟩ := List.pairwise_append.mp hp
  have hbefore : xs.filter (·.id ≠ s.id) = xs := by
    refine List.filter_eq_self.mpr fun x hx => ?_
    have hlt := hxs x hx s List.mem_cons_self
    simp only [decide_eq_true_eq]
    omega
  have hafter : ys.filter (·.id ≠ s.id) = ys := by
    refine List.filter_eq_self.mpr fun y hy => ?_
    have hlt := (List.pairwise_cons.mp hys).1 y hy
    simp only [decide_eq_true_eq]
    omega
  simp only [unsubscribe, hs, List.filter_append, hbefore]
  rw [List.filter_cons_of_neg (by simp), hafter]

/-- The list gets shorter if and only if there is somebody to take off. -/
theorem length_unsubscribe_ne_iff {e : Engine α} {n : Nat} :
    (e.unsubscribe n).subscribers.length ≠ e.subscribers.length ↔ e.subscribed n := by
  rw [subscribed_iff, unsubscribe, Ne, List.length_filter_eq_length_iff]
  simp

/-- Who is called in a run. -/
def calls (e : Engine α) (ops : List (Operation α)) : List (Call α) :=
  (e.steps ops).flatMap (·.outcome.calls)

/-- What is announced in a run. -/
def announced (e : Engine α) (ops : List (Operation α)) : List Moment :=
  (e.steps ops).flatMap fun x => (x.before.playback.turn x.op).moments

theorem calls_cons (e : Engine α) (op : Operation α) (ops : List (Operation α)) :
    e.calls (op :: ops) =
      (e.playback.turn op).moments.flatMap e.deliver ++ (e.perform op).engine.calls ops := by
  rw [calls, steps, List.flatMap_cons, Step.outcome, perform_calls]
  rfl

theorem announced_cons (e : Engine α) (op : Operation α) (ops : List (Operation α)) :
    e.announced (op :: ops) =
      (e.playback.turn op).moments ++ (e.perform op).engine.announced ops := by
  rw [announced, steps, List.flatMap_cons]
  rfl

/-- A subscriber hears of a run what he listens to, in order, as long as he is not unsubscribed. -/
theorem heardBy_calls {e : Engine α} (h : e.Numbered) {s : Subscriber α} (hs : s ∈ e.subscribers)
    {ops : List (Operation α)} (stays : ∀ op ∈ ops, op ≠ .unsubscribe s.id) :
    heardBy s.id (e.calls ops) = (e.announced ops).filter (s.channel.hears ·.event) := by
  induction ops generalizing e with
  | nil => rfl
  | cons op ops ih =>
    obtain ⟨hop, hops⟩ := List.forall_mem_cons.mp stays
    have hlater := ih (numbered_perform h op) (mem_subscribers_perform hs hop) hops
    rw [calls_cons, heardBy_append, heardBy_moments h hs, hlater, announced_cons,
      List.filter_append]

/-- A number that was given out and whose subscriber is gone never comes back. -/
theorem not_subscribed_perform {e : Engine α} {n : Nat} (given : n ≤ e.issued)
    (gone : e.subscribed n = false) (op : Operation α) :
    n ≤ (e.perform op).engine.issued ∧ (e.perform op).engine.subscribed n = false := by
  have hissued := (numbers_eq_range' e [op]).2
  refine ⟨by rw [run_cons, run_nil] at hissued; omega, ?_⟩
  rw [← Bool.not_eq_true, subscribed_iff] at gone ⊢
  rintro ⟨s, hs, rfl⟩
  rcases mem_subscribers_perform_iff.mp hs with ⟨hs, -⟩ | ⟨channel, handler, -, rfl⟩
  · exact gone ⟨s, hs, rfl⟩
  · simp only at given
    omega

theorem not_called_of_gone {e : Engine α} {n : Nat} (given : n ≤ e.issued)
    (gone : e.subscribed n = false) (ops : List (Operation α)) :
    ∀ c ∈ e.calls ops, c.subscriber.id ≠ n := by
  induction ops generalizing e with
  | nil => exact fun c hc => nomatch hc
  | cons op ops ih =>
    obtain ⟨given', gone'⟩ := not_subscribed_perform given gone op
    rw [calls_cons]
    refine List.forall_mem_append.mpr ⟨?_, ih given' gone'⟩
    intro c hc hn
    obtain ⟨m, -, hc⟩ := List.mem_flatMap.mp hc
    obtain ⟨s, hs, -, rfl⟩ := mem_deliver.mp hc
    have hthere : e.subscribed n := subscribed_iff.mpr ⟨s, hs, hn⟩
    rw [gone] at hthere
    cases hthere

/-- Every event is of one of three kinds. -/
theorem perm_kinds (ms : List Moment) :
    (ms.filter (Channel.lineUpdate.hears ·.event) ++ ms.filter (Channel.finished.hears ·.event) ++
      ms.filter (Channel.message.hears ·.event)).Perm ms := by
  induction ms with
  | nil => exact .nil
  | cons m ms ih =>
    rw [List.append_assoc] at ih
    cases hm : m.event with
    | lineUpdate => simpa [Channel.hears, hm] using ih
    | finished => simpa [Channel.hears, hm] using List.perm_middle.trans (ih.cons m)
    | message text =>
      rw [← List.append_assoc] at ih
      simpa [Channel.hears, hm] using List.perm_middle.trans (ih.cons m)

theorem subscribers_perform {op : Operation α} (h : op.subscribes = false) (e : Engine α) :
    (e.perform op).engine.subscribers = e.subscribers := by
  cases op with
  | subscribe | unsubscribe => cases h
  | _ => rfl

/-- Everyone on the list hears what he listens to, in the order of the numbers and event by event,
from his subscription on until he is unsubscribed. -/
theorem subscribers_served_in_order (id : Nat) (ops : List (Operation α)) :
    let e := (new id).run ops
    (new id).numbers ops = List.range' 1 e.issued ∧
      e.subscribers.Pairwise (·.id < ·.id) ∧
      (∀ s, s ∈ e.subscribers ↔ ∃ before channel handler after,
        ops = before ++ .subscribe channel handler :: after ∧
          s = ⟨((new id).run before).issued + 1, channel, handler⟩ ∧
          ∀ op ∈ after, op ≠ .unsubscribe s.id) ∧
      (∀ op, (op.subscribes = false → (e.perform op).engine.subscribers = e.subscribers) ∧
        (e.perform op).calls = (e.emissions (e.playback.turn op).moments).flatMap (·.2) ∧
        List.Forall₂ e.Emitted (e.playback.turn op).moments
          (e.emissions (e.playback.turn op).moments)) ∧
      (∀ s ∈ e.subscribers, ∀ later, (∀ op ∈ later, op ≠ .unsubscribe s.id) →
        heardBy s.id (e.calls later) = (e.announced later).filter (s.channel.hears ·.event)) ∧
      (∀ s : Channel → Subscriber α, (∀ k, s k ∈ e.subscribers ∧ (s k).channel = k) →
        ∀ later, (∀ k, ∀ op ∈ later, op ≠ .unsubscribe (s k).id) →
          (heardBy (s .lineUpdate).id (e.calls later) ++ heardBy (s .finished).id (e.calls later) ++
            heardBy (s .message).id (e.calls later)).Perm (heardBy (s .all).id (e.calls later))) ∧
      ∀ n, (e.subscribed n ↔ ∃ s ∈ e.subscribers, s.id = n) ∧
        (e.subscribed n ↔ (e.unsubscribe n).subscribers.length ≠ e.subscribers.length) ∧
        (∀ xs s ys, e.subscribers = xs ++ s :: ys → s.id = n →
          (e.unsubscribe n).subscribers = xs ++ ys) ∧
        (n ∈ (new id).numbers ops → ∀ later, ∀ c ∈ (e.unsubscribe n).calls later,
          c.subscriber.id ≠ n) := by
  intro e
  have he : e.Numbered := numbered_run (numbered_new id) ops
  obtain ⟨hnumbers, hissued⟩ := numbers_eq_range' (new id : Engine α) ops
  have hfresh : (new id : Engine α).issued = 0 := rfl
  rw [hfresh, Nat.zero_add] at hissued
  have hrange : (new id).numbers ops = List.range' 1 e.issued := by
    rw [hnumbers, hfresh, ← hissued]
  have hheard : ∀ s ∈ e.subscribers, ∀ later, (∀ op ∈ later, op ≠ .unsubscribe s.id) →
      heardBy s.id (e.calls later) = (e.announced later).filter (s.channel.hears ·.event) :=
    fun s hs later stays => heardBy_calls he hs stays
  refine ⟨hrange, he.increasing, ?_, ?_, hheard, ?_, ?_⟩
  · intro s
    have hnobody : s ∉ (new id).subscribers := List.not_mem_nil
    rw [mem_subscribers_run_iff]
    simp only [hnobody, false_and, false_or]
  · intro op
    refine ⟨fun h => subscribers_perform h e, ?_, emitted_emissions e _⟩
    rw [perform_calls, emissions_calls]
  · intro s hs later stays
    have hkind : ∀ k, heardBy (s k).id (e.calls later) =
        (e.announced later).filter (k.hears ·.event) := by
      intro k
      rw [hheard (s k) (hs k).1 later (stays k), (hs k).2]
    have hall : (e.announced later).filter (Channel.all.hears ·.event) = e.announced later :=
      List.filter_eq_self.mpr fun _ _ => rfl
    rw [hkind .all, hall, hkind .lineUpdate, hkind .finished, hkind .message]
    exact perm_kinds (e.announced later)
  · intro n
    refine ⟨subscribed_iff, length_unsubscribe_ne_iff.symm, ?_, ?_⟩
    · rintro xs s ys hs rfl
      exact unsubscribe_of_split he hs
    · intro hn later
      rw [hrange, List.mem_range'_1] at hn
      have given : n ≤ (e.unsubscribe n).issued := by
        change n ≤ e.issued
        omega
      exact not_called_of_gone given (subscribed_unsubscribe e n) later

/-- Four subscribers side by side, one for everything and one for each kind of events; then the
second one is taken off. -/
theorem four_subscribers_served :
    let script : Script :=
      { lines := [{ text := "Hello.", message := some "met" }], ending := ⟨some "left"⟩ }
    let s : Channel → Subscriber String
      | .all => ⟨1, .all, "log"⟩
      | .lineUpdate => ⟨2, .lineUpdate, "lines"⟩
      | .finished => ⟨3, .finished, "ends"⟩
      | .message => ⟨4, .message, "notes"⟩
    let ops := [.subscribe .all "log", .subscribe .lineUpdate "lines", .subscribe .finished "ends",
      .subscribe .message "notes"]
    let later := [.load script, .advanceMain]
    let e := (new 0).run ops
    (new 0).numbers ops = [1, 2, 3, 4] ∧ (∀ k, s k ∈ e.subscribers ∧ (s k).channel = k) ∧
      (∀ k, ∀ op ∈ later, op ≠ .unsubscribe (s k).id) ∧
      (heardBy 1 (e.calls later)).map (·.event) =
        [.lineUpdate, .message "met", .lineUpdate, .finished, .message "left"] ∧
      (heardBy 2 (e.calls later) ++ heardBy 3 (e.calls later) ++ heardBy 4 (e.calls later)).Perm
        (heardBy 1 (e.calls later)) ∧
      e.subscribed 2 ∧ (e.unsubscribe 2).subscribers = [s .all, s .finished, s .message] ∧
      ∀ c ∈ (e.unsubscribe 2).calls later, c.subscriber.id ≠ 2 := by
  intro script s ops later e
  obtain ⟨hnumbers, -, -, -, -, hshared, hremoved⟩ := subscribers_served_in_order 0 ops
  have hs : ∀ k, s k ∈ e.subscribers ∧ (s k).channel = k := by
    intro k
    cases k <;> exact ⟨by simp [e, ops, s, new, perform, subscribe], rfl⟩
  have hlater : ∀ k, ∀ op ∈ later, op ≠ .unsubscribe (s k).id := by simp [later]
  obtain ⟨-, -, honly, hnever⟩ := hremoved 2
  exact ⟨hnumbers, hs, hlater, rfl, hshared s hs later hlater, rfl,
    honly [s .all] (s .lineUpdate) [s .finished, s .message] rfl rfl,
    hnever (by rw [hnumbers]; decide) later⟩

end Engine

end Dialogue
