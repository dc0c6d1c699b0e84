import Dialogue.Proofs.Delivery

/-!
# Subscribers keep to themselves

All that a subscriber can do is listen. Runs that ask the same of the engine come to the same,
whoever subscribes and is unsubscribed on the way, and who is there while the same is asked gets to
know the same, whoever else is there.
-/
namespace Dialogue

/-- What a handler can get to know in a call: the event, the playback, of which all queries are
functions but two, how many subscribers there are, and the account of the engine. -/
structure Impression where
  event : Event
  playback : Playback
  subscribers : Nat
  summary : String

def Call.impression {α : Type} (c : Call α) : Impression :=
  ⟨c.event, c.seen.playback, c.seen.subscribers.length, c.seen.summary⟩

/-- The impression on a handler that sees no subscribers. -/
def Moment.impression (m : Moment) : Impression :=
  ⟨m.event, m.seen, 0, ({ playback := m.seen } : Engine Unit).summary⟩

theorem Engine.summary_congr {α β : Type} {e : Engine α} {f : Engine β}
    (hplayback : e.playback = f.playback)
    (hlength : e.subscribers.length = f.subscribers.length) : e.summary = f.summary := by
  unfold summary
  rw [hplayback, hlength]

theorem Call.impression_of_unseen {α : Type} {c : Call α} (h : c.seen.subscribers = []) :
    c.impression = Moment.impression ⟨c.event, c.seen.playback⟩ := by
  have hlength : c.seen.subscribers.length = 0 := List.length_eq_zero_iff.mpr h
  have hsummary : c.seen.summary = ({ playback := c.seen.playback } : Engine Unit).summary :=
    Engine.summary_congr rfl hlength
  rw [impression, hlength, hsummary]
  rfl

/-- Whether an operation takes subscriber `n` off the list. -/
def Operation.removes {α : Type} (n : Nat) : Operation α → Bool
  | .unsubscribe id => id = n
  | _ => false

theorem Operation.removes_iff {α : Type} {n : Nat} {op : Operation α} :
    op.removes n ↔ op = .unsubscribe n := by
  cases op <;> simp [removes]

/-- What is asked of the engine itself and not about subscribers. -/
def plays {α : Type} (ops : List (Operation α)) : List (Operation α) :=
  ops.filter (!·.subscribes)

/-- The operations before the first one that takes subscriber `n` off the list. -/
def stretch {α : Type} (n : Nat) : List (Operation α) → List (Operation α)
  | [] => []
  | op :: ops => if op.removes n then [] else op :: stretch n ops

theorem not_removes_of_mem_stretch {α : Type} {n : Nat} {ops : List (Operation α)} :
    ∀ op ∈ stretch n ops, op ≠ .unsubscribe n := by
  induction ops with
  | nil => exact fun op hop => nomatch hop
  | cons op ops ih =>
    unfold stretch
    split
    · exact fun op hop => nomatch hop
    · next hop => exact List.forall_mem_cons.mpr ⟨mt Operation.removes_iff.mpr hop, ih⟩

namespace Engine

variable {α : Type}

/-- What each operation on the engine itself results in, and the playback it leaves. -/
def reports (e : Engine α) (ops : List (Operation α)) : List (Except EngineError Unit × Playback) :=
  ((e.steps ops).filter (!·.op.subscribes)).map fun x =>
    (x.outcome.result, x.outcome.engine.playback)

theorem reports_cons (e : Engine α) (op : Operation α) (ops : List (Operation α)) :
    e.reports (op :: ops) =
      (if op.subscribes then [] else [((e.perform op).result, (e.perform op).engine.playback)]) ++
        (e.perform op).engine.reports ops := by
  cases hop : op.subscribes <;> simp [reports, steps, Step.outcome, hop]

/-- Subscribers come and go without a word. -/
theorem turn_of_subscribes {op : Operation α} (h : op.subscribes) (p : Playback) :
    p.turn op = ⟨p, [], .ok ()⟩ := by
  cases op with
  | subscribe | unsubscribe => rfl
  | _ => cases h

/-- An engine plays on as one from which all talk of subscribers is kept away. -/
theorem run_plays {e f : Engine α} (h : f.playback = e.playback) (ops : List (Operation α)) :
    (f.run (plays ops)).playback = (e.run ops).playback ∧
      f.reports (plays ops) = e.reports ops ∧ f.announced (plays ops) = e.announced ops := by
  induction ops generalizing e f with
  | nil => exact ⟨h, rfl, rfl⟩
  | cons op ops ih =>
    cases hop : op.subscribes with
    | true =>
      have hturn := turn_of_subscribes hop e.playback
      have hkept : f.playback = (e.perform op).engine.playback := by
        rw [perform_playback, hturn, h]
      have hplays : plays (op :: ops) = plays ops := by simp [plays, hop]
      obtain ⟨hrun, hreports, hannounced⟩ := ih hkept
      rw [hplays, run_cons, reports_cons, announced_cons, hop, hturn]
      exact ⟨hrun, hreports, hannounced⟩
    | false =>
      have hkept : (f.perform op).engine.playback = (e.perform op).engine.playback := by
        rw [perform_playback, perform_playback, h]
      have hplays : plays (op :: ops) = op :: plays ops := by simp [plays, hop]
      obtain ⟨hrun, hreports, hannounced⟩ := ih hkept
      rw [hplays, run_cons, run_cons, reports_cons, reports_cons, announced_cons, announced_cons,
        hreports, hannounced, hkept, perform_result, perform_result, h]
      exact ⟨hrun, rfl, rfl⟩

/-- Engines of which the same is asked go on alike if they play alike, whatever subscribers they
have. -/
theorem run_congr_plays {e f : Engine α} (h : e.playback = f.playback)
    {xs ys : List (Operation α)} (same : plays xs = plays ys) :
    (e.run xs).playback = (f.run ys).playback ∧ e.reports xs = f.reports ys ∧
      e.announced xs = f.announced ys := by
  obtain ⟨hrun, hreports, hannounced⟩ := run_plays (f := f) h.symm xs
  obtain ⟨hrun', hreports', hannounced'⟩ := run_plays (f := f) rfl ys
  rw [same] at hrun hreports hannounced
  exact ⟨hrun.symm.trans hrun', hreports.symm.trans hreports', hannounced.symm.trans hannounced'⟩

/-- What subscriber `n` gets to know, call by call. -/
def impressions (n : Nat) (calls : List (Call α)) : List Impression :=
  (calls.filter (·.subscriber.id = n)).map Call.impression

theorem calls_append (e : Engine α) (xs ys : List (Operation α)) :
    e.calls (xs ++ ys) = e.calls xs ++ (e.run xs).calls ys := by
  induction xs generalizing e with
  | nil => rfl
  | cons x xs ih =>
    rw [List.cons_append, calls_cons, ih, run_cons, calls_cons e x xs, List.append_assoc]

/-- In a call there are no subscribers to be seen, and none is called before his time. -/
theorem seen_of_mem_run_calls {e : Engine α} (h : e.Numbered) (ops : List (Operation α)) :
    ∀ c ∈ e.calls ops, c.seen.subscribers = [] ∧ c.subscriber.id ≤ (e.run ops).issued := by
  induction ops generalizing e with
  | nil => exact fun c hc => nomatch hc
  | cons op ops ih =>
    rw [calls_cons]
    refine List.forall_mem_append.mpr ⟨?_, ih (numbered_perform h op)⟩
    intro c hc
    obtain ⟨m, -, hc⟩ := List.mem_flatMap.mp hc
    obtain ⟨s, hs, -, rfl⟩ := mem_deliver.mp hc
    have hissued := (numbers_eq_range' e (op :: ops)).2
    have hgiven := h.issued s hs
    exact ⟨rfl, by simp only; omega⟩

theorem heardBy_eq_nil {n : Nat} {calls : List (Call α)} (h : ∀ c ∈ calls, c.subscriber.id ≠ n) :
    heardBy n calls = [] := by
  simpa [heardBy] using h

/-- As there are no subscribers to be seen, what is heard tells everything. -/
theorem impressions_eq_map_heardBy (n : Nat) {calls : List (Call α)}
    (h : ∀ c ∈ calls, c.seen.subscribers = []) :
    impressions n calls = (heardBy n calls).map Moment.impression := by
  rw [impressions, heardBy, List.map_map]
  refine List.map_congr_left fun c hc => ?_
  exact Call.impression_of_unseen (h c (List.mem_of_mem_filter hc))

/-- A subscriber hears of a run what he listens to until he is taken off, and nothing later. -/
theorem heardBy_stretch {e : Engine α} (h : e.Numbered) {s : Subscriber α}
    (hs : s ∈ e.subscribers) (ops : List (Operation α)) :
    heardBy s.id (e.calls ops) =
      (e.announced (stretch s.id ops)).filter (s.channel.hears ·.event) := by
  induction ops generalizing e with
  | nil => rfl
  | cons op ops ih =>
    cases hop : op.removes s.id with
    | true =>
      obtain rfl := Operation.removes_iff.mp hop
      have given : s.id ≤ (e.unsubscribe s.id).issued := h.issued s hs
      have hgone := not_called_of_gone given (subscribed_unsubscribe e s.id) ops
      have hsilent : e.calls (.unsubscribe s.id :: ops) = (e.unsubscribe s.id).calls ops := rfl
      rw [stretch, if_pos hop, hsilent]
      exact heardBy_eq_nil hgone
    | false =>
      have hstays : op ≠ .unsubscribe s.id := by
        rintro rfl
        simp [Operation.removes] at hop
      have hlater := ih (numbered_perform h op) (mem_subscribers_perform hs hstays)
      rw [calls_cons, heardBy_append, heardBy_moments h hs, hlater, stretch, hop,
        if_neg Bool.false_ne_true, announced_cons, List.filter_append]

end Engine

/-- A subscription in the course of some operations. -/
structure Subscription {α : Type} (ops : List (Operation α)) where
  before : List (Operation α)
  channel : Channel
  handler : α
  after : List (Operation α)
  split : ops = before ++ .subscribe channel handler :: after

namespace Subscription

open Engine

variable {α : Type} {ops : List (Operation α)}

/-- The engine right after the subscription. -/
def engine (id : Nat) (x : Subscription ops) : Engine α :=
  ((new id).run x.before).subscribe x.channel x.handler

def subscriber (id : Nat) (x : Subscription ops) : Subscriber α :=
  ⟨(x.engine id).issued, x.channel, x.handler⟩

/-- What is asked while the subscriber is there. -/
def stay (id : Nat) (x : Subscription ops) : List (Operation α) :=
  stretch (x.subscriber id).id x.after

theorem numbered_engine (id : Nat) (x : Subscription ops) : (x.engine id).Numbered :=
  numbered_subscribe (numbered_run (numbered_new id) x.before) x.channel x.handler

theorem mem_subscribers_engine (id : Nat) (x : Subscription ops) :
    x.subscriber id ∈ (x.engine id).subscribers :=
  List.mem_append_right _ List.mem_cons_self

theorem mem_subscribers_stay (id : Nat) (x : Subscription ops) :
    x.subscriber id ∈ ((x.engine id).run (x.stay id)).subscribers :=
  mem_subscribers_run_iff.mpr (.inl ⟨x.mem_subscribers_engine id, not_removes_of_mem_stretch⟩)

/-- All that a subscriber hears in a run is what he listens to of the events of his stay. -/
theorem heardBy_stay (id : Nat) (x : Subscription ops) :
    heardBy (x.subscriber id).id ((new id).calls ops) =
      ((x.engine id).announced (x.stay id)).filter (x.channel.hears ·.event) := by
  have hbefore : heardBy (x.subscriber id).id ((new id).calls x.before) = [] := by
    refine heardBy_eq_nil fun c hc => ?_
    have hgiven := (seen_of_mem_run_calls (numbered_new id) x.before c hc).2
    have hnumber : (x.subscriber id).id = ((new id).run x.before).issued + 1 := rfl
    omega
  have hcalls : (new id).calls ops = (new id).calls x.before ++ (x.engine id).calls x.after := by
    conv => lhs; rw [x.split]
    rw [calls_append]
    rfl
  rw [hcalls, heardBy_append, hbefore, List.nil_append]
  exact heardBy_stretch (x.numbered_engine id) (x.mem_subscribers_engine id) x.after

/-- So his impressions are those of his stay, and nobody else is in them. -/
theorem impressions_stay (id : Nat) (x : Subscription ops) :
    impressions (x.subscriber id).id ((new id).calls ops) =
      (((x.engine id).announced (x.stay id)).filter (x.channel.hears ·.event)).map
        Moment.impression := by
  have hunseen : ∀ c ∈ (new id).calls ops, c.seen.subscribers = [] :=
    fun c hc => (seen_of_mem_run_calls (numbered_new id) ops c hc).1
  rw [impressions_eq_map_heardBy _ hunseen, heardBy_stay]

end Subscription

namespace Engine

variable {α : Type}

/-- Whoever subscribes or unsubscribes, what is asked of the engine comes to the same, and so do the
calls of a subscriber who stays for the same stretch of it. -/
theorem bystanders_make_no_difference (id : Nat) {xs ys : List (Operation α)}
    (same : plays xs = plays ys) :
    (new id).reports xs = (new id).reports ys ∧
      ((new id).run xs).playback = ((new id).run ys).playback ∧
      (∀ c ∈ (new id).calls xs, c.seen.subscribers.length = 0) ∧
      (∀ x : Subscription xs, x.subscriber id ∈ ((x.engine id).run (x.stay id)).subscribers ∧
        impressions (x.subscriber id).id ((new id).calls xs) =
          (((x.engine id).announced (x.stay id)).filter (x.channel.hears ·.event)).map
            Moment.impression) ∧
      ∀ (x : Subscription xs) (y : Subscription ys), x.channel = y.channel →
        plays x.before = plays y.before → plays (x.stay id) = plays (y.stay id) →
          impressions (x.subscriber id).id ((new id).calls xs) =
            impressions (y.subscriber id).id ((new id).calls ys) := by
  obtain ⟨hplayback, hreports, -⟩ := run_congr_plays (e := new id) rfl same
  refine ⟨hreports, hplayback, ?_, ?_, ?_⟩
  · intro c hc
    exact List.length_eq_zero_iff.mpr (seen_of_mem_run_calls (numbered_new id) xs c hc).1
  · exact fun x => ⟨x.mem_subscribers_stay id, x.impressions_stay id⟩
  · intro x y hchannel hbefore hstay
    have harrival : (x.engine id).playback = (y.engine id).playback :=
      (run_congr_plays (e := new id) rfl hbefore).1
    have hannounced := (run_congr_plays harrival hstay).2.2
    rw [x.impressions_stay, y.impressions_stay, hannounced, hchannel]

/-- One listener is alone with an engine; in another run somebody is there before him and leaves while
he listens, and somebody else comes. -/
theorem log_alone_and_in_company :
    let script : Script :=
      { lines := [{ text := "Hello.", message := some "met" }], ending := ⟨some "left"⟩ }
    let alone : List (Operation String) :=
      [.subscribe .all "log", .load script, .advanceMain, .unsubscribe 1, .reset]
    let company : List (Operation String) :=
      [.subscribe .message "notes", .subscribe .all "log", .load script, .unsubscribe 1,
        .advanceMain, .subscribe .all "late", .unsubscribe 2, .reset]
    let x : Subscription alone := ⟨[], .all, "log", _, rfl⟩
    let y : Subscription company := ⟨[.subscribe .message "notes"], .all, "log", _, rfl⟩
    plays alone = plays company ∧ (x.subscriber 0).id = 1 ∧ (y.subscriber 0).id = 2 ∧
      (new 0).reports alone = (new 0).reports company ∧
      impressions 1 ((new 0).calls alone) = impressions 2 ((new 0).calls company) ∧
      (impressions 2 ((new 0).calls company)).map (·.event) =
        [.lineUpdate, .message "met", .lineUpdate, .finished, .message "left"] := by
  intro script alone company x y
  have same : plays alone = plays company := rfl
  obtain ⟨hreports, -, -, -, himpressions⟩ := bystanders_make_no_difference 0 same
  exact ⟨same, rfl, rfl, hreports, himpressions x y rfl rfl rfl, rfl⟩

end Engine

end Dialogue
