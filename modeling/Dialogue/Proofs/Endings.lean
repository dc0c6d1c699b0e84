import Dialogue.Proofs.Subscribers

/-!
# Every script ends once

A script that was loaded is still playing, was abandoned, or has announced its end, and it has done
so once. The end comes right after the line was cleared away, and then there is silence until
another script is loaded.
-/
namespace Dialogue

namespace Operation

variable {α : Type}

/-- Whether an operation is an attempt to load a script. -/
def loads : Operation α → Bool
  | .load _ | .loadText _ => true
  | _ => false

/-- Whether an operation abandons what is playing, also if nothing is loaded in its place. -/
def clears : Operation α → Bool
  | .load _ | .loadText _ | .reset => true
  | _ => false

end Operation

def Moment.ends (m : Moment) : Bool := m.event = .finished

/-- How often the end is announced. -/
def Turn.ends (t : Turn) : Nat := t.moments.countP Moment.ends

namespace Playback

variable {α : Type}

theorem countP_announce (p : Playback) (message : Option String) :
    (p.announce message).countP Moment.ends = 0 := by
  unfold announce
  split <;> rfl

theorem active_place (p : Playback) (i : Nat) : (p.place i).active = (p.line? i).isSome := by
  cases h : p.line? i with
  | none => exact not_active_place_of_none h
  | some l => simp [active, index?_place_of_some h]

theorem countP_arrival (p : Playback) (l : Option Line) :
    (p.arrival l).countP Moment.ends = (!l.isSome).toNat := by
  cases l with
  | none => simp [arrival, countP_announce, Moment.ends]
  | some l => simp [arrival, countP_announce, Moment.ends]

/-- Wherever a playback arrives, it is there or it has announced the end. -/
theorem arrive_balance (p : Playback) (i : Nat) :
    (p.arrive i).2.countP Moment.ends + (p.place i).active.toNat = 1 := by
  rw [arrive, countP_arrival, active_place]
  cases (p.line? i).isSome <;> rfl

theorem load_balance (p : Playback) (s : Script) :
    (p.load s).ends + (p.load s).playback.active.toNat = (p.load s).result.isOk.toNat := by
  unfold load
  split
  · rfl
  · exact arrive_balance _ 0

theorem loadText_balance (p : Playback) (source : String) :
    (p.loadText source).ends + (p.loadText source).playback.active.toNat =
      (p.loadText source).result.isOk.toNat := by
  unfold loadText
  split
  · rfl
  · exact load_balance _ _

theorem leaves_of_cursor?_none {p : Playback} {op : Operation α} (hc : p.cursor? op = none)
    (h : op.clears = false) : p.leaves op = false := by
  have refused : ∀ {t : Turn}, (∃ e, t = p.refuse e) → t.result.isOk = false := by
    rintro _ ⟨e, rfl⟩
    rfl
  cases op with
  | load | loadText | reset => cases h
  | advance c => cases hc
  | advanceMain => exact refused (advanceMain_of_none hc)
  | choose k => exact refused (choose_of_none hc)
  | select x =>
    cases x with
    | main => exact refused (advanceMain_of_none hc)
    | choice k => exact refused (choose_of_none hc)
  | subscribe channel handler => rfl
  | unsubscribe id => rfl

/-- What does not abandon the line on show moves on from it or changes nothing. -/
theorem turn_of_not_clears {p : Playback} {op : Operation α} (h : op.clears = false) :
    (∃ result, p.turn op = ⟨p, [], result⟩) ∨
      (p.active ∧ ∃ i message, p.turn op =
        ⟨p.place i, (p.arrive i).2 ++ (p.place i).announce message, .ok ()⟩) := by
  have he := effect_turn p op
  generalize p.turn op = t at he ⊢
  cases he with
  | kept stays result => exact .inl ⟨result, rfl⟩
  | emptied leaves _ _ idle | started leaves _ _ idle =>
    rw [leaves_of_cursor?_none idle h] at leaves
    cases leaves
  | @moved _ c _ accepted i _ =>
    have hi : p.index? = some c.origin := by
      simp only [accepts, decide_eq_true_eq] at accepted
      exact accepted.1
    exact .inr ⟨by simp [active, hi], i, c.message, rfl⟩

theorem move_balance {p : Playback} {op : Operation α} (h : op.clears = false) :
    (p.turn op).ends + (p.turn op).playback.active.toNat = p.active.toNat := by
  rcases turn_of_not_clears (p := p) h with ⟨result, ht⟩ | ⟨ha, i, message, ht⟩
  · simp [ht, Turn.ends]
  · have hb := arrive_balance p i
    simp only [ht, ha, Turn.ends, List.countP_append, countP_announce]
    exact hb

/-- Whatever plays before an operation or is started by it ends in it, is abandoned or plays after
it. -/
theorem turn_balance (p : Playback) (op : Operation α) :
    (op.loads && (p.turn op).result.isOk).toNat + p.active.toNat =
      (p.turn op).ends + (op.clears && p.active).toNat + (p.turn op).playback.active.toNat := by
  cases op with
  | load s =>
    have h := load_balance p s
    simp only [turn, Operation.loads, Operation.clears, Bool.true_and]
    omega
  | loadText source =>
    have h := loadText_balance p source
    simp only [turn, Operation.loads, Operation.clears, Bool.true_and]
    omega
  | reset => simp [turn, Operation.loads, Operation.clears, Turn.ends, active, reset]
  | _ => simpa [Operation.loads, Operation.clears] using (move_balance rfl).symm

theorem ends_of_mem_announce {p : Playback} {message : Option String} {m : Moment}
    (h : m ∈ p.announce message) : m.ends = false := by
  have hc := List.countP_eq_zero.mp (p.countP_announce message) m h
  simpa using hc

/-- Moments that announce the end do so right after the line was cleared away. -/
def Closing (p : Playback) (ms : List Moment) : Prop :=
  p.active = false ∧
    ∃ rest, ms = ⟨.lineUpdate, p⟩ :: ⟨.finished, p⟩ :: rest ∧ ∀ m ∈ rest, m.ends = false

theorem closing_of_arrive {p : Playback} {i : Nat} {m : Moment} (message : Option String)
    (h : m ∈ (p.arrive i).2 ++ (p.place i).announce message) (hm : m.ends) :
    (p.place i).Closing ((p.arrive i).2 ++ (p.place i).announce message) := by
  have hmessages : ∀ message, ∀ m ∈ (p.place i).announce message, m.ends = false :=
    fun _ _ => ends_of_mem_announce
  cases hl : p.line? i with
  | some l =>
    simp only [arrive, hl, arrival, List.cons_append, List.mem_cons, List.mem_append] at h
    rcases h with rfl | h | h
    · cases hm
    · rw [hmessages _ m h] at hm
      cases hm
    · rw [hmessages _ m h] at hm
      cases hm
  | none =>
    simp only [arrive, hl, arrival, List.cons_append]
    refine ⟨not_active_place_of_none hl, _, rfl, fun m hm => ?_⟩
    rcases List.mem_append.mp hm with hm | hm
    · exact hmessages _ m hm
    · exact hmessages _ m hm

theorem closing_of_turn {p : Playback} {op : Operation α} {m : Moment}
    (h : m ∈ (p.turn op).moments) (hm : m.ends) :
    (p.turn op).playback.Closing (p.turn op).moments := by
  have he := effect_turn p op
  generalize p.turn op = t at he h ⊢
  cases he with
  | kept | emptied => cases h
  | started =>
    have harrive := closing_of_arrive none (List.mem_append_left _ h) hm
    rwa [show announce _ none = [] from rfl, List.append_nil] at harrive
  | moved => exact closing_of_arrive _ h hm

theorem Closing.eq_singleton {p : Playback} {m : Moment} {xs ys : List Moment}
    (h : p.Closing (xs ++ m :: ys)) (hm : m.ends) :
    xs = [⟨.lineUpdate, p⟩] ∧ m = ⟨.finished, p⟩ := by
  obtain ⟨_, rest, heq, hrest⟩ := h
  match xs with
  | [] =>
    rw [(List.cons.inj heq).1] at hm
    cases hm
  | [x] =>
    obtain ⟨rfl, h⟩ := List.cons.inj heq
    exact ⟨rfl, (List.cons.inj h).1⟩
  | x :: y :: xs =>
    have hmem : m ∈ rest := by
      rw [← (List.cons.inj (List.cons.inj heq).2).2]
      exact List.mem_append_right _ List.mem_cons_self
    rw [hrest m hmem] at hm
    cases hm

theorem load_of_not_ok {p : Playback} {s : Script} (h : (p.load s).result.isOk = false) :
    (p.load s).moments = [] ∧ (p.load s).playback.active = false := by
  unfold load at h ⊢
  split at h
  · exact ⟨rfl, rfl⟩
  · cases h

theorem loadText_of_not_ok {p : Playback} {source : String}
    (h : (p.loadText source).result.isOk = false) :
    (p.loadText source).moments = [] ∧ (p.loadText source).playback.active = false := by
  unfold loadText at h ⊢
  split at h
  · exact ⟨rfl, rfl⟩
  · exact load_of_not_ok h

/-- When nothing is playing, nothing is announced until something is loaded. -/
theorem turn_of_idle {p : Playback} {op : Operation α} (hp : p.active = false)
    (hs : (op.loads && (p.turn op).result.isOk) = false) :
    (p.turn op).moments = [] ∧ (p.turn op).playback.active = false := by
  have idle : op.clears = false →
      (p.turn op).moments = [] ∧ (p.turn op).playback.active = false := by
    intro hc
    rcases turn_of_not_clears (p := p) hc with ⟨result, ht⟩ | ⟨ha, _⟩
    · simp [ht, hp]
    · rw [hp] at ha
      cases ha
  cases op with
  | load s => exact load_of_not_ok hs
  | loadText source => exact loadText_of_not_ok hs
  | reset => exact ⟨rfl, rfl⟩
  | _ => exact idle rfl

end Playback

/-- An operation and the engine it is asked of. -/
structure Step (α : Type) where
  before : Engine α
  op : Operation α

namespace Step

variable {α : Type}

def outcome (x : Step α) : Outcome α := x.before.perform x.op

/-- Whether a script is loaded. -/
def starts (x : Step α) : Bool := x.op.loads && x.outcome.result.isOk

/-- Whether a script that was playing is abandoned. -/
def abandons (x : Step α) : Bool := x.op.clears && x.before.playback.active

/-- What subscriber `n` hears. -/
def heard (n : Nat) (x : Step α) : List Moment := Engine.heardBy n x.outcome.calls

end Step

namespace Engine

variable {α : Type}

/-- The operations of a run, each with the engine it is asked of. -/
def steps (e : Engine α) : List (Operation α) → List (Step α)
  | [] => []
  | op :: ops => ⟨e, op⟩ :: (e.perform op).engine.steps ops

/-- Subscriber `n` is there and listens to everything. -/
structure Listens (n : Nat) (e : Engine α) : Prop where
  numbered : e.Numbered
  listening : ∃ s ∈ e.subscribers, s.id = n ∧ s.channel = .all

theorem heard_of_listens {e : Engine α} {n : Nat} (h : e.Listens n) (op : Operation α) :
    Step.heard n ⟨e, op⟩ = (e.playback.turn op).moments := by
  obtain ⟨hn, s, hs, rfl, hall⟩ := h
  rw [Step.heard, Step.outcome, perform_calls]
  exact heardBy_moments_of_all hn hs hall _

theorem listens_perform {e : Engine α} {n : Nat} (h : e.Listens n) {op : Operation α}
    (stays : op ≠ .unsubscribe n) : (e.perform op).engine.Listens n := by
  obtain ⟨hn, s, hs, hid, hall⟩ := h
  exact ⟨numbered_perform hn op, s, mem_subscribers_perform hs (hid ▸ stays), hid, hall⟩

theorem listens_run {e : Engine α} {n : Nat} (h : e.Listens n) {ops : List (Operation α)}
    (stays : ∀ op ∈ ops, op ≠ .unsubscribe n) : (e.run ops).Listens n := by
  induction ops generalizing e with
  | nil => exact h
  | cons op ops ih =>
    exact ih (listens_perform h (stays op List.mem_cons_self))
      fun x hx => stays x (List.mem_cons_of_mem _ hx)

theorem listens_subscribe (id : Nat) (handler : α) :
    ((Engine.new id).subscribe .all handler).Listens 1 :=
  ⟨numbered_subscribe (numbered_new id) _ _, _, List.mem_singleton_self _, rfl, rfl⟩

theorem step_balance {e : Engine α} {n : Nat} (h : e.Listens n) (op : Operation α) :
    (Step.starts ⟨e, op⟩).toNat + e.playback.active.toNat =
      (Step.heard n ⟨e, op⟩).countP Moment.ends + (Step.abandons ⟨e, op⟩).toNat +
        (e.perform op).engine.playback.active.toNat := by
  rw [heard_of_listens h, perform_playback]
  have hb := Playback.turn_balance e.playback op
  rw [← perform_result] at hb
  exact hb

/-- What played at first or was loaded has ended, was abandoned or plays still. -/
theorem run_balance {e : Engine α} {n : Nat} (h : e.Listens n) {ops : List (Operation α)}
    (stays : ∀ op ∈ ops, op ≠ .unsubscribe n) :
    (e.steps ops).countP Step.starts + e.playback.active.toNat =
      ((e.steps ops).flatMap (Step.heard n)).countP Moment.ends +
        (e.steps ops).countP Step.abandons + (e.run ops).playback.active.toNat := by
  induction ops generalizing e with
  | nil => simp [steps]
  | cons op ops ih =>
    -- The handler is still subscribed, so it hears what the rest of the run announces.
    have hnow := step_balance h op
    have hlater := ih (listens_perform h (stays op List.mem_cons_self))
      fun x hx => stays x (List.mem_cons_of_mem _ hx)
    have hcons : ∀ (b : Step α → Bool), (e.steps (op :: ops)).countP b =
        (b ⟨e, op⟩).toNat + ((e.perform op).engine.steps ops).countP b := by
      intro b
      rw [steps, List.countP_cons, Nat.add_comm]
      cases b ⟨e, op⟩ <;> rfl
    rw [hcons, hcons, run_cons, steps, List.flatMap_cons, List.countP_append]
    omega

/-- Wherever a run is cut, it is a run before and a run after. -/
theorem steps_eq_append_cons {e : Engine α} {ops : List (Operation α)} {past later : List (Step α)}
    {x : Step α} (h : e.steps ops = past ++ x :: later) :
    ∃ before op after, ops = before ++ op :: after ∧ x = ⟨e.run before, op⟩ ∧
      later = x.outcome.engine.steps after := by
  induction past generalizing e ops with
  | nil =>
    cases ops with
    | nil => cases h
    | cons op ops =>
      obtain ⟨rfl, rfl⟩ := List.cons.inj h
      exact ⟨[], op, ops, rfl, rfl, rfl⟩
  | cons y past ih =>
    cases ops with
    | nil => cases h
    | cons op ops =>
      obtain ⟨_, h⟩ := List.cons.inj h
      obtain ⟨before, o, after, rfl, hx, hlater⟩ := ih h
      exact ⟨op :: before, o, after, rfl, hx, hlater⟩

/-- Until a script is loaded, an engine without a line on show calls nobody. -/
theorem calls_of_idle {e : Engine α} (he : e.playback.active = false) {ops : List (Operation α)}
    {silent rest : List (Step α)} (h : e.steps ops = silent ++ rest)
    (hs : ∀ y ∈ silent, y.starts = false) : ∀ y ∈ silent, y.outcome.calls = [] := by
  induction silent generalizing e ops with
  | nil => exact fun y hy => nomatch hy
  | cons x silent ih =>
    cases ops with
    | nil => cases h
    | cons op ops =>
      obtain ⟨rfl, htail⟩ := List.cons.inj h
      obtain ⟨hmoments, hactive⟩ : (e.playback.turn op).moments = [] ∧
          (e.perform op).engine.playback.active = false := by
        rw [perform_playback]
        refine Playback.turn_of_idle he ?_
        rw [← perform_result]
        exact hs ⟨e, op⟩ List.mem_cons_self
      have hcalls : (Step.mk e op).outcome.calls = [] := by
        rw [Step.outcome, perform_calls, hmoments]
        rfl
      have hlater := ih hactive htail fun y hy => hs y (List.mem_cons_of_mem _ hy)
      exact List.forall_mem_cons.mpr ⟨hcalls, hlater⟩

/-- One end is heard for every script that was loaded, unless it was abandoned or is still playing,
and then nothing until a script is loaded. -/
theorem each_script_ends_once (id : Nat) (handler : α) (ops : List (Operation α))
    (stays : ∀ op ∈ ops, op ≠ .unsubscribe 1) :
    let e := (Engine.new id).subscribe .all handler
    let steps := e.steps ops
    steps.countP (·.starts) =
        (steps.flatMap (·.heard 1)).countP (·.event = .finished) + steps.countP (·.abandons) +
          (e.run ops).playback.active.toNat ∧
      ∀ past x later, steps = past ++ x :: later →
        ∀ before m after, x.heard 1 = before ++ m :: after → m.event = .finished →
          before = [⟨.lineUpdate, m.seen⟩] ∧ m.seen.active = false ∧
            ∀ silent rest, later = silent ++ rest → (∀ y ∈ silent, y.starts = false) →
              ∀ y ∈ silent, y.outcome.calls = [] := by
  intro e steps
  have he : e.Listens 1 := listens_subscribe id handler
  constructor
  · exact run_balance he stays
  · intro past x later hsteps before m after hheard hm
    obtain ⟨ops₁, op, ops₂, hops, rfl, hlater⟩ := steps_eq_append_cons hsteps
    have hlistens : (e.run ops₁).Listens 1 :=
      listens_run he fun o ho => stays o (by simp [hops, ho])
    have hends : m.ends := by simp [Moment.ends, hm]
    rw [heard_of_listens hlistens] at hheard
    have hclosing : ((e.run ops₁).perform op).engine.playback.Closing (before ++ m :: after) := by
      rw [perform_playback, ← hheard]
      refine Playback.closing_of_turn (m := m) ?_ hends
      simp [hheard]
    obtain ⟨hbefore, rfl⟩ := hclosing.eq_singleton hends
    refine ⟨hbefore, hclosing.1, ?_⟩
    intro silent rest hsplit hs
    exact calls_of_idle hclosing.1 (hlater.symm.trans hsplit) hs

/-- One script is played to its end, an empty one ends at once, and a third is abandoned by a
script with a label defined twice. A used cursor and a move after the end come to nothing. -/
theorem four_endings_balance :
    let hello : Script := { lines := [{ text := "Hello." }], ending := ⟨some "Bye."⟩ }
    let twice : Script :=
      { lines := [{ text := "One.", label := some "a" }, { text := "Two.", label := some "a" }] }
    let ops : List (Operation Unit) :=
      [.load hello, .advanceMain, .advance ⟨⟨0, 2⟩, .main, 0, "Hello.", none, none⟩, .advanceMain,
        .load ⟨[], {}, none⟩, .load hello, .load twice, .reset, .load hello]
    let e := (Engine.new 0).subscribe .all ()
    let steps := e.steps ops
    (∀ op ∈ ops, op ≠ .unsubscribe 1) ∧ steps.countP (·.starts) = 4 ∧
      (steps.flatMap (·.heard 1)).map (·.event) = [.lineUpdate, .lineUpdate, .finished,
        .message "Bye.", .lineUpdate, .finished, .lineUpdate, .lineUpdate] ∧
      steps.countP (·.abandons) = 1 ∧ (e.run ops).playback.active := by
  intro hello twice ops e steps
  have stays : ∀ op ∈ ops, op ≠ .unsubscribe 1 := by simp [ops]
  have balance := (each_script_ends_once 0 () ops stays).1
  have hevents : (steps.flatMap (·.heard 1)).map (·.event) = [.lineUpdate, .lineUpdate, .finished,
      .message "Bye.", .lineUpdate, .finished, .lineUpdate, .lineUpdate] := by rfl
  have hends : (steps.flatMap (·.heard 1)).countP (·.event = .finished) = 2 := by
    have hcount := congrArg (List.countP (· = Event.finished)) hevents
    rw [List.countP_map] at hcount
    exact hcount
  have habandons : steps.countP (·.abandons) = 1 := by rfl
  have hactive : (e.run ops).playback.active = true := by rfl
  exact ⟨stays, balance.trans (by rw [hends, habandons, hactive]; rfl), hevents, habandons, hactive⟩

end Engine

end Dialogue
