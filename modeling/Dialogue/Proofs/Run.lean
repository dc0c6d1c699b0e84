import Dialogue.Engine

/-!
# Runs of an engine

A caller may ask anything of an engine in any order. `effect_turn` says once what an operation can
come to; a run is a list of operations, whatever their results.
-/
namespace Dialogue

/-- What can be asked of an engine. Queries are left out: they are functions of its state. -/
inductive Operation (α : Type) where
  | load (script : Script)
  | loadText (source : String)
  | reset
  | advance (cursor : Cursor)
  | advanceMain
  | choose (index : Nat)
  | select (selection : Selection)
  | subscribe (channel : Channel) (handler : α)
  | unsubscribe (id : Nat)

namespace Playback

variable {α : Type}

/-- An operation as far as it concerns the playback, which knows nothing of subscribers. -/
def turn (p : Playback) : Operation α → Turn
  | .load s => p.load s
  | .loadText source => p.loadText source
  | .reset => ⟨p.reset, [], .ok ()⟩
  | .advance c => p.advance c
  | .advanceMain => p.advanceMain
  | .choose k => p.choose k
  | .select x => p.select x
  | .subscribe _ _ | .unsubscribe _ => ⟨p, [], .ok ()⟩

/-- The cursor by which an operation tries to move on. -/
def cursor? (p : Playback) : Operation α → Option Cursor
  | .advance c => some c
  | .advanceMain | .select .main => p.current.map (·.main)
  | .choose k => p.current.bind (·.choices[k]?)
  | .select (.choice k) => p.current.bind (·.choices[k.toNat]?)
  | .load _ | .loadText _ | .reset | .subscribe _ _ | .unsubscribe _ => none

/-- Whether an operation leaves the line on show: a reset, every attempt to load, and a move that
goes through. -/
def leaves (p : Playback) (op : Operation α) : Bool :=
  match op with
  | .load _ | .loadText _ | .reset => true
  | .advance _ | .advanceMain | .choose _ | .select _ => (p.turn op).result.isOk
  | .subscribe _ _ | .unsubscribe _ => false

/-- The state in which a script is about to start. -/
def cue (p : Playback) (s : Script) (labels : LabelTable) : Playback :=
  { p.reset with script? := some s, labels := labels }

/-- What an operation can come to. -/
inductive Effect (p : Playback) (op : Operation α) : Turn → Prop
  | kept (stays : p.leaves op = false) (result : Except EngineError Unit) :
      Effect p op ⟨p, [], result⟩
  | emptied (leaves : p.leaves op) {q : Playback} (start : q = p ∨ q = p.reset)
      (result : Except EngineError Unit) (idle : p.cursor? op = none) :
      Effect p op ⟨q.reset, [], result⟩
  | started (leaves : p.leaves op) {q : Playback} (start : q = p ∨ q = p.reset) {s : Script}
      {labels : LabelTable} (labelled : LabelTable.ofScript s = .ok labels)
      (idle : p.cursor? op = none) :
      Effect p op ⟨(q.cue s labels).place 0,
        ((q.cue s labels).place 0).arrival ((q.cue s labels).line? 0), .ok ()⟩
  | moved (leaves : p.leaves op) {c : Cursor} (picked : p.cursor? op = some c)
      (accepted : p.accepts c) {i : Nat} (found : p.target c.origin c.jump = .ok i) :
      Effect p op ⟨p.place i,
        (p.place i).arrival (p.line? i) ++ (p.place i).announce c.message, .ok ()⟩

theorem advance_of_not_accepts {p : Playback} {c : Cursor} (h : p.accepts c = false) :
    p.advance c = p.refuse (.staleCursor c.origin) := by
  simp [advance, h]

theorem advance_of_target_error {p : Playback} {c : Cursor} {e : EngineError}
    (h : p.accepts c) (ht : p.target c.origin c.jump = .error e) : p.advance c = p.refuse e := by
  simp [advance, h, ht]

theorem advance_of_target_ok {p : Playback} {c : Cursor} {i : Nat} (h : p.accepts c)
    (ht : p.target c.origin c.jump = .ok i) :
    p.advance c = ⟨p.place i,
      (p.place i).arrival (p.line? i) ++ (p.place i).announce c.message, .ok ()⟩ := by
  simp [advance, h, ht, arrive]

/-- However a caller moves on, it comes to advancing the cursor that is picked. -/
theorem turn_eq_advance {p : Playback} {op : Operation α} {c : Cursor}
    (h : p.cursor? op = some c) : p.turn op = p.advance c := by
  cases op with
  | advance d =>
    obtain rfl : d = c := Option.some.inj h
    rfl
  | advanceMain =>
    obtain ⟨l, hl, rfl⟩ := Option.map_eq_some_iff.mp h
    simp [turn, advanceMain, hl]
  | choose k =>
    obtain ⟨l, hl, hc⟩ := Option.bind_eq_some_iff.mp h
    simp [turn, choose, hl, hc]
  | select x =>
    cases x with
    | main =>
      obtain ⟨l, hl, rfl⟩ := Option.map_eq_some_iff.mp h
      simp [turn, select, advanceMain, hl]
    | choice k =>
      obtain ⟨l, hl, hc⟩ := Option.bind_eq_some_iff.mp h
      simp [turn, select, choose, hl, hc]
  | _ => simp [cursor?] at h

theorem leaves_eq_isOk {p : Playback} {op : Operation α} {c : Cursor}
    (h : p.cursor? op = some c) : p.leaves op = (p.advance c).result.isOk := by
  rw [← turn_eq_advance h]
  cases op with
  | load | loadText | reset | subscribe | unsubscribe => simp [cursor?] at h
  | _ => rfl

theorem effect_of_cursor {p : Playback} {op : Operation α} {c : Cursor}
    (h : p.cursor? op = some c) : Effect p op (p.turn op) := by
  have hl := leaves_eq_isOk h
  rw [turn_eq_advance h]
  cases ha : p.accepts c with
  | false =>
    rw [advance_of_not_accepts ha] at hl ⊢
    exact .kept hl _
  | true =>
    cases ht : p.target c.origin c.jump with
    | error e =>
      rw [advance_of_target_error ha ht] at hl ⊢
      exact .kept hl _
    | ok i =>
      rw [advance_of_target_ok ha ht] at hl ⊢
      exact .moved hl h ha ht

theorem advanceMain_of_none {p : Playback} (h : p.current.map (·.main) = none) :
    ∃ e, p.advanceMain = p.refuse e :=
  ⟨.notActive, by simp [advanceMain, Option.map_eq_none_iff.mp h]⟩

theorem choose_of_none {p : Playback} {k : Nat} (h : p.current.bind (·.choices[k]?) = none) :
    ∃ e, p.choose k = p.refuse e := by
  cases hl : p.current with
  | none => exact ⟨.notActive, by simp [choose, hl]⟩
  | some l =>
    rw [hl] at h
    have hk : l.choices[k]? = none := h
    exact ⟨.choiceOutOfRange k l.choices.length, by simp only [choose, hl, hk]⟩

theorem effect_of_refused {p : Playback} {op : Operation α}
    (h : ∃ e, p.turn op = p.refuse e) (hl : p.leaves op = (p.turn op).result.isOk) :
    Effect p op (p.turn op) := by
  obtain ⟨e, he⟩ := h
  rw [he] at hl ⊢
  exact .kept hl _

theorem effect_load {p q : Playback} {op : Operation α} {s : Script} (hl : p.leaves op)
    (hc : p.cursor? op = none) (hq : q = p ∨ q = p.reset) : Effect p op (q.load s) := by
  unfold load
  split
  · exact .emptied hl hq _ hc
  · next labelled => exact .started hl hq labelled hc

/-- Nothing else can come of an operation. -/
theorem effect_turn (p : Playback) (op : Operation α) : Effect p op (p.turn op) := by
  cases hc : p.cursor? op with
  | some c => exact effect_of_cursor hc
  | none =>
    cases op with
    | load s => exact effect_load rfl hc (.inl rfl)
    | loadText source =>
      simp only [turn, loadText]
      split
      · exact .emptied rfl (.inl rfl) _ hc
      · exact effect_load rfl hc (.inr rfl)
    | reset => exact .emptied rfl (.inl rfl) _ hc
    | advance c => simp [cursor?] at hc
    | advanceMain => exact effect_of_refused (advanceMain_of_none hc) rfl
    | choose k => exact effect_of_refused (choose_of_none hc) rfl
    | select x =>
      cases x with
      | main => exact effect_of_refused (advanceMain_of_none hc) rfl
      | choice k => exact effect_of_refused (choose_of_none hc) rfl
    | subscribe channel handler => exact .kept rfl _
    | unsubscribe id => exact .kept rfl _

/-- Which message is announced has nothing to do with the state it is announced in. -/
theorem announce_map (f : Playback → Playback) (p : Playback) (message : Option String) :
    (f p).announce message = (p.announce message).map fun m => { m with seen := f m.seen } := by
  unfold announce
  split <;> rfl

/-- Whatever is announced in a turn is announced in the state the turn leaves behind. -/
theorem seen_of_mem_turn {p : Playback} {op : Operation α} {m : Moment}
    (h : m ∈ (p.turn op).moments) : m.seen = (p.turn op).playback := by
  generalize ht : p.turn op = t at h
  have he := effect_turn p op
  rw [ht] at he
  cases he with
  | kept => cases h
  | emptied => cases h
  | started => exact seen_of_mem_arrival h
  | moved =>
    rcases List.mem_append.mp h with h | h
    · exact seen_of_mem_arrival h
    · exact seen_of_mem_announce h

end Playback

namespace Engine

variable {α : Type}

def perform (e : Engine α) : Operation α → Outcome α
  | .load s => e.load s
  | .loadText source => e.loadText source
  | .reset => ⟨e.reset, [], .ok ()⟩
  | .advance c => e.advance c
  | .advanceMain => e.advanceMain
  | .choose k => e.choose k
  | .select x => e.select x
  | .subscribe channel handler => ⟨e.subscribe channel handler, [], .ok ()⟩
  | .unsubscribe id => ⟨e.unsubscribe id, [], .ok ()⟩

@[simp] theorem perform_playback (e : Engine α) (op : Operation α) :
    (e.perform op).engine.playback = (e.playback.turn op).playback := by
  cases op <;> rfl

@[simp] theorem perform_result (e : Engine α) (op : Operation α) :
    (e.perform op).result = (e.playback.turn op).result := by
  cases op <;> rfl

theorem perform_calls (e : Engine α) (op : Operation α) :
    (e.perform op).calls = (e.playback.turn op).moments.flatMap e.deliver := by
  cases op <;> rfl

/-- Who is called has nothing to do with the states that are seen. -/
theorem flatMap_deliver_map (f : Playback → Playback) (e : Engine α) (ms : List Moment) :
    (ms.map fun m => { m with seen := f m.seen }).flatMap
        (deliver { e with playback := f e.playback }) =
      (ms.flatMap e.deliver).map fun c =>
        { c with seen := { c.seen with playback := f c.seen.playback } } := by
  simp only [deliver, List.flatMap_map, List.map_flatMap, List.map_map, Function.comp_def]

theorem seen_of_mem_calls {e : Engine α} {op : Operation α} {call : Call α}
    (h : call ∈ (e.perform op).calls) :
    call.seen.playback = (e.perform op).engine.playback := by
  rw [perform_calls] at h
  obtain ⟨m, hm, hc⟩ := List.mem_flatMap.mp h
  obtain ⟨s, _, _, rfl⟩ := mem_deliver.mp hc
  rw [perform_playback, ← Playback.seen_of_mem_turn hm]

/-- The engine after a list of operations, whatever became of each. -/
def run (e : Engine α) (ops : List (Operation α)) : Engine α :=
  ops.foldl (fun e op => (e.perform op).engine) e

@[simp] theorem run_nil (e : Engine α) : e.run [] = e := rfl

@[simp] theorem run_cons (e : Engine α) (op : Operation α) (ops : List (Operation α)) :
    e.run (op :: ops) = (e.perform op).engine.run ops := rfl

theorem run_append (e : Engine α) (xs ys : List (Operation α)) :
    e.run (xs ++ ys) = (e.run xs).run ys := by
  simp [run]

/-- What every operation preserves, a run preserves. -/
theorem run_preserves {P : Engine α → Prop} (step : ∀ e op, P e → P (perform e op).engine)
    {e : Engine α} (h : P e) (ops : List (Operation α)) : P (e.run ops) := by
  induction ops generalizing e with
  | nil => exact h
  | cons op ops ih => exact ih (step e op h)

/-- What each operation of a run came to. -/
def outcomes (e : Engine α) : List (Operation α) → List (Outcome α)
  | [] => []
  | op :: ops => e.perform op :: (e.perform op).engine.outcomes ops

/-- The states in which an engine can be looked at: after a list of operations, or from inside a
handler while the last of them announces its events. -/
inductive Glimpse (e : Engine α) : List (Operation α) → Playback → Prop
  | after (ops : List (Operation α)) : Glimpse e ops (e.run ops).playback
  | inside (ops : List (Operation α)) (op : Operation α) {call : Call α}
      (called : call ∈ ((e.run ops).perform op).calls) :
      Glimpse e (ops ++ [op]) call.seen.playback

/-- A handler sees the engine as the operation leaves it. -/
theorem eq_of_glimpse {e : Engine α} {ops : List (Operation α)} {p : Playback}
    (h : e.Glimpse ops p) : p = (e.run ops).playback := by
  cases h with
  | after => rfl
  | inside xs op called => rw [seen_of_mem_calls called, run_append]; rfl

end Engine

end Dialogue
