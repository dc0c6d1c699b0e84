import Dialogue.Proofs.FreshStart
import Dialogue.Proofs.Staleness
import Dialogue.Stage

/-!
# Loading from a text

A text is loaded after everything has been abandoned, whether it holds a script or not. If it does,
the engine then abandons nothing once more, which shows in the epoch and nowhere else; if it does
not, the engine is left with nothing. Whoever reads the text first and loads the script afterwards
keeps what is playing when the text cannot be read.
-/
namespace Dialogue

/-- The same engines, one epoch later. -/
def Renaming.later : Renaming := ⟨id, 1, Function.injective_id⟩

/-- What a subscriber learns from a call: the event, and what a transcript makes of it. -/
def Call.news {α : Type} (c : Call α) : Subscriber α × Event × Entry :=
  (c.subscriber, c.event, c.seen.playback.entry c.event)

/-- The first outcome is the second, one epoch later. -/
structure Outcome.OneLater {α : Type} (o q : Outcome α) : Prop where
  result : o.result = q.result
  news : o.calls.map (·.news) = q.calls.map (·.news)
  subscribers : o.engine.subscribers = q.engine.subscribers ∧ o.engine.issued = q.engine.issued
  script : o.engine.playback.script? = q.engine.playback.script?
  labels : o.engine.playback.labels = q.engine.playback.labels
  index : o.engine.playback.index? = q.engine.playback.index?
  stamp : o.engine.playback.id = q.engine.playback.id ∧
    o.engine.playback.epoch = q.engine.playback.epoch + 1
  current : o.engine.playback.current = q.engine.playback.current.map (·.rename .later)
  accepts : ∀ c : Cursor, o.engine.playback.accepts (c.rename .later) = q.engine.playback.accepts c
  onward : ∀ requests : List (Request α),
    (Caller.mk o.engine []).outcomes requests =
      ((Caller.mk q.engine []).outcomes requests).map (·.rename .later)

namespace Engine

variable {α : Type}

theorem oneLater_rename (o : Outcome α) : (o.rename .later).OneLater o where
  result := rfl
  news := by
    have hnews : ∀ c : Call α, (c.rename .later).news = c.news := by
      intro c
      have hentry := Playback.rename_entry .later c.seen.playback c.event
      exact congrArg (fun entry => (c.subscriber, c.event, entry)) hentry
    simp only [Outcome.rename, List.map_map, Function.comp_def, hnews]
  subscribers := ⟨rfl, rfl⟩
  script := rfl
  labels := rfl
  index := rfl
  stamp := ⟨rfl, rfl⟩
  current := Playback.rename_current .later o.engine.playback
  accepts := Playback.rename_accepts .later o.engine.playback
  onward requests := Caller.outcomes_rename .later ⟨o.engine, []⟩ requests

theorem loadText_of_parse_error (e : Engine α) {source : String} {f : Json.Fault}
    (h : Script.parse source = .error f) :
    e.loadText source = ⟨e.reset, [], .error (.parse f)⟩ := by
  simp only [loadText, Playback.loadText, h]
  rfl

theorem loadText_of_parse_ok (e : Engine α) {source : String} {d : Script}
    (h : Script.parse source = .ok d) : e.loadText source = e.reset.load d := by
  simp only [loadText, Playback.loadText, h]
  rfl

/-- To abandon what is playing twice is to do it once, one epoch later. -/
theorem reset_load (e : Engine α) (d : Script) : e.reset.load d = (e.load d).rename .later :=
  load_eq_rename (e := e.reset) (f := e) rfl rfl rfl d

/-- A cursor of a line that was on show is of no epoch to come. -/
theorem epoch_le_of_glimpse {id : Nat} {before : List (Operation α)} {p : Playback}
    {l : CurrentLine} (seen : (Engine.new id).Glimpse before p) (shown : p.current = some l)
    {c : Cursor} (hc : c ∈ l.cursors) (after : List (Operation α)) :
    c.stamp.epoch ≤ ((Engine.new id).run (before ++ after)).playback.epoch := by
  have hconsistent : ((Engine.new id : Engine α).run before).playback.Consistent :=
    Playback.consistent_run (Playback.consistent_new id) before
  rw [eq_of_glimpse seen] at shown
  have haccepted := Playback.accepts_of_mem_current hconsistent shown hc
  rw [congrArg Stamp.epoch (Playback.accepts_iff.mp haccepted).2, run_append]
  exact epoch_le_run _ after

theorem stale_after_loadText {e : Engine α} {c : Cursor} (h : c.stamp.epoch ≤ e.playback.epoch)
    (source : String) (ops : List (Operation α)) :
    (((e.loadText source).engine.run ops).advance c).result = .error (.staleCursor c.origin) := by
  have hleaves : e.playback.leaves (.loadText source : Operation α) := rfl
  have hlt : e.playback.epoch < (e.loadText source).engine.playback.epoch :=
    Playback.epoch_lt_turn hleaves
  have hrun := epoch_le_run (e.loadText source).engine ops
  have hn := Playback.not_accepts_of_epoch_lt (p := ((e.loadText source).engine.run ops).playback)
    (c := c) (by omega)
  rw [advance, Playback.advance_of_not_accepts hn]
  rfl

/-- A new engine has nobody to call. -/
theorem calls_loadText_new (id : Nat) (source : String) :
    ((Engine.new id : Engine α).loadText source).calls = [] :=
  List.flatMap_eq_nil_iff.mpr fun _ _ => rfl

theorem create_eq_ok {id : Nat} {source : String} {f : Engine α} :
    create id source = .ok f ↔ (Engine.new id).loadText source = ⟨f, [], .ok ()⟩ := by
  have hcalls := calls_loadText_new (α := α) id source
  rw [create]
  generalize (Engine.new id : Engine α).loadText source = o at hcalls
  obtain ⟨engine, calls, result⟩ := o
  obtain rfl : calls = [] := hcalls
  cases result with
  | error x => simp [Except.map]
  | ok u => simp [Except.map]

theorem create_eq_error {id : Nat} {source : String} {x : EngineError} :
    (create id source : Except EngineError (Engine α)) = .error x ↔
      ((Engine.new id : Engine α).loadText source).result = .error x := by
  rw [create]
  generalize ((Engine.new id : Engine α).loadText source) = o
  obtain ⟨engine, calls, result⟩ := o
  cases result with
  | error y => simp [Except.map]
  | ok u => simp [Except.map]

/-- A text that holds a script is loaded as the script is, one epoch later; after any other text the
engine has nothing to play. All earlier cursors are stale. -/
theorem loadText_exactly (id : Nat) (history : List (Operation α)) (source : String) :
    let e := (Engine.new id).run history
    let o := e.loadText source
    (∀ d, Script.parse source = .ok d →
      o = (e.load d).rename .later ∧ o.OneLater (e.load d)) ∧
      (∀ f, Script.parse source = .error f →
        o = ⟨{ e with playback := { Playback.new id with epoch := e.playback.epoch + 1 } }, [],
          .error (.parse f)⟩ ∧ o.engine = e.reset) ∧
      (∀ before after, before ++ after = history → ∀ p l, (Engine.new id).Glimpse before p →
        p.current = some l → ∀ c ∈ l.cursors, ∀ ops,
          ((o.engine.run ops).advance c).result = .error (.staleCursor c.origin)) ∧
      ((∀ f : Engine α,
          create id source = .ok f ↔ (Engine.new id).loadText source = ⟨f, [], .ok ()⟩) ∧
        ∀ x, (create id source : Except EngineError (Engine α)) = .error x ↔
          ((Engine.new id : Engine α).loadText source).result = .error x) ∧
      ∀ (s : Stage) n e, s.engines.find? n = some e →
        s.step n (.load source) = s.settle n (e.loadText source) ∧
        (∀ d, Script.parse source = .ok d →
          s.step n (.loadParsed source) = s.settle n (e.load d)) ∧
        ∀ f, Script.parse source = .error f →
          s.step n (.loadParsed source) = (s, .done (.error (.parse f)), []) := by
  intro e o
  refine ⟨fun d h => ?_, fun f h => ?_, ?_, ⟨fun f => create_eq_ok, fun x => create_eq_error⟩, ?_⟩
  · have hload : o = (e.load d).rename .later :=
      (loadText_of_parse_ok e h).trans (reset_load e d)
    refine ⟨hload, ?_⟩
    rw [hload]
    exact oneLater_rename (e.load d)
  · have hload := loadText_of_parse_error e h
    have hid : e.playback.id = id := Playback.run_id _ history
    refine ⟨hload.trans ?_, congrArg Outcome.engine hload⟩
    rw [← hid]
    rfl
  · rintro before after rfl p l seen shown c hc ops
    exact stale_after_loadText (epoch_le_of_glimpse seen shown hc after) source ops
  · intro s n e he
    refine ⟨?_, fun d h => ?_, fun f h => ?_⟩
    · simp only [Stage.step, he, Stage.obey]
    · simp only [Stage.step, he, Stage.obey, h]
    · simp only [Stage.step, he, Stage.obey, h, Stage.silent]

/-- Behind the door that is on show is the same door; the empty text is no script. -/
theorem door_loaded_later :
    let door : Script := { lines := [{ text := "Knock." }] }
    let source := "\x7b\"lines\":[\x7b\"text\":\"Knock.\"\x7d]\x7d"
    let e := (Engine.new 0).run [.subscribe .all (), .load door]
    let knock : Cursor := ⟨⟨0, 2⟩, .main, 0, "Knock.", none, none⟩
    e.playback.current = some ⟨knock, []⟩ ∧
      (∃ d, Script.parse source = .ok d ∧ (e.loadText source).OneLater (e.load d)) ∧
      (e.loadText source).engine.playback.epoch = 5 ∧
      (∃ f, Script.parse "" = .error f ∧ (e.loadText "").engine = e.reset) ∧
      ((e.loadText "").engine.advance knock).result = .error (.staleCursor 0) := by
  intro door source e knock
  have shown : e.playback.current = some ⟨knock, []⟩ := rfl
  have hread : (Script.parse source).isOk := by decide +kernel
  have hunread : (Script.parse "").isOk = false := by decide +kernel
  obtain ⟨later, _⟩ := loadText_exactly 0 [.subscribe .all (), .load door] source
  obtain ⟨_, idle, stale, _⟩ := loadText_exactly 0 [.subscribe .all (), .load door] ""
  refine ⟨shown, ?_, by decide +kernel, ?_, ?_⟩
  · cases h : Script.parse source with
    | ok d => exact ⟨d, rfl, (later d h).2⟩
    | error f =>
      rw [h] at hread
      cases hread
  · cases h : Script.parse "" with
    | ok d =>
      rw [h] at hunread
      cases hunread
    | error f => exact ⟨f, rfl, (idle f h).2⟩
  · exact stale _ [] (List.append_nil _) _ _ (.after _) shown knock List.mem_cons_self []

end Engine

end Dialogue
