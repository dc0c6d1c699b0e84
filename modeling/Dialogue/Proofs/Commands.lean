import Dialogue.Proofs.Bystanders
import Dialogue.Stage

/-!
# Commands to one engine

`act_step` says once what a command to the engine in slot zero can do to the stage, unless it puts
another engine there. So a course of commands is a run of that engine, and the handlers write to the
transcripts what they hear in it.
-/
namespace Dialogue.Stage

/-- Whether a command puts a new engine in place of the one that is there. -/
def Command.replaces : Command → Bool
  | .new | .create _ => true
  | _ => false

/-- What a command asks of the engine, if it asks anything. -/
def operation? (s : Stage) : Command → Option (Operation Handler)
  | .load source => some (.loadText source)
  | .loadParsed source => (Script.parse source).toOption.map .load
  | .loadTexts lines => some (.load (scriptOfTexts lines))
  | .reset => some .reset
  | .advanceMain => some .advanceMain
  | .choose index => some (.choose index)
  | .select text => (Selection.parse? text).map .select
  | .advance name slot => (s.cursor? name slot).map .advance
  | .subscribe watch name => some (.subscribe watch.channel ⟨name, watch, s.nextHandler⟩)
  | .unsubscribe name => (s.subscriptions.find? name).map .unsubscribe
  | .new | .create _ | .grab _ | .look _ | .accepts _ _ | .same _ _ | .entries _ | .drain _ |
    .length _ | .summary | .script => none

/-- The stage after some commands to the engine in slot zero. -/
def run (s : Stage) (cs : List Command) : Stage := cs.foldl (fun s c => (s.step 0 c).1) s

/-- What some commands ask of the engine, one after the other. -/
def operations (s : Stage) : List Command → List (Operation Handler)
  | [] => []
  | c :: cs => (s.operation? c).toList ++ operations (s.step 0 c).1 cs

/-- The transcript of a number as it stands. -/
def buffer (s : Stage) (k : Nat) : List Entry := (s.recorded.find? k).getD []

@[simp] theorem run_nil (s : Stage) : s.run [] = s := rfl

@[simp] theorem run_cons (s : Stage) (c : Command) (cs : List Command) :
    s.run (c :: cs) = (s.step 0 c).1.run cs := rfl

theorem run_append (s : Stage) (xs ys : List Command) : s.run (xs ++ ys) = (s.run xs).run ys :=
  List.foldl_append ..

theorem operations_append (s : Stage) (xs ys : List Command) :
    s.operations (xs ++ ys) = s.operations xs ++ (s.run xs).operations ys := by
  induction xs generalizing s with
  | nil => rfl
  | cons c xs ih => rw [List.cons_append, operations, operations, ih, run_cons, List.append_assoc]

/-- What the transcript of number `k` gains by some calls. -/
def written (k : Nat) (calls : List (Call Handler)) : List Entry :=
  (calls.filter fun c =>
    c.subscriber.handler.watch = .record ∧ c.subscriber.handler.number = k).map fun c =>
      c.seen.playback.entry c.event

theorem written_append (k : Nat) (xs ys : List (Call Handler)) :
    written k (xs ++ ys) = written k xs ++ written k ys := by
  simp [written]

/-- Handlers write down what they hear and touch nothing else that matters to the engine. -/
structure Aside (s t : Stage) : Prop where
  engines : t.engines = s.engines
  subscriptions : t.subscriptions = s.subscriptions
  transcripts : t.transcripts = s.transcripts
  nextHandler : t.nextHandler = s.nextHandler

theorem aside_hear (s : Stage) (c : Call Handler) : s.Aside (s.hear c).1 := by
  unfold hear
  dsimp only
  cases c.subscriber.handler.watch with
  | message => cases c.event <;> exact ⟨rfl, rfl, rfl, rfl⟩
  | capture => cases c.seen.playback.current <;> exact ⟨rfl, rfl, rfl, rfl⟩
  | _ => exact ⟨rfl, rfl, rfl, rfl⟩

/-- A recorder adds an entry to its own transcript, and nobody else writes in any. -/
theorem recorded_hear (s : Stage) (c : Call Handler) :
    (s.hear c).1.recorded =
      if c.subscriber.handler.watch = .record then
        s.recorded.insert c.subscriber.handler.number
          (s.buffer c.subscriber.handler.number ++ [c.seen.playback.entry c.event])
      else s.recorded := by
  unfold hear
  dsimp only
  cases c.subscriber.handler.watch with
  | message => cases c.event <;> rfl
  | capture => cases c.seen.playback.current <;> rfl
  | _ => rfl

theorem buffer_hear (s : Stage) (c : Call Handler) (k : Nat) :
    (s.hear c).1.buffer k = s.buffer k ++ written k [c] := by
  rw [buffer, recorded_hear]
  by_cases hwatch : c.subscriber.handler.watch = .record
  · rw [if_pos hwatch, Table.find?_insert]
    by_cases hnumber : k = c.subscriber.handler.number
    · subst hnumber
      simp [written, hwatch]
    · simp [written, hnumber, Ne.symm hnumber, buffer]
  · simp [written, hwatch, buffer]

theorem aside_hearAll (s : Stage) (calls : List (Call Handler)) : s.Aside (s.hearAll calls).1 := by
  induction calls generalizing s with
  | nil => exact ⟨rfl, rfl, rfl, rfl⟩
  | cons c calls ih =>
    have first := aside_hear s c
    have later := ih (s.hear c).1
    exact ⟨later.engines.trans first.engines, later.subscriptions.trans first.subscriptions,
      later.transcripts.trans first.transcripts, later.nextHandler.trans first.nextHandler⟩

theorem buffer_hearAll (s : Stage) (calls : List (Call Handler)) (k : Nat) :
    (s.hearAll calls).1.buffer k = s.buffer k ++ written k calls := by
  induction calls generalizing s with
  | nil => exact (List.append_nil _).symm
  | cons c calls ih =>
    have hcons : c :: calls = [c] ++ calls := rfl
    rw [hcons, written_append, ← List.append_assoc, ← buffer_hear]
    exact ih (s.hear c).1

/-- What a command to the engine `e` can do to the stage. -/
inductive Act (s : Stage) (e : Engine Handler) (c : Command) : Stage → Prop
  | played (op : Operation Handler) (asked : s.operation? c = some op)
      (plays : op.subscribes = false) : Act s e c (s.settle 0 (e.perform op)).1
  | subscribed {watch : Watch} {name : String} (is : c = .subscribe watch name) :
      Act s e c (s.subscribe 0 e watch name).1
  | unsubscribed {name : String} {id : Nat} (is : c = .unsubscribe name)
      (found : s.subscriptions.find? name = some id) : Act s e c (s.setEngine 0 (e.unsubscribe id))
  | drained {name : String} {k : Nat} (is : c = .drain name)
      (stands : s.transcripts.find? name = some k) :
      Act s e c { s with recorded := s.recorded.insert k [] }
  | noted (asked : s.operation? c = none)
      (lacks : ∀ name, c = .drain name → s.transcripts.find? name = none)
      (lines : Table String CurrentLine) : Act s e c { s with lines := lines }

theorem step_eq_obey {s : Stage} {e : Engine Handler} (here : s.engines.find? 0 = some e)
    {c : Command} (keeps : c.replaces = false) : s.step 0 c = s.obey 0 e c := by
  cases c with
  | new | create => cases keeps
  | _ => simp only [step, here]

/-- Nothing else can come of a command. -/
theorem act_step {s : Stage} {e : Engine Handler} (here : s.engines.find? 0 = some e) {c : Command}
    (keeps : c.replaces = false) : s.Act e c (s.step 0 c).1 := by
  have same : ∀ {d : Command}, s.operation? d = none → (∀ name, d ≠ .drain name) → s.Act e d s :=
    fun asked other => .noted asked (fun name is => absurd is (other name)) s.lines
  rw [step_eq_obey here keeps]
  cases c with
  | new | create => cases keeps
  | load source => exact .played (.loadText source) rfl rfl
  | loadParsed source =>
    simp only [obey]
    split
    · next h => exact same (by simp [operation?, h, Except.toOption]) (by simp)
    · next script h => exact .played (.load script) (by simp [operation?, h, Except.toOption]) rfl
  | loadTexts lines => exact .played (.load (scriptOfTexts lines)) rfl rfl
  | reset => exact .played .reset rfl rfl
  | advanceMain => exact .played .advanceMain rfl rfl
  | choose index => exact .played (.choose index) rfl rfl
  | select text =>
    simp only [obey]
    split
    · next h => exact same (by simp [operation?, h]) (by simp)
    · next x h => exact .played (.select x) (by simp [operation?, h]) rfl
  | advance name slot =>
    simp only [obey]
    split
    · next h => exact same (by simp [operation?, h]) (by simp)
    · next c h => exact .played (.advance c) (by simp [operation?, h]) rfl
  | subscribe watch name => exact .subscribed rfl
  | unsubscribe name =>
    simp only [obey]
    split
    · next h => exact same (by simp [operation?, h]) (by simp)
    · next id h => exact .unsubscribed rfl h
  | drain name =>
    simp only [obey, withTranscript]
    split
    · next h => exact .noted rfl (fun _ is => Command.drain.inj is ▸ h) s.lines
    · next k h => exact .drained rfl h
  | grab name =>
    simp only [obey]
    split
    · exact same rfl (by simp)
    · next l _ => exact .noted rfl (by simp) (s.lines.insert name l)
  | look | accepts | same | entries | length =>
    simp only [obey, withTranscript]
    split <;> exact same rfl (by simp)
  | summary | script => exact same rfl (by simp)

/-- Every subscriber of the engine has a handler of his own, numbered as he is but from zero. -/
structure Sound (s : Stage) (e : Engine Handler) : Prop where
  here : s.engines.find? 0 = some e
  numbered : e.Numbered
  issued : e.issued = s.nextHandler
  own : ∀ t ∈ e.subscribers, t.id = t.handler.number + 1

theorem sound_initial : initial.Sound (Engine.new 0) where
  here := rfl
  numbered := Engine.numbered_new 0
  issued := rfl
  own := List.forall_mem_nil _

/-- What becomes of the stage when a handler is subscribed. -/
theorem subscribe_stage (s : Stage) (e : Engine Handler) (watch : Watch) (name : String) :
    let t := (s.subscribe 0 e watch name).1
    t.engines = s.engines.insert 0 (e.subscribe watch.channel ⟨name, watch, s.nextHandler⟩) ∧
      t.nextHandler = s.nextHandler + 1 ∧
      t.subscriptions = s.subscriptions.insert name (e.issued + 1) ∧
      t.transcripts =
        (if watch = .record then s.transcripts.insert name s.nextHandler else s.transcripts) ∧
      t.recorded =
        if watch = .record then s.recorded.insert s.nextHandler [] else s.recorded := by
  cases watch <;> exact ⟨rfl, rfl, rfl, rfl, rfl⟩

theorem issued_perform {op : Operation Handler} (plays : op.subscribes = false)
    (e : Engine Handler) : (e.perform op).engine.issued = e.issued := by
  cases op with
  | subscribe | unsubscribe => cases plays
  | _ => rfl

/-- What a command asks of the engine is done. -/
theorem sound_step {s : Stage} {e : Engine Handler} (h : s.Sound e) {c : Command}
    (keeps : c.replaces = false) : (s.step 0 c).1.Sound (e.run (s.operation? c).toList) := by
  have hact := act_step h.here keeps
  have hnumbered := Engine.numbered_run h.numbered (s.operation? c).toList
  generalize (s.step 0 c).1 = t at hact
  cases hact with
  | played op asked plays =>
    have haside := aside_hearAll (s.setEngine 0 (e.perform op).engine) (e.perform op).calls
    have hsame := Engine.subscribers_perform plays e
    rw [asked] at hnumbered ⊢
    refine ⟨?_, hnumbered, ?_, ?_⟩
    · exact (congrArg (Table.find? · 0) haside.engines).trans (Table.find?_insert_self ..)
    · exact (issued_perform plays e).trans (h.issued.trans haside.nextHandler.symm)
    · intro t ht
      exact h.own t (hsame ▸ ht)
  | subscribed is =>
    rename_i watch name
    obtain ⟨hengines, hnext, -⟩ := subscribe_stage s e watch name
    subst is
    refine ⟨?_, hnumbered, ?_, ?_⟩
    · rw [hengines]
      exact Table.find?_insert_self ..
    · rw [hnext]
      exact congrArg (· + 1) h.issued
    · intro t ht
      rcases List.mem_append.mp ht with ht | ht
      · exact h.own t ht
      · rw [List.mem_singleton.mp ht]
        exact congrArg (· + 1) h.issued
  | unsubscribed is found =>
    subst is
    rw [operation?, found] at hnumbered ⊢
    refine ⟨Table.find?_insert_self .., hnumbered, h.issued, ?_⟩
    intro t ht
    exact h.own t (List.mem_filter.mp ht).1
  | drained is stands =>
    subst is
    exact ⟨h.here, h.numbered, h.issued, h.own⟩
  | noted asked =>
    rw [asked]
    exact ⟨h.here, h.numbered, h.issued, h.own⟩

theorem sound_run {s : Stage} {e : Engine Handler} (h : s.Sound e) {cs : List Command}
    (keep : ∀ c ∈ cs, c.replaces = false) : (s.run cs).Sound (e.run (s.operations cs)) := by
  induction cs generalizing s e with
  | nil => exact h
  | cons c cs ih =>
    obtain ⟨hc, hcs⟩ := List.forall_mem_cons.mp keep
    rw [run_cons, operations, Engine.run_append]
    exact ih (sound_step h hc) hcs

end Dialogue.Stage
