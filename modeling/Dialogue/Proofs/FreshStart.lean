import Mathlib.Logic.Equiv.Basic
import Dialogue.Proofs.Consistency
import Dialogue.Proofs.Renaming

/-!
# Loading forgets

Of all that an engine has been through, loading a script keeps the subscribers and the stamp. So an
engine with any past goes on as a new one that knows the same subscribers, under other stamps.
-/
namespace Dialogue

namespace Playback

theorem reset_eq_of_stamp {p q : Playback} (h : p.stamp = q.stamp) : p.reset = q.reset := by
  obtain ⟨hid, hepoch⟩ := Stamp.mk.inj h
  simp [reset, invalidate, hid, hepoch]

/-- Nothing but the stamp is of any account to a script that is loaded. -/
theorem load_eq_of_stamp {p q : Playback} (h : p.stamp = q.stamp) (s : Script) :
    p.load s = q.load s := by
  simp only [load, reset_eq_of_stamp h]

theorem seen_script_of_load {p : Playback} {s : Script} {m : Moment}
    (h : m ∈ (p.load s).moments) : m.seen.script? = some s := by
  unfold load at h
  split at h
  · cases h
  · rw [seen_of_mem_arrival h, place_script?]

end Playback

/-- Whether an operation is about subscribers. -/
def Operation.subscribes {α : Type} : Operation α → Bool
  | .subscribe _ _ | .unsubscribe _ => true
  | _ => false

/-- Whether an operation names a cursor. -/
def Operation.namesCursor {α : Type} : Operation α → Bool
  | .advance _ => true
  | _ => false

/-- A caller and the lines he has grabbed, the first one first. -/
structure Caller (α : Type) where
  engine : Engine α
  grabbed : List CurrentLine := []

/-- What a caller can ask who has no cursors but those of the lines he has grabbed. -/
inductive Request (α : Type) where
  | perform (op : Operation α) (plain : op.namesCursor = false)
  | grab
  | advance (line : Nat) (slot : Slot)

namespace Engine

variable {α : Type}

/-- A new engine on which nothing was done but to subscribe and unsubscribe has the subscribers of
one that was also played on. -/
theorem run_subscriptions {e f : Engine α} (hs : f.subscribers = e.subscribers)
    (hi : f.issued = e.issued) (ops : List (Operation α)) :
    f.run (ops.filter (·.subscribes)) = { e.run ops with playback := f.playback } := by
  induction ops generalizing e f with
  | nil =>
    obtain ⟨playback, subscribers, issued⟩ := f
    obtain rfl : subscribers = e.subscribers := hs
    obtain rfl : issued = e.issued := hi
    rfl
  | cons op ops ih =>
    cases op with
    | subscribe channel handler =>
      exact ih (by simp [perform, subscribe, hs, hi]) (by simp [perform, subscribe, hi])
    | unsubscribe id => exact ih (by simp [perform, unsubscribe, hs]) hi
    | _ => exact ih hs hi

end Engine

namespace Caller

variable {α : Type}

def cursor? (c : Caller α) (line : Nat) (slot : Slot) : Option Cursor :=
  c.grabbed[line]?.bind (·.cursor? slot)

/-- A cursor that the caller does not have cannot be asked for. -/
def ask (c : Caller α) : Request α → Outcome α
  | .perform op _ => c.engine.perform op
  | .grab => ⟨c.engine, [], .ok ()⟩
  | .advance line slot =>
    match c.cursor? line slot with
    | some cursor => c.engine.advance cursor
    | none => ⟨c.engine, [], .ok ()⟩

/-- The line that is grabbed by a request, if it is one to grab and a line is on show. -/
def catch? (c : Caller α) : Request α → Option CurrentLine
  | .grab => c.engine.playback.current
  | .perform _ _ | .advance _ _ => none

def after (c : Caller α) (q : Request α) : Caller α :=
  ⟨(c.ask q).engine, c.grabbed ++ (c.catch? q).toList⟩

def run (c : Caller α) (qs : List (Request α)) : Caller α := qs.foldl after c

/-- What each request came to. -/
def outcomes (c : Caller α) : List (Request α) → List (Outcome α)
  | [] => []
  | q :: qs => c.ask q :: (c.after q).outcomes qs

/-- Whether a grabbed cursor is still accepted. -/
def accepted? (c : Caller α) (line : Nat) (slot : Slot) : Option Bool :=
  (c.cursor? line slot).map c.engine.playback.accepts

def rename (r : Renaming) (c : Caller α) : Caller α :=
  ⟨c.engine.rename r, c.grabbed.map (·.rename r)⟩

end Caller

/-- A guise and the operations it suits: when they are asked of an engine in disguise, it comes to the
same, in disguise. -/
structure Disguise (α : Type) extends Guise where
  suits : Operation α → Bool
  perform : ∀ (e : Engine α) op, op.namesCursor = false → suits op →
    (toGuise.engine e).perform op = toGuise.outcome (e.perform op)

def Request.suits {α : Type} (d : Disguise α) : Request α → Bool
  | .perform op _ => d.suits op
  | .grab | .advance _ _ => true

namespace Caller

variable {α : Type}

def disguise (d : Disguise α) (c : Caller α) : Caller α :=
  ⟨d.engine c.engine, c.grabbed.map (·.map d.cursor)⟩

variable (d : Disguise α)

theorem cursor?_disguise (c : Caller α) (line : Nat) (slot : Slot) :
    (c.disguise d).cursor? line slot = (c.cursor? line slot).map d.cursor := by
  simp only [cursor?, disguise, List.getElem?_map]
  cases c.grabbed[line]? with
  | none => rfl
  | some l => exact l.cursor?_map d.cursor slot

theorem ask_disguise (c : Caller α) {q : Request α} (h : q.suits d) :
    (c.disguise d).ask q = d.outcome (c.ask q) := by
  cases q with
  | perform op plain => exact d.perform c.engine op plain h
  | grab => rfl
  | advance line slot =>
    simp only [ask, cursor?_disguise]
    cases c.cursor? line slot with
    | none => rfl
    | some cursor => exact Engine.advance_guise d.toGuise c.engine cursor

theorem after_disguise (c : Caller α) {q : Request α} (h : q.suits d) :
    (c.disguise d).after q = (c.after q).disguise d := by
  have hcatch : (c.disguise d).catch? q = (c.catch? q).map (·.map d.cursor) := by
    cases q with
    | perform op plain => rfl
    | grab => exact Playback.current_guise d.toGuise c.engine.playback
    | advance line slot => rfl
  have hgrabbed : (c.disguise d).grabbed ++ ((c.disguise d).catch? q).toList =
      (c.grabbed ++ (c.catch? q).toList).map (·.map d.cursor) := by
    rw [hcatch, Option.toList_map, List.map_append]
    rfl
  rw [after, ask_disguise d c h, hgrabbed]
  rfl

/-- A caller who has a disguised engine and disguised cursors from the beginning never gets to see
anything else. -/
theorem run_disguise (c : Caller α) {qs : List (Request α)} (h : ∀ q ∈ qs, q.suits d) :
    (c.disguise d).run qs = (c.run qs).disguise d ∧
      (c.disguise d).outcomes qs = (c.outcomes qs).map d.outcome := by
  induction qs generalizing c with
  | nil => exact ⟨rfl, rfl⟩
  | cons q qs ih =>
    obtain ⟨hq, hqs⟩ := List.forall_mem_cons.mp h
    obtain ⟨hrun, houtcomes⟩ := ih (c.after q) hqs
    constructor
    · rw [run, List.foldl_cons, after_disguise d c hq]
      exact hrun
    · rw [outcomes, ask_disguise d c hq, after_disguise d c hq, houtcomes]
      rfl

end Caller

/-- Other stamps are a disguise that suits all operations. -/
def Renaming.disguise {α : Type} (r : Renaming) : Disguise α where
  toGuise := r.guise
  suits _ := true
  perform e op plain _ := by
    have hop : op.rename r = op := by
      cases op with
      | advance cursor => cases plain
      | _ => rfl
    have h := Engine.perform_rename r e op
    rwa [hop, Outcome.rename_eq_guise] at h

theorem Request.suits_renaming {α : Type} (r : Renaming) (q : Request α) : q.suits r.disguise := by
  cases q <;> rfl

namespace Caller

variable {α : Type}

theorem accepted?_rename (r : Renaming) (c : Caller α) (line : Nat) (slot : Slot) :
    (c.rename r).accepted? line slot = c.accepted? line slot := by
  have hcursor : (c.rename r).cursor? line slot = (c.cursor? line slot).map (·.rename r) :=
    cursor?_disguise r.disguise c line slot
  rw [accepted?, hcursor, accepted?]
  cases c.cursor? line slot with
  | none => rfl
  | some cursor => exact congrArg some (Playback.rename_accepts r c.engine.playback cursor)

theorem ask_rename (r : Renaming) (c : Caller α) (q : Request α) :
    (c.rename r).ask q = (c.ask q).rename r := by
  rw [Outcome.rename_eq_guise]
  exact ask_disguise r.disguise c (Request.suits_renaming r q)

theorem after_rename (r : Renaming) (c : Caller α) (q : Request α) :
    (c.rename r).after q = (c.after q).rename r :=
  after_disguise r.disguise c (Request.suits_renaming r q)

theorem run_rename (r : Renaming) (c : Caller α) (qs : List (Request α)) :
    (c.rename r).run qs = (c.run qs).rename r :=
  (run_disguise r.disguise c fun q _ => Request.suits_renaming r q).1

theorem outcomes_rename (r : Renaming) (c : Caller α) (qs : List (Request α)) :
    (c.rename r).outcomes qs = (c.outcomes qs).map (·.rename r) := by
  simp only [Outcome.rename_eq_guise]
  exact (run_disguise r.disguise c fun q _ => Request.suits_renaming r q).2

end Caller

/-- Another number for the engine `fresh`, and epochs from that of `p` on. -/
def Renaming.onto (fresh : Nat) (p : Playback) : Renaming where
  engine := Equiv.swap fresh p.id
  shift := p.epoch
  injective := (Equiv.swap fresh p.id).injective

namespace Engine

variable {α : Type}

/-- For a script that is loaded, an engine is as good as a new one with its subscribers. -/
theorem load_eq_rename {e f : Engine α} {r : Renaming}
    (hstamp : e.playback.stamp = f.playback.stamp.rename r) (hs : f.subscribers = e.subscribers)
    (hi : f.issued = e.issued) (s : Script) : e.load s = (f.load s).rename r := by
  have hturn : e.playback.load s = (f.playback.load s).rename r := by
    rw [← Playback.load_rename]
    exact Playback.load_eq_of_stamp hstamp s
  have hrest : e.load s = (f.rename r).broadcast (e.playback.load s) := by
    obtain ⟨p, subscribers, issued⟩ := e
    obtain rfl : f.subscribers = subscribers := hs
    obtain rfl : f.issued = issued := hi
    rfl
  rw [hrest]
  exact broadcast_rename r f hturn

/-- After a script has been loaded, nothing tells the engine from a new one with the same
subscribers but its stamps. -/
theorem load_forgets (id fresh : Nat) (history : List (Operation α)) (s : Script)
    (later : List (Request α)) :
    let old : Caller α := ⟨(Engine.new id).run history, []⟩
    let new : Caller α := ⟨(Engine.new fresh).run (history.filter (·.subscribes)), []⟩
    let r := Renaming.onto fresh old.engine.playback
    let asked := .perform (.load s) rfl :: later
    let p := (old.run asked).engine.playback
    let q := (new.run asked).engine.playback
    new.engine = { old.engine with playback := .new fresh } ∧
      old.outcomes asked = (new.outcomes asked).map (·.rename r) ∧
      old.run asked = (new.run asked).rename r ∧
      (p.script? = q.script? ∧ p.lineCount = q.lineCount ∧ p.index? = q.index? ∧
        p.active = q.active ∧ p.speaker? = q.speaker? ∧ p.current = q.current.map (·.rename r) ∧
        ∀ line slot, (old.run asked).accepted? line slot = (new.run asked).accepted? line slot) ∧
      ∀ call ∈ (old.engine.load s).calls, call.seen.playback.script? = some s := by
  intro old new r asked p q
  have hnew : new.engine = { old.engine with playback := .new fresh } :=
    run_subscriptions (e := .new id) (f := .new fresh) rfl rfl history
  have hstamp : old.engine.playback.stamp = new.engine.playback.stamp.rename r := by
    simp [hnew, r, Renaming.onto, Stamp.rename, Playback.stamp, Playback.new]
  have hload : old.ask (.perform (.load s) rfl) = (new.ask (.perform (.load s) rfl)).rename r :=
    load_eq_rename hstamp (by rw [hnew]) (by rw [hnew]) s
  have hafter : old.after (.perform (.load s) rfl) =
      (new.after (.perform (.load s) rfl)).rename r := by
    rw [Caller.after, hload]
    rfl
  have hrun : old.run asked = (new.run asked).rename r := by
    have hfold : old.run asked = (old.after (.perform (.load s) rfl)).run later := rfl
    rw [hfold, hafter, Caller.run_rename]
    rfl
  refine ⟨hnew, ?_, hrun, ?_, ?_⟩
  · rw [Caller.outcomes, Caller.outcomes, hload, hafter, Caller.outcomes_rename]
    rfl
  · have hp : p = q.rename r := congrArg (fun c : Caller α => c.engine.playback) hrun
    rw [hp, hrun]
    exact ⟨rfl, rfl, rfl, rfl, rfl, Playback.rename_current r q, Caller.accepted?_rename r _⟩
  · intro call hcall
    obtain ⟨m, hm, hd⟩ := List.mem_flatMap.mp hcall
    obtain ⟨_, _, _, rfl⟩ := mem_deliver.mp hd
    exact Playback.seen_script_of_load hm

/-- A script was played to its end; the next one asks for a label that only the first one had. -/
theorem label_forgotten :
    let s : Script :=
      { lines := [{ text := "Hello.", label := some "a" }], ending := ⟨some "Bye."⟩ }
    let t : Script := { lines := [{ text := "Again?", jump := some "a" }] }
    let history : List (Operation Unit) := [.subscribe .all (), .load s, .advanceMain]
    let old : Caller Unit := ⟨(Engine.new 0).run history, []⟩
    let asked := [.perform (.load t) rfl, .grab, .advance 0 .main]
    old.engine.playback.labels.find? "a" = some 0 ∧
      (old.outcomes asked).map (·.result) = [.ok (), .ok (), .error (.unresolvedJump "a" 0)] ∧
      (old.engine.load t).calls.map (·.event) = [.lineUpdate] := by
  intro s t history old asked
  have forgets := load_forgets 0 1 history t [.grab, .advance 0 .main]
  have results := congrArg (List.map (·.result)) forgets.2.1
  exact ⟨rfl, results.trans rfl, rfl⟩

end Engine

end Dialogue
