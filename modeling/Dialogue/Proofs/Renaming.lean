import Dialogue.Proofs.Guise

/-!
# Other stamps

An engine compares stamps and does nothing else with them. So it may be given another number and a
later epoch, along with all cursors: this is a guise, and whatever is asked of the engine, it does the
same, under the new stamps.
-/
namespace Dialogue

/-- Other numbers for engines, different for different ones, and a shift of all epochs. -/
structure Renaming where
  engine : Nat → Nat
  shift : Nat
  injective : Function.Injective engine

def Stamp.rename (r : Renaming) (t : Stamp) : Stamp := ⟨r.engine t.engine, t.epoch + r.shift⟩

def Cursor.rename (r : Renaming) (c : Cursor) : Cursor := { c with stamp := c.stamp.rename r }

def CurrentLine.rename (r : Renaming) (l : CurrentLine) : CurrentLine :=
  ⟨l.main.rename r, l.choices.map (·.rename r)⟩

def Playback.rename (r : Renaming) (p : Playback) : Playback :=
  { p with
    id := r.engine p.id
    epoch := p.epoch + r.shift
    main? := p.main?.map (·.rename r)
    choices := p.choices.map (·.rename r) }

def Moment.rename (r : Renaming) (m : Moment) : Moment := { m with seen := m.seen.rename r }

def Turn.rename (r : Renaming) (t : Turn) : Turn :=
  ⟨t.playback.rename r, t.moments.map (·.rename r), t.result⟩

theorem Stamp.rename_inj {r : Renaming} {t u : Stamp} : t.rename r = u.rename r ↔ t = u := by
  constructor
  · intro h
    obtain ⟨hengine, hepoch⟩ := Stamp.mk.inj h
    obtain ⟨engine, epoch⟩ := t
    obtain ⟨engine', epoch'⟩ := u
    have := r.injective hengine
    simp only [Stamp.mk.injEq] at *
    omega
  · rintro rfl
    rfl

namespace Playback

variable (r : Renaming)

@[simp] theorem rename_stamp (p : Playback) : (p.rename r).stamp = p.stamp.rename r := rfl

theorem rename_accepts (p : Playback) (c : Cursor) :
    (p.rename r).accepts (c.rename r) = p.accepts c := by
  have hstamp : c.stamp.rename r = p.stamp.rename r ↔ c.stamp = p.stamp := Stamp.rename_inj
  simp only [accepts, rename_stamp, Cursor.rename, hstamp]
  rfl

theorem invalidate_rename (p : Playback) : (p.rename r).invalidate = p.invalidate.rename r := by
  simp [invalidate, rename, Nat.add_right_comm]

theorem reset_rename (p : Playback) : (p.rename r).reset = p.reset.rename r := by
  simp [reset, invalidate, rename, Nat.add_right_comm]

theorem issue_rename (p : Playback) (i : Nat) (l : Line) :
    (p.rename r).issue i l = (p.issue i l).rename r := by
  simp [issue, CurrentLine.rename, Cursor.rename, List.mapIdx_eq_zipIdx_map, Function.comp_def]

end Playback

/-- Other stamps are a guise, in which the script is the same. -/
def Renaming.guise (r : Renaming) : Guise where
  toWording := .plain
  playback := (·.rename r)
  line := id
  cursor := (·.rename r)
  shows _ _ _ _ := rfl
  invalidate := Playback.invalidate_rename r
  issue := Playback.issue_rename r
  line? _ _ := Option.map_id_apply.symm
  speaker _ := rfl
  message _ := rfl
  ending _ := rfl
  text _ := rfl
  parting _ := rfl
  origin _ := rfl
  accepts := Playback.rename_accepts r
  target := Playback.target_plain

theorem Turn.rename_eq_guise (r : Renaming) (t : Turn) : t.rename r = r.guise.turn t :=
  congrArg (Turn.mk _ _) (mapError_id t.result).symm

namespace Playback

variable (r : Renaming)

theorem rename_current (p : Playback) : (p.rename r).current = p.current.map (·.rename r) :=
  current_guise r.guise p

theorem rename_entry (p : Playback) (event : Event) : (p.rename r).entry event = p.entry event :=
  entry_guise r.guise p event

theorem load_rename (p : Playback) (s : Script) : (p.rename r).load s = (p.load s).rename r := by
  have htable : LabelTable.ofScript s =
      ((LabelTable.ofScript s).map fun t => t).mapError r.guise.error := by
    cases LabelTable.ofScript s <;> rfl
  have hcue : ∀ labels, (p.rename r).cue s labels = (p.cue s labels).rename r := by
    intro labels
    rw [cue, reset_rename]
    rfl
  rw [Turn.rename_eq_guise]
  exact load_guise r.guise (reset_rename r p) htable hcue

theorem loadText_rename (p : Playback) (source : String) :
    (p.rename r).loadText source = (p.loadText source).rename r := by
  unfold loadText
  split
  · simp [Turn.rename, reset_rename]
  · rw [reset_rename, load_rename]

theorem advance_rename (p : Playback) (c : Cursor) :
    (p.rename r).advance (c.rename r) = (p.advance c).rename r := by
  rw [Turn.rename_eq_guise]
  exact advance_guise r.guise p c

theorem advanceMain_rename (p : Playback) : (p.rename r).advanceMain = p.advanceMain.rename r := by
  rw [Turn.rename_eq_guise]
  exact advanceMain_guise r.guise p

theorem choose_rename (p : Playback) (k : Nat) : (p.rename r).choose k = (p.choose k).rename r := by
  rw [Turn.rename_eq_guise]
  exact choose_guise r.guise p k

theorem select_rename (p : Playback) (x : Selection) :
    (p.rename r).select x = (p.select x).rename r := by
  rw [Turn.rename_eq_guise]
  exact select_guise r.guise p x

end Playback

variable {α : Type} (r : Renaming)

def Operation.rename : Operation α → Operation α
  | .advance c => .advance (c.rename r)
  | op => op

def Engine.rename (e : Engine α) : Engine α := { e with playback := e.playback.rename r }

def Call.rename (c : Call α) : Call α := { c with seen := c.seen.rename r }

def Outcome.rename (o : Outcome α) : Outcome α :=
  ⟨o.engine.rename r, o.calls.map (·.rename r), o.result⟩

theorem Outcome.rename_eq_guise (o : Outcome α) : o.rename r = r.guise.outcome o :=
  congrArg (Outcome.mk _ _) (mapError_id o.result).symm

namespace Engine

theorem broadcast_rename (e : Engine α) {s t : Turn} (h : s = t.rename r) :
    (e.rename r).broadcast s = (e.broadcast t).rename r := by
  rw [Outcome.rename_eq_guise]
  exact broadcast_guise r.guise e (h.trans (Turn.rename_eq_guise r t))

/-- Whatever is asked of an engine is done in the same way under the new stamps. -/
theorem perform_rename (e : Engine α) (op : Operation α) :
    (e.rename r).perform (op.rename r) = (e.perform op).rename r := by
  cases op with
  | load s => exact broadcast_rename r e (Playback.load_rename r e.playback s)
  | loadText source => exact broadcast_rename r e (Playback.loadText_rename r e.playback source)
  | reset =>
    simp only [Operation.rename, perform, Outcome.rename, reset, rename, Playback.reset_rename,
      List.map_nil]
  | advance c => exact broadcast_rename r e (Playback.advance_rename r e.playback c)
  | advanceMain => exact broadcast_rename r e (Playback.advanceMain_rename r e.playback)
  | choose k => exact broadcast_rename r e (Playback.choose_rename r e.playback k)
  | select x => exact broadcast_rename r e (Playback.select_rename r e.playback x)
  | subscribe channel handler => rfl
  | unsubscribe id => rfl

end Engine

end Dialogue
