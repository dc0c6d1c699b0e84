import Dialogue.Transcript

/-!
# Playthroughs

A script played by a list of selections, with the transcript of everything announced since it was
loaded.
-/
namespace Dialogue

structure Playthrough where
  playback : Playback
  transcript : List Entry

namespace Playthrough

/-- Carries on with the state a turn leaves behind, if it went through. -/
def extend (transcript : List Entry) (t : Turn) : Except EngineError Playthrough :=
  t.result.map fun _ => ⟨t.playback, transcript ++ t.entries⟩

def start (s : Script) : Except EngineError Playthrough := extend [] ((Playback.new 0).load s)

def startText (source : String) : Except EngineError Playthrough :=
  extend [] ((Playback.new 0).loadText source)

def select (p : Playthrough) (s : Selection) : Except EngineError Playthrough :=
  extend p.transcript (p.playback.select s)

def ended (p : Playthrough) : Bool := !p.playback.active

theorem extend_eq_ok {transcript : List Entry} {t : Turn} {p : Playthrough}
    (h : extend transcript t = .ok p) :
    t.result = .ok () ∧ p = ⟨t.playback, transcript ++ t.entries⟩ := by
  unfold extend at h
  cases hr : t.result with
  | error e => simp [hr, Except.map] at h
  | ok u => simp only [hr, Except.map, Except.ok.injEq] at h; exact ⟨rfl, h.symm⟩

/-- What has been recorded stays recorded. -/
theorem prefix_of_select {p q : Playthrough} {s : Selection} (h : p.select s = .ok q) :
    p.transcript <+: q.transcript := by
  rw [(extend_eq_ok h).2]
  exact List.prefix_append _ _

end Playthrough

end Dialogue
