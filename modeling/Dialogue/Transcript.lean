import Dialogue.Playback

/-!
# Transcripts

An entry describes an event by the state in which it was announced.
-/
namespace Dialogue

namespace Playback

def entry (p : Playback) : Event → Entry
  | .lineUpdate =>
    match p.current with
    | some l => .line (p.speaker?.getD "") l.main.text l.texts
    | none => .cleared
  | .finished => .finished
  | .message text => .message text

end Playback

def Moment.entry (m : Moment) : Entry := m.seen.entry m.event

def Turn.entries (t : Turn) : List Entry := t.moments.map Moment.entry

end Dialogue
